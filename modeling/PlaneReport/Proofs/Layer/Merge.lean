import Mathlib.Data.List.Nodup
import PlaneReport.Layer.Value

/-!
# What merging leaves at a path

A value is reached through tables, key by key.  Laying one value over another changes what is at a
path only if the later one has something there or has something else than a table on the way.
`IsOpen` says that it has not; the main statements are `at?_merge_of_none`, `at?_merge_of_some` and
`isOpen_merge`.
-/

namespace PlaneReport

namespace Entries

variable {α : Type} {name : String} {value : α} {entries : List (String × α)}

theorem lookup_eq_none_iff : entries.lookup name = none ↔ name ∉ entries.map Prod.fst := by
  induction entries with
  | nil => exact ⟨fun _ => List.not_mem_nil, fun _ => rfl⟩
  | cons entry rest ih =>
    obtain ⟨n, v⟩ := entry
    rw [List.map_cons, List.mem_cons, not_or, List.lookup_cons]
    by_cases h : name = n
    · rw [h, beq_self_eq_true]
      exact ⟨fun hsome => (nomatch hsome), fun hne => absurd rfl hne.1⟩
    · rw [beq_false_of_ne h]
      exact ⟨fun hrest => ⟨h, ih.mp hrest⟩, fun hboth => ih.mpr hboth.2⟩

theorem mem_of_lookup (h : entries.lookup name = some value) : (name, value) ∈ entries := by
  induction entries with
  | nil => cases h
  | cons entry rest ih =>
    obtain ⟨n, v⟩ := entry
    rw [List.lookup_cons] at h
    by_cases hn : name = n
    · rw [hn, beq_self_eq_true] at h
      cases h
      rw [hn]
      exact List.mem_cons_self
    · rw [beq_false_of_ne hn] at h
      exact List.mem_cons_of_mem _ (ih h)

@[simp]
theorem map_fst_assign (name : String) (value : α) (entries : List (String × α)) :
    (assign name value entries).map Prod.fst =
      if name ∈ entries.map Prod.fst then entries.map Prod.fst
      else entries.map Prod.fst ++ [name] := by
  induction entries with
  | nil => rfl
  | cons entry rest ih =>
    obtain ⟨n, old⟩ := entry
    unfold assign
    by_cases hn : n = name
    · rw [if_pos hn, List.map_cons, if_pos (by rw [hn]; exact List.mem_cons_self)]
      rfl
    · rw [if_neg hn, List.map_cons, ih, List.map_cons]
      by_cases hmem : name ∈ rest.map Prod.fst
      · rw [if_pos hmem, if_pos (List.mem_cons_of_mem n hmem)]
      · rw [if_neg hmem, if_neg]
        · rfl
        · rw [List.mem_cons, not_or]
          exact ⟨fun h => hn h.symm, hmem⟩

theorem nodup_assign (name : String) (value : α) (h : (entries.map Prod.fst).Nodup) :
    ((assign name value entries).map Prod.fst).Nodup := by
  rw [map_fst_assign]
  split
  · exact h
  · next hmem =>
    rw [List.nodup_append]
    refine ⟨h, List.nodup_singleton name, ?_⟩
    intro n hn m hm heq
    rw [List.mem_singleton] at hm
    rw [heq, hm] at hn
    exact hmem hn

end Entries

namespace Layer
namespace Value

/-- The value that a path of keys leads to through tables. -/
def at? : List String → Value → Option Value
  | [], value => some value
  | key :: path, .table _ members => (members.lookup key).bind (at? path)
  | _ :: _, _ => none

def IsTable : Value → Prop
  | .table _ _ => True
  | _ => False

instance : DecidablePred IsTable
  | .table _ _ => isTrue trivial
  | .bool _ _ | .integer _ _ _ | .number _ _ | .string _ _ | .list _ _ => isFalse id

/-- Whether whatever stands on the way along a path is a table without double keys. -/
def IsOpen : List String → Value → Prop
  | [], _ => True
  | key :: path, .table _ members =>
    (members.map Prod.fst).Nodup ∧ ∀ inner, members.lookup key = some inner → IsOpen path inner
  | _ :: _, _ => False

/-- A value laid over what was there before, if there was anything. -/
def laid : Option Value → Value → Value
  | some earlier, value => merge earlier value
  | none, value => value

/-- One value is the other, unless both are tables. -/
def Settles (value result : Value) : Prop :=
  result = value ∨ (value.IsTable ∧ result.IsTable)

variable {earlier later value : Value} {old new : List (String × Value)} {key : String}
  {path : List String}

theorem isOpen_cons (h : IsOpen (key :: path) value) :
    ∃ source members, value = .table source members ∧ (members.map Prod.fst).Nodup ∧
      ∀ inner, members.lookup key = some inner → IsOpen path inner := by
  cases value with
  | table source members => exact ⟨source, members, rfl, h⟩
  | bool | integer | number | string | list => exact absurd h id

@[simp]
theorem merge_table (earlier : Value) (source : Source) (members : List (String × Value)) :
    merge earlier (.table source members) = match earlier with
      | .table _ old => .table source (mergeMembers old members)
      | _ => .table source members := by
  cases earlier with
  | table from' old => rw [merge]
  | bool | integer | number | string | list =>
    rw [merge]
    exact fun _ _ heq => nomatch heq

theorem merge_of_not_isTable (h : ¬ later.IsTable) : merge earlier later = later := by
  cases later with
  | table source members => exact absurd trivial h
  | bool | integer | number | string | list =>
    rw [merge]
    exact fun _ _ heq => nomatch heq

theorem merge_isTable (h : later.IsTable) : (merge earlier later).IsTable := by
  cases later with
  | table source members =>
    rw [merge_table]
    cases earlier <;> trivial
  | bool | integer | number | string | list => exact absurd h id

theorem laid_settles (before : Option Value) (value : Value) :
    Settles value (laid before value) := by
  cases before with
  | none => exact Or.inl rfl
  | some earlier =>
    by_cases h : value.IsTable
    · exact Or.inr ⟨h, merge_isTable h⟩
    · exact Or.inl (merge_of_not_isTable h)

theorem Settles.trans {first second third : Value} (h : Settles first second)
    (h' : Settles second third) : Settles first third := by
  rcases h' with rfl | ⟨hsecond, hthird⟩
  · exact h
  · rcases h with rfl | ⟨hfirst, -⟩
    · exact Or.inr ⟨hsecond, hthird⟩
    · exact Or.inr ⟨hfirst, hthird⟩

/-! ## Members -/

@[simp]
theorem mergeMembers_nil (old : List (String × Value)) : mergeMembers old [] = old := by
  rw [mergeMembers]

@[simp]
theorem mergeMembers_cons (old : List (String × Value)) (key : String) (value : Value)
    (rest : List (String × Value)) :
    mergeMembers old ((key, value) :: rest) =
      mergeMembers (Entries.assign key (laid (old.lookup key) value) old) rest := by
  rw [mergeMembers]
  cases old.lookup key <;> rfl

theorem nodup_mergeMembers (h : (old.map Prod.fst).Nodup) (new : List (String × Value)) :
    ((mergeMembers old new).map Prod.fst).Nodup := by
  induction new generalizing old with
  | nil => rwa [mergeMembers_nil]
  | cons entry rest ih =>
    obtain ⟨key, value⟩ := entry
    rw [mergeMembers_cons]
    exact ih (Entries.nodup_assign key _ h)

theorem lookup_mergeMembers_of_none (h : new.lookup key = none) :
    (mergeMembers old new).lookup key = old.lookup key := by
  induction new generalizing old with
  | nil => rw [mergeMembers_nil]
  | cons entry rest ih =>
    obtain ⟨k, value⟩ := entry
    rw [List.lookup_cons] at h
    by_cases hk : key = k
    · rw [hk, beq_self_eq_true] at h
      cases h
    · rw [beq_false_of_ne hk] at h
      simp [ih h, hk]

theorem lookup_mergeMembers_of_some (hnew : (new.map Prod.fst).Nodup)
    (h : new.lookup key = some value) :
    (mergeMembers old new).lookup key = some (laid (old.lookup key) value) := by
  induction new generalizing old with
  | nil => cases h
  | cons entry rest ih =>
    obtain ⟨k, first⟩ := entry
    rw [List.map_cons, List.nodup_cons] at hnew
    rw [List.lookup_cons] at h
    by_cases hk : key = k
    · rw [hk, beq_self_eq_true] at h
      cases h
      have hrest : rest.lookup k = none := Entries.lookup_eq_none_iff.mpr hnew.1
      simp [hk, lookup_mergeMembers_of_none hrest]
    · rw [beq_false_of_ne hk] at h
      simp [ih hnew.2 h, hk]

/-! ## Paths -/

/-- Where the later value has nothing, the earlier one shows. -/
theorem at?_merge_of_none (hopen : IsOpen path later) (h : at? path later = none) :
    at? path (merge earlier later) = at? path earlier := by
  induction path generalizing earlier later with
  | nil => cases h
  | cons key path ih =>
    obtain ⟨source, members, rfl, hkeys, hinner⟩ := isOpen_cons hopen
    rw [merge_table]
    cases earlier with
    | table from' old =>
      show ((mergeMembers old members).lookup key).bind (at? path) =
        (old.lookup key).bind (at? path)
      replace h : (members.lookup key).bind (at? path) = none := h
      cases hlookup : members.lookup key with
      | none => rw [lookup_mergeMembers_of_none hlookup]
      | some inner =>
        rw [hlookup] at h
        replace h : at? path inner = none := h
        rw [lookup_mergeMembers_of_some hkeys hlookup]
        cases hold : old.lookup key with
        | none => exact h
        | some before => exact ih (hinner inner hlookup) h
    | bool | integer | number | string | list => exact h

/-- Where the later value has something, that counts. -/
theorem at?_merge_of_some (hopen : IsOpen path later) (h : at? path later = some value) :
    ∃ result, at? path (merge earlier later) = some result ∧ Settles value result := by
  induction path generalizing earlier later with
  | nil =>
    cases h
    exact ⟨_, rfl, laid_settles (some earlier) _⟩
  | cons key path ih =>
    obtain ⟨source, members, rfl, hkeys, hinner⟩ := isOpen_cons hopen
    rw [merge_table]
    cases earlier with
    | table from' old =>
      replace h : (members.lookup key).bind (at? path) = some value := h
      obtain ⟨inner, hlookup, hat⟩ := Option.bind_eq_some_iff.mp h
      show ∃ result, ((mergeMembers old members).lookup key).bind (at? path) = some result ∧ _
      rw [lookup_mergeMembers_of_some hkeys hlookup]
      cases hold : old.lookup key with
      | none => exact ⟨value, hat, Or.inl rfl⟩
      | some before => exact ih (hinner inner hlookup) hat
    | bool | integer | number | string | list => exact ⟨value, h, Or.inl rfl⟩

theorem isOpen_merge (hearlier : IsOpen path earlier) (hlater : IsOpen path later) :
    IsOpen path (merge earlier later) := by
  induction path generalizing earlier later with
  | nil => trivial
  | cons key path ih =>
    obtain ⟨source, members, rfl, hkeys, hinner⟩ := isOpen_cons hlater
    obtain ⟨from', old, rfl, hold, hbefore⟩ := isOpen_cons hearlier
    rw [merge_table]
    refine ⟨nodup_mergeMembers hold members, fun inner hlookup => ?_⟩
    cases hmember : members.lookup key with
    | none =>
      rw [lookup_mergeMembers_of_none hmember] at hlookup
      exact hbefore inner hlookup
    | some new =>
      rw [lookup_mergeMembers_of_some hkeys hmember] at hlookup
      cases hprior : old.lookup key with
      | none =>
        rw [hprior] at hlookup
        cases hlookup
        exact hinner new hmember
      | some before =>
        rw [hprior] at hlookup
        cases hlookup
        exact ih (hbefore before hprior) (hinner new hmember)

end Value
end Layer
end PlaneReport
