import Mathlib.Data.List.Pairwise
import PlaneReport.Environment.Layer
import PlaneReport.Proofs.Layer.Look

/-!
# The order of variables

Variables are laid over one another in the order in which they are listed.  If no two of them lead
to one path, nor one of them to a path inside that of another, every order gives layers that look
the same.  Main statement: `look_layer_perm`.
-/

namespace PlaneReport
namespace Environment

open Layer (Value)

/-! ## The values of variables -/

variable {text : List Char} {value : Value} {members : List (String × Value)}

theorem word_not_isTable (text : List Char) : ¬ (word text).IsTable := by
  unfold word
  dsimp only
  split
  · exact id
  · split
    · exact id
    · split <;> exact id

theorem distinct_assign {source : Layer.Source} (key : String)
    (hmembers : (Value.table source members).Distinct) (hvalue : value.Distinct) :
    (Value.table source (Entries.assign key value members)).Distinct := by
  refine .table (Entries.nodup_assign key value hmembers.keys) ?_
  intro name inner hinner
  rw [Entries.lookup_assign] at hinner
  by_cases hname : name = key
  · rw [if_pos hname] at hinner
    cases hinner
    exact hvalue
  · rw [if_neg hname] at hinner
    exact hmembers.of_lookup hinner

/-- With some fuel, tables are read without double keys. -/
structure ReadsDistinct (fuel : Nat) : Prop where
  value : ∀ {text : List Char} {value : Value} {rest : List Char},
    readValue fuel text = some (value, rest) → value.Distinct
  core : ∀ {text : List Char} {value : Value} {rest : List Char},
    readCore fuel text = some (value, rest) → value.Distinct
  pairs : ∀ {members result : List (String × Value)} {text rest : List Char},
    (Value.table .environment members).Distinct →
      readPairs fuel members text = some (result, rest) →
        (Value.table .environment result).Distinct

theorem ReadsDistinct.core_succ {fuel : Nat} {rest : List Char} (ih : ReadsDistinct fuel)
    (h : readCore (fuel + 1) text = some (value, rest)) : value.Distinct := by
  unfold readCore at h
  split at h
  · cases h
    exact .plain id
  · cases h
    exact .plain id
  · obtain ⟨⟨read, after⟩, hread, heq⟩ := Option.map_eq_some_iff.mp h
    cases heq
    exact ih.pairs (Value.distinct_empty _) hread
  · obtain ⟨⟨read, after⟩, -, heq⟩ := Option.map_eq_some_iff.mp h
    cases heq
    exact .plain id
  · obtain ⟨⟨read, after⟩, -, heq⟩ := Option.map_eq_some_iff.mp h
    cases heq
    exact .plain id
  · cases h
    exact .plain id
  · cases h
  · cases h
    exact .plain (word_not_isTable _)

theorem ReadsDistinct.pairs_succ {fuel : Nat} {result : List (String × Value)} {rest : List Char}
    (ih : ReadsDistinct fuel) (hmembers : (Value.table .environment members).Distinct)
    (h : readPairs (fuel + 1) members text = some (result, rest)) :
    (Value.table .environment result).Distinct := by
  unfold readPairs at h
  split at h
  · cases h
    exact hmembers
  · obtain ⟨⟨key, afterKey⟩, -, h⟩ := Option.bind_eq_some_iff.mp h
    dsimp only at h
    split at h
    · obtain ⟨⟨read, afterValue⟩, hread, h⟩ := Option.bind_eq_some_iff.mp h
      have hassigned := distinct_assign key hmembers (ih.value hread)
      dsimp only at h
      split at h
      · exact ih.pairs hassigned h
      · cases h
        exact hassigned
      · cases h
    · cases h

theorem readsDistinct (fuel : Nat) : ReadsDistinct fuel := by
  induction fuel with
  | zero =>
    constructor
    · intro text value rest h
      rw [readValue] at h
      cases h
    · intro text value rest h
      rw [readCore] at h
      cases h
    · intro members result text rest _ h
      rw [readPairs] at h
      cases h
  | succ fuel ih =>
    refine ⟨?_, ih.core_succ, ih.pairs_succ⟩
    intro text value rest h
    rw [readValue] at h
    obtain ⟨⟨read, after⟩, hread, heq⟩ := Option.map_eq_some_iff.mp h
    cases heq
    exact ih.core hread

theorem distinct_valueOfText (text : String) : (valueOfText text).Distinct := by
  unfold valueOfText
  split
  · next value hvalue => exact (readsDistinct _).value hvalue
  · exact .plain id

/-! ## Apart -/

/-- Two variables do not meet: neither leads to the path of the other, or to one inside it. -/
def Apart (a b : String × String) : Prop :=
  ∀ keys ∈ path? a.1, ∀ keys' ∈ path? b.1, ¬ keys <+: keys' ∧ ¬ keys' <+: keys

instance (a b : String × String) : Decidable (Apart a b) :=
  inferInstanceAs (Decidable (∀ keys ∈ path? a.1, ∀ keys' ∈ path? b.1, _ ∧ _))

instance : Std.Symm Apart where
  symm _ _ h := fun keys hkeys keys' hkeys' => (h keys' hkeys' keys hkeys).symm

variable {keys keys' path : List String} {value' : Value}

/-- The value of a variable decides around its own path only. -/
theorem prefix_of_decides (h : Value.decides path (.nest .environment value keys) = true) :
    path <+: keys ∨ keys <+: path := by
  induction keys generalizing path with
  | nil => exact Or.inr List.nil_prefix
  | cons key keys ih =>
    cases path with
    | nil => exact Or.inl List.nil_prefix
    | cons first path =>
      rw [Value.nest, Value.decides_cons, List.lookup_cons] at h
      by_cases hkey : first = key
      · rw [hkey, beq_self_eq_true] at h
        rw [hkey, List.prefix_cons_inj, List.prefix_cons_inj]
        exact ih h
      · rw [beq_false_of_ne hkey] at h
        cases h

/-- In front of its path there are tables of the environment. -/
theorem look_nest_front (h : path <+: keys) (hne : path ≠ keys) :
    (Value.nest .environment value keys).look path = some (.table .environment []) := by
  obtain ⟨rest, rfl⟩ := h
  induction path with
  | nil =>
    cases rest with
    | nil => exact absurd rfl hne
    | cons key rest => rfl
  | cons key path ih =>
    rw [List.cons_append, Value.nest, Value.look_cons, List.lookup_cons, beq_self_eq_true]
    apply ih
    intro heq
    apply hne
    rw [List.cons_append, ← heq]

/-- Where two variables apart both decide, they show the same. -/
theorem look_eq_of_apart (h : ¬ keys <+: keys') (h' : ¬ keys' <+: keys)
    (hdecides : Value.decides path (.nest .environment value keys) = true)
    (hdecides' : Value.decides path (.nest .environment value' keys') = true) :
    (Value.nest .environment value keys).look path =
      (Value.nest .environment value' keys').look path := by
  have hfront : path <+: keys ∧ path <+: keys' := by
    rcases prefix_of_decides hdecides with hpath | hpath
    · rcases prefix_of_decides hdecides' with hpath' | hpath'
      · exact ⟨hpath, hpath'⟩
      · exact absurd (hpath'.trans hpath) h'
    · rcases prefix_of_decides hdecides' with hpath' | hpath'
      · exact absurd (hpath.trans hpath') h
      · rcases List.prefix_or_prefix_of_prefix hpath hpath' with hkeys | hkeys
        · exact absurd hkeys h
        · exact absurd hkeys h'
  obtain ⟨hpath, hpath'⟩ := hfront
  have hne : path ≠ keys := by
    rintro rfl
    exact h hpath'
  have hne' : path ≠ keys' := by
    rintro rfl
    exact h' hpath
  rw [look_nest_front hpath hne, look_nest_front hpath' hne']

/-! ## What is seen of many variables -/

/-- A value laid over what is seen. -/
def shownOver (shown : List String → Option Value) (later : Value) : List String → Option Value :=
  fun path => if Value.decides path later = true then later.look path else shown path

theorem look_foldl_merge {values : List Value} (h : ∀ value ∈ values, value.Distinct)
    (base : Value) : (values.foldl Value.merge base).look = values.foldl shownOver base.look := by
  induction values generalizing base with
  | nil => rfl
  | cons value values ih =>
    rw [List.foldl_cons, List.foldl_cons,
      ih (fun other hother => h other (List.mem_cons_of_mem _ hother))]
    congr 1
    funext path
    exact Value.look_merge (h value List.mem_cons_self) base path

theorem distinct_foldl_merge {values : List Value} (h : ∀ value ∈ values, value.Distinct)
    {base : Value} (hbase : base.Distinct) : (values.foldl Value.merge base).Distinct := by
  induction values generalizing base with
  | nil => exact hbase
  | cons value values ih =>
    rw [List.foldl_cons]
    apply ih
    · intro other hother
      exact h other (List.mem_cons_of_mem _ hother)
    · exact hbase.merge (h value List.mem_cons_self)

theorem shownOver_comm (h : ¬ keys <+: keys') (h' : ¬ keys' <+: keys)
    (shown : List String → Option Value) :
    shownOver (shownOver shown (.nest .environment value keys)) (.nest .environment value' keys') =
      shownOver (shownOver shown (.nest .environment value' keys'))
        (.nest .environment value keys) := by
  funext path
  unfold shownOver
  by_cases hfirst : Value.decides path (.nest .environment value keys) = true
  · by_cases hsecond : Value.decides path (.nest .environment value' keys') = true
    · rw [if_pos hsecond, if_pos hfirst, look_eq_of_apart h h' hfirst hsecond]
    · rw [if_neg hsecond, if_pos hfirst, if_pos hfirst]
  · rw [if_neg hfirst, if_neg hfirst]

variable {environment environment' : Environment}

theorem exists_of_mem_settings (h : value ∈ environment.filterMap setting?) :
    ∃ entry ∈ environment, ∃ keys, path? entry.1 = some keys ∧
      value = .nest .environment (valueOfText entry.2) keys := by
  obtain ⟨entry, hentry, hsetting⟩ := List.mem_filterMap.mp h
  obtain ⟨keys, hkeys, hvalue⟩ := Option.map_eq_some_iff.mp hsetting
  exact ⟨entry, hentry, keys, hkeys, hvalue.symm⟩

theorem distinct_of_mem_settings (h : value ∈ environment.filterMap setting?) :
    value.Distinct := by
  obtain ⟨entry, -, keys, -, rfl⟩ := exists_of_mem_settings h
  exact (distinct_valueOfText entry.2).nest

theorem distinct_layer (environment : Environment) : environment.layer.Distinct :=
  distinct_foldl_merge (fun _ => distinct_of_mem_settings) (Value.distinct_empty _)

/-- The layers of variables apart look the same in every order. -/
theorem look_layer_perm (hperm : environment.Perm environment')
    (hapart : environment.Pairwise Apart) : environment.layer.look = environment'.layer.look := by
  unfold layer
  rw [look_foldl_merge fun _ => distinct_of_mem_settings,
    look_foldl_merge fun _ => distinct_of_mem_settings]
  apply (hperm.filterMap setting?).foldl_eq'
  intro first hfirst second hsecond shown
  obtain ⟨entry, hentry, keys, hkeys, rfl⟩ := exists_of_mem_settings hfirst
  obtain ⟨entry', hentry', keys', hkeys', rfl⟩ := exists_of_mem_settings hsecond
  by_cases hsame : entry = entry'
  · subst hsame
    rw [hkeys] at hkeys'
    cases hkeys'
    rfl
  · obtain ⟨h, h'⟩ := hapart.forall hentry hentry' hsame keys hkeys keys' hkeys'
    exact shownOver_comm h h' shown

end Environment
end PlaneReport
