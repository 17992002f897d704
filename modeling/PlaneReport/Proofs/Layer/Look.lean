import PlaneReport.Proofs.Layer.Leaf

/-!
# What values look like

Two layers can differ in the order of their members and still look the same: along every path there
is the same value, up to the members of a table.  Seen so, a merge is a choice: where the later
value decides, it is seen, and elsewhere the earlier one (`look_merge`).  Decoding sees no more than
that, and settings and errors are the same for values that look the same (`toSettings_congr`).
-/

namespace PlaneReport
namespace Layer
namespace Value

/-- A value without the members of a table. -/
def face : Value → Value
  | .table source _ => .table source []
  | value => value

/-- What is seen along a path. -/
def look (value : Value) (path : List String) : Option Value :=
  (at? path value).map face

/-- Whether a value settles what is at a path: it leads there, or to something else than a table on
the way. -/
def decides : List String → Value → Bool
  | [], _ => true
  | key :: path, .table _ members =>
    match members.lookup key with
    | some inner => decides path inner
    | none => false
  | _ :: _, _ => true

/-- No table has a key twice. -/
inductive Distinct : Value → Prop
  | plain {value : Value} (h : ¬ value.IsTable) : Distinct value
  | table {source : Source} {members : List (String × Value)} (hkeys : (members.map Prod.fst).Nodup)
    (h : ∀ key value, members.lookup key = some value → Distinct value) :
    Distinct (.table source members)

variable {source : Source} {members members' old : List (String × Value)} {key : String}
  {path : List String} {value value' earlier later inner : Value}

theorem face_of_not_isTable (h : ¬ value.IsTable) : value.face = value := by
  cases value with
  | table source members => exact absurd trivial h
  | bool | integer | number | string | list => rfl

@[simp]
theorem look_nil (value : Value) : value.look [] = some value.face := rfl

@[simp]
theorem look_cons (source : Source) (members : List (String × Value)) (key : String)
    (path : List String) :
    (table source members).look (key :: path) = (members.lookup key).bind fun inner =>
      inner.look path := by
  show ((members.lookup key).bind (at? path)).map face = _
  cases members.lookup key <;> rfl

@[simp]
theorem decides_cons (source : Source) (members : List (String × Value)) (key : String)
    (path : List String) :
    decides (key :: path) (table source members) =
      ((members.lookup key).map (decides path)).getD false := by
  rw [decides]
  cases members.lookup key <;> rfl

theorem decides_of_not_isTable (h : ¬ value.IsTable) (path : List String) :
    decides path value = true := by
  cases path with
  | nil => rfl
  | cons key path =>
    cases value with
    | table source members => exact absurd trivial h
    | bool | integer | number | string | list => rfl

/-- Where a value decides nothing, nothing of it is seen. -/
theorem look_of_not_decides (h : decides path value = false) : value.look path = none := by
  induction path generalizing value with
  | nil => cases h
  | cons key path ih =>
    by_cases htable : value.IsTable
    · obtain ⟨source, members, rfl⟩ := exists_table htable
      rw [decides_cons] at h
      rw [look_cons]
      cases hlookup : members.lookup key with
      | none => rfl
      | some inner =>
        rw [hlookup] at h
        exact ih h
    · rw [decides_of_not_isTable htable] at h
      cases h

/-! ## Merging -/

theorem Distinct.of_lookup (h : (Value.table source members).Distinct)
    (hlookup : members.lookup key = some value) : value.Distinct := by
  cases h with
  | plain h => exact absurd trivial h
  | table _ h => exact h key value hlookup

theorem Distinct.keys (h : (Value.table source members).Distinct) :
    (members.map Prod.fst).Nodup := by
  cases h with
  | plain h => exact absurd trivial h
  | table hkeys _ => exact hkeys

theorem face_merge (earlier later : Value) : (merge earlier later).face = later.face := by
  by_cases h : later.IsTable
  · obtain ⟨source, members, rfl⟩ := exists_table h
    rw [merge_table]
    cases earlier <;> rfl
  · rw [merge_of_not_isTable h]

/-- Along every path a merge shows the later value, if that decides, and else the earlier one. -/
theorem look_merge (h : later.Distinct) (earlier : Value) (path : List String) :
    (merge earlier later).look path =
      if decides path later = true then later.look path else earlier.look path := by
  induction path generalizing earlier later with
  | nil =>
    rw [decides, if_pos rfl, look_nil, look_nil, face_merge]
  | cons key path ih =>
    by_cases htable : later.IsTable
    · obtain ⟨source, members, rfl⟩ := exists_table htable
      have hwithout : (table source members).look (key :: path) =
          if decides (key :: path) (table source members) = true then
            (table source members).look (key :: path) else none := by
        cases hdecides : decides (key :: path) (table source members) with
        | true => rfl
        | false => exact look_of_not_decides hdecides
      rw [merge_table]
      cases earlier with
      | table from' old =>
        dsimp only
        rw [look_cons, look_cons, look_cons, decides_cons]
        cases hlookup : members.lookup key with
        | none =>
          rw [lookup_mergeMembers_of_none hlookup]
          rfl
        | some inner =>
          rw [lookup_mergeMembers_of_some h.keys hlookup]
          cases hold : old.lookup key with
          | none =>
            rw [look_cons, decides_cons, hlookup] at hwithout
            exact hwithout
          | some before => exact ih (h.of_lookup hlookup) before
      | bool | integer | number | string | list => exact hwithout
    · rw [merge_of_not_isTable htable, decides_of_not_isTable htable, if_pos rfl]

theorem Distinct.merge (hearlier : earlier.Distinct) (hlater : later.Distinct) :
    (Value.merge earlier later).Distinct := by
  induction hlater generalizing earlier with
  | plain h =>
    rw [merge_of_not_isTable h]
    exact .plain h
  | @table source members hkeys hmembers ih =>
    rw [merge_table]
    cases earlier with
    | table from' old =>
      refine .table (nodup_mergeMembers hearlier.keys members) ?_
      intro key value hvalue
      cases hlookup : members.lookup key with
      | none =>
        rw [lookup_mergeMembers_of_none hlookup] at hvalue
        exact hearlier.of_lookup hvalue
      | some inner =>
        rw [lookup_mergeMembers_of_some hkeys hlookup] at hvalue
        cases hvalue
        cases hold : old.lookup key with
        | none => exact hmembers key inner hlookup
        | some before => exact ih key inner hlookup (hearlier.of_lookup hold)
    | bool | integer | number | string | list => exact .table hkeys hmembers

theorem Distinct.nest {keys : List String} (h : value.Distinct) :
    (Value.nest source value keys).Distinct := by
  induction keys with
  | nil => exact h
  | cons key keys ih =>
    refine .table (List.nodup_singleton key) ?_
    intro name inner hlookup
    have hmem := Entries.mem_of_lookup hlookup
    rw [List.mem_singleton] at hmem
    cases hmem
    exact ih

theorem distinct_empty (source : Source) : (table source []).Distinct := by
  refine .table List.nodup_nil ?_
  intro key value hlookup
  cases hlookup

/-! ## Values that look the same -/

theorem isTable_of_face_eq (h : value.face = value'.face) (htable : value.IsTable) :
    value'.IsTable := by
  by_contra htable'
  obtain ⟨source, members, rfl⟩ := exists_table htable
  rw [face_of_not_isTable htable'] at h
  rw [← h] at htable'
  exact htable' trivial

/-- Tables that look the same have members of the same keys, and these look the same. -/
theorem lookup_cases_of_look_eq
    (h : (table source members).look = (table source members').look) (key : String) :
    (members.lookup key = none ∧ members'.lookup key = none) ∨
      ∃ inner inner', members.lookup key = some inner ∧ members'.lookup key = some inner' ∧
        inner.look = inner'.look := by
  have hkey : ∀ path, (members.lookup key).bind (fun inner => inner.look path) =
      (members'.lookup key).bind fun inner => inner.look path := by
    intro path
    rw [← look_cons source, ← look_cons source, h]
  -- The path that ends at the key shows whether there is a member.
  have hnil := hkey []
  cases hlookup : members.lookup key with
  | none =>
    cases hlookup' : members'.lookup key with
    | none => exact Or.inl ⟨rfl, rfl⟩
    | some inner' =>
      rw [hlookup, hlookup'] at hnil
      cases hnil
  | some inner =>
    cases hlookup' : members'.lookup key with
    | none =>
      rw [hlookup, hlookup'] at hnil
      cases hnil
    | some inner' =>
      refine Or.inr ⟨inner, inner', rfl, rfl, ?_⟩
      funext path
      have hpath := hkey path
      rw [hlookup, hlookup'] at hpath
      exact hpath

/-- Values that look the same are the same, or tables whose members look the same. -/
theorem cases_of_look_eq (h : value.look = value'.look) :
    value = value' ∨ ∃ source members members', value = table source members ∧
      value' = table source members' ∧
      ∀ key, (members.lookup key = none ∧ members'.lookup key = none) ∨
        ∃ inner inner', members.lookup key = some inner ∧ members'.lookup key = some inner' ∧
          inner.look = inner'.look := by
  have hface : value.face = value'.face := Option.some.inj (congrFun h [])
  by_cases htable : value.IsTable
  · obtain ⟨source, members, rfl⟩ := exists_table htable
    obtain ⟨source', members', rfl⟩ := exists_table (isTable_of_face_eq hface htable)
    cases hface
    exact Or.inr ⟨source, members, members', rfl, rfl, lookup_cases_of_look_eq h⟩
  · have htable' : ¬ value'.IsTable := fun h' => htable (isTable_of_face_eq hface.symm h')
    rw [face_of_not_isTable htable, face_of_not_isTable htable'] at hface
    exact Or.inl hface

/-- They decide alike. -/
theorem decides_congr (h : value.look = value'.look) (path : List String) :
    decides path value = decides path value' := by
  induction path generalizing value value' with
  | nil => rfl
  | cons key path ih =>
    rcases cases_of_look_eq h with rfl | ⟨source, members, members', rfl, rfl, hmembers⟩
    · rfl
    · rw [decides_cons, decides_cons]
      rcases hmembers key with ⟨hnone, hnone'⟩ | ⟨inner, inner', hinner, hinner', hsame⟩
      · rw [hnone, hnone']
      · rw [hinner, hinner']
        exact ih hsame

/-- Laying the one or the other over a value looks the same. -/
theorem look_merge_congr (hdistinct : later.Distinct) (hdistinct' : value'.Distinct)
    (h : later.look = value'.look) (earlier : Value) :
    (merge earlier later).look = (merge earlier value').look := by
  funext path
  rw [look_merge hdistinct, look_merge hdistinct', decides_congr h, h]

/-! ## Decoding -/

/-- Decoding has the same outcome for values that look the same. -/
def Respects {α : Type} (decode : List String → Value → Except Defect α) : Prop :=
  ∀ path value value', value.look = value'.look → decode path value = decode path value'

theorem source_congr (h : value.look = value'.look) : value.source = value'.source := by
  rcases cases_of_look_eq h with rfl | ⟨source, members, members', rfl, rfl, -⟩ <;> rfl

theorem toInteger_respects (kind : IntegerKind) (expected : String) :
    Respects (toInteger kind expected) := by
  intro path value value' h
  rcases cases_of_look_eq h with rfl | ⟨source, members, members', rfl, rfl, -⟩ <;> rfl

theorem toNumber_respects : Respects toNumber := by
  intro path value value' h
  rcases cases_of_look_eq h with rfl | ⟨source, members, members', rfl, rfl, -⟩ <;> rfl

theorem toText_respects : Respects toText := by
  intro path value value' h
  rcases cases_of_look_eq h with rfl | ⟨source, members, members', rfl, rfl, -⟩ <;> rfl

theorem checkRecord_congr (h : value.look = value'.look) (expected : String)
    (path : List String) : checkRecord expected path value = checkRecord expected path value' := by
  rcases cases_of_look_eq h with rfl | ⟨source, members, members', rfl, rfl, -⟩ <;> rfl

theorem lacking_congr (h : value.look = value'.look) (fields : List String)
    (expected field : String) (path : List String) :
    value.lacking fields expected field path = value'.lacking fields expected field path := by
  rcases cases_of_look_eq h with rfl | ⟨source, members, members', rfl, rfl, -⟩ <;> rfl

theorem field?_congr {α : Type} {decode : List String → Value → Except Defect α}
    (hdecode : Respects decode) (h : value.look = value'.look) (fields path : List String)
    (field : String) : value.field? fields path field decode =
      value'.field? fields path field decode := by
  rcases cases_of_look_eq h with rfl | ⟨source, members, members', rfl, rfl, hmembers⟩
  · rfl
  · unfold field? part?
    dsimp only
    rcases hmembers field with ⟨hnone, hnone'⟩ | ⟨inner, inner', hinner, hinner', hsame⟩
    · rw [hnone, hnone']
    · rw [hinner, hinner']
      dsimp only [Option.map_some]
      rw [hdecode _ inner inner' hsame]

theorem toPoint_respects : Respects toPoint := by
  intro path value value' h
  unfold toPoint
  rw [checkRecord_congr h, field?_congr toNumber_respects h, field?_congr toNumber_respects h,
    lacking_congr h, lacking_congr h, source_congr h]

theorem toInputs_respects : Respects toInputs := by
  intro path value value' h
  unfold toInputs
  rw [checkRecord_congr h, field?_congr (toInteger_respects _ _) h,
    field?_congr (toInteger_respects _ _) h, field?_congr toPoint_respects h,
    field?_congr toPoint_respects h]

theorem toPrecision_respects : Respects toPrecision := by
  intro path value value' h
  unfold toPrecision
  rw [checkRecord_congr h, field?_congr (toInteger_respects _ _) h]

theorem toLevel_respects : Respects toLevel := by
  intro path value value' h
  unfold toLevel
  rw [checkRecord_congr h, field?_congr toText_respects h]

/-- The same settings, or the same defect in the same place. -/
theorem toSettings_congr (h : value.look = value'.look) : value.toSettings = value'.toSettings := by
  unfold toSettings
  rw [checkRecord_congr h, field?_congr toInputs_respects h, field?_congr toLevel_respects h,
    field?_congr toPrecision_respects h, field?_congr (toInteger_respects _ _) h]

end Value
end Layer
end PlaneReport
