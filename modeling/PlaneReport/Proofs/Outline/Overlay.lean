import PlaneReport.Proofs.Outline.Shape

/-!
# Decoding in the order of the fields

Decoding takes the members of a table in the order of the text.  If its fields change different
parts of the record, that order is of no concern: a table whose keys differ, and whose other members
can be passed over, is decoded as if each field were looked up in it, one after the other, in the
order of the shape.  Main statement: `decode_eq_overlay`.
-/

namespace PlaneReport
namespace Shape

variable {σ α β : Type} {dialect : Dialect} {fields : List (Field σ)}

/-- Decodes a field into the record. -/
def taken (field : Field σ) (value : Outline) (record : σ) : Option σ :=
  (field.decode value record).toOption

/-- Lays what is given for the fields, field by field, over a record. -/
def overlay : List (Field σ) → (String → Option Outline) → σ → Option σ
  | [], _, record => some record
  | field :: fields, given, record =>
    match given field.name with
    | none => overlay fields given record
    | some value => (taken field value record).bind (overlay fields given)

/-- Fields of different names, any two of which can be decoded in either order. -/
structure Independent (fields : List (Field σ)) : Prop where
  names : (fields.map Field.name).Nodup
  commute : ∀ first ∈ fields, ∀ second ∈ fields, first.name ≠ second.name →
    ∀ value value' record, (taken first value record).bind (taken second value') =
      (taken second value' record).bind (taken first value)

theorem Independent.tail {field : Field σ} (h : Independent (field :: fields)) :
    Independent fields := by
  refine ⟨(List.nodup_cons.mp h.names).2, ?_⟩
  intro first hfirst second hsecond
  exact h.commute first (List.mem_cons_of_mem _ hfirst) second (List.mem_cons_of_mem _ hsecond)

/-- Fields that set different parts of a record can be decoded in either order. -/
theorem taken_commute {first second : Field σ} {value value' : Outline}
    {x : Except DecodeError α} {y : Except DecodeError β} {f : α → σ → σ} {g : β → σ → σ}
    (hfirst : first.decode value = fun record => x.map fun a => f a record)
    (hsecond : second.decode value' = fun record => y.map fun b => g b record)
    (h : ∀ a b record, g b (f a record) = f a (g b record)) (record : σ) :
    (taken first value record).bind (taken second value') =
      (taken second value' record).bind (taken first value) := by
  unfold taken
  rw [hfirst, hsecond]
  cases x with
  | error e => cases y <;> rfl
  | ok a =>
    cases y with
    | error e => rfl
    | ok b => exact congrArg some (h a b record)

theorem overlay_congr {given given' : String → Option Outline}
    (h : ∀ field ∈ fields, given field.name = given' field.name) (record : σ) :
    overlay fields given record = overlay fields given' record := by
  induction fields generalizing record with
  | nil => rfl
  | cons field fields ih =>
    have hrest : ∀ record, overlay fields given record = overlay fields given' record :=
      ih fun other hother => h other (List.mem_cons_of_mem _ hother)
    rw [overlay, overlay, h field List.mem_cons_self]
    cases given' field.name with
    | none => exact hrest record
    | some value => exact congrArg (Option.bind _) (funext hrest)

theorem overlay_nothing {given : String → Option Outline}
    (h : ∀ field ∈ fields, given field.name = none) (record : σ) :
    overlay fields given record = some record := by
  induction fields with
  | nil => rfl
  | cons field fields ih =>
    rw [overlay, h field List.mem_cons_self]
    exact ih fun other hother => h other (List.mem_cons_of_mem _ hother)

/-- One of the fields that are given may be taken before all others. -/
theorem overlay_first {given given' : String → Option Outline} {field : Field σ} {value : Outline}
    (hfields : Independent fields) (hfield : field ∈ fields)
    (hsame : given field.name = some value) (hnone : given' field.name = none)
    (hother : ∀ name, name ≠ field.name → given name = given' name) (record : σ) :
    overlay fields given record = (taken field value record).bind (overlay fields given') := by
  induction fields generalizing record with
  | nil => cases hfield
  | cons first fields ih =>
    have hfirst := (List.nodup_cons.mp hfields.names).1
    rcases List.mem_cons.mp hfield with rfl | hmem
    · have hrest : ∀ record,
          overlay fields given record = overlay (field :: fields) given' record := by
        intro record
        rw [overlay, hnone]
        apply overlay_congr
        intro other hmem
        apply hother
        intro hname
        exact hfirst (hname ▸ List.mem_map_of_mem hmem)
      rw [overlay, hsame]
      exact congrArg (Option.bind _) (funext hrest)
    · have hne : first.name ≠ field.name := by
        intro hname
        exact hfirst (hname ▸ List.mem_map_of_mem hmem)
      have hrest := fun record => ih hfields.tail hmem record
      rw [overlay, hother first.name hne]
      cases hgiven : given' first.name with
      | none =>
        dsimp only
        rw [hrest record]
        congr 1
        funext record
        rw [overlay, hgiven]
      | some other =>
        have hcommute :=
          hfields.commute first List.mem_cons_self field hfield hne other value record
        dsimp only
        calc (taken first other record).bind (overlay fields given)
            = ((taken first other record).bind (taken field value)).bind
                (overlay fields given') := by
              rw [funext hrest, Option.bind_assoc]
          _ = ((taken field value record).bind (taken first other)).bind
                (overlay fields given') := by
              rw [hcommute]
          _ = (taken field value record).bind (overlay (first :: fields) given') := by
              rw [Option.bind_assoc]
              congr 1
              funext record
              rw [overlay, hgiven]

/-! ## Fields that are set -/

/-- What is decoded of a value, if there is one. -/
def read (decode : Outline → Except DecodeError α) : Option Outline → Option (Option α)
  | none => some none
  | some value => (decode value).toOption.map some

/-- A field that sets a part of the record is decoded apart from it. -/
theorem overlay_set {field : Field σ} {given : String → Option Outline} {record : σ}
    (decode : Outline → Except DecodeError α) (set : α → σ → σ)
    (hfield : ∀ value record,
      field.decode value record = (decode value).map fun a => set a record) :
    overlay (field :: fields) given record =
      (read decode (given field.name)).bind fun found =>
        overlay fields given (found.elim record fun a => set a record) := by
  rw [overlay]
  cases given field.name with
  | none => rfl
  | some value =>
    dsimp only [read, taken]
    rw [hfield]
    cases decode value <;> rfl

/-! ## Tables -/

/-- The value of a member. -/
def given (members : List (Option String × Outline)) (name : String) : Option Outline :=
  members.lookup (some name)

/-- A table in which every member has a key of its own, and can be passed over. -/
structure IsRead (dialect : Dialect) (members : List (Option String × Outline)) : Prop where
  keys : (members.map Prod.fst).Nodup
  names : ∀ member ∈ members, member.1.isSome = true
  canSkip : ∀ member ∈ members, member.2.canSkip dialect = true

theorem IsRead.tail {member : Option String × Outline} {rest : List (Option String × Outline)}
    (h : IsRead dialect (member :: rest)) : IsRead dialect rest := by
  refine ⟨(List.nodup_cons.mp h.keys).2, ?_, ?_⟩
  · intro other hother
    exact h.names other (List.mem_cons_of_mem _ hother)
  · intro other hother
    exact h.canSkip other (List.mem_cons_of_mem _ hother)

@[simp]
theorem given_cons_self (key : String) (value : Outline) (rest : List (Option String × Outline)) :
    given ((some key, value) :: rest) key = some value := by
  rw [given, List.lookup_cons, beq_self_eq_true]

theorem given_cons_of_ne {name key : String} (h : name ≠ key) (value : Outline)
    (rest : List (Option String × Outline)) :
    given ((some key, value) :: rest) name = given rest name := by
  have hkey : ¬ some name = some key := fun heq => h (Option.some.inj heq)
  rw [given, List.lookup_cons, beq_false_of_ne hkey]
  rfl

theorem given_eq_none {members : List (Option String × Outline)} {name : String}
    (h : some name ∉ members.map Prod.fst) : given members name = none := by
  rw [given, List.lookup_eq_none_iff]
  intro member hmember
  rw [bne_iff_ne]
  intro heq
  exact h (heq ▸ List.mem_map_of_mem hmember)

theorem takeMembers_eq_overlay (hfields : Independent fields)
    {members : List (Option String × Outline)} (hmembers : IsRead dialect members)
    {seen : List String} (hseen : ∀ name ∈ seen, some name ∉ members.map Prod.fst) (record : σ) :
    (takeMembers dialect fields seen record members).toOption =
      overlay fields (given members) record := by
  induction members generalizing seen record with
  | nil =>
    rw [overlay_nothing fun _ _ => rfl]
    rfl
  | cons member rest ih =>
    obtain ⟨name, value⟩ := member
    obtain ⟨key, rfl⟩ := Option.isSome_iff_exists.mp (hmembers.names _ List.mem_cons_self)
    have hkey : some key ∉ rest.map Prod.fst := (List.nodup_cons.mp hmembers.keys).1
    have hrest : ∀ name ∈ seen, some name ∉ rest.map Prod.fst := by
      intro name hname hmem
      exact hseen name hname (List.mem_cons_of_mem _ hmem)
    cases hfind : fields.find? fun field => field.name == key with
    | none =>
      rw [takeMembers_skip hfind (hmembers.canSkip _ List.mem_cons_self),
        ih hmembers.tail hrest]
      apply overlay_congr
      intro field hfield
      have hne := List.find?_eq_none.mp hfind field hfield
      rw [beq_iff_eq] at hne
      exact (given_cons_of_ne hne value rest).symm
    | some field =>
      have hfield := List.mem_of_find?_eq_some hfind
      have hname : field.name = key := by
        have hfound := List.find?_some hfind
        rwa [beq_iff_eq] at hfound
      have hunseen : seen.contains key = false := by
        rw [List.contains_eq_mem, decide_eq_false_iff_not]
        intro hmem
        exact hseen key hmem List.mem_cons_self
      have hmore : ∀ name ∈ key :: seen, some name ∉ rest.map Prod.fst := by
        intro name hmem
        rcases List.mem_cons.mp hmem with heq | hmem
        · rw [heq]
          exact hkey
        · exact hrest name hmem
      have htaken := fun record => ih hmembers.tail hmore record
      subst hname
      rw [takeMembers_field hfind hunseen, overlay_first hfields hfield
        (given_cons_self field.name value rest) (given_eq_none hkey)
        fun name hne => given_cons_of_ne hne value rest]
      unfold taken
      cases field.decode value record with
      | error e => rfl
      | ok record => exact htaken record

/-- A table is decoded as its fields are, looked up in their own order. -/
theorem decode_eq_overlay (shape : Shape σ α) (hfields : Independent shape.fields)
    {members : List (Option String × Outline)} (hmembers : IsRead dialect members) :
    (shape.decode dialect (.table members true)).toOption =
      (overlay shape.fields (given members) shape.start).bind fun record =>
        (shape.finish record).toOption := by
  have hseen : ∀ name ∈ ([] : List String), some name ∉ members.map Prod.fst := by
    intro name hname
    cases hname
  have htaken := takeMembers_eq_overlay hfields hmembers hseen shape.start
  rw [decode_table, ← htaken]
  cases takeMembers dialect shape.fields [] shape.start members <;> rfl

end Shape
end PlaneReport
