import PlaneReport.Proofs.Result
import PlaneReport.Settings.Decode

/-!
# Decoding member by member

What one member of a table does to the record under construction, and which values plain decoders
accept.
-/

namespace PlaneReport
namespace Shape

variable {σ α : Type} {dialect : Dialect} {shape : Shape σ α} {fields : List (Field σ)}
  {seen : List String} {record : σ} {key : String} {value : Outline}
  {rest : List (Option String × Outline)}

@[simp]
theorem decode_table (members : List (Option String × Outline)) :
    shape.decode dialect (.table members true) =
      (takeMembers dialect shape.fields [] shape.start members).bind shape.finish :=
  rfl

theorem takeMembers_field {field : Field σ}
    (hfind : (fields.find? fun field => field.name == key) = some field)
    (hseen : seen.contains key = false) :
    takeMembers dialect fields seen record ((some key, value) :: rest) =
      (field.decode value record).bind fun record =>
        takeMembers dialect fields (key :: seen) record rest := by
  rw [takeMembers, hfind]
  dsimp only
  rw [if_neg (by rw [hseen]; exact Bool.false_ne_true)]
  rfl

theorem takeMembers_taken {field : Field σ} {next : σ}
    (hfind : (fields.find? fun field => field.name == key) = some field)
    (hseen : seen.contains key = false) (hdecode : field.decode value record = .ok next) :
    takeMembers dialect fields seen record ((some key, value) :: rest) =
      takeMembers dialect fields (key :: seen) next rest := by
  rw [takeMembers_field hfind hseen, hdecode]
  rfl

theorem takeMembers_failed {field : Field σ} {e : DecodeError}
    (hfind : (fields.find? fun field => field.name == key) = some field)
    (hseen : seen.contains key = false) (hdecode : field.decode value record = .error e) :
    takeMembers dialect fields seen record ((some key, value) :: rest) = .error e := by
  rw [takeMembers_field hfind hseen, hdecode]
  rfl

theorem takeMembers_duplicate {field : Field σ}
    (hfind : (fields.find? fun field => field.name == key) = some field)
    (hseen : seen.contains key = true) :
    takeMembers dialect fields seen record ((some key, value) :: rest) =
      .error (.unsuitable (.duplicateField key)) := by
  rw [takeMembers, hfind]
  dsimp only
  rw [if_pos hseen]

theorem takeMembers_skip (hfind : (fields.find? fun field => field.name == key) = none)
    (hskip : value.canSkip dialect = true) :
    takeMembers dialect fields seen record ((some key, value) :: rest) =
      takeMembers dialect fields seen record rest := by
  rw [takeMembers, hfind]
  dsimp only
  rw [if_pos hskip]

/-! ## Members that may be absent -/

/-- A member that is left out when it has no value. -/
def optionalMember (key : String) (value? : Option Outline) : List (Option String × Outline) :=
  value?.toList.map fun value => (some key, value)

/-- A field that sets a part of the record, for which `null` may stand too, sets it to what the
member is read as.  Without the member the part stays unset. -/
theorem takeMembers_optional {α β : Type} {field : Field σ} {part? : Option α}
    {outline : α → Outline} {decode : Outline → Except DecodeError β} {read : α → Option β}
    (set : Option β → σ)
    (hfind : (fields.find? fun field => field.name == key) = some field)
    (hseen : seen.contains key = false)
    (hfield : ∀ value, field.decode value record = (value.toOptional decode).map set)
    (hunset : set none = record)
    (hread : ∀ part ∈ part?, (outline part).toOptional decode = .ok (read part)) :
    takeMembers dialect fields seen record (optionalMember key (part?.map outline) ++ rest) =
      takeMembers dialect fields (part?.toList.map (fun _ => key) ++ seen) (set (part?.bind read))
        rest := by
  cases part? with
  | none =>
    rw [← hunset]
    rfl
  | some part =>
    have hdecode : field.decode (outline part) record = .ok (set (read part)) := by
      rw [hfield, hread part rfl]
      rfl
    exact takeMembers_taken hfind hseen hdecode

/-! ## Members of no interest -/

/-- Whether a member is one of some fields. -/
def isKnown (fields : List (Field σ)) (member : Option String × Outline) : Bool :=
  fields.any fun field => member.1 == some field.name

theorem find?_eq_none_of_not_isKnown (h : isKnown fields (some key, value) = false) :
    (fields.find? fun field => field.name == key) = none := by
  rw [List.find?_eq_none]
  intro field hfield hname
  have hunknown := List.any_eq_false.mp h field hfield
  rw [beq_iff_eq] at hname
  rw [hname] at hunknown
  exact hunknown (beq_self_eq_true _)

theorem exists_find?_of_isKnown (h : isKnown fields (some key, value) = true) :
    ∃ field, (fields.find? fun field => field.name == key) = some field := by
  obtain ⟨field, hfield, hname⟩ := List.any_eq_true.mp h
  rw [← Option.isSome_iff_exists, List.find?_isSome]
  refine ⟨field, hfield, ?_⟩
  rw [beq_iff_eq] at hname ⊢
  exact (Option.some.inj hname).symm

/-- What can be passed over does not count. -/
theorem takeMembers_filter {members : List (Option String × Outline)}
    (hnames : ∀ member ∈ members, member.1.isSome = true)
    (hskip : ∀ member ∈ members, member.2.canSkip dialect = true) :
    takeMembers dialect fields seen record members =
      takeMembers dialect fields seen record (members.filter (isKnown fields)) := by
  induction members generalizing seen record with
  | nil => rfl
  | cons member rest ih =>
    obtain ⟨name, value⟩ := member
    have hrest := fun seen record => @ih seen record
      (fun member hmember => hnames member (List.mem_cons_of_mem _ hmember))
      fun member hmember => hskip member (List.mem_cons_of_mem _ hmember)
    obtain ⟨key, rfl⟩ := Option.isSome_iff_exists.mp (hnames _ List.mem_cons_self)
    cases hknown : isKnown fields (some key, value) with
    | false =>
      rw [List.filter_cons_of_neg (by rw [hknown]; exact Bool.false_ne_true),
        takeMembers_skip (find?_eq_none_of_not_isKnown hknown) (hskip _ List.mem_cons_self)]
      exact hrest seen record
    | true =>
      obtain ⟨field, hfind⟩ := exists_find?_of_isKnown hknown
      rw [List.filter_cons_of_pos hknown]
      cases hseen : seen.contains key with
      | true => rw [takeMembers_duplicate hfind hseen, takeMembers_duplicate hfind hseen]
      | false =>
        rw [takeMembers_field hfind hseen, takeMembers_field hfind hseen]
        exact congrArg _ (funext fun record => hrest (key :: seen) record)

/-! ## What decoding keeps -/

section Keeps

variable {P : σ → Prop} {Q : α → Prop} {result : σ}

theorem takeMembers_keeps {members : List (Option String × Outline)}
    (hfields : ∀ field ∈ fields, ∀ value record next, P record →
      field.decode value record = .ok next → P next)
    (hrecord : P record) (h : takeMembers dialect fields seen record members = .ok result) :
    P result := by
  induction members generalizing seen record with
  | nil =>
    cases h
    exact hrecord
  | cons member rest ih =>
    obtain ⟨name, value⟩ := member
    cases name with
    | none => cases h
    | some key =>
      rw [takeMembers] at h
      split at h
      · split at h
        · exact ih hrecord h
        · cases h
      · next field hfind =>
        split at h
        · cases h
        · obtain ⟨next, hnext, h⟩ := bind_eq_ok.mp h
          have hmem := List.mem_of_find?_eq_some hfind
          exact ih (hfields field hmem value record next hrecord hnext) h

theorem takeItems_keeps {expected : String} {closed : Bool} {count : Nat} {items : List Outline}
    {surplus : List Outline}
    (hfields : ∀ field ∈ fields, ∀ value record next, P record →
      field.decode value record = .ok next → P next)
    (hrecord : P record)
    (h : takeItems expected closed count record fields items = .ok (result, surplus)) :
    P result := by
  induction fields generalizing count record items with
  | nil =>
    rw [takeItems] at h
    cases h
    exact hrecord
  | cons field fields ih =>
    have hrest : ∀ field ∈ fields, ∀ value record next, P record →
        field.decode value record = .ok next → P next :=
      fun field hfield => hfields field (List.mem_cons_of_mem _ hfield)
    cases items with
    | nil =>
      rw [takeItems] at h
      split at h
      · cases h
      · split at h
        · cases h
        · exact ih hrest hrecord h
    | cons item items =>
      rw [takeItems] at h
      obtain ⟨next, hnext, h⟩ := bind_eq_ok.mp h
      exact ih hrest (hfields field List.mem_cons_self item record next hrecord hnext) h

/-- A property of the record that every field keeps, and that completing turns into one of the
result, holds of whatever is decoded. -/
theorem decode_keeps {outline : Outline} {value : α} (hstart : P shape.start)
    (hfields : ∀ field ∈ shape.fields, ∀ value record next, P record →
      field.decode value record = .ok next → P next)
    (hfinish : ∀ record value, P record → shape.finish record = .ok value → Q value)
    (h : shape.decode dialect outline = .ok value) : Q value := by
  unfold decode at h
  split at h
  · obtain ⟨record, hrecord, h⟩ := bind_eq_ok.mp h
    split at h
    · exact hfinish record value (takeMembers_keeps hfields hstart hrecord) h
    · cases h
  · obtain ⟨⟨record, surplus⟩, hrecord, h⟩ := bind_eq_ok.mp h
    obtain ⟨made, hmade, h⟩ := bind_eq_ok.mp h
    split at h
    · cases h
      exact hfinish record _ (takeItems_keeps hfields hstart hrecord) hmade
    · cases h
  · cases h

end Keeps

end Shape

namespace Outline

variable {dialect : Dialect} {kind : IntegerKind} {n : Int}

theorem toInteger_of_holds (h : kind.holds n = true) (expected : String) :
    (Outline.integer n).toInteger dialect kind expected = .ok n := by
  rw [toInteger, if_pos h]

theorem toOptional_of_ne_null {α : Type} {outline : Outline} (h : outline ≠ .null)
    (decode : Outline → Except DecodeError α) :
    outline.toOptional decode = (decode outline).map some := by
  cases outline with
  | null => exact absurd rfl h
  | _ => rfl

theorem canSkip_of_mem {members : List (Option String × Outline)}
    (h : canSkipMembers dialect members = true) :
    ∀ member ∈ members, member.2.canSkip dialect = true := by
  induction members with
  | nil => exact fun _ hmember => nomatch hmember
  | cons member rest ih =>
    obtain ⟨name, value⟩ := member
    rw [canSkipMembers, Bool.and_eq_true] at h
    intro other hother
    rcases List.mem_cons.mp hother with hother | hother
    · rw [hother]
      exact h.1
    · exact ih h.2 other hother

end Outline

end PlaneReport
