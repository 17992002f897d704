import PlaneReport.Proofs.Outline.Overlay

/-!
# Paths in outlines

An outline is looked into along paths of keys.  What matters of a value to a decoder of plain values
is its face: it refuses lists and tables whatever is in them.
-/

namespace PlaneReport
namespace Outline

open Binary

/-- The value that a path of keys leads to through tables. -/
def at? : List String → Outline → Option Outline
  | [], outline => some outline
  | key :: path, .table members _ => (Shape.given members key).bind (at? path)
  | _ :: _, _ => none

/-- A value without what is in it. -/
def face : Outline → Outline
  | .list _ _ => .list [] true
  | .table _ _ => .table [] true
  | outline => outline

def IsTable : Outline → Prop
  | .table _ _ => True
  | _ => False

instance : DecidablePred IsTable
  | .table _ _ => isTrue trivial
  | .null | .bool _ | .integer _ | .number _ | .string _ | .unreadable | .overflow _ | .broken
  | .list _ _ => isFalse id

def IsList : Outline → Prop
  | .list _ _ => True
  | _ => False

instance : DecidablePred IsList
  | .list _ _ => isTrue trivial
  | .null | .bool _ | .integer _ | .number _ | .string _ | .unreadable | .overflow _ | .broken
  | .table _ _ => isFalse id

/-- No key of a table stands there twice, and all of them are texts. -/
def HasOwnKeys : Outline → Prop
  | .table members _ =>
    (members.map Prod.fst).Nodup ∧ ∀ member ∈ members, member.1.isSome = true
  | _ => True

instance : DecidablePred HasOwnKeys
  | .table members _ => inferInstanceAs
      (Decidable ((members.map Prod.fst).Nodup ∧ ∀ member ∈ members, member.1.isSome = true))
  | .null | .bool _ | .integer _ | .number _ | .string _ | .unreadable | .overflow _ | .broken
  | .list _ _ => isTrue trivial

variable {dialect : Dialect} {outline outline' inner : Outline} {key : String}
  {path rest : List String} {members : List (Option String × Outline)} {closed : Bool}

theorem exists_table (h : outline.IsTable) :
    ∃ members closed, outline = .table members closed := by
  cases outline with
  | table members closed => exact ⟨members, closed, rfl⟩
  | null | bool | integer | number | string | unreadable | overflow | broken | list =>
    exact absurd h id

@[simp]
theorem at?_cons (members : List (Option String × Outline)) (closed : Bool) (key : String)
    (path : List String) :
    at? (key :: path) (.table members closed) = (Shape.given members key).bind (at? path) :=
  rfl

theorem at?_single (members : List (Option String × Outline)) (closed : Bool) (key : String) :
    at? [key] (.table members closed) = Shape.given members key := by
  rw [at?_cons]
  cases Shape.given members key <;> rfl

@[simp]
theorem at?_append (path rest : List String) (outline : Outline) :
    at? (path ++ rest) outline = (at? path outline).bind (at? rest) := by
  induction path generalizing outline with
  | nil => rfl
  | cons key path ih =>
    cases outline with
    | table members closed =>
      rw [List.cons_append, at?_cons, at?_cons]
      cases Shape.given members key with
      | none => rfl
      | some inner => exact ih inner
    | null | bool | integer | number | string | unreadable | overflow | broken | list => rfl

theorem mem_of_given {name : String} {value : Outline} (h : Shape.given members name = some value) :
    (some name, value) ∈ members := by
  induction members with
  | nil => cases h
  | cons member rest ih =>
    obtain ⟨key, first⟩ := member
    rw [Shape.given, List.lookup_cons] at h
    by_cases hkey : some name = key
    · rw [hkey, beq_self_eq_true] at h
      cases h
      rw [hkey]
      exact List.mem_cons_self
    · rw [beq_false_of_ne hkey] at h
      exact List.mem_cons_of_mem _ (ih h)

/-- Whatever is in a value that can be passed over can be passed over. -/
theorem canSkip_at? (h : outline.canSkip dialect = true) (hat : at? path outline = some inner) :
    inner.canSkip dialect = true := by
  induction path generalizing outline with
  | nil =>
    cases hat
    exact h
  | cons key path ih =>
    cases outline with
    | table members closed =>
      rw [at?_cons] at hat
      obtain ⟨value, hvalue, hat⟩ := Option.bind_eq_some_iff.mp hat
      rw [canSkip, Bool.and_eq_true] at h
      exact ih (canSkip_of_mem h.2 _ (mem_of_given hvalue)) hat
    | null | bool | integer | number | string | unreadable | overflow | broken | list => cases hat

/-- A table that can be passed over, with keys of its own, is closed and read member by member. -/
theorem isRead_of_hasOwnKeys (hkeys : (table members closed).HasOwnKeys)
    (hskip : (table members closed).canSkip dialect = true) :
    closed = true ∧ Shape.IsRead dialect members := by
  rw [canSkip, Bool.and_eq_true] at hskip
  exact ⟨hskip.1, hkeys.1, hkeys.2, canSkip_of_mem hskip.2⟩

/-! ## Faces -/

theorem face_of_not_isTable (htable : ¬ outline.IsTable) (hlist : ¬ outline.IsList) :
    outline.face = outline := by
  cases outline with
  | table members closed => exact absurd trivial htable
  | list items closed => exact absurd trivial hlist
  | null | bool | integer | number | string | unreadable | overflow | broken => rfl

theorem isTable_of_face_eq (h : outline.face = outline'.face) (htable : outline.IsTable) :
    outline'.IsTable := by
  obtain ⟨members, closed, rfl⟩ := exists_table htable
  cases outline' with
  | table members' closed' => trivial
  | null | bool | integer | number | string | unreadable | overflow | broken | list => cases h

/-- A value as a number: an integer of 64 bits is the same as the number that it is rounded to. -/
def numberFace : Outline → Outline
  | .integer n =>
    if (wideIntegerText n).isSome = true then .integer n else .number (Number.ofInt n)
  | outline => outline.face

/-- Whether decoding succeeds, and with what, is decided by some view of a value. -/
def ReadsThrough {α : Type} (view : Outline → Outline) (decode : Outline → Except DecodeError α) :
    Prop :=
  ∀ outline, (decode outline).toOption = (decode (view outline)).toOption

theorem toInteger_readsThrough (dialect : Dialect) (kind : IntegerKind) (expected : String) :
    ReadsThrough face (toInteger dialect kind expected) := by
  intro outline
  cases outline <;> rfl

theorem toNumber_readsThrough (dialect : Dialect) :
    ReadsThrough numberFace (toNumber dialect) := by
  intro outline
  cases outline with
  | integer n =>
    rw [numberFace]
    by_cases hwide : (wideIntegerText n).isSome = true
    · rw [if_pos hwide]
    · rw [if_neg hwide, toNumber.eq_def, toNumber.eq_def]
      dsimp only
      rw [if_neg hwide]
  | null | bool | number | string | unreadable | overflow | broken | list | table => rfl

theorem toText_readsThrough (dialect : Dialect) : ReadsThrough face (toText dialect) := by
  intro outline
  cases outline <;> rfl

theorem toOptional_readsThrough {α : Type} {decode : Outline → Except DecodeError α}
    (h : ReadsThrough face decode) : ReadsThrough face (toOptional decode) := by
  have hmap : ∀ x : Except DecodeError α, (x.map some).toOption = x.toOption.map some := by
    intro x
    cases x <;> rfl
  intro outline
  cases outline with
  | list items closed =>
    show ((decode _).map some).toOption = ((decode _).map some).toOption
    rw [hmap, hmap, h, face]
  | table members closed =>
    show ((decode _).map some).toOption = ((decode _).map some).toOption
    rw [hmap, hmap, h, face]
  | null | bool | integer | number | string | unreadable | overflow | broken => rfl

theorem read_congr {α : Type} {view : Outline → Outline}
    {decode : Outline → Except DecodeError α} (h : ReadsThrough view decode)
    {found found' : Option Outline} (hview : found.map view = found'.map view) :
    Shape.read decode found = Shape.read decode found' := by
  cases found with
  | none =>
    cases found' with
    | none => rfl
    | some value' => cases hview
  | some value =>
    cases found' with
    | none => cases hview
    | some value' =>
      rw [Shape.read, Shape.read, h value, h value', Option.some.inj hview]

end Outline
end PlaneReport
