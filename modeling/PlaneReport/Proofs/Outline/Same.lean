import PlaneReport.Outline

/-!
# Outlines that are the same

Outlines nest through lists and tables, so equality of two of them is not derived but tested by
`same`.  What a reader makes of a text that is written out is then decided by running it:
`eq_some_of_same` is what that test is for.
-/

namespace PlaneReport

namespace Outline

mutual

/-- Whether two outlines are the same. -/
def same : Outline → Outline → Bool
  | .null, .null => true
  | .bool a, .bool b => a == b
  | .integer m, .integer n => m == n
  | .number x, .number y => x == y
  | .string s, .string t => s == t
  | .unreadable, .unreadable => true
  | .overflow a, .overflow b => a == b
  | .broken, .broken => true
  | .list items closed, .list items' closed' => sameItems items items' && closed == closed'
  | .table members closed, .table members' closed' =>
    sameMembers members members' && closed == closed'
  | _, _ => false

def sameItems : List Outline → List Outline → Bool
  | [], [] => true
  | item :: rest, item' :: rest' => item.same item' && sameItems rest rest'
  | _, _ => false

def sameMembers : List (Option String × Outline) → List (Option String × Outline) → Bool
  | [], [] => true
  | (key, item) :: rest, (key', item') :: rest' =>
    key == key' && item.same item' && sameMembers rest rest'
  | _, _ => false

end

mutual

theorem eq_of_same (a b : Outline) (h : a.same b = true) : a = b := by
  cases a with
  | list items closed =>
    cases b with
    | list items' closed' =>
      have hitems := eq_of_sameItems items items'
      simp_all [same]
    | _ => cases h
  | table members closed =>
    cases b with
    | table members' closed' =>
      have hmembers := eq_of_sameMembers members members'
      simp_all [same]
    | _ => cases h
  | _ => cases b <;> simp_all [same]

theorem eq_of_sameItems (a b : List Outline) (h : sameItems a b = true) : a = b := by
  cases a with
  | nil => cases b <;> simp_all [sameItems]
  | cons item rest =>
    cases b with
    | nil => cases h
    | cons item' rest' =>
      have hitem := eq_of_same item item'
      have hrest := eq_of_sameItems rest rest'
      simp_all [sameItems]

theorem eq_of_sameMembers (a b : List (Option String × Outline)) (h : sameMembers a b = true) :
    a = b := by
  cases a with
  | nil => cases b <;> simp_all [sameMembers]
  | cons member rest =>
    cases b with
    | nil => cases h
    | cons member' rest' =>
      obtain ⟨key, item⟩ := member
      obtain ⟨key', item'⟩ := member'
      have hitem := eq_of_same item item'
      have hrest := eq_of_sameMembers rest rest'
      simp_all [sameMembers]

end

/-- What is read is decided by running the reader. -/
theorem eq_some_of_same {read? : Option Outline} {outline : Outline}
    (h : read?.any (same outline) = true) : read? = some outline := by
  cases read? with
  | none => cases h
  | some read => rw [eq_of_same outline read h]

end Outline

end PlaneReport
