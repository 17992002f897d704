/-!
# Cutting texts by bytes

Places in a text counted in the bytes of its encoding.  Not every place lies between two characters:
`slice` says which character it would have to split.
-/

namespace PlaneReport
namespace Text

/-- A place that lies inside a character. -/
structure Inside where
  place : Nat
  character : Char
  /-- The place where the character starts. -/
  start : Nat
deriving DecidableEq, Repr

/-- The number of bytes of a text. -/
def byteCount : List Char → Nat
  | [] => 0
  | c :: rest => c.utf8Size + byteCount rest

/-- Splits a text that starts at byte `start` of a longer one at a place in that one. -/
def splitAtByte (place start : Nat) : List Char → Except Inside (List Char × List Char)
  | [] => .ok ([], [])
  | c :: rest =>
    if place ≤ start then .ok ([], c :: rest)
    else if place < start + c.utf8Size then .error ⟨place, c, start⟩
    else
      (splitAtByte place (start + c.utf8Size) rest).map fun (before, after) => (c :: before, after)

/-- Splitting loses nothing. -/
theorem append_of_splitAtByte {place start : Nat} {text before after : List Char}
    (h : splitAtByte place start text = .ok (before, after)) : before ++ after = text := by
  induction text generalizing start before after with
  | nil => cases h; rfl
  | cons c rest ih =>
    unfold splitAtByte at h
    split at h
    · cases h; rfl
    · split at h
      · cases h
      · cases hr : splitAtByte place (start + c.utf8Size) rest with
        | error e => rw [hr] at h; cases h
        | ok parts =>
          rw [hr] at h
          cases h
          exact congrArg (c :: ·) (ih hr)

end Text
end PlaneReport
