import Mathlib.Data.List.TakeDrop

/-!
# Runs at the start of a text

A scanner takes the longest run of a class of characters.  What a printer wrote is such a run as
long as the text that follows cannot extend it.
-/

namespace PlaneReport
namespace Text

variable {p : Char → Bool} {run rest : List Char}

/-- A text that does not start with a character of a class. -/
def StopsAt (p : Char → Bool) (rest : List Char) : Prop :=
  ∀ c, rest.head? = some c → p c = false

@[simp]
theorem stopsAt_nil (p : Char → Bool) : StopsAt p [] := by
  intro c hc
  cases hc

theorem stopsAt_cons {c : Char} (h : p c = false) (rest : List Char) : StopsAt p (c :: rest) := by
  intro d hd
  cases hd
  exact h

theorem dropWhile_of_stopsAt (h : StopsAt p rest) : rest.dropWhile p = rest := by
  cases rest with
  | nil => rfl
  | cons c rest => rw [List.dropWhile_cons, h c rfl, if_neg Bool.false_ne_true]

theorem takeWhile_of_stopsAt (h : StopsAt p rest) : rest.takeWhile p = [] := by
  cases rest with
  | nil => rfl
  | cons c rest => rw [List.takeWhile_cons, h c rfl, if_neg Bool.false_ne_true]

theorem span_append (hrun : run.all p = true) (hrest : StopsAt p rest) :
    (run ++ rest).span p = (run, rest) := by
  rw [List.all_eq_true] at hrun
  rw [List.span_eq_takeWhile_dropWhile, List.takeWhile_append_of_pos hrun,
    List.dropWhile_append_of_pos hrun, takeWhile_of_stopsAt hrest, dropWhile_of_stopsAt hrest,
    List.append_nil]

theorem span_all (hrun : run.all p = true) : run.span p = (run, []) := by
  have h := span_append hrun (stopsAt_nil p)
  rwa [List.append_nil] at h

theorem stopsAt_dropWhile (p : Char → Bool) (text : List Char) : StopsAt p (text.dropWhile p) := by
  intro c hc
  have h := List.head?_dropWhile_not p text
  rw [hc] at h
  exact Bool.eq_false_iff.mpr (by simpa using h)

/-- A run and what follows it make up the text. -/
theorem of_span {text : List Char} (h : text.span p = (run, rest)) :
    text = run ++ rest ∧ StopsAt p rest := by
  rw [List.span_eq_takeWhile_dropWhile] at h
  cases h
  exact ⟨List.takeWhile_append_dropWhile.symm, stopsAt_dropWhile p text⟩

end Text
end PlaneReport
