import Mathlib.Data.List.TakeWhile
import PlaneReport.Proofs.Text.Span
import PlaneReport.Text.Blank

/-!
# What trimming leaves

Trimming cuts the white space off both ends of a text and nothing else.  `isTrimmed_iff` says that
there is one word only that can be left.
-/

namespace PlaneReport
namespace Text

variable {text word : List Char}

/-- A text is a word between white space, and the word neither starts nor ends with any. -/
def IsTrimmed (text word : List Char) : Prop :=
  ∃ before after, text = before ++ (word ++ after) ∧ before.all isBlank = true ∧
    after.all isBlank = true ∧ StopsAt isBlank word ∧ StopsAt isBlank word.reverse

theorem all_takeWhile_isBlank (text : List Char) :
    (text.takeWhile isBlank).all isBlank = true := by
  rw [List.all_eq_true]
  intro c hc
  exact List.mem_takeWhile_imp hc

theorem trimRight_append (text : List Char) :
    ∃ blanks, text = trimRight text ++ blanks ∧ blanks.all isBlank = true := by
  refine ⟨(text.reverse.takeWhile isBlank).reverse, ?_, ?_⟩
  · rw [trimRight, ← List.reverse_append, List.takeWhile_append_dropWhile, List.reverse_reverse]
  · rw [List.all_reverse]
    exact all_takeWhile_isBlank _

theorem stopsAt_reverse_trimRight (text : List Char) :
    StopsAt isBlank (trimRight text).reverse := by
  unfold trimRight
  rw [List.reverse_reverse]
  exact stopsAt_dropWhile isBlank text.reverse

/-- The start of a text stays when its end is cut. -/
theorem stopsAt_trimRight (h : StopsAt isBlank text) : StopsAt isBlank (trimRight text) := by
  intro c hc
  obtain ⟨blanks, htext, -⟩ := trimRight_append text
  apply h c
  rw [htext, List.head?_append, hc]
  rfl

theorem isTrimmed_trim (text : List Char) : IsTrimmed text (trim text) := by
  obtain ⟨blanks, hright, hblanks⟩ := trimRight_append (trimLeft text)
  refine ⟨text.takeWhile isBlank, blanks, ?_, all_takeWhile_isBlank text, hblanks,
    stopsAt_trimRight (stopsAt_dropWhile isBlank text), stopsAt_reverse_trimRight _⟩
  unfold trim
  rw [← hright]
  exact List.takeWhile_append_dropWhile.symm

theorem dropWhile_append_of_all {p : Char → Bool} {run rest : List Char} (h : run.all p = true) :
    (run ++ rest).dropWhile p = rest.dropWhile p :=
  List.dropWhile_append_of_pos (List.all_eq_true.mp h)

/-- Of a word and blanks behind it the word is left. -/
theorem trimRight_append_of_stopsAt {after : List Char} (hafter : after.all isBlank = true)
    (h : StopsAt isBlank word.reverse) : trimRight (word ++ after) = word := by
  unfold trimRight
  rw [List.reverse_append, dropWhile_append_of_all (by rw [List.all_reverse]; exact hafter),
    dropWhile_of_stopsAt h, List.reverse_reverse]

theorem isTrimmed_iff : IsTrimmed text word ↔ word = trim text := by
  constructor
  · rintro ⟨before, after, rfl, hbefore, hafter, hstart, hstop⟩
    unfold trim trimLeft
    rw [dropWhile_append_of_all hbefore]
    cases word with
    | nil =>
      have hnone : after.dropWhile isBlank = [] :=
        List.dropWhile_eq_nil_iff.mpr (List.all_eq_true.mp hafter)
      rw [List.nil_append, hnone]
      rfl
    | cons c word =>
      rw [List.cons_append, dropWhile_of_stopsAt (stopsAt_cons (hstart c rfl) _),
        ← List.cons_append, trimRight_append_of_stopsAt hafter hstop]
  · rintro rfl
    exact isTrimmed_trim text

/-- A trimmed text has nothing left to trim. -/
theorem trim_trim (text : List Char) : trim (trim text) = trim text := by
  obtain ⟨before, after, -, -, -, hstart, hstop⟩ := isTrimmed_trim text
  symm
  apply isTrimmed_iff.mp
  exact ⟨[], [], by simp, rfl, rfl, hstart, hstop⟩

/-- What is in a text is white space or in the word of it. -/
theorem isBlank_of_not_mem_trim {c : Char} (hc : c ∈ text) (hword : c ∉ trim text) :
    isBlank c = true := by
  obtain ⟨before, after, htext, hbefore, hafter, -⟩ := isTrimmed_trim text
  rw [htext, List.mem_append, List.mem_append] at hc
  rcases hc with hc | hc | hc
  · exact List.all_eq_true.mp hbefore c hc
  · exact absurd hc hword
  · exact List.all_eq_true.mp hafter c hc

/-- What a text starts with, its word starts with, if no white space is in it. -/
theorem prefix_trim (h : word <+: text) (hword : word.any isBlank = false) :
    word <+: trim text := by
  have hsolid : ∀ c ∈ word, isBlank c = false := fun c hc =>
    Bool.eq_false_iff.mpr (List.any_eq_false.mp hword c hc)
  cases word with
  | nil => exact List.nil_prefix
  | cons c rest =>
    have hleft : trimLeft text = text := by
      obtain ⟨more, rfl⟩ := h
      exact dropWhile_of_stopsAt (stopsAt_cons (hsolid c List.mem_cons_self) _)
    obtain ⟨blanks, htext, hblanks⟩ := trimRight_append text
    unfold trim
    rw [hleft]
    obtain hword' | ⟨more, hmore⟩ := List.prefix_or_prefix_of_prefix h ⟨blanks, htext.symm⟩
    · exact hword'
    · -- What the start has beyond the trimmed text would be white space.
      have hblank : more = [] := by
        rw [List.eq_nil_iff_forall_not_mem]
        intro d hd
        obtain ⟨rest', hrest⟩ := h
        have hsame : trimRight text ++ (more ++ rest') = trimRight text ++ blanks := by
          rw [← List.append_assoc, hmore, hrest]
          exact htext
        have hblanks' := List.all_eq_true.mp hblanks d
          (List.append_cancel_left hsame ▸ List.mem_append_left _ hd)
        rw [hsolid d (hmore ▸ List.mem_append_right _ hd)] at hblanks'
        cases hblanks'
      exact ⟨[], by rw [List.append_nil, ← hmore, hblank, List.append_nil]⟩

end Text
end PlaneReport
