import PlaneReport.Environment.Value
import PlaneReport.Proofs.Level

/-!
# Variables that hold a single word

A variable whose text has none of the marks of lists, tables and quoted texts in it, and is no truth
value, holds the word in it: a number if the word is one, and else the word as it stands.
`valueOfText_of_isNamedBy` says so of the texts that name a log level.
-/

namespace PlaneReport
namespace Environment

open Layer (Value)

/-- The characters that make more of a text than a word, or a number of a word. -/
def marks : List Char :=
  [',', '\x7b', '\x7d', '[', ']', '"', '\'', '.', '-']

variable {text : List Char}

theorem isSeparator_eq_false {c : Char} (hc : c ∉ marks) : isSeparator c = false := by
  simp only [marks, List.mem_cons, List.not_mem_nil, or_false, not_or] at hc
  obtain ⟨hcomma, hopen, hclose, hopen', hclose', -⟩ := hc
  simp [isSeparator, hcomma, hopen, hclose, hopen', hclose']

theorem isBlank_of_isAsciiBlank {c : Char} (h : Text.isAsciiBlank c = true) :
    Text.isBlank c = true := by
  simp only [Text.isAsciiBlank, Text.isBlank, Bool.or_eq_true, Bool.and_eq_true, beq_iff_eq,
    decide_eq_true_eq] at h ⊢
  omega

theorem readCore_word {fuel : Nat} (hmarks : ∀ c ∈ text, c ∉ marks)
    (htrue : ¬ "true".toList <+: text) (hfalse : ¬ "false".toList <+: text) :
    readCore (fuel + 1) text = some (word (Text.trim text), []) := by
  unfold readCore
  split
  · next rest => exact absurd ⟨rest, rfl⟩ htrue
  · next rest => exact absurd ⟨rest, rfl⟩ hfalse
  · exact absurd (by decide) (hmarks '\x7b' List.mem_cons_self)
  · exact absurd (by decide) (hmarks '[' List.mem_cons_self)
  · exact absurd (by decide) (hmarks '"' List.mem_cons_self)
  · exact absurd (by decide) (hmarks '\'' List.mem_cons_self)
  · exact absurd (by decide) (hmarks '\'' List.mem_cons_self)
  · have hrun : text.all (fun c => !isSeparator c) = true := by
      rw [List.all_eq_true]
      intro c hc
      rw [isSeparator_eq_false (hmarks c hc)]
      rfl
    dsimp only
    rw [Text.span_all hrun]

/-- Blanks of ASCII in front of a text are cut off with the others. -/
theorem trim_skipBlanks (text : List Char) : Text.trim (skipBlanks text) = Text.trim text := by
  have hblanks : (text.takeWhile Text.isAsciiBlank).all Text.isBlank = true := by
    rw [List.all_eq_true]
    intro c hc
    exact isBlank_of_isAsciiBlank (List.mem_takeWhile_imp hc)
  have hsplit : text.takeWhile Text.isAsciiBlank ++ skipBlanks text = text :=
    List.takeWhile_append_dropWhile
  have hleft : (text.takeWhile Text.isAsciiBlank ++ skipBlanks text).dropWhile Text.isBlank =
      (skipBlanks text).dropWhile Text.isBlank := Text.dropWhile_append_of_all hblanks
  rw [hsplit] at hleft
  unfold Text.trim Text.trimLeft
  rw [hleft]

/-- The whole text is read as one word. -/
theorem valueOfText_word {text : String} (hmarks : ∀ c ∈ text.toList, c ∉ marks)
    (htrue : ¬ "true".toList <+: Text.trim text.toList)
    (hfalse : ¬ "false".toList <+: Text.trim text.toList) :
    valueOfText text = word (Text.trim text.toList) := by
  have hmem : ∀ c ∈ skipBlanks text.toList, c ∈ text.toList := fun c hc =>
    (List.dropWhile_suffix _).subset hc
  have htrim := trim_skipBlanks text.toList
  have hcore : readCore (2 * text.length + 2) (skipBlanks text.toList) =
      some (word (Text.trim text.toList), []) := by
    rw [readCore_word (fun c hc => hmarks c (hmem c hc)), htrim]
    · intro h
      apply htrue
      rw [← htrim]
      exact Text.prefix_trim h (by decide)
    · intro h
      apply hfalse
      rw [← htrim]
      exact Text.prefix_trim h (by decide)
  have hvalue : readValue (2 * text.length + 3) text.toList =
      some (word (Text.trim text.toList), []) := by
    rw [readValue, hcore]
    rfl
  unfold valueOfText
  rw [hvalue]

/-! ## Words for a level -/

variable {level : Level}

theorem not_mem_marks_of_isDigit {c : Char} (hc : Decimal.isDigit c = true) : c ∉ marks := by
  have hnone : marks.any Decimal.isDigit = false := by decide
  exact fun hmem => List.any_eq_false.mp hnone c hmem hc

theorem not_mem_marks_of_isNamedBy (h : level.IsNamedBy text) : ∀ c ∈ text, c ∉ marks := by
  intro c hc
  cases h with
  | nothing => cases hc
  | number _ sign hsign zeros =>
    rw [List.mem_append, List.mem_append] at hc
    rcases hc with hc | hc | hc
    · rcases hsign with rfl | rfl
      · cases hc
      · rw [List.mem_singleton.mp hc]
        decide
    · rw [List.eq_of_mem_replicate hc]
      decide
    · exact not_mem_marks_of_isDigit
        (List.all_eq_true.mp (Decimal.all_isDigit_toDigits level.rank) c hc)
  | name _ _ hname =>
    intro hmem
    have hlower : c.toLower ∈ level.name.toList := hname ▸ List.mem_map_of_mem hc
    have hnone : (marks.any fun d => d.toLower ∈ level.name.toList) = false := by
      cases level <;> decide
    exact List.any_eq_false.mp hnone c hmem (decide_eq_true hlower)

/-- A numeral starts with its sign or with a digit. -/
theorem head_of_isNumeral {c : Char} {rest : List Char} (h : Level.IsNumeral (c :: rest)) :
    c = '+' ∨ Decimal.isDigit c = true := by
  obtain ⟨sign, digits, hword, hsign, -, hall⟩ := h
  rcases hsign with rfl | rfl
  · right
    rw [List.nil_append] at hword
    rw [← hword, List.all_cons, Bool.and_eq_true] at hall
    exact hall.1
  · left
    exact (List.cons.inj hword).1

/-- A text that starts like no name and no number starts no word for a level. -/
theorem not_prefix_of_isNamedBy {c : Char} {start : List Char} (h : level.IsNamedBy text)
    (hlower : (c :: start).map Char.toLower = c :: start) (hplus : c ≠ '+')
    (hdigit : Decimal.isDigit c = false) (hname : ¬ (c :: start) <+: level.name.toList) :
    ¬ (c :: start) <+: text := by
  intro hprefix
  by_cases hnumeral : Level.IsNumeral text
  · obtain ⟨rest, rfl⟩ := hprefix
    rcases head_of_isNumeral hnumeral with heq | hc
    · exact hplus heq
    · rw [hdigit] at hc
      cases hc
  · cases h with
    | nothing => cases hprefix.length_le
    | number _ sign hsign zeros =>
      apply hnumeral
      refine ⟨sign, _, rfl, hsign, ?_, ?_⟩
      · intro hnil
        exact Nat.toDigits_ne_nil (List.append_eq_nil_iff.mp hnil).2
      · rw [List.all_append, Decimal.all_isDigit_zeros, Decimal.all_isDigit_toDigits]
        rfl
    | name _ _ hnamed =>
      apply hname
      rw [← hlower, ← hnamed]
      exact hprefix.map Char.toLower

theorem contains_point_of_isNamedBy (h : level.IsNamedBy text) : text.contains '.' = false := by
  rw [List.contains_eq_mem, decide_eq_false_iff_not]
  intro hpoint
  exact not_mem_marks_of_isNamedBy h '.' hpoint (by decide)

/-- A number that names a level is that number. -/
theorem word_of_isNumeral (h : level.IsNamedBy text) (hnumeral : Level.IsNumeral text) :
    word text = .integer .environment false level.rank := by
  have hrank := level.rank_lt
  have hnumber := h.numberOfText? hnumeral
  have hfits : level.rank < 2 ^ 64 := by omega
  unfold word
  rw [contains_point_of_isNamedBy h, hnumber, Option.filter_some, if_pos (decide_eq_true hfits)]
  rfl

/-- What names a level and is no number stays a text. -/
theorem word_of_not_isNumeral (h : level.IsNamedBy text) (hnumeral : ¬ Level.IsNumeral text) :
    word text = .string .environment (String.ofList text) := by
  have hnumber : Level.numberOfText? text = none := by
    rw [Level.isNumeral_iff, Bool.not_eq_true, Option.isSome_eq_false_iff,
      Option.isNone_iff_eq_none] at hnumeral
    exact hnumeral
  have hinteger : integerOfText? text = none := by
    unfold integerOfText?
    split
    · exact absurd (by decide) (not_mem_marks_of_isNamedBy h '-' List.mem_cons_self)
    · rw [hnumber]
      rfl
  unfold word
  rw [contains_point_of_isNamedBy h, hnumber, hinteger]
  rfl

/-- A variable that names a level holds the word for it. -/
theorem valueOfText_of_isNamedBy {text : String} (h : level.IsNamedBy (Text.trim text.toList)) :
    valueOfText text = word (Text.trim text.toList) := by
  apply valueOfText_word
  · intro c hc
    by_cases hword : c ∈ Text.trim text.toList
    · exact not_mem_marks_of_isNamedBy h c hword
    · intro hmark
      have hblank := Text.isBlank_of_not_mem_trim hc hword
      have hnone : marks.any Text.isBlank = false := by decide
      exact List.any_eq_false.mp hnone c hmark hblank
  · exact not_prefix_of_isNamedBy h (by decide) (by decide) (by decide)
      (by cases level <;> decide)
  · exact not_prefix_of_isNamedBy h (by decide) (by decide) (by decide)
      (by cases level <;> decide)

end Environment
end PlaneReport
