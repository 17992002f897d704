import PlaneReport.Proofs.Decimal.Layout
import PlaneReport.Toml.Printer
import PlaneReport.Toml.Scalar

/-!
# Numbers of TOML read back

An integer is printed as its numeral, and a finite number with all its places and a point.  The main
statements are `scalarOfText?_integer` and `scalarOfText?_number`: the scalar reader gives back what
was printed.
-/

namespace PlaneReport
namespace Toml

open Binary Decimal

/-! ## Digit runs -/

theorem digitRun?_of_all {p : Char → Bool} {digits : List Char} (hne : digits ≠ [])
    (hall : digits.all p = true) (hscore : p '_' = false) : digitRun? p digits = some digits := by
  induction digits with
  | nil => exact absurd rfl hne
  | cons c rest ih =>
    rw [List.all_cons, Bool.and_eq_true] at hall
    cases rest with
    | nil => simp [digitRun?, hall.1]
    | cons d rest =>
      have hd : d ≠ '_' := by
        rintro rfl
        rw [List.all_cons, Bool.and_eq_true, hscore] at hall
        exact Bool.false_ne_true hall.2.1
      have hrec := ih (List.cons_ne_nil d rest) hall.2
      simp [digitRun?, hd, hall.1, hrec]

theorem digitRun?_eq_none {p : Char → Bool} {text : List Char} {c : Char} (hmem : c ∈ text)
    (hp : p c = false) (hscore : c ≠ '_') : digitRun? p text = none := by
  fun_induction digitRun? p text with
  | case1 => cases hmem
  | case2 d hd =>
    rw [List.mem_singleton] at hmem
    rw [← hmem, hp] at hd
    cases hd
  | case3 => rfl
  | case4 d rest hd ih =>
    have hrest : c ∈ rest := by
      rcases List.mem_cons.mp hmem with rfl | hmem
      · rw [hp] at hd
        cases hd
      · exact (List.mem_cons.mp hmem).resolve_left hscore
    rw [ih hrest]
    rfl
  | case5 => rfl
  | case6 d rest hne hnext hd ih =>
    have hrest : c ∈ rest := by
      rcases List.mem_cons.mp hmem with rfl | hmem
      · rw [hp] at hd
        cases hd
      · exact hmem
    rw [ih hrest]
    rfl
  | case7 => rfl

theorem wholeRun?_of_all {digits : List Char} (hne : digits ≠ [])
    (hall : digits.all isDigit = true) (hlead : Layout.HasNoLeadingZero digits) :
    wholeRun? digits = some digits := by
  unfold wholeRun?
  rw [digitRun?_of_all hne hall (by decide)]
  dsimp only
  rw [if_neg]
  simp only [Bool.and_eq_true, decide_eq_true_eq]
  rintro ⟨hhead, hlength⟩
  have := hlead hhead
  omega

/-! ## Integers -/

theorem hexValue?_of_isDigit {c : Char} (h : isDigit c = true) :
    Json.hexValue? c = some (digitValue c) := by
  unfold isDigit at h
  rw [Bool.and_eq_true, decide_eq_true_eq, decide_eq_true_eq] at h
  unfold Json.hexValue?
  rw [if_pos h]
  rfl

theorem valueInBase_ten {digits : List Char} (hall : digits.all isDigit = true) :
    valueInBase 10 digits = digitsValue digits := by
  rw [List.all_eq_true] at hall
  unfold valueInBase digitsValue
  refine List.foldl_ext _ _ _ ?_
  intro value c hc
  rw [hexValue?_of_isDigit (hall c hc)]
  rfl

theorem wholeRun?_toDigits (n : Nat) :
    wholeRun? (Nat.toDigits 10 n) = some (Nat.toDigits 10 n) :=
  wholeRun?_of_all Nat.toDigits_ne_nil (all_isDigit_toDigits n) length_le_of_head?_toDigits

theorem valueInBase_toDigits (n : Nat) : valueInBase 10 (Nat.toDigits 10 n) = n := by
  rw [valueInBase_ten (all_isDigit_toDigits n), digitsValue_toDigits]

/-- A text of digits and points is no integer of another base, and no integer with a sign. -/
theorem integerOfText?_unsigned {c : Char} {rest : List Char} (hc : isDigit c = true)
    (hrest : ∀ d, rest.head? = some d → isDigit d = true ∨ d = '.') :
    integerOfText? (c :: rest) =
      (wholeRun? (c :: rest)).map fun digits => integer (valueInBase 10 digits) := by
  unfold integerOfText?
  split
  · next heq =>
    injection heq with hhead htail
    exact absurd (hrest 'x' (by rw [htail]; rfl)) (by decide)
  · next heq =>
    injection heq with hhead htail
    exact absurd (hrest 'o' (by rw [htail]; rfl)) (by decide)
  · next heq =>
    injection heq with hhead htail
    exact absurd (hrest 'b' (by rw [htail]; rfl)) (by decide)
  · next heq =>
    injection heq with hhead htail
    rw [hhead] at hc
    exact absurd hc (by decide)
  · next heq =>
    injection heq with hhead htail
    rw [hhead] at hc
    exact absurd hc (by decide)
  · rfl

theorem integer_of_range {n : Int} (hlow : -(2 ^ 127 : Int) ≤ n) (hhigh : n < 2 ^ 128) :
    integer n = .integer n := by
  unfold integer
  rw [if_pos ⟨hlow, hhigh⟩]

theorem integerOfText?_chars {n : Int} (hlow : -(2 ^ 127 : Int) ≤ n) (hhigh : n < 2 ^ 128) :
    integerOfText? (Scalar.integer n).chars = some (.integer n) := by
  unfold Scalar.chars
  dsimp only
  by_cases hn : n < 0
  · rw [if_pos hn]
    show (wholeRun? (Nat.toDigits 10 n.natAbs)).map _ = _
    rw [wholeRun?_toDigits, Option.map_some, valueInBase_toDigits,
      show -(n.natAbs : Int) = n by omega, integer_of_range hlow hhigh]
  · rw [if_neg hn, List.nil_append]
    obtain ⟨c, rest, hdigits, hc, hrest⟩ := exists_cons_toDigits n.natAbs
    have hhead : ∀ d, rest.head? = some d → isDigit d = true ∨ d = '.' := fun d hd =>
      Or.inl (List.all_eq_true.mp hrest d (List.mem_of_mem_head? hd))
    have hread := integerOfText?_unsigned hc hhead
    rw [← hdigits, wholeRun?_toDigits, Option.map_some, valueInBase_toDigits,
      show (n.natAbs : Int) = n by omega, integer_of_range hlow hhigh] at hread
    exact hread

/-! ## Numbers with a point -/

theorem wholeRun?_pointed (whole fraction : List Char) :
    wholeRun? (whole ++ '.' :: fraction) = none := by
  unfold wholeRun?
  rw [digitRun?_eq_none (c := '.') (by simp) (by decide) (by decide)]

section Pointed

variable {whole fraction : List Char} (h : Layout.IsPointed whole fraction)
include h

theorem integerOfText?_pointed : integerOfText? (whole ++ '.' :: fraction) = none := by
  obtain ⟨c, rest, hwhole, hc, hrest⟩ := h.exists_cons
  rw [hwhole, List.cons_append, integerOfText?_unsigned hc]
  · rw [← List.cons_append, wholeRun?_pointed]
    rfl
  · intro d hd
    cases rest with
    | nil =>
      cases hd
      exact Or.inr rfl
    | cons e rest =>
      cases hd
      exact Or.inl (List.all_eq_true.mp hrest d (by simp))

theorem unsignedNumberOfText?_pointed (negative : Bool) :
    unsignedNumberOfText? negative (whole ++ '.' :: fraction) =
      some (finite ⟨negative, digitsValue (whole ++ fraction), -(fraction.length : Int)⟩) := by
  obtain ⟨c, rest, hwhole, hc, hrest⟩ := h.exists_cons
  have hmark : ∀ d, isDigit d = true → (d != '.' && d != 'e' && d != 'E') = true := by
    intro d hd
    simp only [Bool.and_eq_true, bne_iff_ne]
    refine ⟨⟨?_, ?_⟩, ?_⟩ <;> rintro rfl <;> revert hd <;> decide
  have hspan : (whole ++ '.' :: fraction).span (fun c => c != '.' && c != 'e' && c != 'E') =
      (whole, '.' :: fraction) := by
    refine Text.span_append ?_ (Text.stopsAt_cons (by decide) _)
    rw [List.all_eq_true]
    exact fun d hd => hmark d (List.all_eq_true.mp h.whole_all d hd)
  have hend : fraction.span (fun c => c != 'e' && c != 'E') = (fraction, []) := by
    refine Text.span_all ?_
    rw [List.all_eq_true]
    intro d hd
    have := hmark d (List.all_eq_true.mp h.fraction_all d hd)
    simp only [Bool.and_eq_true] at this ⊢
    exact ⟨this.1.2, this.2⟩
  have hne : ∀ word : List Char, word.head? = some 'i' ∨ word.head? = some 'n' →
      whole ++ '.' :: fraction ≠ word := by
    rintro word hword rfl
    rw [hwhole] at hword
    rcases hword with hword | hword <;> cases hword <;> revert hc <;> decide
  unfold unsignedNumberOfText?
  rw [if_neg (hne "inf".toList (Or.inl rfl)), if_neg (hne "nan".toList (Or.inr rfl)), hspan]
  simp only [hend]
  rw [wholeRun?_of_all h.whole_ne_nil h.whole_all h.whole_lead,
    digitRun?_of_all h.fraction_ne_nil h.fraction_all (by decide)]

end Pointed

/-! ## The layout of TOML -/

theorem finite_of_toNumber {d : Decimal} {negative : Bool} {size : Magnitude double}
    (h : d.toNumber double = .finite negative size) :
    finite d = .number (.finite negative size) := by
  unfold finite
  rw [h]
  rfl

/-- The text of a magnitude: digits around a point that are read as the magnitude. -/
theorem magnitude_eq (x : Magnitude double) :
    ∃ whole fraction, Layout.toml.magnitude x = whole ++ '.' :: fraction ∧
      Layout.IsPointed whole fraction ∧
      ∀ negative, unsignedNumberOfText? negative (whole ++ '.' :: fraction) =
        some (.number (.finite negative x)) := by
  obtain ⟨whole, fraction, htext, hpointed, hvalue⟩ :=
    Layout.positional_eq (Layout.digitsOf_ne_nil .up x) (Layout.all_isDigit_digitsOf .up x)
      (Layout.head?_digitsOf (by decide) .up x)
  refine ⟨whole, fraction, htext, hpointed, fun negative => ?_⟩
  rw [unsignedNumberOfText?_pointed hpointed, finite_of_toNumber]
  exact Layout.toNumber_digitsOf (by decide) .up x _ hvalue

/-! ## Scalars in a text -/

/-- A text without quotes that denotes a value. -/
structure IsScalarText (edition : Edition) (text : List Char) (value : Outline) : Prop where
  ne_nil : text ≠ []
  all_chars : text.all isScalarChar = true
  denotes : scalarOfText? edition text = some value

variable {edition : Edition}

theorem isScalarChar_of_isDigit {c : Char} (h : isDigit c = true) : isScalarChar c = true := by
  rw [isDigit_eq] at h
  unfold isScalarChar Char.isAlphanum
  rw [h]
  simp

theorem all_isScalarChar_of_digits {digits : List Char} (h : digits.all isDigit = true) :
    digits.all isScalarChar = true := by
  rw [List.all_eq_true] at h ⊢
  exact fun c hc => isScalarChar_of_isDigit (h c hc)

/-- A text that starts with a digit or a minus sign is neither truth value. -/
theorem scalarOfText?_of_head {c : Char} {rest : List Char} (hc : isDigit c = true ∨ c = '-') :
    scalarOfText? edition (c :: rest) =
      match integerOfText? (c :: rest) with
      | some value => some value
      | none =>
        match numberOfText? (c :: rest) with
        | some value => some value
        | none => if isDate edition (c :: rest) then some (date (c :: rest)) else none := by
  have hne : ∀ word : List Char, word.head? = some 't' ∨ word.head? = some 'f' →
      c :: rest ≠ word := by
    rintro word hword rfl
    rcases hword with hword | hword <;> cases hword <;> exact absurd hc (by decide)
  unfold scalarOfText?
  rw [if_neg (hne "true".toList (Or.inl rfl))]
  exact if_neg (hne "false".toList (Or.inr rfl))

theorem exists_cons_integer (n : Int) :
    ∃ c rest, (Scalar.integer n).chars = c :: rest ∧ (isDigit c = true ∨ c = '-') ∧
      rest.all isDigit = true := by
  unfold Scalar.chars
  dsimp only
  by_cases hn : n < 0
  · rw [if_pos hn]
    exact ⟨'-', _, rfl, Or.inr rfl, all_isDigit_toDigits _⟩
  · rw [if_neg hn]
    obtain ⟨c, rest, hdigits, hc, hrest⟩ := exists_cons_toDigits n.natAbs
    exact ⟨c, rest, hdigits, Or.inl hc, hrest⟩

theorem isScalarText_integer {n : Int} (hlow : -(2 ^ 127 : Int) ≤ n) (hhigh : n < 2 ^ 128) :
    IsScalarText edition (Scalar.integer n).chars (.integer n) := by
  obtain ⟨c, rest, htext, hc, hrest⟩ := exists_cons_integer n
  have hread := integerOfText?_chars hlow hhigh
  rw [htext] at hread ⊢
  refine ⟨List.cons_ne_nil c rest, ?_, ?_⟩
  · rw [List.all_cons, all_isScalarChar_of_digits hrest, Bool.and_true]
    rcases hc with hc | rfl
    · exact isScalarChar_of_isDigit hc
    · decide
  · rw [scalarOfText?_of_head hc, hread]

theorem isScalarText_number (negative : Bool) (x : Magnitude double) :
    IsScalarText edition (Scalar.number (.finite negative x)).chars
      (.number (.finite negative x)) := by
  obtain ⟨whole, fraction, htext, hpointed, hread⟩ := magnitude_eq x
  obtain ⟨c, rest, hwhole, hc, hrest⟩ := hpointed.exists_cons
  have hall : (whole ++ '.' :: fraction).all isScalarChar = true := by
    rw [List.all_append, List.all_cons, all_isScalarChar_of_digits hpointed.whole_all,
      all_isScalarChar_of_digits hpointed.fraction_all]
    decide
  unfold Scalar.chars Layout.chars
  dsimp only
  rw [htext]
  cases negative with
  | true =>
    rw [if_pos rfl, List.cons_append, List.nil_append]
    refine ⟨List.cons_ne_nil _ _, ?_, ?_⟩
    · rw [List.all_cons, hall]
      decide
    · rw [scalarOfText?_of_head (Or.inr rfl)]
      have hnone : integerOfText? ('-' :: (whole ++ '.' :: fraction)) = none := by
        show (wholeRun? (whole ++ '.' :: fraction)).map _ = none
        rw [wholeRun?_pointed]
        rfl
      have hsome : numberOfText? ('-' :: (whole ++ '.' :: fraction)) =
          some (.number (.finite true x)) := hread true
      rw [hnone, hsome]
  | false =>
    rw [if_neg Bool.false_ne_true, List.nil_append]
    have hunsigned : numberOfText? (whole ++ '.' :: fraction) =
        unsignedNumberOfText? false (whole ++ '.' :: fraction) := by
      rw [hwhole, List.cons_append]
      unfold numberOfText?
      split
      · next heq =>
        injection heq with hhead htail
        rw [hhead] at hc
        exact absurd hc (by decide)
      · next heq =>
        injection heq with hhead htail
        rw [hhead] at hc
        exact absurd hc (by decide)
      · rfl
    have hnone := integerOfText?_pointed hpointed
    have hsome := hunsigned.trans (hread false)
    rw [hwhole, List.cons_append] at hnone hsome hall ⊢
    refine ⟨List.cons_ne_nil _ _, hall, ?_⟩
    rw [scalarOfText?_of_head (Or.inl hc), hnone, hsome]

/-- A scalar at the end of a line is read up to there. -/
theorem readScalar_of_isScalarText {text : List Char} {value : Outline}
    (h : IsScalarText edition text value) (rest : List Char) :
    readScalar edition (text ++ '\n' :: rest) = some (value, '\n' :: rest) := by
  have hspan : (text ++ '\n' :: rest).span isScalarChar = (text, '\n' :: rest) :=
    Text.span_append h.all_chars (Text.stopsAt_cons (by decide) rest)
  unfold readScalar
  rw [hspan]
  dsimp only
  split
  · next heq =>
    injection heq with hblank
    exact absurd hblank (by decide)
  · show (scalarOfText? edition text).map _ = _
    rw [h.denotes]
    rfl

end Toml
end PlaneReport
