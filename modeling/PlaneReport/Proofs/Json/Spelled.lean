import PlaneReport.Proofs.Decimal.Length
import PlaneReport.Proofs.Json.Numeral
import PlaneReport.Proofs.Json.Tokens

/-!
# Reading digits with a point or an exponent

`Numeral.read` takes all digits of a numeral into the significand if that fits 64 bits, and counts
those behind the point.  What it reads then is made of the coefficient and the exponent of the
decimal that the numeral spells.
-/

namespace PlaneReport
namespace Json
namespace Numeral

open Binary Decimal

variable {rest : List Char}

theorem stopsAt_isDigit (hrest : Text.StopsAt carriesOn rest) : Text.StopsAt isDigit rest := by
  intro c hc
  have hnot := hrest c hc
  unfold carriesOn at hnot
  cases hdigit : isDigit c with
  | false => rfl
  | true =>
    rw [hdigit] at hnot
    cases hnot

theorem readScale_end (hrest : Text.StopsAt carriesOn rest) (negative : Bool) (significand : Nat)
    (shift : Int) :
    readScale negative significand shift rest = some (ofParts negative significand shift, rest) := by
  unfold readScale
  split
  · exact absurd (hrest 'e' rfl) (by decide)
  · exact absurd (hrest 'E' rfl) (by decide)
  · rfl

/-! ## Exponents -/

section Exponent

variable {run : List Char} (hne : run ≠ []) (hall : run.all isDigit = true)
  (hsmall : digitsValue run ≤ maxExponent) (hrest : Text.StopsAt carriesOn rest)
include hne hall hsmall hrest

theorem readExponent_minus (negative : Bool) (significand : Nat) (shift : Int) :
    readExponent negative significand shift ('-' :: (run ++ rest)) =
      some (ofParts negative significand (shift - digitsValue run), rest) := by
  have hspan : (run ++ rest).span isDigit = (run, rest) :=
    Text.span_append hall (stopsAt_isDigit hrest)
  show (if ((run ++ rest).span isDigit).1.isEmpty = true then none
    else if digitsValue ((run ++ rest).span isDigit).1 ≤ maxExponent then
      some (ofParts negative significand (shift - digitsValue ((run ++ rest).span isDigit).1),
        ((run ++ rest).span isDigit).2)
    else _) = _
  rw [hspan, if_neg (by simpa using hne), if_pos hsmall]

theorem readExponent_plus (negative : Bool) (significand : Nat) (shift : Int) :
    readExponent negative significand shift ('+' :: (run ++ rest)) =
      some (ofParts negative significand (shift + digitsValue run), rest) := by
  have hspan : (run ++ rest).span isDigit = (run, rest) :=
    Text.span_append hall (stopsAt_isDigit hrest)
  show (if ((run ++ rest).span isDigit).1.isEmpty = true then none
    else if digitsValue ((run ++ rest).span isDigit).1 ≤ maxExponent then
      some (ofParts negative significand (shift + digitsValue ((run ++ rest).span isDigit).1),
        ((run ++ rest).span isDigit).2)
    else _) = _
  rw [hspan, if_neg (by simpa using hne), if_pos hsmall]

/-- Without a sign, as the first character is a digit. -/
theorem readExponent_digits (negative : Bool) (significand : Nat) (shift : Int) :
    readExponent negative significand shift (run ++ rest) =
      some (ofParts negative significand (shift + digitsValue run), rest) := by
  have hplus := readExponent_plus hne hall hsmall hrest negative significand shift
  obtain ⟨c, more, rfl⟩ := List.exists_cons_of_ne_nil hne
  have hc : isDigit c = true := List.all_eq_true.mp hall c List.mem_cons_self
  have hsigns : c ≠ '-' ∧ c ≠ '+' := by
    constructor <;> rintro rfl <;> exact absurd hc (by decide)
  rw [← hplus]
  unfold readExponent
  split
  next below digits hsign =>
    split at hsign
    · next heq => exact absurd (List.cons.inj heq).1 hsigns.1
    · next heq => exact absurd (List.cons.inj heq).1 hsigns.2
    · cases hsign
      rfl

end Exponent

theorem readExponent_toDigits (plusSign : Bool) {exponent : Int}
    (hsmall : exponent.natAbs ≤ maxExponent) (hrest : Text.StopsAt carriesOn rest)
    (negative : Bool) (significand : Nat) (shift : Int) :
    readExponent negative significand shift
        (Layout.exponentSign plusSign exponent ++ Nat.toDigits 10 exponent.natAbs ++ rest) =
      some (ofParts negative significand (shift + exponent), rest) := by
  have hne : Nat.toDigits 10 exponent.natAbs ≠ [] := Nat.toDigits_ne_nil
  have hall := all_isDigit_toDigits exponent.natAbs
  have hvalue := digitsValue_toDigits exponent.natAbs
  have hsmall' : digitsValue (Nat.toDigits 10 exponent.natAbs) ≤ maxExponent := by rwa [hvalue]
  unfold Layout.exponentSign
  by_cases hbelow : exponent < 0
  · have hminus := readExponent_minus hne hall hsmall' hrest negative significand shift
    rw [hvalue, show shift - (exponent.natAbs : Int) = shift + exponent by omega] at hminus
    rw [if_pos hbelow]
    exact hminus
  · have hexponent : (exponent.natAbs : Int) = exponent := by omega
    rw [if_neg hbelow]
    cases plusSign with
    | true =>
      have hplus := readExponent_plus hne hall hsmall' hrest negative significand shift
      rw [hvalue, hexponent] at hplus
      exact hplus
    | false =>
      have hdigits := readExponent_digits hne hall hsmall' hrest negative significand shift
      rw [hvalue, hexponent] at hdigits
      exact hdigits

/-! ## Significands -/

/-- Digits that fit 64 bits are taken as a whole. -/
theorem takeDigits_all {digits : List Char} (hall : digits.all isDigit = true)
    (hbound : digitsValue digits < significandBound) (hrest : Text.StopsAt isDigit rest) :
    takeDigits 0 (digits ++ rest) = (digitsValue digits, digits.length, rest) :=
  takeDigits_append hall hbound hrest

/-- And so are those behind the point. -/
theorem takeDigits_more {whole fraction : List Char} (hall : fraction.all isDigit = true)
    (hbound : digitsValue (whole ++ fraction) < significandBound)
    (hrest : Text.StopsAt isDigit rest) :
    takeDigits (digitsValue whole) (fraction ++ rest) =
      (digitsValue (whole ++ fraction), fraction.length, rest) := by
  rw [digitsValue_eq, digitsValue_eq, Nat.ofDigitChars_append] at *
  exact takeDigits_append hall hbound hrest

theorem digitsValue_le_append (whole fraction : List Char) :
    digitsValue whole ≤ digitsValue (whole ++ fraction) := by
  rw [digitsValue_append]
  exact (Nat.le_mul_of_pos_right _ (Nat.pow_pos (by decide))).trans (Nat.le_add_right _ _)

/-- What stands behind the point and before the exponent. -/
theorem readFraction_append {whole fraction : List Char} (hne : fraction ≠ [])
    (hall : fraction.all isDigit = true)
    (hbound : digitsValue (whole ++ fraction) < significandBound)
    (hrest : Text.StopsAt isDigit rest) (negative : Bool) :
    readFraction negative (digitsValue whole) 0 (fraction ++ rest) =
      readScale negative (digitsValue (whole ++ fraction)) (-(fraction.length : Int)) rest := by
  have hpos := List.length_pos_iff.mpr hne
  unfold readFraction
  rw [takeDigits_more hall hbound hrest]
  dsimp only
  rw [Text.dropWhile_of_stopsAt hrest, if_neg (by simp [hpos.ne']), Int.zero_sub]

/-- Digits around a point are taken together. -/
theorem readUnsigned_point {whole fraction : List Char} (h : Layout.IsPointed whole fraction)
    (hbound : digitsValue (whole ++ fraction) < significandBound)
    (hrest : Text.StopsAt isDigit rest) (negative : Bool) :
    readUnsigned negative (whole ++ '.' :: (fraction ++ rest)) =
      readScale negative (digitsValue (whole ++ fraction)) (-(fraction.length : Int)) rest := by
  have hpoint : Text.StopsAt isDigit ('.' :: (fraction ++ rest)) :=
    Text.stopsAt_cons (by decide) _
  have htake := takeDigits_all h.whole_all
    ((digitsValue_le_append whole fraction).trans_lt hbound) hpoint
  have hspan : ([] ++ '.' :: (fraction ++ rest)).span isDigit = ([], '.' :: (fraction ++ rest)) :=
    Text.span_append rfl hpoint
  rw [List.nil_append] at hspan
  have hlead := h.whole_lead
  rw [← readFraction_append h.fraction_ne_nil h.fraction_all hbound hrest]
  obtain ⟨first, more, rfl, hfirst, -⟩ := h.exists_cons
  have hsingle : (first = '0' && decide (1 < (first :: more).length)) = false := by
    rw [Bool.and_eq_false_iff, decide_eq_false_iff_not, decide_eq_false_iff_not]
    by_cases hzero : first = '0'
    · exact .inr (Nat.not_lt.mpr (hlead (congrArg some hzero)))
    · exact .inl hzero
  rw [List.cons_append] at htake ⊢
  unfold readUnsigned
  simp only [hfirst, htake, hspan, hsingle, Bool.not_true, Bool.false_eq_true, if_false]
  rfl

/-- A digit alone is taken, and its power of ten read. -/
theorem readUnsigned_single {first : Char} (hfirst : isDigit first = true) (negative : Bool)
    (tail : List Char) :
    readUnsigned negative (first :: 'e' :: tail) =
      readExponent negative (digitsValue [first]) 0 tail := by
  have hall : [first].all isDigit = true := by
    rw [List.all_cons, hfirst]
    rfl
  have hstop : Text.StopsAt isDigit ('e' :: tail) := Text.stopsAt_cons (by decide) _
  have hbound : digitsValue [first] < significandBound :=
    (digitsValue_lt hall).trans (show 10 ^ 1 < significandBound by decide)
  have htake := takeDigits_all hall hbound hstop
  have hspan : ([] ++ 'e' :: tail).span isDigit = ([], 'e' :: tail) := Text.span_append rfl hstop
  rw [List.nil_append] at hspan
  rw [List.singleton_append] at htake
  unfold readUnsigned
  simp only [hfirst, htake, hspan, Bool.not_true, Bool.false_eq_true, if_false]
  simp [readScale]

theorem readUnsigned_scientific {first : Char} {fraction : List Char}
    (hfirst : isDigit first = true) (hfraction : fraction.all isDigit = true)
    (hbound : digitsValue (first :: fraction) < significandBound) {exponent : Int}
    (hsmall : exponent.natAbs ≤ maxExponent) (hrest : Text.StopsAt carriesOn rest)
    (negative plusSign : Bool) :
    readUnsigned negative (Layout.scientific plusSign (first :: fraction) exponent ++ rest) =
      some (ofParts negative (digitsValue (first :: fraction)) (exponent - fraction.length),
        rest) := by
  have hread := readExponent_toDigits plusSign hsmall hrest negative
  cases fraction with
  | nil =>
    rw [List.length_nil, Nat.cast_zero, sub_zero]
    have hsingle := readUnsigned_single hfirst negative
      (Layout.exponentSign plusSign exponent ++ Nat.toDigits 10 exponent.natAbs ++ rest)
    rw [hread, zero_add] at hsingle
    exact hsingle
  | cons second more =>
    have hpointed : Layout.IsPointed [first] (second :: more) :=
      ⟨by simp, by simp, by rw [List.all_cons, hfirst]; rfl, hfraction, fun _ => by simp⟩
    have hstop : Text.StopsAt isDigit ('e' ::
        (Layout.exponentSign plusSign exponent ++ Nat.toDigits 10 exponent.natAbs ++ rest)) :=
      Text.stopsAt_cons (by decide) _
    have htext : Layout.scientific plusSign (first :: second :: more) exponent ++ rest =
        [first] ++ '.' :: (second :: more ++ 'e' ::
          (Layout.exponentSign plusSign exponent ++ Nat.toDigits 10 exponent.natAbs ++ rest)) := by
      simp [Layout.scientific, Layout.exponentSign]
    rw [htext, readUnsigned_point hpointed hbound hstop negative, readScale, hread,
      neg_add_eq_sub]
    rfl

/-! ## Printed magnitudes -/

/-- What the characters of a magnitude spell, read exactly and read as a numeral: its shortest
decimal, or a whole number with a zero behind the point, which is also how zero is spelled. -/
structure Spells (x : Magnitude double) (coefficient : Nat) (exponent : Int) : Prop where
  exactly (negative : Bool) : Decimal.unsignedOfText? negative (Layout.json.magnitude x) =
    some ⟨negative, coefficient, exponent⟩
  numeral (negative : Bool) {rest : List Char} (hrest : Text.StopsAt carriesOn rest) :
    readUnsigned negative (Layout.json.magnitude x ++ rest) =
      some (ofParts negative coefficient exponent, rest)
  shape : x.significand ≠ 0 ∧ (coefficient, exponent) = Decimal.shortest .toEven x ∨
    exponent = -1 ∧ coefficient ≤ 10 ^ 17

theorem Spells.of_pointed {x : Magnitude double} {whole fraction : List Char}
    (h : Layout.IsPointed whole fraction) (htext : Layout.json.magnitude x = whole ++ '.' :: fraction)
    (hshape : x.significand ≠ 0 ∧ (digitsValue (whole ++ fraction), -(fraction.length : Int)) =
        Decimal.shortest .toEven x ∨
      fraction.length = 1 ∧ digitsValue (whole ++ fraction) ≤ 10 ^ 17)
    (hbound : digitsValue (whole ++ fraction) < significandBound) :
    Spells x (digitsValue (whole ++ fraction)) (-(fraction.length : Int)) := by
  refine ⟨fun negative => ?_, fun negative rest hrest => ?_, ?_⟩
  · rw [htext]
    exact Layout.unsignedOfText?_pointed h negative
  · rw [htext, List.append_assoc, List.cons_append,
      readUnsigned_point h hbound (stopsAt_isDigit hrest) negative, readScale_end hrest]
  · refine hshape.imp_right fun hone => ⟨?_, hone.2⟩
    rw [hone.1]
    rfl

section Nonzero

variable {x : Magnitude double} (hx : x.significand ≠ 0)
include hx

theorem shortest_lt_significandBound : (Decimal.shortest .toEven x).1 < significandBound :=
  (shortest_bounds .toEven hx).1.trans_lt (by decide)

theorem exists_spells_positional {point : Int} (hpoint : point ≤ 16)
    (hplace : point = digitCount (Decimal.shortest .toEven x).1 + (Decimal.shortest .toEven x).2)
    (htext : Layout.json.magnitude x =
      Layout.positional ".0".toList (Nat.toDigits 10 (Decimal.shortest .toEven x).1) point) :
    ∃ coefficient exponent, Spells x coefficient exponent := by
  have hnonzero : (Decimal.shortest .toEven x).1 ≠ 0 := shortest_ne_zero (by decide) hx
  have hvalue := digitsValue_toDigits (Decimal.shortest .toEven x).1
  have hne : Nat.toDigits 10 (Decimal.shortest .toEven x).1 ≠ [] := Nat.toDigits_ne_nil
  have hlead : (Nat.toDigits 10 (Decimal.shortest .toEven x).1).head? = some '0' →
      (Nat.toDigits 10 (Decimal.shortest .toEven x).1).length ≤ 1 ∧ point ≤ 1 :=
    fun hhead => absurd hhead (head?_toDigits_ne_zero hnonzero)
  obtain ⟨whole, fraction, hparts, hsetting, hshape⟩ :=
    Layout.positional_spells hne (all_isDigit_toDigits _) hlead
  rw [hparts] at htext
  obtain ⟨hsame, hlength⟩ | ⟨hone, hlt⟩ := hshape
  · rw [hvalue] at hsame
    refine ⟨_, _, .of_pointed hsetting.isPointed htext (.inl ⟨hx, ?_⟩) ?_⟩
    · rw [hsame, hlength, hplace]
      unfold digitCount
      rw [add_sub_cancel_left]
    · rw [hsame]
      exact shortest_lt_significandBound hx
  · have hsmall : digitsValue (whole ++ fraction) ≤ 10 ^ 17 :=
      hlt.le.trans (Nat.pow_le_pow_right (by decide) (by omega))
    exact ⟨_, _, .of_pointed hsetting.isPointed htext (.inr ⟨hone, hsmall⟩)
      (hsmall.trans_lt (by decide))⟩

theorem exists_spells_scientific {exponent : Int}
    (hplace : exponent =
      digitCount (Decimal.shortest .toEven x).1 + (Decimal.shortest .toEven x).2 - 1)
    (htext : Layout.json.magnitude x =
      Layout.scientific true (Nat.toDigits 10 (Decimal.shortest .toEven x).1) exponent) :
    Spells x (Decimal.shortest .toEven x).1 (Decimal.shortest .toEven x).2 := by
  obtain ⟨hcoefficient, hlow⟩ := shortest_bounds .toEven hx
  have hhigh := shortest_place_le .toEven hx
  have hbound := shortest_lt_significandBound hx
  have hcount : digitCount (Decimal.shortest .toEven x).1 ≤ 18 :=
    (Nat.length_toDigits_le_iff (by decide) (by decide)).mpr (hcoefficient.trans_lt (by decide))
  have hpos : 0 < digitCount (Decimal.shortest .toEven x).1 := Nat.length_toDigits_pos
  have hvalue := digitsValue_toDigits (Decimal.shortest .toEven x).1
  have hall := all_isDigit_toDigits (Decimal.shortest .toEven x).1
  unfold digitCount at hplace hcount hpos
  obtain ⟨first, fraction, hcons⟩ :=
    List.exists_cons_of_ne_nil (Nat.toDigits_ne_nil (n := (Decimal.shortest .toEven x).1) (b := 10))
  rw [hcons] at hplace hcount hvalue htext hall
  rw [List.all_cons, Bool.and_eq_true] at hall
  rw [List.length_cons] at hplace hcount
  have hexponent : exponent - (fraction.length : Int) = (Decimal.shortest .toEven x).2 := by omega
  have hsmall : exponent.natAbs ≤ maxExponent :=
    (show exponent.natAbs ≤ 400 by omega).trans (by decide)
  refine ⟨fun negative => ?_, fun negative rest hrest => ?_, .inl ⟨hx, rfl⟩⟩
  · rw [htext, Layout.unsignedOfText?_scientific hall.1 hall.2, hvalue, hexponent]
  · rw [← hvalue] at hbound
    rw [htext, readUnsigned_scientific hall.1 hall.2 hbound hsmall hrest, hvalue, hexponent]

end Nonzero

/-- What is printed for a magnitude is read exactly and as a numeral alike. -/
theorem exists_spells (x : Magnitude double) :
    ∃ coefficient exponent, Spells x coefficient exponent := by
  by_cases hx : x.significand = 0
  · have hzero : Layout.json.magnitude (.zero : Magnitude double) = ['0'] ++ '.' :: ['0'] := rfl
    rw [Magnitude.eq_zero_of_significand hx]
    exact ⟨_, _, Spells.of_pointed ⟨by simp, by simp, rfl, rfl, fun _ => by simp⟩ hzero
      (.inr ⟨rfl, by decide⟩) (by decide)⟩
  · have htext := Layout.magnitude_eq (show Layout.json.decades = some (-5, 15) from rfl) hx
    rw [show Layout.json.tie = .toEven from rfl, Layout.digitsOf_eq .toEven hx] at htext
    dsimp only at htext
    split at htext
    · next hdecades => exact exists_spells_positional hx (by omega) rfl htext
    · exact ⟨_, _, exists_spells_scientific hx rfl htext⟩

end Numeral
end Json
end PlaneReport
