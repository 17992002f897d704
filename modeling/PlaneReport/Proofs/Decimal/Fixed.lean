import PlaneReport.Proofs.Binary.Value
import PlaneReport.Proofs.Decimal.Layout
import PlaneReport.Report

/-!
# Fixed counts of decimal places

A number set with so many decimal places is the numeral of that form that is nearest to its exact
value, and of two that are as near the even one.  `IsFixed` says so of the digits around the point,
and `IsFixed.unique` that only one pair of them has these properties.
-/

namespace PlaneReport
namespace Layout

open Binary Decimal

variable {f : Format}

/-! ## Numerals with so many places -/

/-- A sign, digits, and a point before further ones if there are any. -/
def pointed (negative : Bool) (whole fraction : List Char) : List Char :=
  (if negative then ['-'] else []) ++ whole ++
    (if fraction = [] then [] else '.' :: fraction)

/-- The number that a sign and digits around a point denote. -/
def pointedValue (negative : Bool) (whole fraction : List Char) : ℚ :=
  (if negative then -1 else 1) *
    scaled (digitsValue (whole ++ fraction)) (-(fraction.length : ℤ))

/-- Digits around a point that stand for a number: so many behind the point, none superfluous before
it, and with the sign of the number within half a last place of its exact value.  Where the distance
is exactly that, the last digit is even. -/
structure IsFixed (x : Number f) (places : ℕ) (whole fraction : List Char) : Prop where
  whole_ne_nil : whole ≠ []
  whole_all : whole.all isDigit = true
  whole_lead : HasNoLeadingZero whole
  fraction_all : fraction.all isDigit = true
  fraction_length : fraction.length = places
  near : |pointedValue x.isNegative whole fraction - x.value| ≤ 10 ^ (-(places : ℤ)) / 2
  even_of_tie : |pointedValue x.isNegative whole fraction - x.value| = 10 ^ (-(places : ℤ)) / 2 →
    ∀ c, (whole ++ fraction).getLast? = some c → digitValue c % 2 = 0

/-! ## Distances in whole numbers -/

section Distance

variable (size : Magnitude f) (places coefficient : ℕ)

theorem distance_eq (negative : Bool) {whole fraction : List Char} :
    |pointedValue negative whole fraction - Number.value (.finite negative size)| =
      |scaled (digitsValue (whole ++ fraction)) (-(fraction.length : ℤ)) - size.value| := by
  unfold pointedValue
  cases negative with
  | true =>
    show |(-1) * _ - -size.value| = _
    rw [neg_one_mul, ← neg_sub', abs_neg]
  | false =>
    show |1 * _ - size.value| = _
    rw [one_mul]

/-- The distance between the numerators over the common denominator. -/
def numeratorDistance : ℕ :=
  ((coefficient * 2 ^ f.scale : ℕ) - (size.units * 10 ^ places : ℕ) : ℤ).natAbs

theorem abs_scaled_sub_value :
    |scaled coefficient (-(places : ℤ)) - size.value| =
      10 ^ (-(places : ℤ)) * (numeratorDistance size places coefficient / 2 ^ f.scale) := by
  have hten : (10 : ℚ) ^ places * 10 ^ (-(places : ℤ)) = 1 := by
    rw [zpow_neg, zpow_natCast, mul_inv_cancel₀ (by positivity)]
  have htwo : (2 : ℚ) ^ f.scale / 2 ^ f.scale = 1 := div_self (by positivity)
  have hcommon : scaled coefficient (-(places : ℤ)) - size.value =
      10 ^ (-(places : ℤ)) *
        (((coefficient * 2 ^ f.scale : ℕ) - (size.units * 10 ^ places : ℕ) : ℤ) / 2 ^ f.scale) := by
    unfold scaled Magnitude.value
    push_cast
    calc (coefficient : ℚ) * 10 ^ (-(places : ℤ)) - size.units / 2 ^ f.scale
        = coefficient * 10 ^ (-(places : ℤ)) * (2 ^ f.scale / 2 ^ f.scale) -
            size.units / 2 ^ f.scale * (10 ^ places * 10 ^ (-(places : ℤ))) := by
          rw [htwo, hten, mul_one, mul_one]
      _ = _ := by ring
  unfold numeratorDistance
  rw [hcommon, abs_mul, abs_div, abs_of_pos (by positivity : (0 : ℚ) < 2 ^ f.scale),
    abs_of_pos (by positivity : (0 : ℚ) < 10 ^ (-(places : ℤ))), Nat.cast_natAbs, Int.cast_abs]

/-- Half a last place is half the common denominator. -/
theorem near_iff :
    |scaled coefficient (-(places : ℤ)) - size.value| ≤ 10 ^ (-(places : ℤ)) / 2 ↔
      2 * numeratorDistance size places coefficient ≤ 2 ^ f.scale := by
  have hplace : (0 : ℚ) < 10 ^ (-(places : ℤ)) := by positivity
  have hscale : (0 : ℚ) < 2 ^ f.scale := by positivity
  rw [abs_scaled_sub_value, div_eq_mul_inv _ (2 : ℚ), mul_le_mul_iff_right₀ hplace, div_le_iff₀ hscale,
    ← div_eq_inv_mul, le_div_iff₀ two_pos, mul_comm]
  norm_cast

theorem tie_iff :
    |scaled coefficient (-(places : ℤ)) - size.value| = 10 ^ (-(places : ℤ)) / 2 ↔
      2 * numeratorDistance size places coefficient = 2 ^ f.scale := by
  have hplace : (10 : ℚ) ^ (-(places : ℤ)) ≠ 0 := by positivity
  have hscale : (2 : ℚ) ^ f.scale ≠ 0 := by positivity
  rw [abs_scaled_sub_value, div_eq_mul_inv _ (2 : ℚ), mul_right_inj' hplace, div_eq_iff hscale,
    ← div_eq_inv_mul, eq_div_iff two_ne_zero, mul_comm]
  norm_cast

/-- The rounded numerator is the nearest, and even where another is as near. -/
theorem eq_roundHalfEven_iff :
    coefficient = roundHalfEven (size.units * 10 ^ places) (2 ^ f.scale) ↔
      2 * numeratorDistance size places coefficient ≤ 2 ^ f.scale ∧
        (2 * numeratorDistance size places coefficient = 2 ^ f.scale → coefficient % 2 = 0) := by
  have hpos := Nat.two_pow_pos f.scale
  unfold numeratorDistance
  constructor
  · intro h
    obtain ⟨hlow, hhigh, htie⟩ := roundHalfEven_bounds (size.units * 10 ^ places) hpos
    rw [← h] at hlow hhigh htie
    exact ⟨by omega, fun hhalf => htie (by omega)⟩
  · rintro ⟨hnear, htie⟩
    exact (roundHalfEven_eq hpos (by omega) (by omega) fun hhalf => htie (by omega)).symm

end Distance

/-! ## The numeral that is printed -/

theorem even_getLast?_iff {digits : List Char} (hne : digits ≠ []) :
    (∀ c, digits.getLast? = some c → digitValue c % 2 = 0) ↔ digitsValue digits % 2 = 0 := by
  obtain ⟨init, last, rfl⟩ := (List.eq_nil_or_concat digits).resolve_left hne
  rw [List.concat_eq_append, List.getLast?_concat, mod_two_digitsValue_concat]
  constructor
  · intro h
    exact h last rfl
  · rintro h c hc
    cases hc
    exact h

/-- The whole number that a numeral with so many places denotes in last places is the rounded
one. -/
theorem IsFixed.digitsValue_eq {size : Magnitude f} {negative : Bool} {places : ℕ}
    {whole fraction : List Char} (h : IsFixed (.finite negative size) places whole fraction) :
    digitsValue (whole ++ fraction) =
      roundHalfEven (size.units * 10 ^ places) (2 ^ f.scale) := by
  have hnear := h.near
  have htie := h.even_of_tie
  rw [even_getLast?_iff (by simp [h.whole_ne_nil])] at htie
  rw [show Number.isNegative (.finite negative size) = negative from rfl, distance_eq,
    h.fraction_length] at hnear htie
  rw [near_iff] at hnear
  rw [tie_iff] at htie
  exact (eq_roundHalfEven_iff _ _ _).mpr ⟨hnear, htie⟩

/-- Digits that denote the rounded whole number are near enough. -/
theorem IsFixed.of_digitsValue_eq {size : Magnitude f} {negative : Bool} {places : ℕ}
    {whole fraction : List Char} (hne : whole ≠ []) (hwhole : whole.all isDigit = true)
    (hlead : HasNoLeadingZero whole) (hfraction : fraction.all isDigit = true)
    (hlength : fraction.length = places)
    (hvalue : digitsValue (whole ++ fraction) =
      roundHalfEven (size.units * 10 ^ places) (2 ^ f.scale)) :
    IsFixed (.finite negative size) places whole fraction := by
  obtain ⟨hnear, htie⟩ := (eq_roundHalfEven_iff _ _ _).mp hvalue
  refine ⟨hne, hwhole, hlead, hfraction, hlength, ?_, ?_⟩
  · rw [show Number.isNegative (.finite negative size) = negative from rfl, distance_eq, hlength,
      near_iff]
    exact hnear
  · rw [show Number.isNegative (.finite negative size) = negative from rfl, distance_eq, hlength,
      tie_iff, even_getLast?_iff (by simp [hne])]
    exact htie

/-- Only one numeral with so many places stands for a number. -/
theorem IsFixed.unique {x : Number f} (hx : x.isFinite = true) {places : ℕ}
    {whole fraction whole' fraction' : List Char} (h : IsFixed x places whole fraction)
    (h' : IsFixed x places whole' fraction') : whole = whole' ∧ fraction = fraction' := by
  cases x with
  | nan => cases hx
  | infinite negative => cases hx
  | finite negative size =>
    have hlength : fraction.length = fraction'.length :=
      h.fraction_length.trans h'.fraction_length.symm
    obtain ⟨hwhole, hfraction⟩ := eq_of_digitsValue_append_eq h.fraction_all h'.fraction_all hlength
      (h.digitsValue_eq.trans h'.digitsValue_eq.symm)
    refine ⟨?_, eq_of_digitsValue_eq h.fraction_all h'.fraction_all hlength hfraction⟩
    rw [← toDigits_digitsValue h.whole_ne_nil h.whole_all h.whole_lead, hwhole,
      toDigits_digitsValue h'.whole_ne_nil h'.whole_all h'.whole_lead]

/-- A whole number filled up with zeros to one digit more than there are places. -/
def padded (places coefficient : ℕ) : List Char :=
  List.replicate (places + 1 - digitCount coefficient) '0' ++ Nat.toDigits 10 coefficient

section Padded

variable (places coefficient : ℕ)

theorem length_padded : (padded places coefficient).length =
    max (places + 1) (digitCount coefficient) := by
  unfold padded
  rw [List.length_append, List.length_replicate]
  show places + 1 - digitCount coefficient + digitCount coefficient = _
  omega

theorem all_isDigit_padded : (padded places coefficient).all isDigit = true := by
  unfold padded
  simp

theorem digitsValue_padded : digitsValue (padded places coefficient) = coefficient := by
  unfold padded
  simp

/-- A leading zero is the only digit before the point. -/
theorem hasNoLeadingZero_padded :
    HasNoLeadingZero
      ((padded places coefficient).take ((padded places coefficient).length - places)) := by
  intro hhead
  rw [length_padded] at hhead ⊢
  by_cases hlong : digitCount coefficient ≤ places + 1
  · rw [List.length_take]
    omega
  · have hnone : places + 1 - digitCount coefficient = 0 := by omega
    have hpadded : padded places coefficient = Nat.toDigits 10 coefficient := by
      unfold padded
      rw [hnone, List.replicate_zero, List.nil_append]
    rw [hpadded, List.head?_take, if_neg (by omega)] at hhead
    have hshort : digitCount coefficient ≤ 1 := length_le_of_head?_toDigits hhead
    omega

end Padded

/-- The characters of a number with so many places are the numeral that stands for it. -/
theorem exists_isFixed (places : ℕ) {x : Number f} (hx : x.isFinite = true) :
    ∃ whole fraction, x.fixedChars places = pointed x.isNegative whole fraction ∧
      IsFixed x places whole fraction := by
  cases x with
  | nan => cases hx
  | infinite negative => cases hx
  | finite negative size =>
    let digits := padded places (roundHalfEven (size.units * 10 ^ places) (2 ^ f.scale))
    have hlength : places + 1 ≤ digits.length := by
      rw [length_padded]
      omega
    have hall := all_isDigit_padded places (roundHalfEven (size.units * 10 ^ places) (2 ^ f.scale))
    rw [List.all_eq_true] at hall
    refine ⟨digits.take (digits.length - places), digits.drop (digits.length - places), ?_, ?_⟩
    · have hempty : digits.drop (digits.length - places) = [] ↔ places = 0 := by
        rw [List.drop_eq_nil_iff]
        omega
      unfold pointed
      rw [if_congr hempty rfl rfl]
      rfl
    · refine IsFixed.of_digitsValue_eq ?_ ?_ ?_ ?_ ?_ ?_
      · rw [← List.length_pos_iff, List.length_take]
        omega
      · rw [List.all_eq_true]
        exact fun c hc => hall c (List.mem_of_mem_take hc)
      · exact hasNoLeadingZero_padded _ _
      · rw [List.all_eq_true]
        exact fun c hc => hall c (List.mem_of_mem_drop hc)
      · rw [List.length_drop]
        omega
      · rw [List.take_append_drop]
        exact digitsValue_padded _ _

end Layout

namespace DistanceStyle

open Binary

/-- A finite value set with a fixed count of places is its sign and the nearest digits with that
many places, which are the only ones. -/
theorem format_fixed {value : Double} {places : ℕ} (hvalue : value.isFinite = true)
    (hplaces : places ≤ maxPlaces) :
    ∃ whole fraction, (fixed places).format value =
        .ok (String.ofList (Layout.pointed value.isNegative whole fraction)) ∧
      Layout.IsFixed value places whole fraction ∧
      ∀ whole' fraction', Layout.IsFixed value places whole' fraction' →
        whole' = whole ∧ fraction' = fraction := by
  obtain ⟨whole, fraction, hchars, hfixed⟩ := Layout.exists_isFixed places hvalue
  refine ⟨whole, fraction, ?_, hfixed, fun _ _ h' => h'.unique hvalue hfixed⟩
  rw [format, if_neg (Nat.not_lt.mpr hplaces), hchars]

/-- An eighth below zero lies between two numerals with two places. -/
def negativeEighth : Double := Number.ofBits 0xbfc0000000000000

theorem format_fixed_tie :
    negativeEighth.isFinite = true ∧ 2 ≤ maxPlaces ∧
      (fixed 2).format negativeEighth = .ok "-0.12" ∧
      ∃ whole fraction, "-0.12" = String.ofList (Layout.pointed true whole fraction) ∧
        Layout.IsFixed negativeEighth 2 whole fraction := by
  have hfinite : negativeEighth.isFinite = true := by decide
  have hplaces : 2 ≤ maxPlaces := by decide
  have htext : (fixed 2).format negativeEighth = .ok "-0.12" := by decide +kernel
  obtain ⟨whole, fraction, hformat, hfixed, -⟩ := format_fixed hfinite hplaces
  refine ⟨hfinite, hplaces, htext, whole, fraction, ?_, hfixed⟩
  rw [htext] at hformat
  exact Except.ok.inj hformat

example : (fixed 0).format (-Number.ofBits 0x3fe0000000000000) = .ok "-0" := by decide +kernel

end DistanceStyle
end PlaneReport
