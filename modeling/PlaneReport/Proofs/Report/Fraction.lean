import PlaneReport.Json.Value
import PlaneReport.Proofs.Decimal.Layout
import PlaneReport.Proofs.Decimal.Order
import PlaneReport.Report

/-!
# When a distance shows a fraction

The shortest style writes all places of a value from `1 / 10 ^ 4` up to but not including `10 ^ 16`,
and then there is a point before some digit.  Any other value but zero has a power of ten instead,
and a point only between two digits, so a value with one digit shows none.
-/

namespace PlaneReport

open Binary Decimal

/-! ## Texts with a fraction -/

namespace Text

/-- Some point of the text stands before a digit. -/
def ShowsFraction (text : List Char) : Prop :=
  ∃ before c after, text = before ++ '.' :: c :: after ∧ isDigit c = true

theorem ShowsFraction.point_mem {text : List Char} (h : ShowsFraction text) : '.' ∈ text := by
  obtain ⟨before, c, after, rfl, -⟩ := h
  exact List.mem_append_right _ List.mem_cons_self

theorem showsFraction_cons_iff {c : Char} (hc : c ≠ '.') {text : List Char} :
    ShowsFraction (c :: text) ↔ ShowsFraction text := by
  constructor
  · rintro ⟨before, d, after, htext, hd⟩
    cases before with
    | nil =>
      cases htext
      exact absurd rfl hc
    | cons b before =>
      cases htext
      exact ⟨before, d, after, rfl, hd⟩
  · rintro ⟨before, d, after, rfl, hd⟩
    exact ⟨c :: before, d, after, rfl, hd⟩

end Text

namespace Layout

open Text

theorem ne_point_of_isDigit {c : Char} (hc : isDigit c = true) : c ≠ '.' := by
  rintro rfl
  exact absurd hc (by decide)

theorem IsPointed.showsFraction {whole fraction : List Char} (h : IsPointed whole fraction) :
    ShowsFraction (whole ++ '.' :: fraction) := by
  obtain ⟨c, rest, rfl⟩ := List.exists_cons_of_ne_nil h.fraction_ne_nil
  have hall := h.fraction_all
  rw [List.all_cons, Bool.and_eq_true] at hall
  exact ⟨whole, c, rest, rfl, hall.1⟩

theorem point_notMem_exponent (plusSign : Bool) (exponent : ℤ) :
    '.' ∉ 'e' :: (exponentSign plusSign exponent ++ Nat.toDigits 10 exponent.natAbs) := by
  have hdigits : '.' ∉ Nat.toDigits 10 exponent.natAbs := fun hmem =>
    absurd (List.all_eq_true.mp (all_isDigit_toDigits _) _ hmem) (by decide)
  have hsign : '.' ∉ exponentSign plusSign exponent := by
    unfold exponentSign
    split
    · decide
    · split <;> decide
  rw [List.mem_cons, List.mem_append]
  rintro (h | h | h)
  · exact absurd h (by decide)
  · exact hsign h
  · exact hdigits h

/-- A digit with a power of ten has no point; more digits have theirs after the first. -/
theorem showsFraction_scientific_iff {first : Char} {fraction : List Char}
    (hfirst : isDigit first = true) (hfraction : fraction.all isDigit = true) (plusSign : Bool)
    (exponent : ℤ) :
    ShowsFraction (scientific plusSign (first :: fraction) exponent) ↔
      1 < (first :: fraction).length := by
  cases fraction with
  | nil =>
    refine iff_of_false (fun h => ?_) (Nat.lt_irrefl 1)
    obtain hmem | hmem := List.mem_cons.mp (show '.' ∈ first :: 'e' ::
      (exponentSign plusSign exponent ++ Nat.toDigits 10 exponent.natAbs) from h.point_mem)
    · exact ne_point_of_isDigit hfirst hmem.symm
    · exact point_notMem_exponent plusSign exponent hmem
  | cons c rest =>
    rw [List.all_cons, Bool.and_eq_true] at hfraction
    refine iff_of_true ⟨[first], c, rest ++ 'e' :: (exponentSign plusSign exponent ++
      Nat.toDigits 10 exponent.natAbs), ?_, hfraction.1⟩ ?_
    · rfl
    · rw [List.length_cons, List.length_cons]
      omega

/-- A magnitude shows a fraction if all its places are written, or else if it has more than one
digit. -/
theorem showsFraction_magnitude_iff {layout : Layout} (hmark : layout.integralMark = ".0".toList)
    {least greatest : ℤ} (hdecades : layout.decades = some (least, greatest)) {f : Format}
    (hf : 2 ≤ f.width) {x : Magnitude f} (hx : x.significand ≠ 0) :
    ShowsFraction (layout.magnitude x) ↔
      (least ≤ firstPlace (shortest layout.tie x) ∧
          firstPlace (shortest layout.tie x) ≤ greatest) ∨
        1 < digitCount (shortest layout.tie x).1 := by
  have hne := digitsOf_ne_nil layout.tie x
  have hall := all_isDigit_digitsOf layout.tie x
  have hlead := head?_digitsOf hf layout.tie x
  have hdigits := digitsOf_eq layout.tie hx
  have hpoint : (digitsOf layout.tie x).2 - 1 = firstPlace (shortest layout.tie x) := by
    rw [hdigits]
    rfl
  have hlength : (digitsOf layout.tie x).1.length = digitCount (shortest layout.tie x).1 := by
    rw [hdigits]
    rfl
  rw [magnitude_eq hdecades hx, hpoint]
  by_cases hwritten : least ≤ firstPlace (shortest layout.tie x) ∧
      firstPlace (shortest layout.tie x) ≤ greatest
  · rw [if_pos hwritten, hmark]
    obtain ⟨whole, fraction, htext, hsetting⟩ := positional_eq hne hall hlead
    rw [htext]
    exact iff_of_true hsetting.isPointed.showsFraction (.inl hwritten)
  · rw [if_neg hwritten, or_iff_right hwritten, ← hlength]
    obtain ⟨first, fraction, hcons⟩ := List.exists_cons_of_ne_nil hne
    rw [hcons, List.all_cons, Bool.and_eq_true] at hall
    rw [hcons]
    exact showsFraction_scientific_iff hall.1 hall.2 _ _

end Layout

/-! ## Which values have all their places written -/

namespace Binary.Magnitude

theorem value_eq {f : Format} (x : Magnitude f) :
    x.value = x.significand * 2 ^ ((x.shift : ℤ) - f.scale) := by
  unfold value units
  rw [zpow_sub₀ (by norm_num), zpow_natCast, zpow_natCast]
  push_cast
  ring

theorem value_le_value_iff {f : Format} {x y : Magnitude f} :
    x.value ≤ y.value ↔ x.units ≤ y.units := by
  unfold value
  rw [div_le_div_iff_of_pos_right (by positivity), Nat.cast_le]

/-- If a bound lies between a magnitude and the one before it, the values from the bound on are
those of the magnitudes from this one on. -/
theorem le_value_iff {f : Format} {x y : Magnitude f} {bound : ℚ} (hle : bound ≤ y.value)
    (hleast : 2 ^ (f.width - 1) < y.significand)
    (hgap : (y.significand - 1) * 2 ^ ((y.shift : ℤ) - f.scale) < bound) :
    bound ≤ x.value ↔ y.units ≤ x.units := by
  refine ⟨fun hbound => ?_, fun hunits => hle.trans (value_le_value_iff.mpr hunits)⟩
  by_contra hlt
  have hroom := quarters_add_roomBelow_le (Nat.not_le.mp hlt)
  rw [roomBelow_of_lt hleast] at hroom
  unfold quarters at hroom
  have hunits : x.units + 2 ^ y.shift ≤ y.units := by omega
  have hvalue : x.value + 2 ^ ((y.shift : ℤ) - f.scale) ≤ y.value := by
    have hpow : (2 : ℚ) ^ ((y.shift : ℤ) - f.scale) = (2 ^ y.shift : ℕ) / 2 ^ f.scale := by
      rw [zpow_sub₀ (by norm_num), zpow_natCast, zpow_natCast]
      push_cast
      rfl
    unfold value
    rw [hpow, ← add_div]
    exact div_le_div_of_nonneg_right (by exact_mod_cast hunits) (by positivity)
  rw [y.value_eq] at hvalue
  linarith

/-- The number nearest to `1 / 10 ^ 4`. -/
def onePerMyriad : Magnitude double where
  significand := 7378697629483821
  shift := 1008
  significand_lt := by decide
  shift_le := by decide
  canonical := by decide

/-- `10 ^ 16`. -/
def myriadMyriads : Magnitude double where
  significand := 5000000000000000
  shift := 1075
  significand_lt := by decide
  shift_le := by decide
  canonical := by decide

theorem shortest_onePerMyriad : shortest .up onePerMyriad = (1, -4) := by decide +kernel

theorem shortest_myriadMyriads : shortest .up myriadMyriads = (1, 16) := by decide +kernel

theorem le_value_iff_onePerMyriad {x : Magnitude double} :
    1 / 10 ^ 4 ≤ x.value ↔ onePerMyriad.units ≤ x.units := by
  refine le_value_iff ?_ (by decide) ?_
  · rw [value_eq]
    show (1 / 10 ^ 4 : ℚ) ≤ ((7378697629483821 : ℕ) : ℚ) * 2 ^ (((1008 : ℕ) : ℤ) - (1074 : ℕ))
    norm_num
  · show (((7378697629483821 : ℕ) : ℚ) - 1) * 2 ^ (((1008 : ℕ) : ℤ) - (1074 : ℕ)) < 1 / 10 ^ 4
    norm_num

theorem le_value_iff_myriadMyriads {x : Magnitude double} :
    10 ^ 16 ≤ x.value ↔ myriadMyriads.units ≤ x.units := by
  refine le_value_iff ?_ (by decide) ?_
  · rw [value_eq]
    show (10 ^ 16 : ℚ) ≤ ((5000000000000000 : ℕ) : ℚ) * 2 ^ (((1075 : ℕ) : ℤ) - (1074 : ℕ))
    norm_num
  · show (((5000000000000000 : ℕ) : ℚ) - 1) * 2 ^ (((1075 : ℕ) : ℤ) - (1074 : ℕ)) < 10 ^ 16
    norm_num

end Binary.Magnitude

open Binary.Magnitude in
theorem firstPlace_shortest_bounds_iff {x : Magnitude double} (hx : x.significand ≠ 0) :
    (-4 ≤ firstPlace (shortest .up x) ∧ firstPlace (shortest .up x) ≤ 15) ↔
      1 / 10 ^ 4 ≤ x.value ∧ x.value < 10 ^ 16 := by
  have hleast := le_firstPlace_shortest_iff .up (by decide) hx (by decide) shortest_onePerMyriad
  have hgreatest := le_firstPlace_shortest_iff .up (by decide) hx (by decide) shortest_myriadMyriads
  rw [hleast, ← le_value_iff_onePerMyriad, ← not_le (b := x.value), le_value_iff_myriadMyriads,
    ← hgreatest]
  refine and_congr_right fun _ => ?_
  omega

/-! ## The shortest style -/

theorem Binary.Number.abs_value (negative : Bool) {f : Format} (size : Magnitude f) :
    |Number.value (.finite negative size)| = size.value := by
  have hnonneg : 0 ≤ size.value := by
    unfold Magnitude.value
    positivity
  cases negative with
  | true => exact (abs_neg size.value).trans (abs_of_nonneg hnonneg)
  | false => exact abs_of_nonneg hnonneg

namespace Layout

open Text

theorem showsFraction_exact_iff (negative : Bool) (size : Magnitude double) :
    ShowsFraction (exact.chars (.finite negative size)) ↔ ShowsFraction (exact.magnitude size) := by
  cases negative with
  | true => exact showsFraction_cons_iff (by decide)
  | false => exact Iff.rfl

theorem showsFraction_zero : ShowsFraction (exact.magnitude (.zero : Magnitude double)) :=
  ⟨['0'], '0', [], rfl, rfl⟩

/-- What shows no fraction is a digit with a power of ten. -/
theorem magnitude_of_not_showsFraction {x : Magnitude double}
    (h : ¬ ShowsFraction (exact.magnitude x)) :
    ∃ digit exponent, isDigit digit = true ∧
      exact.magnitude x = digit :: 'e' :: Json.integerChars exponent := by
  have hmark : exact.integralMark = ".0".toList := rfl
  obtain ⟨whole, fraction, htext, hsetting⟩ | ⟨first, fraction, hdigits, htext⟩ :=
    magnitude_cases hmark (by decide) x
  · rw [htext] at h
    exact absurd hsetting.isPointed.showsFraction h
  · have hall := all_isDigit_digitsOf exact.tie x
    rw [hdigits, List.all_cons, Bool.and_eq_true] at hall
    rw [htext, showsFraction_scientific_iff hall.1 hall.2, List.length_cons] at h
    have hnil : fraction = [] := List.eq_nil_of_length_eq_zero (by omega)
    rw [hnil] at htext
    refine ⟨first, (digitsOf exact.tie x).2 - 1, hall.1, htext.trans ?_⟩
    unfold Json.integerChars
    show first :: 'e' :: ((if _ then ['-'] else []) ++ Nat.toDigits 10 _) = _
    split <;> rfl

end Layout

namespace DistanceStyle

/-- A finite value shows a fraction in the shortest style if it is zero, or all its places are
written, or no decimal with one significant digit is read as it.  Any other finite value is a digit
with a power of ten. -/
theorem format_shortest_fraction {v : Double} (hv : v.isFinite = true) :
    ∃ text, shortest.format v = .ok text ∧
      (Text.ShowsFraction text.toList ↔
        v.isZero = true ∨ (1 / 10 ^ 4 ≤ |v.value| ∧ |v.value| < 10 ^ 16) ∨
          ∀ d : Decimal, d.toNumber double = v → 1 < significantDigits d.coefficient) ∧
      (¬ Text.ShowsFraction text.toList → ∃ digit exponent, isDigit digit = true ∧
        text.toList = (if v.isNegative = true then ['-'] else []) ++
          digit :: 'e' :: Json.integerChars exponent) := by
  cases v with
  | nan => cases hv
  | infinite negative => cases hv
  | finite negative size =>
    refine ⟨Layout.exact.text (.finite negative size), rfl, ?_, ?_⟩
    · rw [Layout.text, String.toList_ofList, Layout.showsFraction_exact_iff, Number.abs_value]
      by_cases hzero : size.significand = 0
      · rw [Magnitude.eq_zero_of_significand hzero]
        exact iff_of_true Layout.showsFraction_zero (.inl rfl)
      · have hfewest : 1 < digitCount (Decimal.shortest .up size).1 ↔
            ∀ d : Decimal, d.toNumber double = .finite negative size →
              1 < significantDigits d.coefficient := by
          have hiff := digitCount_shortest_le_iff .up (by decide) hzero negative (n := 1)
          simpa only [not_le, not_exists, not_and] using not_congr hiff
        have hnonzero : Number.isZero (.finite negative size) ≠ true :=
          fun h => hzero (beq_iff_eq.mp h)
        rw [Layout.showsFraction_magnitude_iff rfl rfl (by decide) hzero, or_iff_right hnonzero,
          show Layout.exact.tie = .up from rfl, firstPlace_shortest_bounds_iff hzero, hfewest]
    · rw [Layout.text, String.toList_ofList, Layout.showsFraction_exact_iff]
      intro hshows
      obtain ⟨digit, exponent, hdigit, htext⟩ := Layout.magnitude_of_not_showsFraction hshows
      exact ⟨digit, exponent, hdigit, congrArg (_ ++ ·) htext⟩

/-- The least positive value is far below those with all places, and has one digit. -/
theorem format_shortest_fraction_least :
    (Number.ofBits 1 : Double).isFinite = true ∧
      shortest.format (Number.ofBits 1) = .ok "5e-324" ∧
      ¬ Text.ShowsFraction "5e-324".toList ∧
      ∃ d : Decimal, d.toNumber double = Number.ofBits 1 ∧ significantDigits d.coefficient ≤ 1 := by
  have hfinite : (Number.ofBits 1 : Double).isFinite = true := by decide
  have hformat : shortest.format (Number.ofBits 1) = .ok "5e-324" := by decide +kernel
  have hshows : ¬ Text.ShowsFraction "5e-324".toList := fun h => absurd h.point_mem (by decide)
  obtain ⟨text, htext, hiff, -⟩ := format_shortest_fraction hfinite
  rw [hformat] at htext
  cases htext
  obtain ⟨-, -, hdigits⟩ : _ ∧ _ ∧ ¬ _ := by rwa [hiff, not_or, not_or] at hshows
  refine ⟨hfinite, hformat, hshows, ?_⟩
  simpa only [not_forall, exists_prop, not_lt] using hdigits

/-- The first value with a power of ten is one itself, and shows no fraction. -/
theorem format_shortest_powerOfTen :
    (Number.ofInt (10 ^ 16) : Double).isFinite = true ∧
      shortest.format (Number.ofInt (10 ^ 16)) = .ok "1e16" ∧
      ¬ Text.ShowsFraction "1e16".toList :=
  ⟨by decide +kernel, by decide +kernel, fun h => absurd h.point_mem (by decide)⟩

end DistanceStyle
end PlaneReport
