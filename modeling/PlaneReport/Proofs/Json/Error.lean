import PlaneReport.Proofs.Binary.Error
import PlaneReport.Proofs.Json.Spelled

/-!
# How far a numeral is from what it spells

A numeral that is no integer is read with up to four roundings: of its significand, of a power of
ten, and of one or two quotients or a product.  Each but the last costs a part of the value that
two spacings of a magnitude bound, the last one a spacing at most, and the digits of a magnitude are
half a spacing from it.  So what is read differs from what was printed, but by less than four
spacings.
-/

namespace PlaneReport
namespace Json
namespace Numeral

open Binary Decimal

/-- The part of a value that one rounding may cost. -/
def roundoff : ℚ :=
  1 / 2 ^ double.width

theorem roundoff_eq : roundoff = 1 / 2 ^ 53 := by
  unfold roundoff
  rw [show double.width = 53 from rfl]

theorem roundoff_lt_one : roundoff < 1 := by
  rw [roundoff_eq]
  norm_num

/-- Nothing positive is rounded to zero by so much. -/
theorem units_pos_of_isWithin {x : Magnitude double} {exact : ℚ}
    (h : IsWithin roundoff exact x.units) (hpos : 0 < exact) : 0 < x.units := by
  exact_mod_cast h.pos hpos roundoff_lt_one

/-! ## Factors -/

/-- The rounding of a whole number. -/
theorem exists_whole {n : ℕ} (hpos : 0 < n) (hn : n ≤ 10 ^ maxFactor) :
    ∃ s : Magnitude double, Number.ofUnits false (n * 2 ^ double.scale) 1 = .finite false s ∧
      IsWithin roundoff (n * 2 ^ double.scale) s.units := by
  have hrange : 2 * (10 ^ maxFactor * 2 ^ double.scale) + 1 * 2 ^ double.top <
      2 * 2 ^ double.width * (1 * 2 ^ double.top) := by decide +kernel
  have hscaled : n * 2 ^ double.scale ≤ 10 ^ maxFactor * 2 ^ double.scale :=
    Nat.mul_le_mul_right _ hn
  obtain ⟨s, hs⟩ := Magnitude.exists_nearest?_of_lt (f := double) Nat.one_pos
    ((Nat.add_le_add_right (Nat.mul_le_mul_left 2 hscaled) _).trans_lt hrange)
  have hlarge : (2 ^ double.width : ℚ) ≤ 2 * (((n * 2 ^ double.scale : ℕ) : ℚ) / (1 : ℕ)) := by
    have hone : 1 * 2 ^ double.scale ≤ n * 2 ^ double.scale := Nat.mul_le_mul_right _ hpos
    have hwidth : 2 ^ double.width ≤ 1 * 2 ^ double.scale := by decide +kernel
    rw [Nat.cast_one, div_one]
    exact_mod_cast (by omega : 2 ^ double.width ≤ 2 * (n * 2 ^ double.scale))
  have hwithin := isWithin_of_nearest? Nat.one_pos hs hlarge
  rw [Nat.cast_one, div_one, Nat.cast_mul, Nat.cast_pow, Nat.cast_ofNat] at hwithin
  exact ⟨s, Number.ofUnits_eq_finite_iff.mpr ⟨rfl, hs⟩, hwithin⟩

theorem exists_start {n : ℕ} (hpos : 0 < n) (hlength : n ≤ 10 ^ 17) :
    ∃ s : Magnitude double, Number.ofInt n = .finite false s ∧
      IsWithin roundoff (n * 2 ^ double.scale) s.units := by
  unfold Number.ofInt
  rw [decide_eq_false (by omega), Int.natAbs_natCast]
  exact exists_whole hpos (hlength.trans (Nat.pow_le_pow_right (by decide) (by decide)))

theorem exists_power {k : ℕ} (hk : k ≤ maxFactor) :
    ∃ p : Magnitude double, powerOfTen k = .finite false p ∧
      IsWithin roundoff (10 ^ k * 2 ^ double.scale) p.units := by
  have hwhole := exists_whole (Nat.pow_pos (by decide)) (Nat.pow_le_pow_right (by decide) hk)
  rw [Nat.cast_pow, Nat.cast_ofNat] at hwhole
  exact hwhole

/-- A number with few digits before a power of two is not rounded at all. -/
theorem exists_exact {n m k : ℕ} (hn : n = m * 2 ^ k) (hm : m < 2 ^ double.width)
    (hk : k ≤ 22) :
    ∃ s : Magnitude double, Number.ofUnits false (n * 2 ^ double.scale) 1 = .finite false s ∧
      s.units = n * 2 ^ double.scale := by
  have hnum : n * 2 ^ double.scale = m * 2 ^ (k + double.scale) := by
    rw [hn, Nat.pow_add, Nat.mul_assoc]
  have hshift : Magnitude.shiftFor double (n * 2 ^ double.scale) 1 ≤ k + double.scale := by
    unfold Magnitude.shiftFor
    rw [Nat.div_one, Nat.sub_le_iff_le_add, bitLength_le_iff, hnum,
      Nat.add_comm (k + double.scale), Nat.pow_add 2 double.width]
    exact Nat.mul_lt_mul_of_pos_right hm (Nat.two_pow_pos _)
  have hdvd : 1 * 2 ^ Magnitude.shiftFor double (n * 2 ^ double.scale) 1 ∣ n * 2 ^ double.scale := by
    rw [Nat.one_mul]
    exact (Nat.pow_dvd_pow 2 hshift).trans ⟨m, by rw [hnum, Nat.mul_comm]⟩
  have htop : 22 + double.scale ≤ double.top := by decide
  obtain ⟨s, hs, hunits⟩ := Magnitude.nearest?_of_dvd Nat.one_pos
    (hshift.trans ((Nat.add_le_add_right hk _).trans htop)) hdvd
  exact ⟨s, Number.ofUnits_eq_finite_iff.mpr ⟨rfl, hs⟩, (Nat.mul_one _).symm.trans hunits⟩

theorem exists_start_exact {n : ℕ} (hn : n < 2 ^ double.width) :
    ∃ s : Magnitude double, Number.ofInt n = .finite false s ∧ s.units = n * 2 ^ double.scale := by
  unfold Number.ofInt
  rw [decide_eq_false (by omega), Int.natAbs_natCast]
  exact exists_exact (k := 0) (by rw [Nat.pow_zero, Nat.mul_one]) hn (by decide)

theorem exists_power_exact {k : ℕ} (hk : k ≤ 22) :
    ∃ p : Magnitude double, powerOfTen k = .finite false p ∧
      p.units = 10 ^ k * 2 ^ double.scale := by
  have hfive : 5 ^ k < 2 ^ double.width :=
    (Nat.pow_le_pow_right (by decide) hk).trans_lt (by decide)
  exact exists_exact (Nat.mul_pow 5 2 k) hfive hk

/-- The factor that exponents beyond reach are divided by first. -/
def maxPower : Magnitude double :=
  ⟨5010420900022432, 2045, by decide, by decide, .inr (by decide)⟩

theorem powerOfTen_maxFactor : powerOfTen maxFactor = .finite false maxPower := by
  decide +kernel

/-- It is nearer to its power of ten than a rounding costs in general. -/
theorem isWithin_maxPower :
    IsWithin (roundoff / 10) (10 ^ maxFactor * 2 ^ double.scale) maxPower.units := by
  have hwithin : IsWithin (1 / ((2 ^ double.width * 10 : ℕ) : ℚ))
      ((10 ^ maxFactor * 2 ^ double.scale : ℕ) : ℚ) maxPower.units :=
    .of_nat (by decide) (by decide +kernel) (by decide +kernel)
  rw [Nat.cast_mul (2 ^ double.width), Nat.cast_mul (10 ^ maxFactor), Nat.cast_pow, Nat.cast_pow,
    Nat.cast_pow, Nat.cast_ofNat, Nat.cast_ofNat, ← div_div] at hwithin
  exact hwithin

/-! ## What is rounded last -/

section Parts

variable {coefficient : ℕ} {exponent : ℤ} {s p y : Magnitude double}

theorem ofParts_product (hlow : 0 ≤ exponent) (hhigh : exponent.natAbs ≤ maxFactor)
    (hs : Number.ofInt coefficient = .finite false s)
    (hp : powerOfTen exponent.natAbs = .finite false p)
    (h : Magnitude.nearest? double (s.units * p.units) (2 ^ double.scale) = some y)
    (negative : Bool) : ofParts negative coefficient exponent = .number (.finite negative y) := by
  have hproduct : (.finite false s * .finite false p : Double) = .finite false y :=
    Number.mul_eq_finite h
  unfold ofParts
  dsimp only
  rw [if_pos hlow, if_pos hhigh, hs, hp, hproduct,
    if_pos (show (Number.finite false y).isFinite = true from rfl)]
  cases negative <;> rfl

theorem ofParts_quotient (hlow : exponent < 0) {value : Double} {rest : ℤ}
    (hscale : scaleDown 4 (Number.ofInt coefficient) exponent = (value, rest))
    (hrest : rest.natAbs ≤ maxFactor) (hvalue : value = .finite false s)
    (hp : powerOfTen rest.natAbs = .finite false p) (hden : 0 < p.units)
    (h : Magnitude.nearest? double (s.units * 2 ^ double.scale) p.units = some y)
    (negative : Bool) : ofParts negative coefficient exponent = .number (.finite negative y) := by
  have hquotient : (.finite false s / .finite false p : Double) = .finite false y :=
    Number.div_eq_finite (fun hzero => hden.ne' (Magnitude.units_eq_zero_iff.mpr hzero)) h
  unfold ofParts
  dsimp only
  rw [if_neg (by omega), hscale]
  dsimp only
  rw [if_pos hrest, hvalue, hp, hquotient]
  cases negative <;> rfl

theorem scaleDown_of_le (steps : ℕ) (value : Double) (h : exponent.natAbs ≤ maxFactor) :
    scaleDown (steps + 1) value exponent = (value, exponent) := by
  unfold scaleDown
  rw [if_pos (by simp [h])]

theorem scaleDown_of_lt (steps : ℕ) (hs : 0 < s.units) (h : maxFactor < exponent.natAbs) :
    scaleDown (steps + 1) (.finite false s) exponent =
      scaleDown steps (.finite false s / powerOfTen maxFactor) (exponent + maxFactor) := by
  have hzero : (.finite false s : Double).isZero = false := by
    rw [Nat.pos_iff_ne_zero, ne_eq, Magnitude.units_eq_zero_iff] at hs
    simpa [Number.isZero] using hs
  rw [scaleDown, if_neg (by simp [hzero, h])]

/-- A decimal in units. -/
def unitsOf (coefficient : ℕ) (exponent : ℤ) : ℚ :=
  scaled coefficient exponent * 2 ^ double.scale

theorem quartersOf_eq (coefficient : ℕ) (exponent : ℤ) :
    quartersOf double coefficient exponent = 4 * unitsOf coefficient exponent := by
  unfold quartersOf unitsOf
  rw [pow_add]
  ring

theorem unitsOf_of_nonneg (h : 0 ≤ exponent) : unitsOf coefficient exponent =
    coefficient * 2 ^ double.scale * (10 ^ exponent.natAbs * 2 ^ double.scale) *
      (2 ^ double.scale)⁻¹ := by
  unfold unitsOf scaled
  rw [← Int.natAbs_of_nonneg h, Int.natAbs_natCast, zpow_natCast]
  field_simp

theorem unitsOf_of_nonpos (h : exponent ≤ 0) : unitsOf coefficient exponent =
    coefficient * 2 ^ double.scale / (10 ^ exponent.natAbs * 2 ^ double.scale) *
      2 ^ double.scale := by
  have hexponent : exponent = -(exponent.natAbs : ℤ) := by omega
  unfold unitsOf scaled
  rw [hexponent, zpow_neg, zpow_natCast, Int.natAbs_neg, Int.natAbs_natCast]
  field_simp

theorem unitsOf_sub (coefficient : ℕ) (exponent : ℤ) (k : ℕ) :
    unitsOf coefficient (exponent - k) = unitsOf coefficient exponent / 10 ^ k := by
  unfold unitsOf scaled
  rw [zpow_sub₀ (by norm_num), zpow_natCast]
  ring

/-- The quotient that is rounded last when a decimal is read: it is as near to the decimal as two
roundings and a tenth of a third one leave it. -/
structure IsLast (coefficient : ℕ) (exponent : ℤ) (num den : ℕ) : Prop where
  den_pos : 0 < den
  near : |(num / den : ℚ) - unitsOf coefficient exponent| ≤
    17 / 8 * roundoff * unitsOf coefficient exponent + 1 / 20
  reads {y : Magnitude double} (h : Magnitude.nearest? double num den = some y)
    (negative : Bool) : ofParts negative coefficient exponent = .number (.finite negative y)

theorem exists_isLast_product (hpos : 0 < coefficient) (hlength : coefficient ≤ 10 ^ 17)
    (hlow : 0 ≤ exponent) (hhigh : exponent ≤ maxFactor) :
    ∃ num den, IsLast coefficient exponent num den := by
  have hreach : exponent.natAbs ≤ maxFactor := by omega
  obtain ⟨s, hs, hstart⟩ := exists_start hpos hlength
  obtain ⟨p, hp, hpower⟩ := exists_power hreach
  have hwithin := ((hstart.mul hpower (by positivity) (by positivity)).mul_right
    (by positivity : (0 : ℚ) ≤ (2 ^ double.scale)⁻¹)).mono (by positivity)
      (show roundoff + roundoff + roundoff * roundoff ≤ 17 / 8 * roundoff by
        rw [roundoff_eq]
        norm_num)
  rw [← unitsOf_of_nonneg hlow] at hwithin
  refine ⟨s.units * p.units, 2 ^ double.scale, Nat.two_pow_pos _, ?_,
    fun h negative => ofParts_product hlow hreach hs hp h negative⟩
  rw [Nat.cast_mul, Nat.cast_pow, Nat.cast_ofNat, div_eq_mul_inv]
  exact hwithin.trans (by linarith)

theorem exists_isLast_quotient (hpos : 0 < coefficient) (hlength : coefficient ≤ 10 ^ 17)
    (hlow : -maxFactor ≤ exponent) (hhigh : exponent < 0) :
    ∃ num den, IsLast coefficient exponent num den := by
  have hreach : exponent.natAbs ≤ maxFactor := by omega
  obtain ⟨s, hs, hstart⟩ := exists_start hpos hlength
  obtain ⟨p, hp, hpower⟩ := exists_power hreach
  have hwithin := ((hstart.div hpower (by positivity) (by positivity) roundoff_lt_one).mul_right
    (by positivity : (0 : ℚ) ≤ 2 ^ double.scale)).mono (by positivity)
      (show (roundoff + roundoff) / (1 - roundoff) ≤ 17 / 8 * roundoff by
        rw [roundoff_eq]
        norm_num)
  rw [← unitsOf_of_nonpos hhigh.le] at hwithin
  have hden := units_pos_of_isWithin hpower (by positivity)
  refine ⟨s.units * 2 ^ double.scale, p.units, hden, ?_,
    fun h negative => ofParts_quotient hhigh ?_ hreach hs hp hden h negative⟩
  · rw [Nat.cast_mul, Nat.cast_pow, Nat.cast_ofNat, mul_div_right_comm]
    exact hwithin.trans (by linarith)
  · exact scaleDown_of_le 3 _ hreach

/-- One division by the largest factor is always in range. -/
theorem exists_scaled (s : Magnitude double) : ∃ t : Magnitude double,
    Magnitude.nearest? double (s.units * 2 ^ double.scale) maxPower.units = some t := by
  have hrange : 2 * (2 ^ double.width * 2 ^ double.top * 2 ^ double.scale) +
      maxPower.units * 2 ^ double.top <
        2 * 2 ^ double.width * (maxPower.units * 2 ^ double.top) := by decide +kernel
  have hunits : s.units ≤ 2 ^ double.width * 2 ^ double.top :=
    Nat.mul_le_mul s.significand_lt.le (Nat.pow_le_pow_right (by decide) s.shift_le)
  have hden : 0 < maxPower.units := by decide +kernel
  exact Magnitude.exists_nearest?_of_lt hden
    ((Nat.add_le_add_right (Nat.mul_le_mul_left 2 (Nat.mul_le_mul_right _ hunits)) _).trans_lt
      hrange)

/-- Below the powers that can be factors, the first quotient is near that by the largest one. -/
theorem exists_scaleDown (hpos : 0 < coefficient) (hlength : coefficient ≤ 10 ^ 17)
    (hlow : exponent < -maxFactor) (hreach : (exponent + maxFactor).natAbs ≤ maxFactor) :
    ∃ (t : Magnitude double) (q : ℚ),
      scaleDown 4 (Number.ofInt coefficient) exponent =
        (.finite false t, exponent + maxFactor) ∧
      IsWithin (10 / 9 * roundoff) (unitsOf coefficient (-maxFactor)) q ∧
      |t.units - q| ≤ max (q / 2 ^ double.width) (1 / 2) := by
  obtain ⟨s, hs, hstart⟩ := exists_start hpos hlength
  obtain ⟨t, ht⟩ := exists_scaled s
  have hquotient : (.finite false s / .finite false maxPower : Double) = .finite false t :=
    Number.div_eq_finite (by decide) ht
  have hwithin := ((hstart.div isWithin_maxPower (by positivity) (by positivity)
    (by rw [roundoff_eq]; norm_num)).mul_right
      (by positivity : (0 : ℚ) ≤ 2 ^ double.scale)).mono (by positivity)
        (show (roundoff + roundoff / 10) / (1 - roundoff / 10) ≤ 10 / 9 * roundoff by
          rw [roundoff_eq]
          norm_num)
  have hexact : unitsOf coefficient (-maxFactor) = coefficient * 2 ^ double.scale /
      (10 ^ maxFactor * 2 ^ double.scale) * 2 ^ double.scale :=
    unitsOf_of_nonpos (by decide)
  have hround := Magnitude.abs_units_sub_le (by decide +kernel : 0 < maxPower.units) ht
  rw [Nat.cast_mul, Nat.cast_pow, Nat.cast_ofNat, mul_div_right_comm] at hround
  refine ⟨t, _, ?_, hexact ▸ hwithin, hround⟩
  rw [hs, scaleDown_of_lt 3 (units_pos_of_isWithin hstart (by positivity)) (by omega),
    powerOfTen_maxFactor, hquotient, scaleDown_of_le 2 _ hreach]

/-- Of the half unit that this quotient may cost, a tenth is left where ten divides it. -/
theorem abs_div_sub_div_le {exact q v r : ℚ} (hexact : 0 ≤ exact)
    (hq : IsWithin (10 / 9 * roundoff) exact q)
    (hv : |v - q| ≤ max (q / 2 ^ double.width) (1 / 2)) (hr : 10 ≤ r) :
    |v / r - exact / r| ≤ 17 / 8 * roundoff * (exact / r) + 1 / 20 := by
  have hrpos : 0 < r := by linarith
  have hpart : q / 2 ^ double.width = roundoff * q := (one_div_mul_eq_div _ _).symm
  have hqbounds := abs_le.mp hq
  have hsmall : roundoff * q + 10 / 9 * roundoff * exact ≤ 17 / 8 * roundoff * exact := by
    rw [roundoff_eq] at hqbounds ⊢
    linarith
  have hqpos : 0 ≤ roundoff * q := by
    rw [roundoff_eq] at hqbounds ⊢
    linarith
  have hlast : |v - q| ≤ roundoff * q + 1 / 2 := by
    rw [hpart] at hv
    exact hv.trans (max_le (by linarith) (by linarith))
  have hboth : |v - exact| ≤ 17 / 8 * roundoff * exact + 1 / 2 :=
    (abs_sub_le v q exact).trans (by linarith [show |q - exact| ≤ _ from hq])
  rw [← sub_div, abs_div, abs_of_pos hrpos, div_le_iff₀ hrpos]
  calc |v - exact| ≤ 17 / 8 * roundoff * exact + 1 / 20 * 10 := by linarith
    _ ≤ 17 / 8 * roundoff * exact + 1 / 20 * r := by linarith
    _ = (17 / 8 * roundoff * (exact / r) + 1 / 20) * r := by field_simp

theorem exists_isLast_small (hpos : 0 < coefficient) (hlength : coefficient ≤ 10 ^ 17)
    (hlow : -324 ≤ exponent) (hhigh : exponent < -maxFactor) :
    ∃ num den, IsLast coefficient exponent num den := by
  have hfactor : maxFactor = 308 := rfl
  have hreach : (exponent + maxFactor).natAbs ≤ 16 := by omega
  obtain ⟨t, q, hscale, hq, ht⟩ := exists_scaleDown hpos hlength hhigh (by omega)
  obtain ⟨p, hp, hpower⟩ := exists_power_exact (hreach.trans (by decide))
  have hden : 0 < p.units := by
    rw [hpower]
    positivity
  refine ⟨t.units * 2 ^ double.scale, p.units, hden, ?_,
    fun h negative => ofParts_quotient (by omega) hscale (by omega) rfl hp hden h negative⟩
  have hten : (10 : ℚ) ≤ 10 ^ (exponent + maxFactor).natAbs :=
    le_self_pow₀ (by norm_num) (by omega)
  have hexact : 0 ≤ unitsOf coefficient (-maxFactor) := by
    unfold unitsOf scaled
    positivity
  have hnear := abs_div_sub_div_le hexact hq ht hten
  rw [← unitsOf_sub,
    show -(maxFactor : ℤ) - (exponent + maxFactor).natAbs = exponent by omega] at hnear
  rw [hpower, Nat.cast_mul, Nat.cast_mul, mul_div_mul_right _ _ (by positivity), Nat.cast_pow 10,
    Nat.cast_ofNat]
  exact hnear

theorem exists_isLast (hpos : 0 < coefficient) (hlength : coefficient ≤ 10 ^ 17)
    (hlow : -324 ≤ exponent) (hhigh : exponent ≤ maxFactor) :
    ∃ num den, IsLast coefficient exponent num den := by
  by_cases hsign : 0 ≤ exponent
  · exact exists_isLast_product hpos hlength hsign hhigh
  · by_cases hreach : -maxFactor ≤ exponent
    · exact exists_isLast_quotient hpos hlength hreach (by omega)
    · exact exists_isLast_small hpos hlength hlow (by omega)

end Parts

/-! ## What is read -/

section Reading

variable {x y : Magnitude double} {coefficient : ℕ} {exponent : ℤ} {num den : ℕ}

/-- A decimal in the interval of a magnitude is half a spacing from it at most. -/
theorem abs_unitsOf_sub_le (h : x.Contains (quartersOf double coefficient exponent)) :
    |unitsOf coefficient exponent - x.units| ≤ 2 ^ x.shift / 2 := by
  have hbelow : (x.quarters : ℚ) ≤ (x.quarters - x.roomBelow : ℕ) + 2 * 2 ^ x.shift := by
    have := x.roomBelow_le
    exact_mod_cast (by omega : x.quarters ≤ x.quarters - x.roomBelow + 2 * 2 ^ x.shift)
  have hunits : (x.quarters : ℚ) = 4 * x.units := by
    unfold Magnitude.quarters
    push_cast
    rfl
  have hroom : ((x.quarters + x.roomAbove : ℕ) : ℚ) = x.quarters + 2 * 2 ^ x.shift := by
    unfold Magnitude.roomAbove
    push_cast
    rfl
  obtain ⟨hlow, hhigh, -⟩ := h
  rw [quartersOf_eq] at hlow hhigh
  rw [hroom] at hhigh
  rw [abs_le]
  constructor <;> linarith

theorem units_lt_spacing (x : Magnitude double) : (x.units : ℚ) < 2 ^ 53 * 2 ^ x.shift := by
  have hless : x.units < 2 ^ 53 * 2 ^ x.shift :=
    Nat.mul_lt_mul_of_pos_right x.significand_lt (Nat.two_pow_pos _)
  exact_mod_cast hless

/-- The last quotient is three spacings away at most. -/
theorem IsLast.abs_sub_lt (h : IsLast coefficient exponent num den)
    (hx : x.Contains (quartersOf double coefficient exponent)) :
    |(num / den : ℚ) - x.units| < 43 / 16 * 2 ^ x.shift := by
  have hspacing : (1 : ℚ) ≤ 2 ^ x.shift := one_le_pow₀ (by norm_num)
  have hdecimal := abs_unitsOf_sub_le hx
  have hnear := h.near
  have hunits := units_lt_spacing x
  have hbounds := abs_le.mp hdecimal
  rw [roundoff_eq] at hnear
  refine (abs_sub_le _ (unitsOf coefficient exponent) _).trans_lt ?_
  linarith

/-- With one rounding more it is less than four. -/
theorem IsLast.abs_units_sub_lt (h : IsLast coefficient exponent num den)
    (hx : x.Contains (quartersOf double coefficient exponent))
    (hy : Magnitude.nearest? double num den = some y) :
    |(y.units : ℚ) - x.units| < 4 * 2 ^ x.shift := by
  have hspacing : (1 : ℚ) ≤ 2 ^ x.shift := one_le_pow₀ (by norm_num)
  have hquotient := h.abs_sub_lt hx
  have hlast := Magnitude.abs_units_sub_le h.den_pos hy
  have hunits := units_lt_spacing x
  have hbounds := abs_lt.mp hquotient
  have hmax : max ((num : ℚ) / den / 2 ^ double.width) (1 / 2) ≤ 5 / 4 * 2 ^ x.shift := by
    rw [show double.width = 53 from rfl]
    exact max_le (by linarith) (by linarith)
  refine (abs_sub_le _ ((num : ℚ) / den) _).trans_lt ?_
  linarith

/-- Nothing overflows where there are four spacings more below the end of the range. -/
theorem IsLast.exists_nearest? (h : IsLast coefficient exponent num den)
    (hx : x.Contains (quartersOf double coefficient exponent))
    (hroom : x.shift = double.top → x.significand + 4 ≤ 2 ^ double.width) :
    ∃ y, Magnitude.nearest? double num den = some y := by
  have hquotient := (abs_lt.mp (h.abs_sub_lt hx)).2
  refine Magnitude.exists_nearest?_of_div_lt h.den_pos ?_
  have hspacing : (0 : ℚ) < 2 ^ double.top := by positivity
  by_cases htop : x.shift = double.top
  · have hunits : (x.units + 4 * 2 ^ double.top : ℚ) ≤ 2 ^ double.width * 2 ^ double.top := by
      have hscaled := Nat.mul_le_mul_right (2 ^ double.top) (hroom htop)
      rw [Nat.add_mul, ← htop] at hscaled
      rw [← htop]
      exact_mod_cast hscaled
    rw [htop] at hquotient
    linarith
  · have hshift : x.shift + 1 ≤ double.top := Nat.lt_of_le_of_ne x.shift_le htop
    have hhalf : (2 * 2 ^ x.shift : ℚ) ≤ 2 ^ double.top := by
      rw [← pow_succ']
      exact pow_le_pow_right₀ (by norm_num) hshift
    have hunits := units_lt_spacing x
    rw [show double.width = 53 from rfl]
    linarith

/-- The three largest magnitudes. -/
def belowTop (k : Fin 3) : Magnitude double where
  significand := 2 ^ double.width - 1 - k
  shift := double.top
  significand_lt := by
    have := Nat.two_pow_pos double.width
    omega
  shift_le := Nat.le_refl _
  canonical := .inr ((show 2 ^ (double.width - 1) ≤ 2 ^ double.width - 1 - 2 by decide).trans
    (by omega))

/-- Whose digits are read as the largest magnitude or the last but one of them. -/
theorem ofParts_belowTop : ∀ (negative : Bool) (k : Fin 3),
    ofParts negative (Decimal.shortest .toEven (belowTop k)).1
      (Decimal.shortest .toEven (belowTop k)).2 =
        .number (.finite negative (belowTop (k / 2 * 2))) := by
  decide +kernel

theorem units_belowTop (k : Fin 3) :
    (2 ^ double.width * 2 ^ double.top : ℚ) ≤ (belowTop k).units + 3 * 2 ^ double.top ∧
      ((belowTop k).units : ℚ) ≤ 2 ^ double.width * 2 ^ double.top := by
  have hlow : 2 ^ double.width ≤ 2 ^ double.width - 1 - (k : ℕ) + 3 := by omega
  have hscaled := Nat.mul_le_mul_right (2 ^ double.top) hlow
  rw [Nat.add_mul] at hscaled
  have hhigh : (belowTop k).units ≤ 2 ^ double.width * 2 ^ double.top :=
    Nat.mul_le_mul_right _ (belowTop k).significand_lt.le
  exact ⟨by exact_mod_cast hscaled, by exact_mod_cast hhigh⟩

theorem abs_units_belowTop_sub_lt (k l : Fin 3) :
    |((belowTop k).units - (belowTop l).units : ℚ)| < 4 * 2 ^ double.top := by
  have hspacing : (0 : ℚ) < 2 ^ double.top := by positivity
  obtain ⟨hlow, hhigh⟩ := units_belowTop k
  obtain ⟨hlow', hhigh'⟩ := units_belowTop l
  rw [abs_lt]
  constructor <;> linarith

theorem eq_belowTop (htop : x.shift = double.top) (hlarge : 2 ^ double.width < x.significand + 4) :
    ∃ k, x = belowTop k := by
  have hless := x.significand_lt
  refine ⟨⟨2 ^ double.width - 1 - x.significand, by omega⟩, ?_⟩
  refine Magnitude.eq_of_units_eq ?_
  unfold Magnitude.units belowTop
  rw [htop]
  congr 1
  dsimp only
  omega

/-- The bounds of what is spelled. -/
theorem Spells.bounds (h : Spells x coefficient exponent) :
    coefficient ≤ 10 ^ 17 ∧ -324 ≤ exponent ∧ exponent ≤ maxFactor := by
  obtain ⟨hx, hshortest⟩ | ⟨rfl, hlength⟩ := h.shape
  · obtain ⟨hlength, hlow⟩ := shortest_bounds .toEven hx
    have hhigh := shortest_place_le .toEven hx
    rw [← hshortest] at hlength hlow hhigh
    exact ⟨hlength, hlow, hhigh⟩
  · exact ⟨hlength, by decide, by decide⟩

/-- A magnitude that is not zero has what is spelled in its interval. -/
theorem Spells.contains (h : Spells x coefficient exponent) (hx : x.significand ≠ 0) :
    coefficient ≠ 0 ∧ x.Contains (quartersOf double coefficient exponent) := by
  have hmark : Layout.json.integralMark = ".0".toList := rfl
  obtain ⟨d, hd, hvalue⟩ := Layout.exists_unsignedOfText?_magnitude hmark (by decide) x false
  rw [h.exactly false] at hd
  cases hd
  exact contains_of_toNumber (by decide) hx hvalue

/-- The largest magnitudes are spelled by their shortest digits. -/
theorem Spells.eq_shortest (h : Spells x coefficient exponent) (htop : x.shift = double.top) :
    (coefficient, exponent) = Decimal.shortest .toEven x := by
  obtain ⟨-, hshortest⟩ | ⟨rfl, hlength⟩ := h.shape
  · exact hshortest
  · have hshift : x.shift ≠ 0 := by
      rw [htop]
      decide
    have htwo : 2 ≤ x.significand :=
      (show 2 ≤ 2 ^ (double.width - 1) by decide).trans (x.canonical.resolve_left hshift)
    have hdecimal := (abs_le.mp (abs_unitsOf_sub_le (h.contains (by omega)).2)).1
    have hunits : (2 * 2 ^ double.top : ℚ) ≤ x.units := by
      have hscaled := Nat.mul_le_mul_right (2 ^ double.top) htwo
      rw [← htop] at hscaled ⊢
      exact_mod_cast hscaled
    have hsmall : unitsOf coefficient (-1) ≤ 2 ^ double.top := by
      have hscaled := (Nat.mul_le_mul_right (2 ^ double.scale) hlength).trans
        (show 10 ^ 17 * 2 ^ double.scale ≤ 2 ^ double.top by decide +kernel)
      have hcast : (coefficient * 2 ^ double.scale : ℚ) ≤ 2 ^ double.top := by
        exact_mod_cast hscaled
      refine le_trans ?_ hcast
      unfold unitsOf scaled
      exact mul_le_mul_of_nonneg_right
        (mul_le_of_le_one_right (Nat.cast_nonneg _) (by norm_num)) (by positivity)
    have hspacing : (0 : ℚ) < 2 ^ double.top := by positivity
    rw [htop] at hdecimal
    linarith

/-- The digits of a magnitude are read as one that is less than four spacings away. -/
theorem Spells.exists_near (h : Spells x coefficient exponent) (hx : x.significand ≠ 0) :
    ∃ y : Magnitude double,
      (∀ negative, ofParts negative coefficient exponent = .number (.finite negative y)) ∧
        |(y.units : ℚ) - x.units| < 4 * 2 ^ x.shift := by
  obtain ⟨hne, hcontains⟩ := h.contains hx
  -- At the end of the range the bound of the error alone does not exclude an overflow.
  by_cases hlarge : x.shift = double.top ∧ 2 ^ double.width < x.significand + 4
  · obtain ⟨k, rfl⟩ := eq_belowTop hlarge.1 hlarge.2
    have hshortest := h.eq_shortest rfl
    refine ⟨belowTop (k / 2 * 2), fun negative => ?_, abs_units_belowTop_sub_lt _ _⟩
    rw [← ofParts_belowTop, ← hshortest]
  · obtain ⟨hlength, hlow, hhigh⟩ := h.bounds
    obtain ⟨num, den, hlast⟩ := exists_isLast (Nat.pos_of_ne_zero hne) hlength hlow hhigh
    obtain ⟨y, hy⟩ := hlast.exists_nearest? hcontains (by omega)
    exact ⟨y, hlast.reads hy, hlast.abs_units_sub_lt hcontains hy⟩

/-- A significand of 53 bits and a power of ten up to the 22nd are not rounded, so the only
rounding is that of the digits themselves. -/
theorem Spells.ofParts_eq (h : Spells x coefficient exponent) (hx : x.significand ≠ 0)
    (hcoefficient : coefficient < 2 ^ double.width) (hexponent : exponent.natAbs ≤ 22)
    (negative : Bool) : ofParts negative coefficient exponent = .number (.finite negative x) := by
  obtain ⟨-, hcontains⟩ := h.contains hx
  have hreach : exponent.natAbs ≤ maxFactor := hexponent.trans (by decide)
  obtain ⟨s, hs, hstart⟩ := exists_start_exact hcoefficient
  obtain ⟨p, hp, hpower⟩ := exists_power_exact hexponent
  by_cases hsign : 0 ≤ exponent
  · refine ofParts_product hsign hreach hs hp (Magnitude.nearest?_of_admits (Nat.two_pow_pos _) ?_)
      negative
    have hquotient : ((4 * (s.units * p.units) : ℕ) : ℚ) / (2 ^ double.scale : ℕ) =
        quartersOf double coefficient exponent := by
      rw [quartersOf_eq, unitsOf_of_nonneg hsign, hstart, hpower]
      push_cast
      ring
    rwa [Magnitude.admits_iff (Nat.two_pow_pos _), hquotient]
  · have hden : 0 < p.units := by
      rw [hpower]
      positivity
    refine ofParts_quotient (by omega) (scaleDown_of_le 3 _ hreach) hreach hs hp hden
      (Magnitude.nearest?_of_admits hden ?_) negative
    have hquotient : ((4 * (s.units * 2 ^ double.scale) : ℕ) : ℚ) / p.units =
        quartersOf double coefficient exponent := by
      rw [quartersOf_eq, unitsOf_of_nonpos (by omega), hstart, hpower]
      push_cast
      ring
    rwa [Magnitude.admits_iff hden, hquotient]

theorem Spells.eq_zero (h : Spells .zero coefficient exponent) :
    coefficient = 0 ∧ exponent = -1 := by
  have hzero : Decimal.unsignedOfText? false (Layout.json.magnitude (.zero : Magnitude double)) =
      some ⟨false, 0, -1⟩ := by decide
  rw [h.exactly false] at hzero
  cases hzero
  exact ⟨rfl, rfl⟩

end Reading

/-- How what is read for the characters of a finite number `x` relates to it: they spell the
decimal `d`, which is nearest to `x`, and `y` is what its coefficient and its power of ten make. -/
structure IsReadBack (x : Double) (d : Decimal) (y : Double) : Prop where
  printed : decimal? (Layout.json.chars x) = some d
  rounded : d.toNumber double = x
  parts : ofParts d.negative d.coefficient d.exponent = .number y
  finite : y.isFinite = true
  sign : y.isNegative = x.isNegative
  near : |y.value - x.value| < 4 * x.spacing
  same : d.coefficient < 2 ^ 53 → d.exponent.natAbs ≤ 22 → y = x

section Printed

variable {size : Magnitude double} {coefficient : ℕ} {exponent : ℤ}

theorem Spells.read_chars (h : Spells size coefficient exponent) (negative : Bool)
    {rest : List Char} (hrest : Text.StopsAt carriesOn rest) :
    read (Layout.json.chars (.finite negative size) ++ rest) =
      some (ofParts negative coefficient exponent, rest) := by
  cases negative with
  | true => exact h.numeral true hrest
  | false =>
    have hmark : Layout.json.integralMark = ".0".toList := rfl
    obtain ⟨c, more, htext, hc⟩ := Layout.exists_cons_magnitude hmark (by decide) size
    have hnumeral := h.numeral false hrest
    show read (Layout.json.magnitude size ++ rest) = _
    rw [htext, List.cons_append] at hnumeral ⊢
    rw [← hnumeral]
    unfold read
    split
    · next heq =>
      cases heq
      exact absurd hc (by decide)
    · rfl

/-- What is read for the digits of a magnitude, with either sign. -/
theorem Spells.exists_isReadBack (h : Spells size coefficient exponent) (negative : Bool) :
    ∃ y, IsReadBack (.finite negative size) ⟨negative, coefficient, exponent⟩ y := by
  have hscale : (0 : ℚ) < 2 ^ double.scale := by positivity
  have hprinted : decimal? (Layout.json.chars (.finite negative size : Double)) =
      some ⟨negative, coefficient, exponent⟩ :=
    (decimal?_finite (by decide) negative size).trans (h.exactly negative)
  obtain ⟨d, hd, hrounded⟩ := decimal?_chars (f := double) (by decide)
    (show (Number.finite negative size).isFinite = true from rfl)
  rw [hprinted] at hd
  cases hd
  by_cases hsize : size.significand = 0
  · cases Magnitude.eq_zero_of_significand hsize
    obtain ⟨rfl, rfl⟩ := h.eq_zero
    refine ⟨.finite negative .zero, hprinted, hrounded, ?_, rfl, rfl, ?_, fun _ _ => rfl⟩
    · cases negative <;> decide +kernel
    · rw [sub_self, abs_zero]
      exact mul_pos (by norm_num) (div_pos (by positivity) hscale)
  · obtain ⟨y, hy, hnear⟩ := h.exists_near hsize
    refine ⟨.finite negative y, hprinted, hrounded, hy negative, rfl, rfl, ?_, ?_⟩
    · rw [Number.abs_value_sub]
      unfold Number.spacing
      rw [← mul_div_assoc]
      exact div_lt_div_of_pos_right hnear hscale
    · intro hcoefficient hexponent
      have hparts := h.ofParts_eq hsize hcoefficient hexponent negative
      rw [hy] at hparts
      exact Numeral.number.inj hparts

end Printed

/-- What is printed for a finite number is read as a whole. -/
theorem exists_isReadBack {x : Double} (hx : x.isFinite = true) :
    ∃ d y, IsReadBack x d y ∧ ∀ rest, Text.StopsAt carriesOn rest →
      read (Layout.json.chars x ++ rest) = some (.number y, rest) := by
  cases x with
  | nan => cases hx
  | infinite negative => cases hx
  | finite negative size =>
    obtain ⟨coefficient, exponent, hspells⟩ := exists_spells size
    obtain ⟨y, hy⟩ := hspells.exists_isReadBack negative
    refine ⟨_, y, hy, fun rest hrest => ?_⟩
    rw [hspells.read_chars negative hrest]
    exact congrArg (fun numeral => some (numeral, rest)) hy.parts

end Numeral
end Json
end PlaneReport
