import PlaneReport.Proofs.Binary.Rounding
import PlaneReport.Proofs.Decimal.Digits
import Mathlib.Algebra.Order.Field.Power
import Mathlib.Data.Rat.Cast.Order
import Mathlib.Tactic.FieldSimp
import Mathlib.Tactic.NormNum
import Mathlib.Tactic.Positivity

/-!
# Decimals in an interval

A decimal is read as the magnitude whose interval it lies in, which is `toNumber_of_contains`.
Positions are rational numbers here, in the quarters of a unit in which `admits` compares, so that
one value has one position however it is spelled.
-/

namespace PlaneReport

open Binary

namespace Binary.Magnitude

variable {f : Format} {x : Magnitude f}

/-- Whether so many quarters of a unit round to a magnitude. -/
def Contains (x : Magnitude f) (v : ℚ) : Prop :=
  ((x.quarters - x.roomBelow : ℕ) : ℚ) ≤ v ∧ v ≤ ((x.quarters + x.roomAbove : ℕ) : ℚ) ∧
    (x.significand % 2 ≠ 0 →
      ((x.quarters - x.roomBelow : ℕ) : ℚ) < v ∧ v < ((x.quarters + x.roomAbove : ℕ) : ℚ))

theorem admits_iff {num den : ℕ} (hden : 0 < den) :
    x.admits num den = true ↔ x.Contains ((num : ℚ) / den) := by
  have hpos : (0 : ℚ) < den := by exact_mod_cast hden
  unfold admits Contains
  simp only [le_div_iff₀ hpos, div_le_iff₀ hpos, lt_div_iff₀ hpos, div_lt_iff₀ hpos]
  norm_cast
  split
  · next heven => simp [heven]
  · next hodd =>
    simp only [decide_eq_true_eq]
    constructor
    · intro h
      exact ⟨h.1.le, h.2.le, fun _ => h⟩
    · intro h
      exact h.2.2 hodd

/-- Only zero has an interval that comes near zero. -/
theorem eq_zero_of_contains {v : ℚ} (h : x.Contains v) (hv : v < 2) : x = zero := by
  refine eq_zero_of_significand ?_
  by_contra hne
  have hS := Nat.two_pow_pos x.shift
  have hb := x.roomBelow_le
  have hq : 4 * (1 * 2 ^ x.shift) ≤ x.quarters :=
    Nat.mul_le_mul_left 4 (Nat.mul_le_mul_right _ (by omega))
  have hlow : ((2 : ℕ) : ℚ) ≤ ((x.quarters - x.roomBelow : ℕ) : ℚ) := by
    exact_mod_cast (by omega : 2 ≤ x.quarters - x.roomBelow)
  have := h.1
  push_cast at hlow
  linarith

/-- No interval reaches beyond the range of the format. -/
theorem lt_of_contains {v : ℚ} (h : x.Contains v) : v < 2 ^ (f.width + f.top + 2) := by
  have hsig : (x.significand + 1) * 2 ^ x.shift ≤ 2 ^ f.width * 2 ^ f.top :=
    Nat.mul_le_mul x.significand_lt (Nat.pow_le_pow_right (by decide) x.shift_le)
  have hpos := Nat.two_pow_pos x.shift
  have hhigh : x.quarters + x.roomAbove < 2 ^ (f.width + f.top + 2) := by
    rw [Nat.pow_add, Nat.pow_add]
    rw [Nat.add_mul, Nat.one_mul] at hsig
    unfold quarters units roomAbove
    omega
  calc v ≤ ((x.quarters + x.roomAbove : ℕ) : ℚ) := h.2.1
    _ < ((2 ^ (f.width + f.top + 2) : ℕ) : ℚ) := by exact_mod_cast hhigh
    _ = 2 ^ (f.width + f.top + 2) := by push_cast; ring

end Binary.Magnitude

namespace Decimal

variable {f : Format} {x : Magnitude f}

/-- The value of digits with a power of ten. -/
def scaled (coefficient : ℕ) (exponent : ℤ) : ℚ :=
  coefficient * 10 ^ exponent

/-- The same in quarters of a unit. -/
def quartersOf (f : Format) (coefficient : ℕ) (exponent : ℤ) : ℚ :=
  scaled coefficient exponent * 2 ^ (f.scale + 2)

/-- A power of ten as a quotient of whole numbers. -/
theorem pow_toNat_div (e : ℤ) : (10 : ℚ) ^ e.toNat / 10 ^ (-e).toNat = 10 ^ e := by
  rcases le_total 0 e with h | h
  · rw [Int.toNat_of_nonpos (show -e ≤ 0 by omega), pow_zero, div_one, ← zpow_natCast,
      Int.toNat_of_nonneg h]
  · rw [Int.toNat_of_nonpos h, pow_zero, one_div, ← zpow_natCast, Int.toNat_of_nonneg (by omega),
      zpow_neg, inv_inv]

theorem quotient_eq_quartersOf (f : Format) (coefficient : ℕ) (exponent : ℤ) :
    ((4 * (coefficient * 10 ^ exponent.toNat * 2 ^ f.scale) : ℕ) : ℚ) /
        ((10 ^ (-exponent).toNat : ℕ) : ℚ) =
      quartersOf f coefficient exponent := by
  unfold quartersOf scaled
  rw [← pow_toNat_div exponent, pow_add]
  push_cast
  ring

/-! ## Reading -/

theorem quartersOf_lt_two {f : Format} {coefficient : ℕ} {exponent : ℤ}
    (h : exponent + digitCount coefficient ≤ -(reach f : ℤ)) :
    quartersOf f coefficient exponent < 2 := by
  have hdigits : (coefficient : ℚ) < 10 ^ (digitCount coefficient : ℤ) := by
    rw [zpow_natCast]
    exact_mod_cast lt_pow_digitCount coefficient
  have hscaled : scaled coefficient exponent < 10 ^ (-(reach f : ℤ)) := by
    calc scaled coefficient exponent
        < 10 ^ (digitCount coefficient : ℤ) * 10 ^ exponent :=
          mul_lt_mul_of_pos_right hdigits (by positivity)
      _ = 10 ^ (exponent + digitCount coefficient : ℤ) := by
          rw [← zpow_add₀ (by norm_num), add_comm]
      _ ≤ 10 ^ (-(reach f : ℤ)) := zpow_le_zpow_right₀ (by norm_num) h
  have hpow : (2 : ℚ) ^ (f.scale + 1) ≤ 10 ^ reach f := by
    calc (2 : ℚ) ^ (f.scale + 1) ≤ 2 ^ reach f :=
          pow_le_pow_right₀ (by norm_num) (by unfold reach; omega)
      _ ≤ 10 ^ reach f := pow_le_pow_left₀ (by norm_num) (by norm_num) _
  have hinv : (10 : ℚ) ^ (-(reach f : ℤ)) * 10 ^ reach f = 1 := by
    rw [zpow_neg, zpow_natCast, inv_mul_cancel₀ (by positivity)]
  unfold quartersOf
  calc scaled coefficient exponent * 2 ^ (f.scale + 2)
      < 10 ^ (-(reach f : ℤ)) * 2 ^ (f.scale + 2) :=
        mul_lt_mul_of_pos_right hscaled (by positivity)
    _ = 10 ^ (-(reach f : ℤ)) * 2 ^ (f.scale + 1) * 2 := by ring
    _ ≤ 10 ^ (-(reach f : ℤ)) * 10 ^ reach f * 2 := by
        have := mul_le_mul_of_nonneg_left hpow
          (show (0 : ℚ) ≤ 10 ^ (-(reach f : ℤ)) by positivity)
        linarith
    _ = 2 := by rw [hinv, one_mul]

theorem le_quartersOf {f : Format} {coefficient : ℕ} {exponent : ℤ} (hc : coefficient ≠ 0)
    (h : (reach f : ℤ) ≤ exponent) :
    2 ^ (f.width + f.top + 2) ≤ quartersOf f coefficient exponent := by
  have hone : (1 : ℚ) ≤ coefficient := by exact_mod_cast Nat.one_le_iff_ne_zero.mpr hc
  have hpow : (2 : ℚ) ^ reach f ≤ 10 ^ exponent := by
    calc (2 : ℚ) ^ reach f ≤ 10 ^ reach f := pow_le_pow_left₀ (by norm_num) (by norm_num) _
      _ = 10 ^ (reach f : ℤ) := (zpow_natCast _ _).symm
      _ ≤ 10 ^ exponent := zpow_le_zpow_right₀ (by norm_num) h
  have hscaled : (2 : ℚ) ^ reach f ≤ scaled coefficient exponent := by
    unfold scaled
    calc (2 : ℚ) ^ reach f ≤ 1 * 10 ^ exponent := by rw [one_mul]; exact hpow
      _ ≤ coefficient * 10 ^ exponent := mul_le_mul_of_nonneg_right hone (by positivity)
  unfold quartersOf
  calc (2 : ℚ) ^ (f.width + f.top + 2) ≤ 2 ^ (reach f + (f.scale + 2)) :=
        pow_le_pow_right₀ (by norm_num) (by unfold reach; omega)
    _ = 2 ^ reach f * 2 ^ (f.scale + 2) := pow_add _ _ _
    _ ≤ scaled coefficient exponent * 2 ^ (f.scale + 2) :=
        mul_le_mul_of_nonneg_right hscaled (by positivity)

/-- A decimal in the interval of a magnitude is read as that magnitude. -/
theorem toNumber_of_contains (d : Decimal)
    (h : x.Contains (quartersOf f d.coefficient d.exponent)) :
    d.toNumber f = .finite d.negative x := by
  unfold toNumber
  split
  · next hz =>
    have hsmall : quartersOf f d.coefficient d.exponent < 2 := by
      unfold quartersOf scaled
      rw [hz]
      norm_num
    rw [Magnitude.eq_zero_of_contains h hsmall]
  · next hz =>
    split
    · next hbig =>
      have := Magnitude.lt_of_contains h
      have := le_quartersOf hz hbig
      linarith
    · split
      · next hsmall => rw [Magnitude.eq_zero_of_contains h (quartersOf_lt_two hsmall)]
      · have hden : 0 < 10 ^ (-d.exponent).toNat := Nat.pow_pos (by decide)
        refine Number.ofUnits_of_admits d.negative hden ?_
        rw [Magnitude.admits_iff hden, quotient_eq_quartersOf]
        exact h

end Decimal
end PlaneReport
