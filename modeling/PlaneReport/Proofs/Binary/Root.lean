import PlaneReport.Binary.Number
import PlaneReport.Proofs.Binary.Rounding

/-!
# Square roots

The root that is built bit by bit is the whole part of the square root.
-/

namespace PlaneReport
namespace Binary

open Power

/-- Each step doubles the root of a quarter, or makes it one more than that. -/
theorem rootFrom_bounds {steps n : Nat} (h : n < 4 ^ steps) :
    rootFrom steps n * rootFrom steps n ≤ n ∧
      n < (rootFrom steps n + 1) * (rootFrom steps n + 1) := by
  induction steps generalizing n with
  | zero =>
    have hn : n = 0 := by simpa using h
    simp [rootFrom, hn]
  | succ steps ih =>
    have hquarter : n / 4 < 4 ^ steps := by
      rw [pow_succ] at h
      omega
    obtain ⟨hlow, hhigh⟩ := ih hquarter
    rw [rootFrom]
    generalize rootFrom steps (n / 4) = half at hlow hhigh
    have hlow' : 4 * (half * half) ≤ n := by omega
    have hhigh' : n < 4 * ((half + 1) * (half + 1)) := by omega
    split
    · next hup => exact ⟨hup, by linarith⟩
    · next hup => exact ⟨by linarith, by linarith⟩

theorem squareRoot_bounds (n : Nat) :
    squareRoot n * squareRoot n ≤ n ∧ n < (squareRoot n + 1) * (squareRoot n + 1) := by
  have hfits : n < 2 ^ bitLength n := bitLength_le_iff.mp (Nat.le_refl _)
  exact rootFrom_bounds (hfits.trans_le (Nat.pow_le_pow_left (by decide) _))

theorem squareRoot_eq {root n : Nat} (hlow : root * root ≤ n)
    (hhigh : n < (root + 1) * (root + 1)) : squareRoot n = root := by
  obtain ⟨hlow', hhigh'⟩ := squareRoot_bounds n
  generalize squareRoot n = other at hlow' hhigh' ⊢
  have hless : other < root + 1 := Nat.mul_self_lt_mul_self_iff.mp (hlow'.trans_lt hhigh)
  have hmore : root < other + 1 := Nat.mul_self_lt_mul_self_iff.mp (hlow.trans_lt hhigh')
  omega

@[simp]
theorem squareRoot_mul_self (root : Nat) : squareRoot (root * root) = root :=
  squareRoot_eq (Nat.le_refl _) (Nat.mul_self_lt_mul_self (Nat.lt_succ_self root))

/-- The root of a square is rounded once. -/
theorem Number.sqrt_of_square {f : Format} {size : Magnitude f} {root : Nat}
    (hsize : size.significand ≠ 0) (h : 4 * (size.units * 2 ^ f.scale) = root * root) :
    sqrt (.finite false size) = ofUnits false (2 * root) 4 := by
  rw [sqrt, if_neg hsize, if_neg Bool.false_ne_true, h]
  dsimp only
  rw [squareRoot_mul_self, if_pos rfl, Nat.add_zero]

end Binary
end PlaneReport
