import Mathlib.Data.Rat.Cast.Order
import Mathlib.Tactic.Positivity
import PlaneReport.Binary.Number
import PlaneReport.Proofs.Binary.Nearest

/-!
# Exact values

Every finite number is a rational number exactly.  Statements about what rounding does to a result
compare the two: no magnitude is nearer to a quotient than the one it is rounded to.
-/

namespace PlaneReport
namespace Binary

variable {f : Format}

namespace Magnitude

def value (x : Magnitude f) : ℚ :=
  x.units / 2 ^ f.scale

section Nearest

variable {x y : Magnitude f} {num den : ℕ}

/-- Rounding is to the nearest magnitude, and to an even one if another is as near. -/
theorem nearest_of_nearest? (hf : 2 ≤ f.width) (hden : 0 < den) (h : nearest? f num den = some x)
    (hne : y ≠ x) :
    |(num / den - x.units : ℚ)| ≤ |(num / den - y.units : ℚ)| ∧
      (|(num / den - x.units : ℚ)| = |(num / den - y.units : ℚ)| → x.significand % 2 = 0) := by
  have hpos : (0 : ℚ) < den := Nat.cast_pos.mpr hden
  have hunits : x.units ≠ y.units := fun heq => hne (eq_of_units_eq heq).symm
  have hmiddle : |(num / den - x.units : ℚ)| = |(num / den - y.units : ℚ)| →
      (x.units + y.units) * den = 2 * num := by
    intro htie
    rcases abs_eq_abs.mp htie with heq | hopposite
    · exact absurd (Nat.cast_injective (sub_right_injective heq)) hunits
    · have hsum : (x.units + y.units : ℚ) = 2 * num / den := by
        rw [mul_div_assoc]
        linarith
      exact_mod_cast (eq_div_iff hpos.ne').mp hsum
  rcases Nat.lt_or_gt_of_ne hunits with hlt | hgt
  · obtain ⟨hle, heven⟩ := le_middle_of_nearest? hf hden h hlt
    refine ⟨sq_le_sq.mp ?_, fun htie => heven (hmiddle htie)⟩
    have hsum : (2 * num / den : ℚ) ≤ x.units + y.units :=
      (div_le_iff₀ hpos).mpr (by exact_mod_cast hle)
    have hless : (x.units : ℚ) < y.units := Nat.cast_lt.mpr hlt
    rw [mul_div_assoc] at hsum
    nlinarith only [mul_nonneg (sub_nonneg.mpr hless.le) (sub_nonneg.mpr hsum)]
  · obtain ⟨hle, heven⟩ := middle_le_of_nearest? hf hden h hgt
    refine ⟨sq_le_sq.mp ?_, fun htie => heven (hmiddle htie)⟩
    have hsum : (x.units + y.units : ℚ) ≤ 2 * num / den :=
      (le_div_iff₀ hpos).mpr (by exact_mod_cast hle)
    have hless : (y.units : ℚ) < x.units := Nat.cast_lt.mpr hgt
    rw [mul_div_assoc] at hsum
    nlinarith only [mul_nonneg (sub_nonneg.mpr hless.le) (sub_nonneg.mpr hsum)]

end Nearest
end Magnitude

namespace Number

/-- The exact value of a finite number.  What is not finite has none, and counts as zero. -/
def value : Number f → ℚ
  | .finite negative size => if negative then -size.value else size.value
  | _ => 0

theorem value_eq_signedUnits (negative : Bool) (size : Magnitude f) :
    value (.finite negative size) = signedUnits negative size / 2 ^ f.scale := by
  cases negative with
  | true =>
    show -(size.units / 2 ^ f.scale : ℚ) = ((-(size.units : ℤ) : ℤ) : ℚ) / 2 ^ f.scale
    push_cast
    ring
  | false => rfl

end Number
end Binary
end PlaneReport
