import PlaneReport.Decimal.Shortest
import Mathlib.Tactic.Linarith
import Mathlib.Tactic.Ring

/-!
# Rounding to a known magnitude

`nearest?` computes a shift from the length of a quotient and rounds once.  The theorem this file
exists for, `nearest?_of_admits`, goes the other way: whatever lies in the interval that a magnitude
`admits` is rounded to that magnitude.  The shift is then the magnitude's own, except just below a
power of two, where it is one less and rounding carries into the next power.
-/

namespace PlaneReport
namespace Binary

/-- The only whole number within half a unit of a quotient is what it is rounded to.  Where the
distance is exactly half, it has to be even. -/
theorem roundHalfEven_eq {num den m : Nat} (hden : 0 < den)
    (hlow : 2 * (m * den) ≤ 2 * num + den) (hhigh : 2 * num ≤ 2 * (m * den) + den)
    (htie : 2 * (m * den) = 2 * num + den ∨ 2 * num = 2 * (m * den) + den → m % 2 = 0) :
    roundHalfEven num den = m := by
  have hdiv : den * (num / den) + num % den = num := Nat.div_add_mod num den
  have hmod : num % den < den := Nat.mod_lt num hden
  have hle : num / den ≤ m := by
    refine Nat.lt_succ_iff.mp (Nat.div_lt_of_lt_mul ?_)
    rw [Nat.mul_succ, Nat.mul_comm den m]
    omega
  have hge : m ≤ num / den + 1 := by
    by_contra hlt
    have hmul : (num / den + 2) * den ≤ m * den := Nat.mul_le_mul_right den (by omega)
    have hexp : (num / den + 2) * den = den * (num / den) + 2 * den := by ring
    omega
  unfold roundHalfEven
  dsimp only
  rcases Nat.lt_or_ge (num / den) m with hlt | hge'
  · -- The quotient is one short, so the remainder is at least half.
    have hm : m = num / den + 1 := by omega
    have hexp : m * den = den * (num / den) + den := by rw [hm]; ring
    rw [if_neg (by omega)]
    split
    · omega
    · have heven := htie (Or.inl (by omega))
      omega
  · have hm : m = num / den := by omega
    have hexp : m * den = den * (num / den) := by rw [hm]; ring
    split
    · exact hm.symm
    · have heven := htie (Or.inr (by omega))
      rw [if_neg (by omega)]
      omega

theorem bitLength_le_iff {n k : Nat} : bitLength n ≤ k ↔ n < 2 ^ k := by
  unfold bitLength
  split
  · next h =>
    have := Nat.two_pow_pos k
    omega
  · next h => rw [Nat.succ_le_iff, Nat.log2_lt h]

theorem lt_bitLength_iff {n k : Nat} : k < bitLength n ↔ 2 ^ k ≤ n := by
  rw [← Nat.not_le, bitLength_le_iff, Nat.not_lt]

namespace Magnitude

variable {f : Format} {x : Magnitude f} {num den : Nat}

theorem eq_zero_of_significand {x : Magnitude f} (h : x.significand = 0) : x = zero := by
  have hshift : x.shift = 0 := by
    rcases x.canonical with hs | hs
    · exact hs
    · have := Nat.two_pow_pos (f.width - 1)
      omega
  cases x
  subst h hshift
  rfl

theorem two_mul_half (f : Format) : 2 * 2 ^ (f.width - 1) = 2 ^ f.width := by
  have hw := f.width_pos
  rw [← Nat.pow_succ']
  congr 1
  omega

/-! ## The interval as inequalities -/

theorem quarters_mul (x : Magnitude f) (den : Nat) :
    x.quarters * den = 4 * (x.significand * (den * 2 ^ x.shift)) := by
  unfold quarters units
  ring

theorem roomAbove_mul (x : Magnitude f) (den : Nat) :
    (x.quarters + x.roomAbove) * den =
      4 * (x.significand * (den * 2 ^ x.shift)) + 2 * (den * 2 ^ x.shift) := by
  unfold quarters units roomAbove
  ring

theorem roomBelow_le (x : Magnitude f) : x.roomBelow ≤ 2 * 2 ^ x.shift := by
  unfold roomBelow
  split <;> omega

/-- What the interval says without truncated subtraction. -/
theorem bounds_of_admits (h : x.admits num den = true) :
    x.quarters * den ≤ num + x.roomBelow * den ∧ num ≤ (x.quarters + x.roomAbove) * den ∧
      (x.significand % 2 ≠ 0 →
        x.quarters * den < num + x.roomBelow * den ∧ num < (x.quarters + x.roomAbove) * den) := by
  have hsub : x.quarters * den ≤ (x.quarters - x.roomBelow) * den + x.roomBelow * den := by
    rw [← Nat.add_mul]
    exact Nat.mul_le_mul_right den (by omega)
  unfold admits at h
  dsimp only at h
  split at h
  · next heven =>
    simp only [decide_eq_true_eq] at h
    exact ⟨by omega, h.2, fun hodd => absurd heven hodd⟩
  · simp only [decide_eq_true_eq] at h
    exact ⟨by omega, by omega, fun _ => ⟨by omega, h.2⟩⟩

/-! ## The shift that rounding picks -/

section Shift

variable (hden : 0 < den) (h : x.admits (4 * num) den = true)
include hden h

theorem shiftFor_le : shiftFor f num den ≤ x.shift := by
  obtain ⟨-, hhigh, -⟩ := bounds_of_admits h
  have hsig : (x.significand + 1) * (2 ^ x.shift * den) ≤ 2 ^ f.width * (2 ^ x.shift * den) :=
    Nat.mul_le_mul_right _ x.significand_lt
  have hpos : 0 < 2 ^ x.shift * den := Nat.mul_pos (Nat.two_pow_pos _) hden
  have hexp : (x.quarters + x.roomAbove) * den =
      4 * (x.significand * (2 ^ x.shift * den)) + 2 * (2 ^ x.shift * den) := by
    rw [roomAbove_mul, Nat.mul_comm den]
  have hlt : num / den < 2 ^ (f.width + x.shift) := by
    refine Nat.div_lt_of_lt_mul ?_
    have hpow : den * 2 ^ (f.width + x.shift) = 2 ^ f.width * (2 ^ x.shift * den) := by
      rw [Nat.pow_add]
      ring
    rw [Nat.add_mul, Nat.one_mul] at hsig
    omega
  have := bitLength_le_iff.mpr hlt
  unfold shiftFor
  omega

theorem shiftFor_eq
    (hs : x.shift = 0 ∨ 2 ^ (f.width - 1) * 2 ^ x.shift * den ≤ num) :
    shiftFor f num den = x.shift := by
  have hle := shiftFor_le hden h
  rcases hs with hs | hs
  · omega
  · have hw := f.width_pos
    have hge : 2 ^ (f.width - 1 + x.shift) ≤ num / den := by
      rw [Nat.le_div_iff_mul_le hden, Nat.pow_add]
      exact hs
    have := lt_bitLength_iff.mpr hge
    unfold shiftFor at hle ⊢
    omega

/-- Just below a power of two the grid is twice as fine, and the magnitude is that power. -/
theorem shiftFor_of_lt (hs : x.shift ≠ 0)
    (hlt : num < 2 ^ (f.width - 1) * 2 ^ x.shift * den) :
    x.significand = 2 ^ (f.width - 1) ∧ shiftFor f num den + 1 = x.shift := by
  obtain ⟨hlow, -, -⟩ := bounds_of_admits h
  have hw := f.width_pos
  have hcanon : 2 ^ (f.width - 1) ≤ x.significand := x.canonical.resolve_left hs
  have hpos : 0 < 2 ^ x.shift * den := Nat.mul_pos (Nat.two_pow_pos _) hden
  have hquarters : x.quarters * den = 4 * (x.significand * (2 ^ x.shift * den)) := by
    rw [quarters_mul, Nat.mul_comm den]
  rw [Nat.mul_assoc] at hlt
  have hsig : x.significand = 2 ^ (f.width - 1) := by
    by_contra hne
    have hmul : (2 ^ (f.width - 1) + 1) * (2 ^ x.shift * den) ≤
        x.significand * (2 ^ x.shift * den) := Nat.mul_le_mul_right _ (by omega)
    have hroom : x.roomBelow * den ≤ 2 * (2 ^ x.shift * den) := by
      rw [← Nat.mul_assoc]
      exact Nat.mul_le_mul_right den x.roomBelow_le
    rw [Nat.add_mul, Nat.one_mul] at hmul
    omega
  refine ⟨hsig, ?_⟩
  have hroom : x.roomBelow * den = 2 ^ x.shift * den := by
    unfold roomBelow
    rw [if_pos ⟨hs, hsig⟩]
  have hpow : 1 * (2 ^ x.shift * den) ≤ 2 ^ (f.width - 1) * (2 ^ x.shift * den) :=
    Nat.mul_le_mul_right _ (Nat.two_pow_pos _)
  have hge : 2 ^ (f.width + x.shift - 2) ≤ num / den := by
    rw [Nat.le_div_iff_mul_le hden]
    have htwice : 2 * (2 ^ (f.width + x.shift - 2) * den) =
        2 ^ (f.width - 1) * (2 ^ x.shift * den) := by
      rw [← Nat.mul_assoc, ← Nat.mul_assoc, ← Nat.pow_succ', ← Nat.pow_add]
      congr 2
      omega
    rw [hquarters, hsig, hroom] at hlow
    omega
  have hlength := lt_bitLength_iff.mpr hge
  have hshort : bitLength (num / den) ≤ f.width + x.shift - 1 := by
    rw [bitLength_le_iff]
    refine Nat.div_lt_of_lt_mul ?_
    have hexp : den * 2 ^ (f.width + x.shift - 1) =
        2 ^ (f.width - 1) * (2 ^ x.shift * den) := by
      rw [show f.width + x.shift - 1 = f.width - 1 + x.shift by omega, Nat.pow_add]
      ring
    omega
  unfold shiftFor
  omega

end Shift

/-! ## Rounding inside the interval -/

/-- Whatever a magnitude admits is rounded to it. -/
theorem nearest?_of_admits (hden : 0 < den) (h : x.admits (4 * num) den = true) :
    nearest? f num den = some x := by
  obtain ⟨hlow, hhigh, hstrict⟩ := bounds_of_admits h
  have hroom : x.roomBelow * den ≤ 2 * (den * 2 ^ x.shift) := by
    rw [Nat.mul_comm den, ← Nat.mul_assoc]
    exact Nat.mul_le_mul_right den x.roomBelow_le
  rw [quarters_mul] at hlow hstrict
  rw [roomAbove_mul] at hhigh hstrict
  unfold nearest?
  dsimp only
  by_cases hs : x.shift = 0 ∨ 2 ^ (f.width - 1) * 2 ^ x.shift * den ≤ num
  · have hround : roundHalfEven num (den * 2 ^ x.shift) = x.significand := by
      refine roundHalfEven_eq (Nat.mul_pos hden (Nat.two_pow_pos _)) (by omega) (by omega) ?_
      intro htie
      by_contra hodd
      have := hstrict hodd
      omega
    simp only [shiftFor_eq hden h hs, hround, x.significand_lt, x.shift_le, dite_true]
  · obtain ⟨hs, hlt⟩ := not_or.mp hs
    obtain ⟨hsig, hshift⟩ := shiftFor_of_lt hden h hs (Nat.not_le.mp hlt)
    have hgrid : den * 2 ^ x.shift = 2 * (den * 2 ^ shiftFor f num den) := by
      rw [← hshift, Nat.pow_succ]
      ring
    have hroom' : x.roomBelow * den = den * 2 ^ x.shift := by
      unfold roomBelow
      rw [if_pos ⟨hs, hsig⟩, Nat.mul_comm]
    have hfull : x.significand * (den * 2 ^ x.shift) =
        2 ^ f.width * (den * 2 ^ shiftFor f num den) := by
      rw [hgrid, hsig, ← two_mul_half]
      ring
    have hbelow : num < 2 ^ f.width * (den * 2 ^ shiftFor f num den) := by
      rw [← hfull, hsig]
      calc num < 2 ^ (f.width - 1) * 2 ^ x.shift * den := Nat.not_le.mp hlt
        _ = 2 ^ (f.width - 1) * (den * 2 ^ x.shift) := by ring
    -- The significand rounds up to a power of two, which carries into the shift.
    have hround : roundHalfEven num (den * 2 ^ shiftFor f num den) = 2 ^ f.width := by
      refine roundHalfEven_eq (Nat.mul_pos hden (Nat.two_pow_pos _)) (by omega) (by omega) ?_
      intro _
      rw [← two_mul_half]
      omega
    have hle := x.shift_le
    rw [← hshift] at hle
    simp only [hround, Nat.lt_irrefl, dite_false, hle, dite_true, Option.some.injEq]
    cases x
    subst hsig hshift
    rfl

end Magnitude

theorem Number.ofUnits_of_admits {f : Format} {x : Magnitude f} {num den : Nat} (negative : Bool)
    (hden : 0 < den) (h : x.admits (4 * num) den = true) :
    Number.ofUnits negative num den = .finite negative x := by
  unfold Number.ofUnits
  rw [Magnitude.nearest?_of_admits hden h]

end Binary
end PlaneReport
