import Mathlib.Tactic.FieldSimp
import Mathlib.Tactic.Linarith
import PlaneReport.Proofs.Binary.Value

/-!
# How far rounding goes

One rounding moves a quotient by no more than half a step of the grid, which is a small part of the
quotient, or half a unit where the grid is at its finest.  It does not overflow as long as the
quotient stays half a step below what would be the next magnitude, and moves nothing that lies on the
grid.
-/

namespace PlaneReport
namespace Binary
namespace Magnitude

variable {f : Format} {x : Magnitude f} {num den : ℕ}

/-- A magnitude lies on the grid for the length of what is rounded to it. -/
theorem units_eq_roundHalfEven (hden : 0 < den) (h : nearest? f num den = some x) :
    x.units = roundHalfEven num (den * 2 ^ shiftFor f num den) * 2 ^ shiftFor f num den := by
  unfold nearest? at h
  dsimp only at h
  split at h
  · split at h
    · cases h
      rfl
    · cases h
  · next hcarry =>
    split at h
    · cases h
      have hround : roundHalfEven num (den * 2 ^ shiftFor f num den) = 2 ^ f.width :=
        Nat.le_antisymm (roundHalfEven_le_of_shiftFor hden) (Nat.not_lt.mp hcarry)
      rw [hround]
      unfold units
      rw [Nat.pow_succ, ← two_mul_half]
      ring
    · cases h

/-- One rounding moves a quotient by half a step. -/
theorem half_step_of_nearest? (hden : 0 < den) (h : nearest? f num den = some x) :
    2 * (x.units * den) ≤ 2 * num + den * 2 ^ shiftFor f num den ∧
      2 * num ≤ 2 * (x.units * den) + den * 2 ^ shiftFor f num den := by
  have hstep : 0 < den * 2 ^ shiftFor f num den := Nat.mul_pos hden (Nat.two_pow_pos _)
  obtain ⟨hlow, hhigh, -⟩ := roundHalfEven_bounds num hstep
  have hunits : x.units * den =
      roundHalfEven num (den * 2 ^ shiftFor f num den) * (den * 2 ^ shiftFor f num den) := by
    rw [units_eq_roundHalfEven hden h]
    ring
  rw [hunits]
  exact ⟨hlow, hhigh⟩

/-- The step is a small part of a quotient, or else one unit. -/
theorem abs_units_sub_le (hden : 0 < den) (h : nearest? f num den = some x) :
    |(x.units : ℚ) - num / den| ≤ max ((num : ℚ) / den / 2 ^ f.width) (1 / 2) := by
  have hpos : (0 : ℚ) < den := by exact_mod_cast hden
  obtain ⟨hlow, hhigh⟩ := half_step_of_nearest? hden h
  have hlow' : (2 * (x.units * den) : ℚ) ≤ 2 * num + den * 2 ^ shiftFor f num den := by
    exact_mod_cast hlow
  have hhigh' : (2 * num : ℚ) ≤ 2 * (x.units * den) + den * 2 ^ shiftFor f num den := by
    exact_mod_cast hhigh
  have hnum : (num : ℚ) = num / den * den := by rw [div_mul_cancel₀ _ hpos.ne']
  have hstep : |(x.units : ℚ) - num / den| ≤ 2 ^ shiftFor f num den / 2 := by
    rw [abs_le]
    constructor
    · refine le_of_mul_le_mul_right ?_ hpos
      linarith
    · refine le_of_mul_le_mul_right ?_ hpos
      linarith
  rcases Nat.eq_zero_or_pos (shiftFor f num den) with hshift | hshift
  · refine hstep.trans ((le_of_eq ?_).trans (le_max_right _ _))
    rw [hshift, pow_zero]
  · refine hstep.trans (le_trans ?_ (le_max_left _ _))
    have hlong : (2 ^ (f.width - 1) * (den * 2 ^ shiftFor f num den) : ℚ) ≤ num := by
      exact_mod_cast le_of_shiftFor hden hshift.ne'
    have hwidth : (2 : ℚ) ^ f.width = 2 * 2 ^ (f.width - 1) := by
      exact_mod_cast (two_mul_half f).symm
    rw [hwidth, div_div, div_le_div_iff₀ (by norm_num) (by positivity)]
    linarith

/-- Nothing overflows that lies half a step below the next magnitude there would be. -/
theorem exists_nearest?_of_lt (hden : 0 < den)
    (h : 2 * num + den * 2 ^ f.top < 2 * 2 ^ f.width * (den * 2 ^ f.top)) :
    ∃ x, nearest? f num den = some x := by
  unfold nearest?
  dsimp only
  by_cases hround : roundHalfEven num (den * 2 ^ shiftFor f num den) < 2 ^ f.width
  · rw [dif_pos hround]
    by_cases hshift : shiftFor f num den ≤ f.top
    · rw [dif_pos hshift]
      exact ⟨_, rfl⟩
    · have hlong := le_of_shiftFor hden (by omega : shiftFor f num den ≠ 0)
      have hpow : den * 2 ^ (f.top + 1) ≤ den * 2 ^ shiftFor f num den :=
        Nat.mul_le_mul_left den (Nat.pow_le_pow_right (by decide) (by omega))
      have hnum := (Nat.mul_le_mul_left (2 ^ (f.width - 1)) hpow).trans hlong
      have htwice : 2 * (2 ^ (f.width - 1) * (den * 2 ^ (f.top + 1))) =
          2 * 2 ^ f.width * (den * 2 ^ f.top) := by
        rw [← two_mul_half, Nat.pow_succ]
        ring
      omega
  · rw [dif_neg hround]
    by_cases hshift : shiftFor f num den + 1 ≤ f.top
    · rw [dif_pos hshift]
      exact ⟨_, rfl⟩
    · -- The significand carried on a grid at least as coarse as the last one.
      obtain ⟨more, hmore⟩ := Nat.exists_eq_add_of_le (show f.top ≤ shiftFor f num den by omega)
      have hstep : 0 < den * 2 ^ shiftFor f num den := Nat.mul_pos hden (Nat.two_pow_pos _)
      obtain ⟨hlow, -, -⟩ := roundHalfEven_bounds num hstep
      have hcarry := Nat.mul_le_mul_right (den * 2 ^ shiftFor f num den) (Nat.not_lt.mp hround)
      have hgrid : den * 2 ^ shiftFor f num den = den * 2 ^ f.top * 2 ^ more := by
        rw [hmore, Nat.pow_add]
        ring
      have hreach : (2 * 2 ^ f.width * (den * 2 ^ f.top) - den * 2 ^ f.top) * 2 ^ more ≤
          2 * num := by
        rw [Nat.sub_mul, Nat.mul_assoc, ← hgrid]
        rw [Nat.mul_assoc]
        omega
      have hpos := Nat.le_mul_of_pos_right
        (2 * 2 ^ f.width * (den * 2 ^ f.top) - den * 2 ^ f.top) (Nat.two_pow_pos more)
      omega

theorem exists_nearest?_of_div_lt (hden : 0 < den)
    (h : (num / den : ℚ) + 2 ^ f.top / 2 < 2 ^ f.width * 2 ^ f.top) :
    ∃ x, nearest? f num den = some x := by
  have hpos : (0 : ℚ) < den := by exact_mod_cast hden
  have hnum : (num : ℚ) = num / den * den := by rw [div_mul_cancel₀ _ hpos.ne']
  refine exists_nearest?_of_lt hden ?_
  have hscaled := mul_lt_mul_of_pos_right h hpos
  have hcast : (2 * num + den * 2 ^ f.top : ℚ) < 2 * 2 ^ f.width * (den * 2 ^ f.top) := by
    linarith
  exact_mod_cast hcast

/-- What lies on the grid stays where it is. -/
theorem nearest?_of_dvd (hden : 0 < den) (hshift : shiftFor f num den ≤ f.top)
    (hdvd : den * 2 ^ shiftFor f num den ∣ num) :
    ∃ x, nearest? f num den = some x ∧ x.units * den = num := by
  have hstep : 0 < den * 2 ^ shiftFor f num den := Nat.mul_pos hden (Nat.two_pow_pos _)
  obtain ⟨significand, hnum⟩ := hdvd
  have hround : roundHalfEven num (den * 2 ^ shiftFor f num den) = significand := by
    unfold roundHalfEven
    dsimp only
    rw [Nat.mod_eq_zero_of_dvd ⟨significand, hnum⟩, if_pos (by omega)]
    exact Nat.div_eq_of_eq_mul_right hstep hnum
  have hlt : significand < 2 ^ f.width := by
    have hless : num < 2 ^ f.width * (den * 2 ^ shiftFor f num den) := lt_of_shiftFor hden
    refine Nat.lt_of_mul_lt_mul_right (a := den * 2 ^ shiftFor f num den) ?_
    rwa [Nat.mul_comm significand, ← hnum]
  have hsome : ∃ x, nearest? f num den = some x := by
    unfold nearest?
    dsimp only
    rw [dif_pos (hround.trans_lt hlt), dif_pos hshift]
    exact ⟨_, rfl⟩
  obtain ⟨x, hx⟩ := hsome
  refine ⟨x, hx, ?_⟩
  rw [units_eq_roundHalfEven hden hx, hround]
  conv_rhs => rw [hnum]
  ring

end Magnitude

/-! ## Relative errors -/

/-- Whether `v` differs from `exact` by no more than the part `error` of it. -/
def IsWithin (error exact v : ℚ) : Prop :=
  |v - exact| ≤ error * exact

namespace IsWithin

variable {α β a b s p : ℚ}

theorem mono (h : IsWithin α a s) (ha : 0 ≤ a) (hle : α ≤ β) : IsWithin β a s :=
  le_trans h (mul_le_mul_of_nonneg_right hle ha)

/-- Between whole numbers the comparison is one of whole numbers. -/
theorem of_nat {part exact v : ℕ} (hpart : 0 < part) (hbelow : exact * part ≤ v * part + exact)
    (habove : v * part ≤ exact * part + exact) : IsWithin (1 / part) exact v := by
  have hpos : (0 : ℚ) < part := by exact_mod_cast hpart
  have hbelow' : (exact * part : ℚ) ≤ v * part + exact := by exact_mod_cast hbelow
  have habove' : (v * part : ℚ) ≤ exact * part + exact := by exact_mod_cast habove
  unfold IsWithin
  rw [one_div_mul_eq_div, abs_le, le_div_iff₀ hpos, neg_le, le_div_iff₀ hpos]
  constructor <;> linarith

theorem mul_right (h : IsWithin α a s) (hb : 0 ≤ b) : IsWithin α (a * b) (s * b) := by
  have hscaled := mul_le_mul_of_nonneg_right h hb
  unfold IsWithin
  rwa [← sub_mul, abs_mul, abs_of_nonneg hb, ← mul_assoc]

theorem pos (h : IsWithin β b p) (hb : 0 < b) (hβ : β < 1) : 0 < p := by
  have hlow := (abs_le.mp h).1
  have hpart : 0 < (1 - β) * b := mul_pos (by linarith) hb
  linarith

theorem mul (hs : IsWithin α a s) (hp : IsWithin β b p) (ha : 0 ≤ a) (hb : 0 ≤ b) :
    IsWithin (α + β + α * β) (a * b) (s * p) := by
  have hsplit : s * p - a * b = (s - a) * (p - b) + a * (p - b) + (s - a) * b := by ring
  have hboth : |(s - a) * (p - b)| ≤ α * a * (β * b) := by
    rw [abs_mul]
    exact mul_le_mul hs hp (abs_nonneg _) ((abs_nonneg _).trans hs)
  have hright : |a * (p - b)| ≤ a * (β * b) := by
    rw [abs_mul, abs_of_nonneg ha]
    exact mul_le_mul_of_nonneg_left hp ha
  have hleft : |(s - a) * b| ≤ α * a * b := by
    rw [abs_mul, abs_of_nonneg hb]
    exact mul_le_mul_of_nonneg_right hs hb
  unfold IsWithin
  rw [hsplit]
  calc |(s - a) * (p - b) + a * (p - b) + (s - a) * b|
      ≤ |(s - a) * (p - b)| + |a * (p - b)| + |(s - a) * b| := abs_add_three _ _ _
    _ ≤ α * a * (β * b) + a * (β * b) + α * a * b := by linarith
    _ = (α + β + α * β) * (a * b) := by ring

theorem div (hs : IsWithin α a s) (hp : IsWithin β b p) (ha : 0 ≤ a) (hb : 0 < b)
    (hβ : β < 1) : IsWithin ((α + β) / (1 - β)) (a / b) (s / p) := by
  have hone : 0 < 1 - β := by linarith
  have hlow : (1 - β) * b ≤ p := by
    have := (abs_le.mp hp).1
    linarith
  have hpos : 0 < p := hp.pos hb hβ
  have hsplit : s / p - a / b = ((s - a) * b - a * (p - b)) / (p * b) := by
    field_simp
    ring
  have hnum : |(s - a) * b - a * (p - b)| ≤ (α + β) * a * b := by
    calc |(s - a) * b - a * (p - b)| ≤ |(s - a) * b| + |a * (p - b)| := abs_sub _ _
      _ = |s - a| * b + a * |p - b| := by
        rw [abs_mul, abs_mul, abs_of_nonneg ha, abs_of_pos hb]
      _ ≤ α * a * b + a * (β * b) :=
        add_le_add (mul_le_mul_of_nonneg_right hs hb.le) (mul_le_mul_of_nonneg_left hp ha)
      _ = (α + β) * a * b := by ring
  have hsum : 0 ≤ (α + β) * a := nonneg_of_mul_nonneg_left ((abs_nonneg _).trans hnum) hb
  unfold IsWithin
  rw [hsplit, abs_div, abs_of_pos (mul_pos hpos hb), div_le_iff₀ (mul_pos hpos hb)]
  calc |(s - a) * b - a * (p - b)| ≤ (α + β) * a * b := hnum
    _ ≤ (α + β) * a * (p / (1 - β)) :=
      mul_le_mul_of_nonneg_left ((le_div_iff₀ hone).mpr (by linarith)) hsum
    _ = (α + β) / (1 - β) * (a / b) * (p * b) := by field_simp

end IsWithin

/-- The rounding of a quotient that fills half the significand at least. -/
theorem isWithin_of_nearest? {f : Format} {x : Magnitude f} {num den : ℕ} (hden : 0 < den)
    (h : Magnitude.nearest? f num den = some x) (hlarge : (2 ^ f.width : ℚ) ≤ 2 * (num / den)) :
    IsWithin (1 / 2 ^ f.width) (num / den) x.units := by
  have hwidth : (0 : ℚ) < 2 ^ f.width := by positivity
  refine (Magnitude.abs_units_sub_le hden h).trans (max_le ?_ ?_)
  · rw [one_div_mul_eq_div]
  · rw [one_div_mul_eq_div, div_le_div_iff₀ (by norm_num) hwidth]
    linarith

/-! ## Products and quotients -/

namespace Number

variable {f : Format} {a b : Bool} {s t y : Magnitude f}

/-- The distance of neighbours where a finite number lies. -/
def spacing : Number f → ℚ
  | .finite _ size => 2 ^ size.shift / 2 ^ f.scale
  | _ => 0

theorem abs_value_sub (a : Bool) (s t : Magnitude f) :
    |value (.finite a s) - value (.finite a t)| = |(s.units : ℚ) - t.units| / 2 ^ f.scale := by
  have hscale : (0 : ℚ) < 2 ^ f.scale := by positivity
  have hmagnitude : |s.value - t.value| = |(s.units : ℚ) - t.units| / 2 ^ f.scale := by
    unfold Magnitude.value
    rw [← sub_div, abs_div, abs_of_pos hscale]
  cases a with
  | false => exact hmagnitude
  | true =>
    show |-s.value - -t.value| = _
    rw [neg_sub_neg, abs_sub_comm, hmagnitude]

theorem mul_eq_finite (h : Magnitude.nearest? f (s.units * t.units) (2 ^ f.scale) = some y) :
    (.finite a s * .finite b t : Number f) = .finite (a != b) y :=
  ofUnits_eq_finite_iff.mpr ⟨rfl, h⟩

theorem div_eq_finite (ht : t.significand ≠ 0)
    (h : Magnitude.nearest? f (s.units * 2 ^ f.scale) t.units = some y) :
    (.finite a s / .finite b t : Number f) = .finite (a != b) y := by
  show (if t.significand = 0 then _ else ofUnits (a != b) (s.units * 2 ^ f.scale) t.units) = _
  rw [if_neg ht]
  exact ofUnits_eq_finite_iff.mpr ⟨rfl, h⟩

end Number
end Binary
end PlaneReport
