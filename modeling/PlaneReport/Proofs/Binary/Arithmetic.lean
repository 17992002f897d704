import PlaneReport.Proofs.Binary.Root
import PlaneReport.Proofs.Binary.Value
import PlaneReport.Proofs.Point

/-!
# Differences, squares, sums and roots

The difference of two finite numbers is their exact difference, rounded once, and the other way
round only its sign changes, so both have the same square.  A root is rounded once too, however many
digits it has: `nearest_of_sqrt`.  A rounded result is zero if and only if the exact one is at most
half a unit, which for a sum or a root is zero alone, and for a square is more.
-/

namespace PlaneReport
namespace Binary

variable {f : Format}

namespace Magnitude

variable {x : Magnitude f}

theorem eq_zero_iff_units : x = zero ↔ x.units = 0 := by
  constructor
  · rintro rfl
    exact units_zero
  · intro h
    exact eq_zero_of_significand (units_eq_zero_iff.mp h)

/-- What is at most half a unit is rounded to zero, and nothing else is. -/
theorem nearest?_eq_zero_iff (hf : 2 ≤ f.width) {num den : ℕ} (hden : 0 < den) :
    nearest? f num den = some zero ↔ 2 * num ≤ den := by
  have hquarters : (zero : Magnitude f).quarters = 0 := by
    unfold quarters
    rw [units_zero]
  have habove : (zero : Magnitude f).roomAbove = 2 := rfl
  rw [nearest?_eq_some_iff hf hden]
  constructor
  · intro h
    obtain ⟨-, hhigh, -⟩ := bounds_of_admits h
    rw [hquarters, habove] at hhigh
    omega
  · intro h
    refine admits_of_bounds ?_ ?_ (fun hodd => absurd rfl hodd)
    · rw [hquarters]
      omega
    · rw [hquarters, habove]
      omega

end Magnitude

namespace Number

theorem neg_ofUnits (negative : Bool) (num den : ℕ) :
    -(ofUnits negative num den : Number f) = ofUnits (!negative) num den := by
  show neg _ = _
  unfold ofUnits
  cases Magnitude.nearest? f num den with
  | none => rfl
  | some size => rfl

@[simp]
theorem neg_mul_neg_self (x : Number f) : -x * -x = x * x := by
  cases x with
  | nan => rfl
  | infinite negative => cases negative <;> rfl
  | finite negative size => cases negative <;> rfl

theorem signedUnits_not (negative : Bool) (size : Magnitude f) :
    signedUnits (!negative) size = -signedUnits negative size := by
  cases negative with
  | true => exact (Int.neg_neg _).symm
  | false => rfl

/-- The exact difference is rounded once. -/
theorem sub_finite (a b : Bool) (s t : Magnitude f) :
    (.finite a s : Number f) - .finite b t =
      if signedUnits a s - signedUnits b t = 0 then .finite (a && !b) .zero
      else ofUnits (decide (signedUnits a s - signedUnits b t < 0))
        (signedUnits a s - signedUnits b t).natAbs 1 := by
  show add (.finite a s) (.finite (!b) t) = _
  unfold add
  dsimp only
  rw [signedUnits_not, ← sub_eq_add_neg]

/-- The other way round a difference has the same square. -/
theorem mul_self_sub_comm (x y : Number f) : (x - y) * (x - y) = (y - x) * (y - x) := by
  cases x with
  | nan => cases y <;> rfl
  | infinite a =>
    cases y with
    | nan => rfl
    | infinite b => cases a <;> cases b <;> rfl
    | finite b t => cases a <;> rfl
  | finite a s =>
    cases y with
    | nan => rfl
    | infinite b => cases b <;> rfl
    | finite b t =>
      rw [sub_finite, sub_finite]
      by_cases hzero : signedUnits a s - signedUnits b t = 0
      · rw [if_pos hzero, if_pos (by omega)]
        cases a <;> cases b <;> rfl
      · have hsign : decide (signedUnits b t - signedUnits a s < 0) =
            !decide (signedUnits a s - signedUnits b t < 0) := by
          rw [← decide_not, decide_eq_decide]
          omega
        have hsize : (signedUnits b t - signedUnits a s).natAbs =
            (signedUnits a s - signedUnits b t).natAbs := by omega
        rw [if_neg hzero, if_neg (by omega), hsign, hsize, ← neg_ofUnits, neg_mul_neg_self]

/-- The root is rounded to the nearest magnitude, and to an even one if another is as near: the
squares of the middles to lesser ones are not above what the root is taken of, and those of the
middles to greater ones not below. -/
theorem nearest_of_sqrt (hf : 2 ≤ f.width) {size x y : Magnitude f} (hsize : size.significand ≠ 0)
    (h : sqrt (.finite false size) = .finite false x) :
    (y.units < x.units →
        (x.units + y.units) * (x.units + y.units) ≤ 4 * (size.units * 2 ^ f.scale)) ∧
      (x.units < y.units →
        4 * (size.units * 2 ^ f.scale) ≤ (x.units + y.units) * (x.units + y.units)) ∧
      (y ≠ x → (x.units + y.units) * (x.units + y.units) = 4 * (size.units * 2 ^ f.scale) →
        x.significand % 2 = 0) := by
  unfold sqrt at h
  dsimp only at h
  rw [if_neg hsize, if_neg Bool.false_ne_true] at h
  obtain ⟨hlow, hhigh⟩ := squareRoot_bounds (4 * (size.units * 2 ^ f.scale))
  generalize 4 * (size.units * 2 ^ f.scale) = square at h hlow hhigh ⊢
  generalize squareRoot square = root at h hlow hhigh
  obtain ⟨-, hround⟩ := ofUnits_eq_finite_iff.mp h
  refine ⟨fun hlt => ?_, fun hlt => ?_, fun hne htie => ?_⟩
  · obtain ⟨hle, -⟩ := Magnitude.middle_le_of_nearest? hf (by decide) hround hlt
    have hroot : x.units + y.units ≤ root := by split at hle <;> omega
    exact (Nat.mul_le_mul hroot hroot).trans hlow
  · obtain ⟨hle, -⟩ := Magnitude.le_middle_of_nearest? hf (by decide) hround hlt
    by_cases hexact : root * root = square
    · rw [if_pos hexact] at hle
      have hroot : root ≤ x.units + y.units := by omega
      rw [← hexact]
      exact Nat.mul_le_mul hroot hroot
    · rw [if_neg hexact] at hle
      have hroot : root + 1 ≤ x.units + y.units := by omega
      exact hhigh.le.trans (Nat.mul_le_mul hroot hroot)
  · -- A middle whose square is hit is the root, and then no sticky digit is left.
    rw [← htie] at hlow hhigh
    have hle : root ≤ x.units + y.units := Nat.mul_self_le_mul_self_iff.mp hlow
    have hlt : x.units + y.units < root + 1 := Nat.mul_self_lt_mul_self_iff.mp hhigh
    have hroot : root = x.units + y.units := by omega
    rw [hroot, if_pos htie] at hround
    rcases Nat.lt_or_gt_of_ne fun heq => hne (Magnitude.eq_of_units_eq heq) with hgt | hlt
    · exact (Magnitude.middle_le_of_nearest? hf (by decide) hround hgt).2 (by omega)
    · exact (Magnitude.le_middle_of_nearest? hf (by decide) hround hlt).2 (by omega)

/-! ## Zeros -/

theorem isZero_finite_iff (negative : Bool) {size : Magnitude f} :
    (finite negative size).isZero = true ↔ size.units = 0 := by
  show (size.significand == 0) = true ↔ _
  rw [beq_iff_eq, Magnitude.units_eq_zero_iff]

theorem isZero_ofUnits_iff (hf : 2 ≤ f.width) (negative : Bool) {num den : ℕ} (hden : 0 < den) :
    (ofUnits negative num den : Number f).isZero = true ↔ 2 * num ≤ den := by
  rw [← Magnitude.nearest?_eq_zero_iff hf hden]
  unfold ofUnits
  cases Magnitude.nearest? f num den with
  | none => exact ⟨nofun, nofun⟩
  | some size =>
    dsimp only
    rw [isZero_finite_iff, Option.some.injEq, Magnitude.eq_zero_iff_units]

/-- Zero without a sign is the only one. -/
theorem eq_zero_of_isUnsigned {x : Number f} (h : x.IsUnsigned) (hzero : x.isZero = true) :
    x = zero := by
  obtain rfl | ⟨size, rfl⟩ := isUnsigned_cases h
  · cases hzero
  · rw [Magnitude.eq_zero_iff_units.mpr ((isZero_finite_iff _).mp hzero)]
    rfl

/-- Nothing is lost in a sum. -/
theorem isZero_add_iff (hf : 2 ≤ f.width) {x y : Number f} (hx : x.IsUnsigned)
    (hy : y.IsUnsigned) : (x + y).isZero = true ↔ x.isZero = true ∧ y.isZero = true := by
  obtain rfl | ⟨s, rfl⟩ := isUnsigned_cases hx
  · obtain rfl | ⟨t, rfl⟩ := isUnsigned_cases hy
    · exact ⟨nofun, fun h => nomatch h.1⟩
    · exact ⟨nofun, fun h => nomatch h.1⟩
  · obtain rfl | ⟨t, rfl⟩ := isUnsigned_cases hy
    · exact ⟨nofun, fun h => nomatch h.2⟩
    · show (add (.finite false s) (.finite false t)).isZero = true ↔ _
      have hsum : signedUnits false s + signedUnits false t = ((s.units + t.units : ℕ) : ℤ) := rfl
      unfold add
      dsimp only
      rw [hsum, isZero_finite_iff, isZero_finite_iff]
      by_cases hzero : ((s.units + t.units : ℕ) : ℤ) = 0
      · rw [if_pos hzero, isZero_finite_iff, Magnitude.units_zero]
        omega
      · rw [if_neg hzero, isZero_ofUnits_iff hf _ Nat.one_pos]
        omega

/-- Nor in a root, as the root of one unit is more than one. -/
theorem isZero_sqrt_iff (hf : 2 ≤ f.width) {x : Number f} (hx : x.IsUnsigned) :
    x.sqrt.isZero = true ↔ x.isZero = true := by
  obtain rfl | ⟨size, rfl⟩ := isUnsigned_cases hx
  · exact ⟨nofun, nofun⟩
  · unfold sqrt
    dsimp only
    by_cases hzero : size.significand = 0
    · rw [if_pos hzero]
    · have hunits : size.units ≠ 0 := fun h => hzero (Magnitude.units_eq_zero_iff.mp h)
      have hsquare : 1 * 1 ≤ size.units * 2 ^ f.scale :=
        Nat.mul_le_mul (by omega) (Nat.two_pow_pos _)
      have hroot : 2 ≤ squareRoot (4 * (size.units * 2 ^ f.scale)) := by
        obtain ⟨-, hhigh⟩ := squareRoot_bounds (4 * (size.units * 2 ^ f.scale))
        by_contra hsmall
        have hle : (squareRoot (4 * (size.units * 2 ^ f.scale)) + 1) *
            (squareRoot (4 * (size.units * 2 ^ f.scale)) + 1) ≤ 2 * 2 :=
          Nat.mul_le_mul (by omega) (by omega)
        omega
      rw [if_neg hzero, if_neg Bool.false_ne_true, isZero_ofUnits_iff hf _ (by decide),
        isZero_finite_iff]
      omega

/-- A square is rounded to zero if the number is, or if it is less than the root of half a unit. -/
theorem isZero_mul_self_ofUnits_iff (hf : 2 ≤ f.width) (negative : Bool) (num den : ℕ) :
    ((ofUnits negative num den : Number f) * ofUnits negative num den).isZero = true ↔
      ∃ size, Magnitude.nearest? f num den = some size ∧
        2 * (size.units * size.units) ≤ 2 ^ f.scale := by
  unfold ofUnits
  cases Magnitude.nearest? f num den with
  | none => exact ⟨nofun, nofun⟩
  | some size =>
    show (ofUnits _ (size.units * size.units) (2 ^ f.scale)).isZero = true ↔ _
    rw [isZero_ofUnits_iff hf _ (Nat.two_pow_pos _)]
    constructor
    · intro h
      exact ⟨size, rfl, h⟩
    · rintro ⟨_, hsize, h⟩
      cases hsize
      exact h

/-- The square of a difference is that of its rounded size. -/
theorem isZero_mul_self_sub_iff (hf : 2 ≤ f.width) (a b : Bool) (s t : Magnitude f) :
    (((.finite a s : Number f) - .finite b t) * (.finite a s - .finite b t)).isZero = true ↔
      ∃ size, Magnitude.nearest? f (signedUnits a s - signedUnits b t).natAbs 1 = some size ∧
        2 * (size.units * size.units) ≤ 2 ^ f.scale := by
  rw [← isZero_mul_self_ofUnits_iff hf (decide (signedUnits a s - signedUnits b t < 0)), sub_finite]
  by_cases hzero : signedUnits a s - signedUnits b t = 0
  · have hnearest : Magnitude.nearest? f 0 1 = some .zero :=
      (Magnitude.nearest?_eq_zero_iff hf Nat.one_pos).mpr (Nat.zero_le _)
    have hrounded : (ofUnits (decide ((0 : ℤ) < 0)) (0 : ℤ).natAbs 1 : Number f) = zero := by
      unfold ofUnits
      rw [Int.natAbs_zero, hnearest]
      rfl
    rw [if_pos hzero, hzero, hrounded]
    cases a <;> cases b <;> rfl
  · rw [if_neg hzero]

/-- Both zeros are equal to the unsigned one, and nothing else is. -/
theorem equals_zero_iff {x : Number f} : x.equals zero = true ↔ x.isZero = true := by
  cases x with
  | nan => exact ⟨nofun, nofun⟩
  | infinite negative => exact ⟨nofun, nofun⟩
  | finite negative size =>
    show ((finite negative size).isZero && true || finite negative size == zero) = true ↔ _
    rw [Bool.and_true, Bool.or_eq_true, beq_iff_eq]
    refine or_iff_left_of_imp fun h => ?_
    rw [h]
    rfl

/-! ## Equal values -/

theorem value_sub_value (a b : Bool) (s t : Magnitude f) :
    |value (.finite a s) - value (.finite b t)| =
      (signedUnits a s - signedUnits b t).natAbs / 2 ^ f.scale := by
  rw [value_eq_signedUnits, value_eq_signedUnits, ← sub_div, abs_div,
    abs_of_pos (by positivity : (0 : ℚ) < 2 ^ f.scale), ← Int.cast_sub, ← Int.cast_abs,
    Int.abs_eq_natAbs, Int.cast_natCast]

theorem signedUnits_eq_iff {a b : Bool} {s t : Magnitude f} :
    signedUnits a s = signedUnits b t ↔ s.units = 0 ∧ t.units = 0 ∨ a = b ∧ s = t := by
  constructor
  · intro h
    by_cases hzero : s.units = 0
    · cases a <;> cases b <;> simp [signedUnits] at h <;> omega
    · right
      have hsigns : a = b ∧ s.units = t.units := by
        cases a <;> cases b <;> simp [signedUnits] at h ⊢ <;> omega
      exact ⟨hsigns.1, Magnitude.eq_of_units_eq hsigns.2⟩
  · rintro (⟨hs, ht⟩ | ⟨rfl, rfl⟩)
    · cases a <;> cases b <;> simp [signedUnits, hs, ht]
    · rfl

/-- Finite numbers are equal if their values are. -/
theorem equals_iff {x y : Number f} (hx : x.isFinite = true) (hy : y.isFinite = true) :
    x.equals y = true ↔ x.value = y.value := by
  cases x with
  | nan => cases hx
  | infinite negative => cases hx
  | finite a s =>
    cases y with
    | nan => cases hy
    | infinite negative => cases hy
    | finite b t =>
      have hscale : (2 : ℚ) ^ f.scale ≠ 0 := by positivity
      rw [value_eq_signedUnits, value_eq_signedUnits, div_left_inj' hscale, Int.cast_inj,
        signedUnits_eq_iff, ← isZero_finite_iff a, ← isZero_finite_iff b]
      show ((finite a s).isZero && (finite b t).isZero || finite a s == finite b t) = true ↔ _
      rw [Bool.or_eq_true, Bool.and_eq_true, beq_iff_eq, finite.injEq]

end Number
end Binary
end PlaneReport
