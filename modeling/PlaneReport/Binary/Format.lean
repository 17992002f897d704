import PlaneReport.Power

/-!
# Binary number formats

A binary format keeps `width` significant bits.  Every finite number of it is a whole number of
units, where `2 ^ scale` units make one, so the exact value of a number is a natural number of
units and a sign.  `Magnitude` holds the unsigned finite numbers, each in exactly one way, and
`Magnitude.nearest?` rounds a quotient of units to the nearest of them, a tie going to the even
significand.
-/

namespace PlaneReport
namespace Binary

open Power

structure Format where
  /-- Significant bits. -/
  width : Nat
  /-- The largest shift of a significand. -/
  top : Nat
  /-- One is `2 ^ scale` units. -/
  scale : Nat
  width_pos : 0 < width := by decide

theorem Format.zero_le_top (f : Format) : 0 ≤ f.top :=
  Nat.zero_le _

/-- The format of 64 bits. -/
def double : Format where
  width := 53
  top := 2045
  scale := 1074

/-- The format of 32 bits. -/
def single : Format where
  width := 24
  top := 253
  scale := 149

/-- The number of binary digits of `n`; zero has none. -/
def bitLength (n : Nat) : Nat :=
  if n = 0 then 0 else n.log2 + 1

theorem le_of_bitLength_pos {n w : Nat} (h : 0 < bitLength n - w) :
    2 ^ (w + (bitLength n - w) - 1) ≤ n := by
  unfold bitLength at h ⊢
  split at h
  · omega
  · next hn =>
    rw [if_neg hn]
    have he : w + (n.log2 + 1 - w) - 1 = n.log2 := by omega
    rw [he]
    exact Nat.log2_self_le hn

/-- The whole number nearest to `num / den`, a tie going to the even one. -/
def roundHalfEven (num den : Nat) : Nat :=
  let quotient := num / den
  let twice := 2 * (num % den)
  if twice < den then quotient
  else if den < twice then quotient + 1
  else quotient + quotient % 2

theorem div_le_roundHalfEven (num den : Nat) : num / den ≤ roundHalfEven num den := by
  unfold roundHalfEven
  dsimp only
  split
  · omega
  · split <;> omega

theorem roundHalfEven_le (num den : Nat) : roundHalfEven num den ≤ num / den + 1 := by
  unfold roundHalfEven
  dsimp only
  split
  · omega
  · split <;> omega

/-- An unsigned finite number: `significand * 2 ^ shift` units.  A significand that could be
doubled is only written at shift zero, so that equal numbers are equal records. -/
structure Magnitude (f : Format) where
  significand : Nat
  shift : Nat
  significand_lt : significand < 2 ^ f.width
  shift_le : shift ≤ f.top
  canonical : shift = 0 ∨ 2 ^ (f.width - 1) ≤ significand
deriving DecidableEq

namespace Magnitude

variable {f : Format}

/-- The exact value, in units. -/
def units (x : Magnitude f) : Nat :=
  x.significand * 2 ^ x.shift

def zero : Magnitude f where
  significand := 0
  shift := 0
  significand_lt := Nat.two_pow_pos _
  shift_le := f.zero_le_top
  canonical := Or.inl rfl

instance : Inhabited (Magnitude f) := ⟨zero⟩

@[simp]
theorem units_zero : (zero : Magnitude f).units = 0 := by simp [units, zero]

theorem units_eq_zero_iff {x : Magnitude f} : x.units = 0 ↔ x.significand = 0 := by
  have := Nat.two_pow_pos x.shift
  simp only [units, Nat.mul_eq_zero]
  omega

/-- The shift that leaves `num / den` with no more than `width` bits. -/
def shiftFor (f : Format) (num den : Nat) : Nat :=
  bitLength (num / den) - f.width

theorem canonical_of_shiftFor (f : Format) (num den : Nat) :
    shiftFor f num den = 0 ∨
      2 ^ (f.width - 1) ≤ roundHalfEven num (den * 2 ^ shiftFor f num den) := by
  rcases Nat.eq_zero_or_pos (shiftFor f num den) with h | h
  · exact Or.inl h
  · refine Or.inr (Nat.le_trans ?_ (div_le_roundHalfEven _ _))
    have hle : 2 ^ (f.width + shiftFor f num den - 1) ≤ num / den := le_of_bitLength_pos h
    rw [← Nat.div_div_eq_div_mul, Nat.le_div_iff_mul_le (Nat.two_pow_pos _), ← Nat.pow_add]
    have hw := f.width_pos
    have he : f.width - 1 + shiftFor f num den = f.width + shiftFor f num den - 1 := by omega
    rw [he]
    exact hle

/-- The magnitude nearest to `num / den` units, a tie going to the even significand; `none` when
that lies beyond the largest magnitude. -/
def nearest? (f : Format) (num den : Nat) : Option (Magnitude f) :=
  let shift := shiftFor f num den
  let significand := roundHalfEven num (den * 2 ^ shift)
  if hm : significand < 2 ^ f.width then
    if hs : shift ≤ f.top then
      some ⟨significand, shift, hm, hs, canonical_of_shiftFor f num den⟩
    else none
  else if hs : shift + 1 ≤ f.top then
    some ⟨2 ^ (f.width - 1), shift + 1,
      Nat.pow_lt_pow_right (by decide) (by have := f.width_pos; omega), hs,
      Or.inr (Nat.le_refl _)⟩
  else none

end Magnitude
end Binary
end PlaneReport
