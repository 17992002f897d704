import PlaneReport.Proofs.Decimal.Fewest

/-!
# Shortest digits in order

The intervals of magnitudes do not overlap, so of two magnitudes the greater one has the greater
shortest decimal, `scaled_shortest_le_iff`.  A bound on the first digit of a shortest decimal is
therefore a bound on the magnitude, `le_firstPlace_shortest_iff`.  A shortest decimal has no zeros
at its end, and so as many digits as it has significant ones.
-/

namespace PlaneReport
namespace Decimal

open Binary

/-! ## The first digit -/

/-- The power of ten of the first digit. -/
def firstPlace (d : ℕ × ℤ) : ℤ :=
  digitCount d.1 + d.2 - 1

theorem pow_firstPlace_le {d : ℕ × ℤ} (hd : d.1 ≠ 0) :
    (10 : ℚ) ^ firstPlace d ≤ scaled d.1 d.2 := by
  have hpos : 0 < digitCount d.1 := Nat.length_toDigits_pos
  have hdigits : (10 : ℚ) ^ (digitCount d.1 - 1) ≤ d.1 := by exact_mod_cast pow_digitCount_le hd
  unfold firstPlace scaled
  calc (10 : ℚ) ^ (digitCount d.1 + d.2 - 1 : ℤ)
      = 10 ^ (((digitCount d.1 - 1 : ℕ) : ℤ) + d.2) := by congr 1; omega
    _ = 10 ^ (digitCount d.1 - 1) * 10 ^ d.2 := by rw [zpow_add₀ (by norm_num), zpow_natCast]
    _ ≤ d.1 * 10 ^ d.2 := mul_le_mul_of_nonneg_right hdigits (by positivity)

theorem scaled_lt_pow_firstPlace (d : ℕ × ℤ) :
    scaled d.1 d.2 < (10 : ℚ) ^ (firstPlace d + 1) := by
  have hdigits : (d.1 : ℚ) < 10 ^ digitCount d.1 := by exact_mod_cast lt_pow_digitCount d.1
  unfold firstPlace scaled
  calc (d.1 : ℚ) * 10 ^ d.2 < 10 ^ digitCount d.1 * 10 ^ d.2 :=
        mul_lt_mul_of_pos_right hdigits (by positivity)
    _ = 10 ^ (digitCount d.1 + d.2 : ℤ) := by rw [zpow_add₀ (by norm_num), zpow_natCast]
    _ = 10 ^ (digitCount d.1 + d.2 - 1 + 1 : ℤ) := by rw [sub_add_cancel]

theorem le_firstPlace_iff {d : ℕ × ℤ} (hd : d.1 ≠ 0) {k : ℤ} :
    k ≤ firstPlace d ↔ (10 : ℚ) ^ k ≤ scaled d.1 d.2 := by
  constructor
  · intro hk
    exact (zpow_le_zpow_right₀ (by norm_num) hk).trans (pow_firstPlace_le hd)
  · intro hk
    have hlt := (zpow_lt_zpow_iff_right₀ (by norm_num)).mp
      (hk.trans_lt (scaled_lt_pow_firstPlace d))
    omega

/-! ## The order of shortest decimals -/

section Order

variable {f : Format} {x y : Magnitude f} (tie : Tie) (hf : 2 ≤ f.width) (hx : x.significand ≠ 0)
include hf hx

theorem scaled_shortest_lt (h : x.units < y.units) :
    scaled (shortest tie x).1 (shortest tie x).2 <
      scaled (shortest tie y).1 (shortest tie y).2 := by
  have hy : y.significand ≠ 0 := fun hzero => by
    rw [Magnitude.units_eq_zero_iff.mpr hzero] at h
    exact Nat.not_lt_zero _ h
  have hroom : ((x.quarters + x.roomAbove : ℕ) : ℚ) ≤ ((y.quarters - y.roomBelow : ℕ) : ℚ) := by
    have := Magnitude.room_le_of_units_lt h
    exact_mod_cast (by omega : x.quarters + x.roomAbove ≤ y.quarters - y.roomBelow)
  have hquarters : quartersOf f (shortest tie x).1 (shortest tie x).2 ≤
      quartersOf f (shortest tie y).1 (shortest tie y).2 :=
    (contains_shortest tie hf hx).2.1.trans (hroom.trans (contains_shortest tie hf hy).1)
  refine lt_of_le_of_ne (le_of_mul_le_mul_right hquarters (by positivity)) fun heq => ?_
  -- A decimal that both share would be read as both.
  have hread := toNumber_shortest tie hf hx ⟨false, (shortest tie x).1, (shortest tie x).2⟩ rfl
  rw [toNumber_shortest tie hf hy ⟨false, (shortest tie x).1, (shortest tie x).2⟩ heq] at hread
  cases hread
  exact Nat.lt_irrefl _ h

/-- Of two magnitudes the greater one has the greater shortest decimal. -/
theorem scaled_shortest_le_iff (hy : y.significand ≠ 0) :
    scaled (shortest tie x).1 (shortest tie x).2 ≤ scaled (shortest tie y).1 (shortest tie y).2 ↔
      x.units ≤ y.units := by
  constructor
  · intro hle
    by_contra hlt
    exact absurd hle (not_le.mpr (scaled_shortest_lt tie hf hy (Nat.not_le.mp hlt)))
  · intro hle
    rcases Nat.lt_or_eq_of_le hle with hlt | heq
    · exact (scaled_shortest_lt tie hf hx hlt).le
    · rw [Magnitude.eq_of_units_eq heq]

/-- The magnitude whose shortest decimal is a power of ten is the least whose shortest decimal
starts at it. -/
theorem le_firstPlace_shortest_iff {k : ℤ} (hy : y.significand ≠ 0)
    (hpow : shortest tie y = (1, k)) :
    k ≤ firstPlace (shortest tie x) ↔ y.units ≤ x.units := by
  rw [le_firstPlace_iff (shortest_ne_zero hf hx), ← scaled_shortest_le_iff tie hf hy hx, hpow]
  unfold scaled
  rw [Nat.cast_one, one_mul]

end Order

/-! ## The last digit -/

theorem digitCount_mul_ten {n : ℕ} (hn : n ≠ 0) : digitCount (n * 10) = digitCount n + 1 := by
  unfold digitCount
  rw [toDigits_mul_ten hn, List.length_append, List.length_singleton]

/-- With a step for each digit no zero is left at the end. -/
theorem stripZeros_mod_ten {steps : ℕ} {d : ℕ × ℤ} (hd : d.1 ≠ 0)
    (hsteps : digitCount d.1 ≤ steps) : (stripZeros steps d).1 % 10 ≠ 0 := by
  induction steps generalizing d with
  | zero =>
    have hpos : 0 < digitCount d.1 := Nat.length_toDigits_pos
    omega
  | succ steps ih =>
    obtain ⟨coefficient, place⟩ := d
    unfold stripZeros
    split
    · next h =>
      have hten : coefficient = coefficient / 10 * 10 := by omega
      have hcount := digitCount_mul_ten (show coefficient / 10 ≠ 0 by omega)
      rw [← hten] at hcount
      dsimp only at hsteps
      exact ih (show coefficient / 10 ≠ 0 by omega)
        (show digitCount (coefficient / 10) ≤ steps by omega)
    · next h => exact fun hmod => h ⟨hd, hmod⟩

section Fewest

variable {f : Format} {x : Magnitude f} (tie : Tie) (hf : 2 ≤ f.width) (hx : x.significand ≠ 0)
include hf hx

theorem shortest_mod_ten : (shortest tie x).1 % 10 ≠ 0 := by
  have hvalue : scaled (shortest tie x).1 (shortest tie x).2 =
      scaled (x.searchGrid tie f.width (x.leading - 1)).1
        (x.searchGrid tie f.width (x.leading - 1)).2 :=
    scaled_stripZeros _ _
  refine stripZeros_mod_ten (fun hzero => ?_) (Nat.le_refl _)
  have hpos : (0 : ℚ) < (shortest tie x).1 := by
    exact_mod_cast Nat.pos_of_ne_zero (shortest_ne_zero hf hx)
  have hscaled : 0 < scaled (shortest tie x).1 (shortest tie x).2 :=
    mul_pos hpos (by positivity)
  rw [hvalue, scaled, hzero, Nat.cast_zero, zero_mul] at hscaled
  exact lt_irrefl _ hscaled

theorem digitCount_shortest :
    digitCount (shortest tie x).1 = significantDigits (shortest tie x).1 :=
  (significantDigits_of_mod_ten (shortest_mod_ten tie hf hx)).symm

/-- The shortest decimal has so few digits just if some decimal with so few significant ones is read
as the magnitude. -/
theorem digitCount_shortest_le_iff (negative : Bool) {n : ℕ} :
    digitCount (shortest tie x).1 ≤ n ↔
      ∃ d : Decimal, d.toNumber f = .finite negative x ∧ significantDigits d.coefficient ≤ n := by
  rw [digitCount_shortest tie hf hx]
  constructor
  · intro hle
    exact ⟨⟨negative, (shortest tie x).1, (shortest tie x).2⟩,
      toNumber_shortest tie hf hx _ rfl, hle⟩
  · rintro ⟨d, hread, hle⟩
    obtain ⟨hc, hcontains⟩ := contains_of_toNumber hf hx hread
    exact (significantDigits_shortest_le tie hf hx hc hcontains).trans hle

end Fewest

end Decimal
end PlaneReport
