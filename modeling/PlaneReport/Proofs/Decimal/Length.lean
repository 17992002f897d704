import PlaneReport.Proofs.Decimal.Fewest

/-!
# How long shortest digits are

Of two neighbours on a grid, one is within half a step of a magnitude, so a grid whose step is less
than twice the lesser room has a point in the interval.  For numbers of 64 bits that is the grid of
the seventeenth digit, and the grid of `1 / 10 ^ 324` whatever the number is.
-/

namespace PlaneReport

open Binary

namespace Binary.Magnitude

open Decimal

variable {f : Format} {x : Magnitude f} {place : ℤ}

theorem roomBelow_pos (x : Magnitude f) : 0 < x.roomBelow := by
  have := Nat.two_pow_pos x.shift
  unfold roomBelow
  split <;> omega

theorem roomBelow_le_roomAbove (x : Magnitude f) : x.roomBelow ≤ x.roomAbove := by
  have := Nat.two_pow_pos x.shift
  unfold roomBelow roomAbove
  split <;> omega

theorem four_mul_le_quarters (hx : x.significand ≠ 0) : 4 * 2 ^ x.shift ≤ x.quarters := by
  have hone : 1 * 2 ^ x.shift ≤ x.significand * 2 ^ x.shift :=
    Nat.mul_le_mul_right _ (Nat.one_le_iff_ne_zero.mpr hx)
  unfold quarters units
  omega

/-- What is nearer to a magnitude than the lesser room lies in its interval. -/
theorem contains_of_near (hx : x.significand ≠ 0) {v : ℚ} (hlow : x.quarters - x.roomBelow < v)
    (hhigh : v < x.quarters + x.roomBelow) : x.Contains v := by
  have hroom : x.roomBelow ≤ x.quarters := by
    have := x.roomBelow_le
    have := four_mul_le_quarters hx
    omega
  have habove : (x.roomBelow : ℚ) ≤ x.roomAbove := by exact_mod_cast x.roomBelow_le_roomAbove
  unfold Contains
  rw [Nat.cast_sub hroom, Nat.cast_add]
  exact ⟨hlow.le, by linarith, fun _ => ⟨hlow, by linarith⟩⟩

theorem quartersOf_succ (count : ℕ) :
    quartersOf f (count + 1) place = quartersOf f count place + quartersOf f 1 place := by
  unfold quartersOf scaled
  push_cast
  ring

/-- A grid whose step is less than twice the lesser room has a point in the interval. -/
theorem exists_contains_of_lt_room (hx : x.significand ≠ 0)
    (h : quartersOf f 1 place < 2 * x.roomBelow) :
    ∃ count, x.Contains (quartersOf f count place) := by
  have hbelow : quartersOf f (x.pointBelow place) place ≤ x.quarters :=
    le_pointBelow_iff.mp (Nat.le_refl _)
  have habove : (x.quarters : ℚ) < quartersOf f (x.pointBelow place + 1) place :=
    not_le.mp fun hle => absurd (le_pointBelow_iff.mpr hle) (Nat.not_succ_le_self _)
  have hroom : (0 : ℚ) < x.roomBelow := by exact_mod_cast x.roomBelow_pos
  have hstep : quartersOf f (x.pointBelow place + 1) place =
      quartersOf f (x.pointBelow place) place + quartersOf f 1 place :=
    quartersOf_succ _
  by_cases hnear : (x.quarters : ℚ) - x.roomBelow < quartersOf f (x.pointBelow place) place
  · exact ⟨_, contains_of_near hx hnear (by linarith)⟩
  · exact ⟨_, contains_of_near hx (by linarith) (by linarith : _ < (x.quarters + x.roomBelow : ℚ))⟩

end Binary.Magnitude

namespace Decimal

variable {x : Magnitude double} {tie : Tie}

theorem stripZeros_bounds (steps : ℕ) (d : ℕ × ℤ) :
    (stripZeros steps d).1 ≤ d.1 ∧ d.2 ≤ (stripZeros steps d).2 := by
  induction steps generalizing d with
  | zero => exact ⟨Nat.le_refl _, Int.le_refl _⟩
  | succ steps ih =>
    obtain ⟨coefficient, place⟩ := d
    unfold stripZeros
    split
    · obtain ⟨hcoefficient, hplace⟩ := ih (coefficient / 10, place + 1)
      dsimp only at hcoefficient hplace ⊢
      exact ⟨by omega, by omega⟩
    · exact ⟨Nat.le_refl _, Int.le_refl _⟩

/-- The seventeenth digit is enough. -/
theorem seventeenth_lt_room (hx : x.significand ≠ 0) :
    quartersOf double 1 (x.leading - 17) < 2 * x.roomBelow := by
  have hlead := Magnitude.pow_leading_le hx
  have hpow : (10 : ℚ) ^ (x.leading - 17) * 10 ^ 16 = 10 ^ (x.leading - 1) := by
    rw [← zpow_natCast, ← zpow_add₀ (by norm_num)]
    congr 1
    push_cast
    ring
  have hscale : double.scale = 1074 := rfl
  have hgrid : quartersOf double 1 (x.leading - 17) * 10 ^ 16 ≤ 4 * x.units := by
    unfold quartersOf scaled
    rw [Nat.cast_one, one_mul, pow_add, mul_right_comm, hpow]
    linarith
  have hunits : (x.units : ℚ) = x.significand * 2 ^ x.shift := by
    unfold Magnitude.units
    push_cast
    rfl
  have hstep : (0 : ℚ) < 2 ^ x.shift := by positivity
  have hsize : (x.significand : ℚ) < 2 ^ 53 := by exact_mod_cast x.significand_lt
  unfold Magnitude.roomBelow
  split
  · next hleast =>
    have hleast' : (x.significand : ℚ) = 2 ^ 52 := by rw [hleast.2]; norm_num [double]
    rw [hunits, hleast'] at hgrid
    push_cast
    linarith
  · have := mul_lt_mul_of_pos_right hsize hstep
    rw [hunits] at hgrid
    push_cast
    linarith

theorem least_place_lt_room (x : Magnitude double) :
    quartersOf double 1 (-324) < 2 * x.roomBelow := by
  have hone : (1 : ℚ) ≤ x.roomBelow := by exact_mod_cast x.roomBelow_pos
  have hgrid : quartersOf double 1 (-324) < 2 := by
    have hpow : (2 ^ 1076 : ℚ) < 10 ^ 324 * 2 := by
      exact_mod_cast (by decide +kernel : 2 ^ 1076 < 10 ^ 324 * 2)
    unfold quartersOf scaled
    rw [zpow_neg, zpow_ofNat, Nat.cast_one, one_mul, inv_mul_lt_iff₀ (by positivity)]
    exact hpow
  linarith

theorem lt_leading (hx : x.significand ≠ 0) : -324 < x.leading := by
  have hless := x.quarters_lt_leading
  have hfour : (4 : ℚ) ≤ x.quarters := by
    have := Magnitude.four_mul_le_quarters hx
    have := Nat.two_pow_pos x.shift
    exact_mod_cast (by omega : 4 ≤ x.quarters)
  have hpow : (4 * 10 ^ 324 : ℚ) ≥ 2 ^ 1076 := by
    exact_mod_cast (by decide +kernel : 2 ^ 1076 ≤ 4 * 10 ^ 324)
  by_contra hlow
  have hplace : (10 : ℚ) ^ x.leading ≤ 10 ^ (-324 : ℤ) :=
    zpow_le_zpow_right₀ (by norm_num) (by omega)
  have hvalue : quartersOf double 1 x.leading ≤ 4 := by
    unfold quartersOf scaled
    rw [Nat.cast_one, one_mul]
    calc (10 : ℚ) ^ x.leading * 2 ^ (double.scale + 2)
        ≤ 10 ^ (-324 : ℤ) * 2 ^ 1076 := mul_le_mul_of_nonneg_right hplace (by positivity)
      _ = 2 ^ 1076 / 10 ^ 324 := by rw [zpow_neg, zpow_ofNat, inv_mul_eq_div]
      _ ≤ 4 := (div_le_iff₀ (by positivity)).mpr hpow
  linarith

/-- The first sixteen grids, or those down to the 324th place, have a point in the interval. -/
theorem exists_found (tie : Tie) (hx : x.significand ≠ 0) :
    ∃ i : ℕ, i < 17 ∧ -324 ≤ x.leading - 1 - (i : ℤ) ∧
      ∃ found, x.onGrid? tie (x.leading - 1 - i) = some found := by
  have hlead := lt_leading hx
  by_cases hlong : -324 ≤ x.leading - 17
  · obtain ⟨count, hcount⟩ := Magnitude.exists_contains_of_lt_room hx (seventeenth_lt_room hx)
    refine ⟨16, by omega, by omega, Magnitude.exists_onGrid?_of_contains tie count ?_⟩
    rwa [show x.leading - 1 - ((16 : ℕ) : ℤ) = x.leading - 17 by omega]
  · obtain ⟨count, hcount⟩ := Magnitude.exists_contains_of_lt_room hx (least_place_lt_room x)
    have hplace : x.leading - 1 - ((x.leading + 323).toNat : ℤ) = -324 := by omega
    refine ⟨(x.leading + 323).toNat, by omega, by omega,
      Magnitude.exists_onGrid?_of_contains tie count ?_⟩
    rwa [hplace]

/-- A shortest decimal of 64 bits has at most seventeen digits, apart from a power of ten, and none
below the 324th place. -/
theorem shortest_bounds (tie : Tie) (hx : x.significand ≠ 0) :
    (shortest tie x).1 ≤ 10 ^ 17 ∧ -324 ≤ (shortest tie x).2 := by
  obtain ⟨i, hi, hplace, point, hpoint⟩ := exists_found tie hx
  have hwidth : i < double.width := hi.trans (by decide)
  obtain ⟨j, hj, found, hfound, hsearch⟩ := Magnitude.searchGrid_stops hwidth hpoint
  rw [show x.leading - 1 - (j : ℤ) = x.leading - ((j + 1 : ℕ) : ℤ) by omega] at hfound
  have hlength : found ≤ 10 ^ 17 :=
    (Magnitude.onGrid?_le_pow hfound).trans (Nat.pow_le_pow_right (by decide) (by omega))
  have hstrip := stripZeros_bounds (digitCount found) (found, x.leading - 1 - (j : ℤ))
  unfold shortest
  rw [hsearch]
  dsimp only at hstrip ⊢
  exact ⟨hstrip.1.trans hlength, by omega⟩

/-- Nor is any of its places above the 308th. -/
theorem shortest_place_le (tie : Tie) (hx : x.significand ≠ 0) : (shortest tie x).2 ≤ 308 := by
  have hless := Magnitude.lt_of_contains (contains_shortest tie (by decide) hx)
  have hone : (1 : ℚ) ≤ (shortest tie x).1 := by
    exact_mod_cast Nat.one_le_iff_ne_zero.mpr (shortest_ne_zero (by decide) hx)
  have hpow : (10 : ℚ) ^ (shortest tie x).2 < 10 ^ (309 : ℤ) := by
    have hscaled : (10 : ℚ) ^ (shortest tie x).2 * 2 ^ (double.scale + 2) <
        2 ^ 1024 * 2 ^ (double.scale + 2) := by
      calc (10 : ℚ) ^ (shortest tie x).2 * 2 ^ (double.scale + 2)
          = 1 * 10 ^ (shortest tie x).2 * 2 ^ (double.scale + 2) := by rw [one_mul]
        _ ≤ quartersOf double (shortest tie x).1 (shortest tie x).2 := by
            unfold quartersOf scaled
            gcongr
        _ < 2 ^ (double.width + double.top + 2) := hless
        _ = 2 ^ 1024 * 2 ^ (double.scale + 2) := by
            rw [← pow_add]
            rfl
    have hbound : (2 ^ 1024 : ℚ) ≤ 10 ^ 309 := by
      exact_mod_cast (by decide +kernel : 2 ^ 1024 ≤ 10 ^ 309)
    rw [zpow_ofNat]
    exact (lt_of_mul_lt_mul_right hscaled (by positivity)).trans_le hbound
  have := (zpow_lt_zpow_iff_right₀ (by norm_num)).mp hpow
  omega

end Decimal
end PlaneReport
