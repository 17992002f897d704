import PlaneReport.Proofs.Decimal.Interval

/-!
# The shortest digits read back

`shortest` searches ever finer grids for a point of the interval of a magnitude.  The grid is fine
enough long before the search ends, so what it finds does lie there.  The theorem this file exists
for is `toNumber_shortest`: reading the shortest digits of a magnitude gives the magnitude.
-/

namespace PlaneReport

open Binary

/-! ## The search -/

namespace Binary.Magnitude

open Decimal

variable {f : Format} {x : Magnitude f} {tie : Tie} {place : ℤ}

theorem admits_grid_iff (count : ℕ) (place : ℤ) :
    x.admits (count * (10 ^ place.toNat * 2 ^ (f.scale + 2))) (10 ^ (-place).toNat) = true ↔
      x.Contains (quartersOf f count place) := by
  rw [← quotient_eq_quartersOf, ← admits_iff (Nat.pow_pos (by decide)), Nat.pow_add]
  have hcomm : count * (10 ^ place.toNat * (2 ^ f.scale * 2 ^ 2)) =
      4 * (count * 10 ^ place.toNat * 2 ^ f.scale) := by ring
  rw [hcomm]

/-- What is found on a grid lies in the interval. -/
theorem contains_of_onGrid? {count : ℕ} (h : onGrid? tie x place = some count) :
    x.Contains (quartersOf f count place) := by
  rw [← admits_grid_iff]
  unfold onGrid? at h
  dsimp only at h
  generalize hstep : 10 ^ place.toNat * 2 ^ (f.scale + 2) = step at h ⊢
  generalize hbelow : x.quarters * 10 ^ (-place).toNat / step = below at h
  split at h
  · cases h
  · next hlow _ =>
    cases h
    exact hlow
  · next _ hhigh =>
    cases h
    exact hhigh
  · next hlow hhigh =>
    split at h
    · cases h
      exact hlow
    · split at h
      · cases h
        exact hhigh
      · cases tie with
        | up =>
          cases h
          exact hhigh
        | toEven =>
          cases h
          rcases Nat.mod_two_eq_zero_or_one below with heven | hodd
          · rw [heven, Nat.add_zero]
            exact hlow
          · rw [hodd]
            exact hhigh

/-- A grid whose step is less than the room above a magnitude has a point in the interval. -/
theorem exists_onGrid? (tie : Tie) (hfine : quartersOf f 1 place < 2 * 2 ^ x.shift) :
    ∃ count, onGrid? tie x place = some count := by
  have hden : 0 < 10 ^ (-place).toNat := Nat.pow_pos (by decide)
  have hstep : 0 < 10 ^ place.toNat * 2 ^ (f.scale + 2) :=
    Nat.mul_pos (Nat.pow_pos (by decide)) (Nat.two_pow_pos _)
  have hhit : x.admits
      ((x.quarters * 10 ^ (-place).toNat / (10 ^ place.toNat * 2 ^ (f.scale + 2)) + 1) *
        (10 ^ place.toNat * 2 ^ (f.scale + 2))) (10 ^ (-place).toNat) = true := by
    have hroom : 1 * (10 ^ place.toNat * 2 ^ (f.scale + 2)) <
        x.roomAbove * 10 ^ (-place).toNat := by
      rw [← quotient_eq_quartersOf, div_lt_iff₀ (by exact_mod_cast hden)] at hfine
      have hnat : 4 * (1 * 10 ^ place.toNat * 2 ^ f.scale) <
          2 * 2 ^ x.shift * 10 ^ (-place).toNat := by exact_mod_cast hfine
      unfold roomAbove
      calc 1 * (10 ^ place.toNat * 2 ^ (f.scale + 2))
          = 4 * (1 * 10 ^ place.toNat * 2 ^ f.scale) := by rw [Nat.pow_add]; ring
        _ < 2 * 2 ^ x.shift * 10 ^ (-place).toNat := hnat
    generalize 10 ^ place.toNat * 2 ^ (f.scale + 2) = step at hstep hroom ⊢
    generalize 10 ^ (-place).toNat = den at hden hroom ⊢
    have hdiv : step * (x.quarters * den / step) + x.quarters * den % step = x.quarters * den :=
      Nat.div_add_mod _ _
    have hmod : x.quarters * den % step < step := Nat.mod_lt _ hstep
    have hpoint : (x.quarters * den / step + 1) * step =
        step * (x.quarters * den / step) + step := by ring
    have hlow : (x.quarters - x.roomBelow) * den ≤ x.quarters * den :=
      Nat.mul_le_mul_right den (Nat.sub_le _ _)
    have hhigh : (x.quarters + x.roomAbove) * den = x.quarters * den + x.roomAbove * den :=
      Nat.add_mul _ _ _
    unfold admits
    dsimp only
    split <;> rw [decide_eq_true_eq] <;> omega
  unfold onGrid?
  dsimp only
  rw [hhit]
  split
  · next heq => cases heq
  · exact ⟨_, rfl⟩
  · exact ⟨_, rfl⟩
  · split
    · exact ⟨_, rfl⟩
    · split
      · exact ⟨_, rfl⟩
      · cases tie <;> exact ⟨_, rfl⟩

/-- The search ends in the interval if one of the grids it looks at is fine enough. -/
theorem contains_searchGrid {steps k : ℕ} (hk : k < steps)
    (hfine : quartersOf f 1 (place - k) < 2 * 2 ^ x.shift) :
    x.Contains
      (quartersOf f (searchGrid tie x steps place).1 (searchGrid tie x steps place).2) := by
  induction steps generalizing place k with
  | zero => omega
  | succ steps ih =>
    unfold searchGrid
    cases hgrid : onGrid? tie x place with
    | some count => exact contains_of_onGrid? hgrid
    | none =>
      cases k with
      | zero =>
        rw [Nat.cast_zero, sub_zero] at hfine
        obtain ⟨count, hcount⟩ := exists_onGrid? tie hfine
        rw [hcount] at hgrid
        cases hgrid
      | succ k =>
        refine ih (k := k) (by omega) ?_
        rw [show place - 1 - (k : ℤ) = place - ((k + 1 : ℕ) : ℤ) by push_cast; ring]
        exact hfine

/-- The first digit of a nonzero magnitude does not stand above it. -/
theorem pow_leading_le (hx : x.significand ≠ 0) :
    (10 : ℚ) ^ (x.leading - 1) * 2 ^ f.scale ≤ x.units := by
  have hunits : x.units ≠ 0 := fun h => hx (units_eq_zero_iff.mp h)
  have hn : x.units * 10 ^ f.scale / 2 ^ f.scale ≠ 0 := by
    have hle : 1 * 2 ^ f.scale ≤ x.units * 10 ^ f.scale :=
      Nat.mul_le_mul (by omega) (Nat.pow_le_pow_left (by decide) _)
    have := (Nat.le_div_iff_mul_le (Nat.two_pow_pos f.scale)).mpr hle
    omega
  have hpos : 0 < digitCount (x.units * 10 ^ f.scale / 2 ^ f.scale) := Nat.length_toDigits_pos
  have hcount := pow_digitCount_le hn
  have hdiv : x.units * 10 ^ f.scale / 2 ^ f.scale * 2 ^ f.scale ≤ x.units * 10 ^ f.scale :=
    Nat.div_mul_le_self _ _
  unfold leading
  generalize digitCount (x.units * 10 ^ f.scale / 2 ^ f.scale) = count at hpos hcount ⊢
  have hnat : 10 ^ (count - 1) * 2 ^ f.scale ≤ x.units * 10 ^ f.scale :=
    Nat.le_trans (Nat.mul_le_mul_right _ hcount) hdiv
  have hcast : (10 : ℚ) ^ (count - 1) * 2 ^ f.scale ≤ x.units * 10 ^ f.scale := by
    exact_mod_cast hnat
  have hexp : (10 : ℚ) ^ ((count : ℤ) - f.scale - 1) = 10 ^ (count - 1) / 10 ^ f.scale := by
    rw [show (count : ℤ) - f.scale - 1 = ((count - 1 : ℕ) : ℤ) - (f.scale : ℤ) by omega,
      zpow_sub₀ (by norm_num), zpow_natCast, zpow_natCast]
  rw [hexp, div_mul_eq_mul_div, div_le_iff₀ (by positivity)]
  exact hcast

/-- As many grids as the format has bits are enough. -/
theorem last_grid_fine (hf : 2 ≤ f.width) (hx : x.significand ≠ 0) :
    quartersOf f 1 (x.leading - 1 - ((f.width - 1 : ℕ) : ℤ)) < 2 * 2 ^ x.shift := by
  have hlead := pow_leading_le hx
  have hunits : (x.units : ℚ) < 2 ^ f.width * 2 ^ x.shift := by
    have hnat : x.units < 2 ^ f.width * 2 ^ x.shift :=
      Nat.mul_lt_mul_of_pos_right x.significand_lt (Nat.two_pow_pos _)
    exact_mod_cast hnat
  have hpow : (2 : ℚ) ^ (f.width + 1) ≤ 10 ^ (f.width - 1) := by
    obtain ⟨w, hw⟩ := Nat.exists_eq_add_of_le hf
    rw [hw, show 2 + w + 1 = w + 3 by omega, show 2 + w - 1 = w + 1 by omega]
    calc (2 : ℚ) ^ (w + 3) = 2 ^ w * 8 := by ring
      _ ≤ 10 ^ w * 10 :=
          mul_le_mul (pow_le_pow_left₀ (by norm_num) (by norm_num) w) (by norm_num) (by norm_num)
            (by positivity)
      _ = 10 ^ (w + 1) := (pow_succ _ _).symm
  have hten : (0 : ℚ) < 10 ^ (f.width - 1) := by positivity
  unfold quartersOf scaled
  rw [Nat.cast_one, one_mul, zpow_sub₀ (by norm_num), zpow_natCast, div_mul_eq_mul_div,
    div_lt_iff₀ hten]
  calc (10 : ℚ) ^ (x.leading - 1) * 2 ^ (f.scale + 2)
      = 10 ^ (x.leading - 1) * 2 ^ f.scale * 4 := by ring
    _ ≤ x.units * 4 := mul_le_mul_of_nonneg_right hlead (by norm_num)
    _ < 2 ^ f.width * 2 ^ x.shift * 4 := mul_lt_mul_of_pos_right hunits (by norm_num)
    _ = 2 * 2 ^ x.shift * 2 ^ (f.width + 1) := by ring
    _ ≤ 2 * 2 ^ x.shift * 10 ^ (f.width - 1) :=
        mul_le_mul_of_nonneg_left hpow (by positivity)

end Binary.Magnitude

/-! ## The digits -/

namespace Decimal

variable {f : Format} {x : Magnitude f} {tie : Tie}

/-- Moving zeros into the exponent changes no value. -/
theorem scaled_stripZeros (steps : ℕ) (d : ℕ × ℤ) :
    scaled (stripZeros steps d).1 (stripZeros steps d).2 = scaled d.1 d.2 := by
  induction steps generalizing d with
  | zero => rfl
  | succ steps ih =>
    obtain ⟨coefficient, place⟩ := d
    unfold stripZeros
    split
    · next h =>
      rw [ih]
      have hten : coefficient = coefficient / 10 * 10 := by omega
      have hcast : (coefficient : ℚ) = (coefficient / 10 : ℕ) * 10 := by exact_mod_cast hten
      unfold scaled
      dsimp only
      rw [zpow_add_one₀ (by norm_num), hcast]
      ring
    · rfl

/-- The shortest digits lie in the interval of their magnitude. -/
theorem contains_shortest (tie : Tie) (hf : 2 ≤ f.width) (hx : x.significand ≠ 0) :
    x.Contains (quartersOf f (shortest tie x).1 (shortest tie x).2) := by
  have hfound : x.Contains (quartersOf f (x.searchGrid tie f.width (x.leading - 1)).1
      (x.searchGrid tie f.width (x.leading - 1)).2) :=
    Magnitude.contains_searchGrid (k := f.width - 1) (by omega) (Magnitude.last_grid_fine hf hx)
  unfold quartersOf shortest at *
  dsimp only
  rw [scaled_stripZeros]
  exact hfound

theorem shortest_ne_zero (hf : 2 ≤ f.width) (hx : x.significand ≠ 0) :
    (shortest tie x).1 ≠ 0 := by
  intro hzero
  have h := contains_shortest tie hf hx
  have hsmall : quartersOf f (shortest tie x).1 (shortest tie x).2 < 2 := by
    unfold quartersOf scaled
    rw [hzero]
    norm_num
  refine hx ?_
  rw [Magnitude.eq_zero_of_contains h hsmall]
  rfl

/-- Whatever decimal has the value of the shortest digits of a magnitude is read as it. -/
theorem toNumber_shortest (tie : Tie) (hf : 2 ≤ f.width) (hx : x.significand ≠ 0) (d : Decimal)
    (hd : scaled d.coefficient d.exponent = scaled (shortest tie x).1 (shortest tie x).2) :
    d.toNumber f = .finite d.negative x := by
  refine toNumber_of_contains d ?_
  unfold quartersOf
  rw [hd]
  exact contains_shortest tie hf hx

end Decimal
end PlaneReport
