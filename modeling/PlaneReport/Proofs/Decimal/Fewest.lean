import Mathlib.Data.List.DropRight
import PlaneReport.Proofs.Binary.Value
import PlaneReport.Proofs.Decimal.Shortest

/-!
# No fewer digits

Zeros at the end of a coefficient are not significant, as they can be moved into the exponent.  A
decimal in the interval of a magnitude lies on some grid, so the search cannot have passed that grid,
and what it finds there has no more significant digits, `significantDigits_shortest_le`.  A decimal
that is read as a magnitude lies in that interval, and is no nearer to any other magnitude,
`nearest_of_toNumber`.
-/

namespace PlaneReport

open Binary

/-! ## Significant digits -/

namespace Decimal

/-- How many digits a whole number has up to the last one that is not zero. -/
def significantDigits (n : ℕ) : ℕ :=
  ((Nat.toDigits 10 n).rdropWhile (· = '0')).length

theorem toDigits_mul_ten {n : ℕ} (hn : n ≠ 0) :
    Nat.toDigits 10 (n * 10) = Nat.toDigits 10 n ++ ['0'] := by
  rw [Nat.toDigits_eq_if (by decide), if_neg (by omega), Nat.mul_div_cancel _ (by decide),
    Nat.mul_mod_left]
  rfl

theorem significantDigits_mul_ten {n : ℕ} (hn : n ≠ 0) :
    significantDigits (n * 10) = significantDigits n := by
  unfold significantDigits
  rw [toDigits_mul_ten hn, List.rdropWhile_concat_pos _ _ _ (by decide)]

theorem significantDigits_mul_pow {n : ℕ} (hn : n ≠ 0) (k : ℕ) :
    significantDigits (n * 10 ^ k) = significantDigits n := by
  induction k with
  | zero => rw [Nat.pow_zero, Nat.mul_one]
  | succ k ih =>
    have hpos : n * 10 ^ k ≠ 0 := Nat.mul_ne_zero hn (Nat.pow_pos (by decide)).ne'
    rw [Nat.pow_succ, ← Nat.mul_assoc, significantDigits_mul_ten hpos, ih]

theorem significantDigits_le_digitCount (n : ℕ) : significantDigits n ≤ digitCount n :=
  (List.rdropWhile_prefix _ _).length_le

theorem significantDigits_of_mod_ten {n : ℕ} (hn : n % 10 ≠ 0) :
    significantDigits n = digitCount n := by
  have hne : Nat.toDigits 10 n ≠ [] := Nat.toDigits_ne_nil
  have hvalue := digitsValue_toDigits n
  unfold significantDigits digitCount
  obtain ⟨init, last, hdigits⟩ := (List.eq_nil_or_concat (Nat.toDigits 10 n)).resolve_left hne
  rw [hdigits, List.concat_eq_append] at hvalue ⊢
  have hlast : last ≠ '0' := by
    rintro rfl
    rw [digitsValue_append, List.length_singleton, Nat.pow_one] at hvalue
    have hzero : digitsValue ['0'] = 0 := rfl
    omega
  rw [List.rdropWhile_concat_neg _ _ _ (by simpa using hlast)]

/-- Without the zeros at its end a number has its significant digits. -/
theorem exists_significand {n : ℕ} (hn : n ≠ 0) :
    ∃ c k, n = c * 10 ^ k ∧ c ≠ 0 ∧ digitCount c = significantDigits n := by
  induction n using Nat.strongRecOn with
  | ind n ih =>
    by_cases hmod : n % 10 = 0
    · obtain ⟨c, k, hc, hpos, hcount⟩ := ih (n / 10) (by omega) (by omega)
      have hten : n = n / 10 * 10 := by omega
      refine ⟨c, k + 1, ?_, hpos, ?_⟩
      · rw [Nat.pow_succ, ← Nat.mul_assoc, ← hc]
        exact hten
      · rw [hcount, hten, significantDigits_mul_ten (by omega), ← hten]
    · exact ⟨n, 0, by rw [Nat.pow_zero, Nat.mul_one], hn, (significantDigits_of_mod_ten hmod).symm⟩

theorem significantDigits_le_of_le_pow {n j : ℕ} (hj : 0 < j) (h : n ≤ 10 ^ j) :
    significantDigits n ≤ j := by
  rcases Nat.lt_or_eq_of_le h with hlt | heq
  · exact (significantDigits_le_digitCount n).trans
      ((Nat.length_toDigits_le_iff (by decide) hj).mpr hlt)
  · rw [heq, ← Nat.one_mul (10 ^ j), significantDigits_mul_pow (by decide)]
    exact hj

/-- Decimals of one value have the same significant digits. -/
theorem significantDigits_eq_of_scaled_eq {c c' : ℕ} {e e' : ℤ} (hc : c ≠ 0)
    (h : scaled c e = scaled c' e') : significantDigits c = significantDigits c' := by
  have hc' : c' ≠ 0 := by
    rintro rfl
    unfold scaled at h
    rw [Nat.cast_zero, zero_mul, mul_eq_zero] at h
    rcases h with h | h
    · exact hc (by exact_mod_cast h)
    · exact absurd h (by positivity)
  have hmove : ∀ {a b : ℕ} {i j : ℤ}, b ≠ 0 → i ≤ j → scaled a i = scaled b j →
      significantDigits a = significantDigits b := by
    intro a b i j hb hij hvalue
    obtain ⟨k, rfl⟩ := Int.le.dest hij
    unfold scaled at hvalue
    rw [zpow_add₀ (by norm_num), zpow_natCast, mul_comm (10 ^ i : ℚ), ← mul_assoc,
      mul_left_inj' (by positivity)] at hvalue
    have hwhole : a = b * 10 ^ k := by exact_mod_cast hvalue
    rw [hwhole, significantDigits_mul_pow hb]
  rcases le_total e e' with hle | hle
  · exact hmove hc' hle h
  · exact (hmove hc hle h.symm).symm

end Decimal

/-! ## Points of grids in an interval -/

namespace Binary.Magnitude

open Decimal

variable {f : Format} {x : Magnitude f} {tie : Tie} {place : ℤ}

theorem Contains.between {u v w : ℚ} (hu : x.Contains u) (hw : x.Contains w) (huv : u ≤ v)
    (hvw : v ≤ w) : x.Contains v :=
  ⟨hu.1.trans huv, hvw.trans hw.2.1, fun hodd =>
    ⟨(hu.2.2 hodd).1.trans_le huv, hvw.trans_lt (hw.2.2 hodd).2⟩⟩

theorem contains_quarters (x : Magnitude f) : x.Contains x.quarters := by
  have h := (admits_iff Nat.one_pos).mp x.admits_units
  rwa [Nat.cast_one, div_one] at h

theorem quartersOf_le_quarters_iff {count : ℕ} :
    quartersOf f count place ≤ x.quarters ↔
      count * (10 ^ place.toNat * 2 ^ (f.scale + 2)) ≤ x.quarters * 10 ^ (-place).toNat := by
  have hden : (0 : ℚ) < ((10 ^ (-place).toNat : ℕ) : ℚ) := by positivity
  have hcomm : 4 * (count * 10 ^ place.toNat * 2 ^ f.scale) =
      count * (10 ^ place.toNat * 2 ^ (f.scale + 2)) := by
    rw [Nat.pow_add]
    ring
  rw [← quotient_eq_quartersOf, div_le_iff₀ hden, hcomm]
  exact_mod_cast Iff.rfl

theorem quartersOf_mono {count count' : ℕ} (h : count ≤ count') :
    quartersOf f count place ≤ quartersOf f count' place := by
  have hcast : (count : ℚ) ≤ count' := by exact_mod_cast h
  unfold quartersOf scaled
  gcongr

/-- A point of a coarse grid is one of every finer grid. -/
theorem quartersOf_mul_pow (count k : ℕ) :
    quartersOf f (count * 10 ^ k) place = quartersOf f count (place + k) := by
  unfold quartersOf scaled
  rw [zpow_add₀ (by norm_num), zpow_natCast]
  push_cast
  ring

/-- The last point of a grid that does not exceed a magnitude. -/
def pointBelow (x : Magnitude f) (place : ℤ) : ℕ :=
  x.quarters * 10 ^ (-place).toNat / (10 ^ place.toNat * 2 ^ (f.scale + 2))

theorem step_pos (f : Format) (place : ℤ) : 0 < 10 ^ place.toNat * 2 ^ (f.scale + 2) :=
  Nat.mul_pos (Nat.pow_pos (by decide)) (Nat.two_pow_pos _)

theorem le_pointBelow_iff {count : ℕ} :
    count ≤ x.pointBelow place ↔ quartersOf f count place ≤ x.quarters := by
  rw [quartersOf_le_quarters_iff]
  exact Nat.le_div_iff_mul_le (step_pos f place)

/-- If any point of a grid lies in the interval, then one of the two next to the magnitude does. -/
theorem admits_pointBelow_or {count : ℕ} (h : x.Contains (quartersOf f count place)) :
    x.Contains (quartersOf f (x.pointBelow place) place) ∨
      x.Contains (quartersOf f (x.pointBelow place + 1) place) := by
  by_cases hbelow : count ≤ x.pointBelow place
  · exact .inl (h.between x.contains_quarters (quartersOf_mono hbelow)
      (le_pointBelow_iff.mp (Nat.le_refl _)))
  · have habove : x.quarters ≤ quartersOf f (x.pointBelow place + 1) place := by
      refine (not_le.mp fun hle => ?_).le
      exact absurd (le_pointBelow_iff.mpr hle) (Nat.not_succ_le_self _)
    exact .inr (x.contains_quarters.between h habove (quartersOf_mono (by omega)))

theorem exists_onGrid?_of_contains (tie : Tie) (count : ℕ)
    (h : x.Contains (quartersOf f count place)) : ∃ found, onGrid? tie x place = some found := by
  have hpoints := admits_pointBelow_or h
  rw [← admits_grid_iff, ← admits_grid_iff] at hpoints
  unfold onGrid?
  dsimp only
  unfold pointBelow at hpoints
  split
  · next hlow hhigh =>
    rw [hlow, hhigh] at hpoints
    rcases hpoints with hnot | hnot <;> cases hnot
  · exact ⟨_, rfl⟩
  · exact ⟨_, rfl⟩
  · split
    · exact ⟨_, rfl⟩
    · split
      · exact ⟨_, rfl⟩
      · cases tie <;> exact ⟨_, rfl⟩

/-- What is found on a grid is one of the two points next to the magnitude. -/
theorem onGrid?_le {found : ℕ} (h : onGrid? tie x place = some found) :
    found ≤ x.pointBelow place + 1 := by
  unfold onGrid? at h
  dsimp only at h
  unfold pointBelow
  generalize x.quarters * 10 ^ (-place).toNat / (10 ^ place.toNat * 2 ^ (f.scale + 2)) = below at h ⊢
  split at h
  · cases h
  · cases h
    exact Nat.le_succ _
  · cases h
    exact Nat.le_refl _
  · split at h
    · cases h
      exact Nat.le_succ _
    · split at h
      · cases h
        exact Nat.le_refl _
      · cases tie with
        | up =>
          cases h
          exact Nat.le_refl _
        | toEven =>
          cases h
          omega

/-! ## Where the search stops -/

/-- The search does not pass a grid on which there is something to find. -/
theorem searchGrid_stops {steps i : ℕ} (hi : i < steps) {point : ℕ}
    (h : onGrid? tie x (place - i) = some point) :
    ∃ j ≤ i, ∃ found, onGrid? tie x (place - j) = some found ∧
      searchGrid tie x steps place = (found, place - j) := by
  induction steps generalizing place i with
  | zero => omega
  | succ steps ih =>
    unfold searchGrid
    cases hgrid : onGrid? tie x place with
    | some found =>
      refine ⟨0, Nat.zero_le _, found, ?_, ?_⟩
      · rw [Nat.cast_zero, sub_zero]
        exact hgrid
      · rw [Nat.cast_zero, sub_zero]
    | none =>
      cases i with
      | zero =>
        rw [Nat.cast_zero, sub_zero, hgrid] at h
        cases h
      | succ i =>
        have hshift : ∀ k : ℕ, place - 1 - (k : ℤ) = place - ((k + 1 : ℕ) : ℤ) := by
          intro k
          push_cast
          ring
        rw [← hshift] at h
        obtain ⟨j, hj, found, hfound, hsearch⟩ := ih (by omega) h
        rw [hshift] at hfound hsearch
        exact ⟨j + 1, by omega, found, hfound, hsearch⟩

/-- A magnitude is less than the power of ten above its first digit. -/
theorem quarters_lt_leading (x : Magnitude f) : (x.quarters : ℚ) < quartersOf f 1 x.leading := by
  have hdigits := lt_pow_digitCount (x.units * 10 ^ f.scale / 2 ^ f.scale)
  rw [Nat.div_lt_iff_lt_mul (Nat.two_pow_pos _)] at hdigits
  unfold leading
  generalize digitCount (x.units * 10 ^ f.scale / 2 ^ f.scale) = count at hdigits ⊢
  have hcast : (x.units : ℚ) * 10 ^ f.scale < 10 ^ count * 2 ^ f.scale := by exact_mod_cast hdigits
  unfold quartersOf scaled quarters
  rw [Nat.cast_one, one_mul, zpow_sub₀ (by norm_num), zpow_natCast, zpow_natCast,
    div_mul_eq_mul_div, lt_div_iff₀ (by positivity)]
  push_cast
  calc (4 * x.units * 10 ^ f.scale : ℚ) = 4 * (x.units * 10 ^ f.scale) := by ring
    _ < 4 * (10 ^ count * 2 ^ f.scale) := by linarith
    _ = 10 ^ count * 2 ^ (f.scale + 2) := by ring

theorem quartersOf_leading_le (hx : x.significand ≠ 0) :
    quartersOf f 1 (x.leading - 1) ≤ x.quarters := by
  have hlead := pow_leading_le hx
  unfold quartersOf scaled quarters
  rw [Nat.cast_one, one_mul, pow_add]
  push_cast
  linarith

/-- What is found so many places below the first digit is no longer than that, but for a power of
ten. -/
theorem onGrid?_le_pow {j found : ℕ} (h : onGrid? tie x (x.leading - j) = some found) :
    found ≤ 10 ^ j := by
  have hbelow : ¬ 10 ^ j ≤ x.pointBelow (x.leading - j) := by
    rw [le_pointBelow_iff, ← Nat.one_mul (10 ^ j), quartersOf_mul_pow, sub_add_cancel, not_le]
    exact x.quarters_lt_leading
  have := onGrid?_le h
  omega

/-- A decimal in the interval gives the grid of its last significant digit a point there, counted
from the first digit of the magnitude. -/
theorem exists_contains_of_digitCount {c : ℕ} {e : ℤ} (hx : x.significand ≠ 0)
    (h : x.Contains (quartersOf f c e)) :
    ∃ point, x.Contains (quartersOf f point (x.leading - digitCount c)) := by
  have hpos : 0 < digitCount c := Nat.length_toDigits_pos
  by_cases hhigh : quartersOf f 1 x.leading ≤ quartersOf f c e
  · refine ⟨1 * 10 ^ digitCount c, ?_⟩
    rw [quartersOf_mul_pow, sub_add_cancel]
    exact x.contains_quarters.between h x.quarters_lt_leading.le hhigh
  by_cases hlow : quartersOf f c e ≤ quartersOf f 1 (x.leading - 1)
  · refine ⟨1 * 10 ^ (digitCount c - 1), ?_⟩
    rw [quartersOf_mul_pow, show x.leading - digitCount c + ((digitCount c - 1 : ℕ) : ℤ) =
      x.leading - 1 by omega]
    exact h.between x.contains_quarters hlow (quartersOf_leading_le hx)
  · -- The decimal has its first digit where the magnitude has it.
    have hlt : (10 : ℚ) ^ (x.leading - 1) < 10 ^ (digitCount c + e : ℤ) := by
      have hscaled : scaled 1 (x.leading - 1) < scaled c e :=
        lt_of_mul_lt_mul_right (not_le.mp hlow) (by positivity)
      have hdigits : (c : ℚ) < 10 ^ digitCount c := by exact_mod_cast lt_pow_digitCount c
      unfold scaled at hscaled
      rw [Nat.cast_one, one_mul] at hscaled
      calc (10 : ℚ) ^ (x.leading - 1) < c * 10 ^ e := hscaled
        _ < 10 ^ digitCount c * 10 ^ e := mul_lt_mul_of_pos_right hdigits (by positivity)
        _ = 10 ^ (digitCount c + e : ℤ) := by rw [zpow_add₀ (by norm_num), zpow_natCast]
    have hplace : x.leading - 1 < digitCount c + e :=
      (zpow_lt_zpow_iff_right₀ (by norm_num)).mp hlt
    obtain ⟨j, hj⟩ := Int.le.dest (show x.leading - digitCount c ≤ e by omega)
    refine ⟨c * 10 ^ j, ?_⟩
    rw [quartersOf_mul_pow, hj]
    exact h

end Binary.Magnitude

namespace Decimal

variable {f : Format} {x : Magnitude f}

/-- No decimal in the interval of a magnitude has fewer significant digits than its shortest. -/
theorem significantDigits_shortest_le (tie : Tie) (hf : 2 ≤ f.width) (hx : x.significand ≠ 0)
    {c : ℕ} {e : ℤ} (hc : c ≠ 0) (h : x.Contains (quartersOf f c e)) :
    significantDigits (shortest tie x).1 ≤ significantDigits c := by
  obtain ⟨c, k, rfl, hpos, hcount⟩ := exists_significand hc
  rw [Magnitude.quartersOf_mul_pow] at h
  have hdigits : 0 < digitCount c := Nat.length_toDigits_pos
  obtain ⟨i, hi, hik, point, hpoint⟩ : ∃ i < f.width, i < digitCount c ∧
      ∃ point, x.onGrid? tie (x.leading - 1 - i) = some point := by
    by_cases hmany : digitCount c ≤ f.width
    · obtain ⟨point, hpoint⟩ := Magnitude.exists_contains_of_digitCount hx h
      refine ⟨digitCount c - 1, by omega, by omega, Magnitude.exists_onGrid?_of_contains tie
        point ?_⟩
      rw [show x.leading - 1 - ((digitCount c - 1 : ℕ) : ℤ) = x.leading - digitCount c by omega]
      exact hpoint
    · exact ⟨f.width - 1, by omega, by omega,
        Magnitude.exists_onGrid? tie (Magnitude.last_grid_fine hf hx)⟩
  obtain ⟨j, hj, found, hfound, hsearch⟩ := Magnitude.searchGrid_stops hi hpoint
  rw [show x.leading - 1 - (j : ℤ) = x.leading - ((j + 1 : ℕ) : ℤ) by omega] at hfound
  have hvalue : scaled (shortest tie x).1 (shortest tie x).2 =
      scaled found (x.leading - 1 - j) := by
    unfold shortest
    dsimp only
    rw [scaled_stripZeros, hsearch]
  calc significantDigits (shortest tie x).1
      = significantDigits found :=
        significantDigits_eq_of_scaled_eq (shortest_ne_zero hf hx) hvalue
    _ ≤ j + 1 :=
        significantDigits_le_of_le_pow (Nat.succ_pos j) (Magnitude.onGrid?_le_pow hfound)
    _ ≤ digitCount c := by omega
    _ = significantDigits (c * 10 ^ k) := hcount

/-! ## Reading is to the nearest -/

section Reading

variable {y : Magnitude f} {d : Decimal} {negative : Bool}

/-- What is read as a nonzero magnitude has been rounded to it. -/
theorem nearest?_of_toNumber (hx : x.significand ≠ 0) (h : d.toNumber f = .finite negative x) :
    d.coefficient ≠ 0 ∧
      Magnitude.nearest? f (d.coefficient * 10 ^ d.exponent.toNat * 2 ^ f.scale)
        (10 ^ (-d.exponent).toNat) = some x := by
  have hzero : ∀ {sign : Bool}, (.finite sign .zero : Number f) ≠ .finite negative x := by
    intro sign heq
    cases heq
    exact hx rfl
  unfold toNumber at h
  by_cases hc : d.coefficient = 0
  · rw [if_pos hc] at h
    exact absurd h hzero
  · rw [if_neg hc] at h
    split at h
    · cases h
    · split at h
      · exact absurd h hzero
      · exact ⟨hc, (Number.ofUnits_eq_finite_iff.mp h).2⟩

/-- So it lies in the interval of the magnitude. -/
theorem contains_of_toNumber (hf : 2 ≤ f.width) (hx : x.significand ≠ 0)
    (h : d.toNumber f = .finite negative x) :
    d.coefficient ≠ 0 ∧ x.Contains (quartersOf f d.coefficient d.exponent) := by
  obtain ⟨hc, hround⟩ := nearest?_of_toNumber hx h
  have hden : 0 < 10 ^ (-d.exponent).toNat := Nat.pow_pos (by decide)
  have hadmits := Magnitude.admits_of_nearest? hf hden hround
  rw [Magnitude.admits_iff hden, quotient_eq_quartersOf] at hadmits
  exact ⟨hc, hadmits⟩

theorem abs_sub_value (v : ℚ) (x : Magnitude f) :
    |v - x.value| = |v * 2 ^ f.scale - x.units| / 2 ^ f.scale := by
  have hscale : (0 : ℚ) < 2 ^ f.scale := by positivity
  rw [← abs_of_pos hscale, ← abs_div, abs_of_pos hscale, sub_div, mul_div_cancel_right₀ _ hscale.ne']
  rfl

/-- No magnitude is nearer to a decimal than the one it is read as, and only an even one if another
is as near. -/
theorem nearest_of_toNumber (hf : 2 ≤ f.width) (hx : x.significand ≠ 0)
    (h : d.toNumber f = .finite negative x) (hne : y ≠ x) :
    |scaled d.coefficient d.exponent - x.value| ≤ |scaled d.coefficient d.exponent - y.value| ∧
      (|scaled d.coefficient d.exponent - x.value| = |scaled d.coefficient d.exponent - y.value| →
        x.significand % 2 = 0) := by
  have hscale : (0 : ℚ) < 2 ^ f.scale := by positivity
  have hden : 0 < 10 ^ (-d.exponent).toNat := Nat.pow_pos (by decide)
  have hquotient : ((d.coefficient * 10 ^ d.exponent.toNat * 2 ^ f.scale : ℕ) : ℚ) /
      (10 ^ (-d.exponent).toNat : ℕ) = scaled d.coefficient d.exponent * 2 ^ f.scale := by
    unfold scaled
    rw [← pow_toNat_div d.exponent]
    push_cast
    ring
  have hnearest :=
    Magnitude.nearest_of_nearest? hf hden (nearest?_of_toNumber hx h).2 hne
  rw [hquotient] at hnearest
  rw [abs_sub_value, abs_sub_value, div_le_div_iff_of_pos_right hscale, div_left_inj' hscale.ne']
  exact hnearest

end Reading

end Decimal
end PlaneReport
