import PlaneReport.Proofs.Binary.Rounding

/-!
# Rounding is to the nearest

What is rounded to a magnitude lies in the interval that the magnitude admits, so rounding and the
intervals say the same: this is `nearest?_eq_some_iff`.  Intervals of different magnitudes meet in a
tie at most, which is why rounding keeps the order of what is rounded, `nearest?_mono`.
-/

namespace PlaneReport
namespace Binary

/-- The rounded quotient is within half a unit, and even where the distance is exactly half. -/
theorem roundHalfEven_bounds (num : Nat) {den : Nat} (hden : 0 < den) :
    2 * (roundHalfEven num den * den) ≤ 2 * num + den ∧
      2 * num ≤ 2 * (roundHalfEven num den * den) + den ∧
      (2 * (roundHalfEven num den * den) = 2 * num + den ∨
        2 * num = 2 * (roundHalfEven num den * den) + den → roundHalfEven num den % 2 = 0) := by
  have hdiv : den * (num / den) + num % den = num := Nat.div_add_mod num den
  have hmod : num % den < den := Nat.mod_lt num hden
  have hdown : num / den * den = den * (num / den) := Nat.mul_comm _ _
  have hup : (num / den + 1) * den = den * (num / den) + den := by ring
  unfold roundHalfEven
  dsimp only
  by_cases hless : 2 * (num % den) < den
  · rw [if_pos hless, hdown]
    exact ⟨by omega, by omega, by omega⟩
  · rw [if_neg hless]
    by_cases hmore : den < 2 * (num % den)
    · rw [if_pos hmore, hup]
      exact ⟨by omega, by omega, by omega⟩
    · rw [if_neg hmore]
      -- A tie, which only an odd quotient leaves.
      rcases Nat.mod_two_eq_zero_or_one (num / den) with heven | hodd
      · rw [heven, Nat.add_zero, hdown]
        exact ⟨by omega, by omega, fun _ => heven⟩
      · rw [hodd, hup]
        exact ⟨by omega, by omega, by omega⟩

namespace Magnitude

variable {f : Format} {x y : Magnitude f} {num den : Nat}

/-! ## What is rounded to a magnitude -/

theorem roomBelow_of_shift (h : x.shift = 0) : x.roomBelow = 2 * 2 ^ x.shift := by
  unfold roomBelow
  exact if_neg fun hlow => hlow.1 h

theorem roomBelow_of_lt (h : 2 ^ (f.width - 1) < x.significand) :
    x.roomBelow = 2 * 2 ^ x.shift := by
  unfold roomBelow
  exact if_neg fun hlow => absurd hlow.2 (Nat.ne_of_gt h)

theorem roomBelow_of_eq (hs : x.shift ≠ 0) (h : x.significand = 2 ^ (f.width - 1)) :
    x.roomBelow = 2 ^ x.shift := by
  unfold roomBelow
  exact if_pos ⟨hs, h⟩

/-- The bounds without truncated subtraction are the interval. -/
theorem admits_of_bounds (hlow : x.quarters * den ≤ num + x.roomBelow * den)
    (hhigh : num ≤ (x.quarters + x.roomAbove) * den)
    (hstrict : x.significand % 2 ≠ 0 →
      x.quarters * den < num + x.roomBelow * den ∧ num < (x.quarters + x.roomAbove) * den) :
    x.admits num den = true := by
  have hsub : (x.quarters - x.roomBelow) * den = x.quarters * den - x.roomBelow * den :=
    Nat.sub_mul _ _ _
  unfold admits
  dsimp only
  by_cases heven : x.significand % 2 = 0
  · rw [if_pos heven, decide_eq_true_eq]
    exact ⟨by omega, hhigh⟩
  · obtain ⟨hlow', hhigh'⟩ := hstrict heven
    have hroom : x.roomBelow * den ≤ x.quarters * den := by
      refine Nat.mul_le_mul_right den (Nat.le_trans x.roomBelow_le ?_)
      have hone : 1 * 2 ^ x.shift ≤ x.significand * 2 ^ x.shift :=
        Nat.mul_le_mul_right _ (by omega)
      unfold quarters units
      omega
    rw [if_neg heven, decide_eq_true_eq]
    exact ⟨by omega, hhigh'⟩

theorem lt_of_shiftFor (hden : 0 < den) :
    num < 2 ^ f.width * (den * 2 ^ shiftFor f num den) := by
  have hlength : bitLength (num / den) ≤ f.width + shiftFor f num den := by
    unfold shiftFor
    omega
  have hlt : num / den < 2 ^ (f.width + shiftFor f num den) := bitLength_le_iff.mp hlength
  calc num < 2 ^ (f.width + shiftFor f num den) * den := (Nat.div_lt_iff_lt_mul hden).mp hlt
    _ = 2 ^ f.width * (den * 2 ^ shiftFor f num den) := by rw [Nat.pow_add]; ring

theorem le_of_shiftFor (hden : 0 < den) (hs : shiftFor f num den ≠ 0) :
    2 ^ (f.width - 1) * (den * 2 ^ shiftFor f num den) ≤ num := by
  have hw := f.width_pos
  have hlength : f.width - 1 + shiftFor f num den < bitLength (num / den) := by
    unfold shiftFor at hs ⊢
    omega
  have hge : 2 ^ (f.width - 1 + shiftFor f num den) ≤ num / den := lt_bitLength_iff.mp hlength
  calc 2 ^ (f.width - 1) * (den * 2 ^ shiftFor f num den)
      = 2 ^ (f.width - 1 + shiftFor f num den) * den := by rw [Nat.pow_add]; ring
    _ ≤ num := (Nat.le_div_iff_mul_le hden).mp hge

/-- The significand of a quotient is rounded into the width, or is the first that carries. -/
theorem roundHalfEven_le_of_shiftFor (hden : 0 < den) :
    roundHalfEven num (den * 2 ^ shiftFor f num den) ≤ 2 ^ f.width := by
  have hD : 0 < den * 2 ^ shiftFor f num den := Nat.mul_pos hden (Nat.two_pow_pos _)
  have hlt : num / (den * 2 ^ shiftFor f num den) < 2 ^ f.width := by
    rw [Nat.div_lt_iff_lt_mul hD]
    exact lt_of_shiftFor hden
  have := roundHalfEven_le num (den * 2 ^ shiftFor f num den)
  omega

/-- A significand rounded within half a step makes an interval, unless the room below is short; then
the quotient must not lie below. -/
theorem admits_of_roundHalfEven (hden : 0 < den)
    (hround : roundHalfEven num (den * 2 ^ x.shift) = x.significand)
    (hroom : x.roomBelow = 2 * 2 ^ x.shift ∨ x.significand * (den * 2 ^ x.shift) ≤ num) :
    x.admits (4 * num) den = true := by
  have hD : 0 < den * 2 ^ x.shift := Nat.mul_pos hden (Nat.two_pow_pos _)
  obtain ⟨hlow, hhigh, htie⟩ := roundHalfEven_bounds num hD
  rw [hround] at hlow hhigh htie
  have hbelow : 0 < x.roomBelow * den := by
    refine Nat.mul_pos ?_ hden
    have := Nat.two_pow_pos x.shift
    unfold roomBelow
    split <;> omega
  have hfull : x.roomBelow = 2 * 2 ^ x.shift → x.roomBelow * den = 2 * (den * 2 ^ x.shift) := by
    intro h
    rw [h]
    ring
  refine admits_of_bounds ?_ ?_ ?_
  · rw [quarters_mul]
    rcases hroom with h | h
    · rw [hfull h]
      omega
    · omega
  · rw [roomAbove_mul]
    omega
  · intro hodd
    rw [quarters_mul, roomAbove_mul]
    refine ⟨?_, by omega⟩
    rcases hroom with h | h
    · rw [hfull h]
      omega
    · omega

/-- A significand that carried is the least one, and even, and the room below it is short. -/
theorem admits_of_carry (hf : 2 ≤ f.width) (hden : 0 < den)
    (hcarry : 2 ^ f.width ≤ roundHalfEven num (den * 2 ^ shiftFor f num den))
    (hsig : x.significand = 2 ^ (f.width - 1)) (hshift : x.shift = shiftFor f num den + 1) :
    x.admits (4 * num) den = true := by
  have hD : 0 < den * 2 ^ shiftFor f num den := Nat.mul_pos hden (Nat.two_pow_pos _)
  have hround : roundHalfEven num (den * 2 ^ shiftFor f num den) = 2 ^ f.width :=
    Nat.le_antisymm (roundHalfEven_le_of_shiftFor hden) hcarry
  obtain ⟨hlow, -, -⟩ := roundHalfEven_bounds num hD
  rw [hround] at hlow
  have hless : num < 2 ^ f.width * (den * 2 ^ shiftFor f num den) := lt_of_shiftFor hden
  have hgrid : x.significand * (den * 2 ^ x.shift) =
      2 ^ f.width * (den * 2 ^ shiftFor f num den) := by
    rw [hsig, hshift, ← two_mul_half, Nat.pow_succ]
    ring
  have hroom : x.roomBelow * den = 2 * (den * 2 ^ shiftFor f num den) := by
    rw [roomBelow_of_eq (by omega) hsig, hshift, Nat.pow_succ]
    ring
  refine admits_of_bounds ?_ ?_ fun hodd => absurd ?_ hodd
  · rw [quarters_mul, hgrid, hroom]
    omega
  · rw [roomAbove_mul, hgrid]
    omega
  · obtain ⟨w, hw⟩ := Nat.exists_eq_add_of_le hf
    rw [hsig, show f.width - 1 = w + 1 by omega, Nat.pow_succ, Nat.mul_mod_left]

/-- What is rounded to a magnitude lies in its interval. -/
theorem admits_of_nearest? (hf : 2 ≤ f.width) (hden : 0 < den) (h : nearest? f num den = some x) :
    x.admits (4 * num) den = true := by
  unfold nearest? at h
  dsimp only at h
  by_cases hm : roundHalfEven num (den * 2 ^ shiftFor f num den) < 2 ^ f.width
  · rw [dif_pos hm] at h
    by_cases hs : shiftFor f num den ≤ f.top
    · rw [dif_pos hs] at h
      cases h
      refine admits_of_roundHalfEven hden rfl ?_
      by_cases hshift : shiftFor f num den = 0
      · exact .inl (roomBelow_of_shift hshift)
      · rcases Nat.lt_or_eq_of_le ((canonical_of_shiftFor f num den).resolve_left hshift) with
          hlt | heq
        · exact .inl (roomBelow_of_lt hlt)
        · refine .inr ?_
          dsimp only
          rw [← heq]
          exact le_of_shiftFor hden hshift
    · rw [dif_neg hs] at h
      cases h
  · rw [dif_neg hm] at h
    by_cases hs : shiftFor f num den + 1 ≤ f.top
    · rw [dif_pos hs] at h
      cases h
      exact admits_of_carry hf hden (Nat.not_lt.mp hm) rfl rfl
    · rw [dif_neg hs] at h
      cases h

/-- The magnitude that a quotient is rounded to is the one that admits it. -/
theorem nearest?_eq_some_iff (hf : 2 ≤ f.width) (hden : 0 < den) :
    nearest? f num den = some x ↔ x.admits (4 * num) den = true :=
  ⟨admits_of_nearest? hf hden, nearest?_of_admits hden⟩

/-! ## The order of magnitudes -/

theorem admits_units (x : Magnitude f) : x.admits (4 * x.units) 1 = true := by
  have hround : roundHalfEven x.units (1 * 2 ^ x.shift) = x.significand := by
    have hdiv : x.units / (1 * 2 ^ x.shift) = x.significand := by
      rw [Nat.one_mul]
      exact Nat.mul_div_left _ (Nat.two_pow_pos _)
    have hmod : x.units % (1 * 2 ^ x.shift) = 0 := by
      rw [Nat.one_mul]
      exact Nat.mul_mod_left _ _
    have hpos := Nat.two_pow_pos x.shift
    unfold roundHalfEven
    dsimp only
    rw [hdiv, hmod, if_pos (by omega)]
  refine admits_of_roundHalfEven Nat.one_pos hround (.inr ?_)
  unfold units
  rw [Nat.one_mul]

/-- A magnitude is rounded to itself. -/
theorem nearest?_units (x : Magnitude f) : nearest? f x.units 1 = some x :=
  nearest?_of_admits Nat.one_pos x.admits_units

theorem eq_of_units_eq (h : x.units = y.units) : x = y := by
  have hx := x.nearest?_units
  rw [h, y.nearest?_units] at hx
  exact (Option.some.inj hx).symm

theorem half_mul_le_units (x : Magnitude f) (h : x.shift ≠ 0) :
    2 ^ (f.width - 1) * 2 ^ x.shift ≤ x.units :=
  Nat.mul_le_mul_right _ (x.canonical.resolve_left h)

/-- On a coarser grid than its own, a magnitude lies at least half a step below the first
significand that is too long. -/
theorem two_mul_units_le {shift : Nat} (h : x.shift < shift) :
    2 * x.units + 2 ^ shift ≤ 2 ^ f.width * 2 ^ shift := by
  have hpow : 2 * 2 ^ x.shift ≤ 2 ^ shift := by
    rw [← Nat.pow_succ']
    exact Nat.pow_le_pow_right (by decide) h
  calc 2 * x.units + 2 ^ shift = x.significand * (2 * 2 ^ x.shift) + 2 ^ shift := by
        unfold units
        ring
    _ ≤ x.significand * 2 ^ shift + 2 ^ shift :=
        Nat.add_le_add_right (Nat.mul_le_mul_left _ hpow) _
    _ = (x.significand + 1) * 2 ^ shift := (Nat.succ_mul _ _).symm
    _ ≤ 2 ^ f.width * 2 ^ shift := Nat.mul_le_mul_right _ x.significand_lt

theorem two_mul_units_le_of_shift_lt (h : x.shift < y.shift) :
    2 * x.units + 2 ^ y.shift ≤ 2 * (2 ^ (f.width - 1) * 2 ^ y.shift) := by
  rw [← Nat.mul_assoc, two_mul_half]
  exact two_mul_units_le h

theorem shift_le_of_units_lt (h : x.units < y.units) : x.shift ≤ y.shift := by
  by_contra hgt
  have hbelow := two_mul_units_le_of_shift_lt (Nat.not_le.mp hgt)
  have habove := x.half_mul_le_units (by omega)
  have hpos := Nat.two_pow_pos x.shift
  omega

theorem units_add_le_of_shift_eq (heq : x.shift = y.shift) (h : x.units < y.units) :
    x.units + 2 ^ y.shift ≤ y.units := by
  unfold units at h ⊢
  rw [heq] at h ⊢
  rw [← Nat.succ_mul]
  exact Nat.mul_le_mul_right _ (Nat.lt_of_mul_lt_mul_right h)

/-- A greater magnitude is two rooms away, those above the lesser one. -/
theorem quarters_add_roomAbove_le (h : x.units < y.units) :
    x.quarters + 2 * x.roomAbove ≤ y.quarters := by
  unfold quarters roomAbove
  rcases Nat.lt_or_eq_of_le (shift_le_of_units_lt h) with hlt | heq
  · have hbelow := two_mul_units_le_of_shift_lt hlt
    have habove := y.half_mul_le_units (by omega)
    have hpow : 2 * 2 ^ x.shift ≤ 2 ^ y.shift := by
      rw [← Nat.pow_succ']
      exact Nat.pow_le_pow_right (by decide) hlt
    omega
  · have hstep := units_add_le_of_shift_eq heq h
    rw [heq]
    omega

/-- And also those below the greater one. -/
theorem quarters_add_roomBelow_le (h : x.units < y.units) :
    x.quarters + 2 * y.roomBelow ≤ y.quarters := by
  have hroom := y.roomBelow_le
  unfold quarters
  rcases Nat.lt_or_eq_of_le (shift_le_of_units_lt h) with hlt | heq
  · have hbelow := two_mul_units_le_of_shift_lt hlt
    rcases Nat.lt_or_eq_of_le (y.canonical.resolve_left (by omega)) with hfull | hshort
    · have habove : (2 ^ (f.width - 1) + 1) * 2 ^ y.shift ≤ y.units :=
        Nat.mul_le_mul_right _ hfull
      rw [Nat.succ_mul] at habove
      omega
    · -- The room below the least significand is short, as the grid is finer there.
      have habove := y.half_mul_le_units (by omega)
      rw [roomBelow_of_eq (by omega) hshort.symm]
      omega
  · have hstep := units_add_le_of_shift_eq heq h
    omega

/-- So the interval of the lesser of two magnitudes ends where that of the greater starts, or
before. -/
theorem room_le_of_units_lt (h : x.units < y.units) :
    x.quarters + x.roomAbove + y.roomBelow ≤ y.quarters := by
  have habove := quarters_add_roomAbove_le h
  have hbelow := quarters_add_roomBelow_le h
  omega

/-- The middle between a magnitude and a lesser one is not above what is rounded to it. -/
theorem middle_le_of_nearest? (hf : 2 ≤ f.width) (hden : 0 < den) (h : nearest? f num den = some x)
    (hlt : y.units < x.units) :
    (x.units + y.units) * den ≤ 2 * num ∧
      ((x.units + y.units) * den = 2 * num → x.significand % 2 = 0) := by
  obtain ⟨hlow, -, hstrict⟩ := bounds_of_admits (admits_of_nearest? hf hden h)
  have hgap := Nat.mul_le_mul_right den (quarters_add_roomBelow_le hlt)
  unfold quarters at hlow hstrict hgap
  rw [Nat.add_mul, Nat.mul_assoc, Nat.mul_assoc, Nat.mul_assoc] at hgap
  rw [Nat.mul_assoc] at hlow hstrict
  rw [Nat.add_mul]
  refine ⟨by omega, fun htie => ?_⟩
  by_contra hodd
  have := (hstrict hodd).1
  omega

/-- Nor is the middle between it and a greater one below. -/
theorem le_middle_of_nearest? (hf : 2 ≤ f.width) (hden : 0 < den) (h : nearest? f num den = some x)
    (hlt : x.units < y.units) :
    2 * num ≤ (x.units + y.units) * den ∧
      ((x.units + y.units) * den = 2 * num → x.significand % 2 = 0) := by
  obtain ⟨-, hhigh, hstrict⟩ := bounds_of_admits (admits_of_nearest? hf hden h)
  have hgap := Nat.mul_le_mul_right den (quarters_add_roomAbove_le hlt)
  unfold quarters at hhigh hstrict hgap
  rw [Nat.add_mul, Nat.mul_assoc, Nat.mul_assoc, Nat.mul_assoc] at hgap
  rw [Nat.add_mul, Nat.mul_assoc] at hhigh hstrict
  rw [Nat.add_mul]
  refine ⟨by omega, fun htie => ?_⟩
  by_contra hodd
  have := (hstrict hodd).2
  omega

/-- Rounding keeps the order of quotients. -/
theorem nearest?_mono (hf : 2 ≤ f.width) {num' den' : Nat} (hden : 0 < den) (hden' : 0 < den')
    (hle : num * den' ≤ num' * den) (hx : nearest? f num den = some x)
    (hy : nearest? f num' den' = some y) : x.units ≤ y.units := by
  by_contra hlt
  have hroom := room_le_of_units_lt (Nat.not_le.mp hlt)
  obtain ⟨hlow, -, -⟩ := bounds_of_admits (admits_of_nearest? hf hden hx)
  obtain ⟨-, hhigh, hstrict⟩ := bounds_of_admits (admits_of_nearest? hf hden' hy)
  have hends : (y.quarters + y.roomAbove) * den + x.roomBelow * den ≤ x.quarters * den := by
    rw [← Nat.add_mul]
    exact Nat.mul_le_mul_right den hroom
  -- Both quotients are the point in which the intervals meet.
  have habove : (y.quarters + y.roomAbove) * den ≤ 4 * num := by omega
  have hfrom : (y.quarters + y.roomAbove) * den * den' ≤ 4 * (num * den') := by
    rw [← Nat.mul_assoc]
    exact Nat.mul_le_mul_right den' habove
  have hback : 4 * (num' * den) ≤ (y.quarters + y.roomAbove) * den * den' := by
    rw [← Nat.mul_assoc, Nat.mul_right_comm _ den]
    exact Nat.mul_le_mul_right den hhigh
  have hpoint : 4 * num = (y.quarters + y.roomAbove) * den := by
    refine Nat.le_antisymm (Nat.le_of_mul_le_mul_right ?_ hden') habove
    rw [Nat.mul_assoc]
    omega
  have heven : y.significand % 2 = 0 := by
    by_contra hodd
    have hless : 4 * (num' * den) < (y.quarters + y.roomAbove) * den * den' := by
      rw [← Nat.mul_assoc, Nat.mul_right_comm _ den]
      exact Nat.mul_lt_mul_of_pos_right (hstrict hodd).2 hden
    omega
  have hadmits : y.admits (4 * num) den = true := by
    refine admits_of_bounds ?_ (Nat.le_of_eq hpoint) fun hodd => absurd heven hodd
    rw [hpoint, Nat.add_mul]
    omega
  rw [nearest?_of_admits hden hadmits] at hx
  cases hx
  exact hlt (Nat.le_refl _)

/-- A quotient that is no longer than the largest shift allows is rounded to some magnitude. -/
theorem exists_nearest? (h : shiftFor f num den < f.top) : ∃ x, nearest? f num den = some x := by
  unfold nearest?
  dsimp only
  by_cases hm : roundHalfEven num (den * 2 ^ shiftFor f num den) < 2 ^ f.width
  · rw [dif_pos hm, dif_pos (Nat.le_of_lt h)]
    exact ⟨_, rfl⟩
  · rw [dif_neg hm, dif_pos (Nat.succ_le_of_lt h)]
    exact ⟨_, rfl⟩

end Magnitude

theorem Number.ofUnits_eq_finite_iff {f : Format} {a b : Bool} {num den : Nat} {x : Magnitude f} :
    ofUnits a num den = finite b x ↔ a = b ∧ Magnitude.nearest? f num den = some x := by
  unfold ofUnits
  cases Magnitude.nearest? f num den with
  | none => exact ⟨nofun, nofun⟩
  | some size => rw [finite.injEq, Option.some.injEq]

end Binary
end PlaneReport
