import PlaneReport.Proofs.Binary.Arithmetic

/-!
# Laws of distances

Distances of finite points are numbers without a sign, the same in both directions, and zero for
equal points.  They are zero for some other points too: a difference whose square is at most half a
unit is lost when it is squared, and `distance_equals_zero_iff` says which differences are.
-/

namespace PlaneReport

open Binary

namespace Point

variable {p q : Point}

theorem distance_comm (p q : Point) : p.distance q = q.distance p := by
  unfold distance
  dsimp only
  rw [Number.mul_self_sub_comm p.x q.x, Number.mul_self_sub_comm p.y q.y]

/-- A distance is zero if and only if both squares are. -/
theorem isZero_distance_iff (hp : p.IsFinite) (hq : q.IsFinite) :
    (p.distance q).isZero = true ↔
      ((p.x - q.x) * (p.x - q.x)).isZero = true ∧ ((p.y - q.y) * (p.y - q.y)).isZero = true := by
  have hwidth : 2 ≤ double.width := by decide
  have hx := Number.mul_self_isUnsigned (Number.sub_ne_nan hp.1 hq.1)
  have hy := Number.mul_self_isUnsigned (Number.sub_ne_nan hp.2 hq.2)
  unfold distance
  dsimp only
  rw [Number.isZero_sqrt_iff hwidth (Number.add_isUnsigned hx hy),
    Number.isZero_add_iff hwidth hx hy]

/-! ## Differences that are lost -/

/-- The greatest number whose square is rounded to zero, and the next one. -/
def lastLost : Magnitude double where
  significand := 6369051672525772
  shift := 484
  significand_lt := by decide
  shift_le := by decide
  canonical := by decide

def firstKept : Magnitude double where
  significand := 6369051672525773
  shift := 484
  significand_lt := by decide
  shift_le := by decide
  canonical := by decide

/-- The greatest difference that is rounded to `lastLost`, in units: the point half way to
`firstKept`, as the significand is even. -/
def lostUnits : ℕ :=
  (2 * lastLost.significand + 1) * 2 ^ (lastLost.shift - 1)

theorem nearest?_lostUnits : Magnitude.nearest? double lostUnits 1 = some lastLost :=
  Magnitude.nearest?_of_admits Nat.one_pos (by decide +kernel)

theorem nearest?_lostUnits_succ :
    Magnitude.nearest? double (lostUnits + 1) 1 = some firstKept :=
  Magnitude.nearest?_of_admits Nat.one_pos (by decide +kernel)

/-- A difference is rounded to a number whose square is lost up to that point. -/
theorem isLost_iff {n : ℕ} :
    (∃ size, Magnitude.nearest? double n 1 = some size ∧
        2 * (size.units * size.units) ≤ 2 ^ double.scale) ↔ n ≤ lostUnits := by
  have hwidth : 2 ≤ double.width := by decide
  constructor
  · rintro ⟨size, hsize, hsquare⟩
    by_contra hgt
    have hkept : firstKept.units ≤ size.units :=
      Magnitude.nearest?_mono hwidth Nat.one_pos Nat.one_pos (by omega) nearest?_lostUnits_succ hsize
    have hmore : 2 ^ double.scale < 2 * (firstKept.units * firstKept.units) := by decide +kernel
    have := Nat.mul_le_mul hkept hkept
    omega
  · intro hle
    have hshift : Magnitude.shiftFor double n 1 < double.top := by
      have hlength : bitLength (n / 1) ≤ 537 := by
        rw [Nat.div_one, bitLength_le_iff]
        exact Nat.lt_of_le_of_lt hle (by decide +kernel)
      unfold Magnitude.shiftFor
      have htop : double.top = 2045 := rfl
      omega
    obtain ⟨size, hsize⟩ := Magnitude.exists_nearest? hshift
    have hlost : size.units ≤ lastLost.units :=
      Magnitude.nearest?_mono hwidth Nat.one_pos Nat.one_pos (by omega) hsize nearest?_lostUnits
    have hless : 2 * (lastLost.units * lastLost.units) ≤ 2 ^ double.scale := by decide +kernel
    have := Nat.mul_le_mul hlost hlost
    exact ⟨size, hsize, by omega⟩

/-- The greatest exact difference of two coordinates that does not count in a distance. -/
def resolution : ℚ :=
  12738103345051545 / 2 ^ 591

theorem le_resolution_iff {n : ℕ} : (n : ℚ) / 2 ^ double.scale ≤ resolution ↔ n ≤ lostUnits := by
  have hlost : (lostUnits : ℚ) / 2 ^ double.scale = resolution := by
    have hunits : lostUnits = 12738103345051545 * 2 ^ 483 := by decide +kernel
    have hscale : double.scale = 483 + 591 := rfl
    unfold resolution
    rw [hunits, hscale, pow_add, Nat.cast_mul, Nat.cast_pow, Nat.cast_ofNat, Nat.cast_ofNat,
      mul_comm ((2 : ℚ) ^ 483), mul_div_mul_right _ _ (pow_ne_zero _ two_ne_zero)]
  rw [← hlost, div_le_div_iff_of_pos_right (by positivity), Nat.cast_le]

/-- The square of a difference is lost if the exact difference does not count. -/
theorem isZero_square_iff {x y : Double} (hx : x.isFinite = true) (hy : y.isFinite = true) :
    ((x - y) * (x - y)).isZero = true ↔ |x.value - y.value| ≤ resolution := by
  cases x with
  | nan => cases hx
  | infinite negative => cases hx
  | finite a s =>
    cases y with
    | nan => cases hy
    | infinite negative => cases hy
    | finite b t =>
      rw [Number.isZero_mul_self_sub_iff (by decide), isLost_iff, Number.value_sub_value,
        le_resolution_iff]

theorem equals_iff (hp : p.IsFinite) (hq : q.IsFinite) :
    p.equals q = true ↔ p.x.value = q.x.value ∧ p.y.value = q.y.value := by
  unfold equals
  rw [Bool.and_eq_true, Number.equals_iff hp.1 hq.1, Number.equals_iff hp.2 hq.2]

/-- A distance of finite points is zero if neither coordinate differs by what counts. -/
theorem isZero_distance_iff_le (hp : p.IsFinite) (hq : q.IsFinite) :
    (p.distance q).isZero = true ↔
      |p.x.value - q.x.value| ≤ resolution ∧ |p.y.value - q.y.value| ≤ resolution := by
  rw [isZero_distance_iff hp hq, isZero_square_iff hp.1 hq.1, isZero_square_iff hp.2 hq.2]

theorem isZero_distance_of_equals (hp : p.IsFinite) (hq : q.IsFinite) (h : p.equals q = true) :
    (p.distance q).isZero = true := by
  obtain ⟨hx, hy⟩ := (equals_iff hp hq).mp h
  have hpos : 0 ≤ resolution := by
    unfold resolution
    positivity
  rw [isZero_distance_iff_le hp hq, hx, hy, sub_self, sub_self, abs_zero]
  exact ⟨hpos, hpos⟩

/-! ## The laws -/

/-- The distance of finite points is a number without a sign, the same in both directions, and the
unsigned zero for equal points. -/
theorem distance_laws (hp : p.IsFinite) (hq : q.IsFinite) :
    p.distance q ≠ .nan ∧ (p.distance q).isNegative = false ∧ p.distance q = q.distance p ∧
      (p.equals q = true → p.distance q = Number.zero) := by
  have hunsigned := distance_isUnsigned hp hq
  refine ⟨?_, ?_, distance_comm p q, fun h => ?_⟩
  · intro hnan
    rw [hnan] at hunsigned
    exact hunsigned
  · obtain hfar | ⟨size, hnear⟩ := Number.isUnsigned_cases hunsigned
    · rw [hfar]
      rfl
    · rw [hnear]
      rfl
  · exact Number.eq_zero_of_isUnsigned hunsigned (isZero_distance_of_equals hp hq h)

/-- The greatest number. -/
def greatest : Double := Number.ofBits 0x7fefffffffffffff

/-- Zeros of either sign are equal coordinates, and the greatest difference overflows. -/
theorem distance_laws_extreme :
    let left : Point := ⟨-Number.zero, greatest⟩
    let right : Point := ⟨Number.zero, greatest⟩
    let below : Point := ⟨Number.zero, -greatest⟩
    left.IsFinite ∧ right.IsFinite ∧ below.IsFinite ∧ left.equals right = true ∧
      left.distance right = Number.zero ∧ left.distance below = .infinite false ∧
      (below.distance left).isNegative = false ∧ below.distance left = left.distance below := by
  intro left right below
  have hleft : left.IsFinite := by decide
  have hright : right.IsFinite := by decide
  have hbelow : below.IsFinite := by decide
  have hequal : left.equals right = true := by decide
  have hfar : left.distance below = .infinite false := by decide +kernel
  obtain ⟨-, -, -, hzero⟩ := distance_laws hleft hright
  obtain ⟨-, hsign, hcomm, -⟩ := distance_laws hbelow hleft
  exact ⟨hleft, hright, hbelow, hequal, hzero hequal, hfar, hsign, hcomm⟩

/-- The distance of two points with coordinates that were checked is zero if and only if neither
coordinate differs by what counts, and so for equal points. -/
theorem distance_equals_zero_iff {a b c d : Double} (hp : checked a b = .ok p)
    (hq : checked c d = .ok q) :
    ((p.distance q).equals Number.zero = true ↔
        |p.x.value - q.x.value| ≤ resolution ∧ |p.y.value - q.y.value| ≤ resolution) ∧
      (p.equals q = true → (p.distance q).equals Number.zero = true) := by
  obtain ⟨-, hp⟩ := checked_eq_ok_iff.mp hp
  obtain ⟨-, hq⟩ := checked_eq_ok_iff.mp hq
  rw [Number.equals_zero_iff]
  exact ⟨isZero_distance_iff_le hp hq, isZero_distance_of_equals hp hq⟩

/-- A point on an axis, as far from the origin as a number can be without counting. -/
def lost : Point := ⟨.finite true lastLost, Number.zero⟩

theorem distance_equals_zero_iff_lost :
    checked (.finite true lastLost) Number.zero = .ok lost ∧
      checked Number.zero Number.zero = .ok origin ∧ (lost.distance origin).equals Number.zero = true ∧
      |lost.x.value - origin.x.value| ≤ resolution ∧
      |lost.y.value - origin.y.value| ≤ resolution := by
  have hlost : checked (.finite true lastLost) Number.zero = .ok lost := by decide
  have horigin : checked Number.zero Number.zero = .ok origin := by decide
  have hzero : (lost.distance origin).equals Number.zero = true := by decide +kernel
  have hsmall := (distance_equals_zero_iff hlost horigin).1.mp hzero
  exact ⟨hlost, horigin, hzero, hsmall⟩

/-- The point next to the origin. -/
def least : Point := ⟨Number.ofBits 1, Number.zero⟩

/-- The least number is not zero, but its square is rounded to zero. -/
theorem distance_of_least :
    checked (Number.ofBits 1) Number.zero = .ok least ∧
      checked Number.zero Number.zero = .ok origin ∧ least.equals origin = false ∧
      (least.distance origin).equals Number.zero = true := by
  decide +kernel

end Point
end PlaneReport
