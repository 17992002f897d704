import PlaneReport.Point

/-!
# Distances of finite points

The difference of two finite numbers is a number, though it may be infinite.  Squares, sums of what
is unsigned and square roots of it are unsigned, so a distance between finite points is finite or
the positive infinity.
-/

namespace PlaneReport

namespace Binary.Number

variable {f : Format} {x y : Number f}

/-- Finite without a sign, or the positive infinity. -/
def IsUnsigned : Number f → Prop
  | .nan => False
  | .infinite negative => negative = false
  | .finite negative _ => negative = false

theorem isUnsigned_cases (h : x.IsUnsigned) :
    x = .infinite false ∨ ∃ size, x = .finite false size := by
  cases x with
  | nan => exact absurd h id
  | infinite negative =>
    cases h
    exact .inl rfl
  | finite negative size =>
    cases h
    exact .inr ⟨size, rfl⟩

theorem ofUnits_ne_nan (negative : Bool) (num den : Nat) :
    (ofUnits negative num den : Number f) ≠ .nan := by
  unfold ofUnits
  split
  · nofun
  · nofun

theorem ofUnits_isUnsigned (num den : Nat) : (ofUnits false num den : Number f).IsUnsigned := by
  unfold ofUnits
  split
  · rfl
  · rfl

theorem sub_ne_nan (hx : x.isFinite = true) (hy : y.isFinite = true) : x - y ≠ .nan := by
  cases x with
  | nan => cases hx
  | infinite negative => cases hx
  | finite a s =>
    cases y with
    | nan => cases hy
    | infinite negative => cases hy
    | finite b t =>
      show add (.finite a s) (.finite (!b) t) ≠ .nan
      unfold add
      dsimp only
      split
      · nofun
      · exact ofUnits_ne_nan _ _ _

theorem mul_self_isUnsigned (hx : x ≠ .nan) : (x * x).IsUnsigned := by
  cases x with
  | nan => exact absurd rfl hx
  | infinite negative => exact bne_self_eq_false negative
  | finite negative size =>
    show (ofUnits (negative != negative) _ _).IsUnsigned
    rw [bne_self_eq_false]
    exact ofUnits_isUnsigned _ _

theorem add_isUnsigned (hx : x.IsUnsigned) (hy : y.IsUnsigned) : (x + y).IsUnsigned := by
  obtain rfl | ⟨s, rfl⟩ := isUnsigned_cases hx
  · obtain rfl | ⟨t, rfl⟩ := isUnsigned_cases hy
    · rfl
    · rfl
  · obtain rfl | ⟨t, rfl⟩ := isUnsigned_cases hy
    · rfl
    · have hsum : ¬ (signedUnits false s + signedUnits false t < 0) := by
        show ¬ ((s.units : Int) + t.units < 0)
        omega
      show (add (.finite false s) (.finite false t)).IsUnsigned
      unfold add
      dsimp only
      split
      · rfl
      · rw [decide_eq_false hsum]
        exact ofUnits_isUnsigned _ _

theorem sqrt_isUnsigned (hx : x.IsUnsigned) : x.sqrt.IsUnsigned := by
  obtain rfl | ⟨size, rfl⟩ := isUnsigned_cases hx
  · rfl
  · unfold sqrt
    dsimp only
    split
    · rfl
    · exact ofUnits_isUnsigned _ _

end Binary.Number

namespace Point

open Binary

/-- The distance of finite points is finite or the positive infinity. -/
theorem distance_isUnsigned {p q : Point} (hp : p.IsFinite) (hq : q.IsFinite) :
    (p.distance q).IsUnsigned :=
  Number.sqrt_isUnsigned <| Number.add_isUnsigned
    (Number.mul_self_isUnsigned (Number.sub_ne_nan hp.1 hq.1))
    (Number.mul_self_isUnsigned (Number.sub_ne_nan hp.2 hq.2))

end Point
end PlaneReport
