import PlaneReport.Decimal.Layout

/-!
# Points

A location in the plane, the straight-line distance between two of them, and the check that
coordinates from outside are finite.
-/

namespace PlaneReport

open Binary

inductive Axis where
  | x
  | y
deriving DecidableEq, Repr

def Axis.name : Axis → String
  | .x => "x"
  | .y => "y"

/-- A coordinate that no point may have. -/
structure NonFiniteCoordinate where
  axis : Axis
  value : Double
deriving DecidableEq

def NonFiniteCoordinate.message (e : NonFiniteCoordinate) : String :=
  "Coordinate " ++ e.axis.name ++ " must be a finite number, got " ++ Layout.plain.text e.value

structure Point where
  x : Double
  y : Double
deriving DecidableEq, Inhabited

namespace Point

def origin : Point := ⟨Number.zero, Number.zero⟩

/-- A point with finite coordinates; the first offending one is reported. -/
def checked (x y : Double) : Except NonFiniteCoordinate Point :=
  if !x.isFinite then .error ⟨.x, x⟩
  else if !y.isFinite then .error ⟨.y, y⟩
  else .ok ⟨x, y⟩

/-- Both coordinates are finite. -/
def IsFinite (p : Point) : Prop :=
  p.x.isFinite = true ∧ p.y.isFinite = true

instance (p : Point) : Decidable p.IsFinite :=
  inferInstanceAs (Decidable (_ ∧ _))

theorem checked_eq_ok_iff {x y : Double} {p : Point} :
    checked x y = .ok p ↔ p = ⟨x, y⟩ ∧ p.IsFinite := by
  unfold checked IsFinite
  constructor
  · intro h
    split at h
    · simp at h
    · split at h
      · simp at h
      · simp_all
        subst h
        simp_all
  · rintro ⟨rfl, hx, hy⟩
    simp_all

/-- Coordinates are compared as numbers. -/
def equals (p q : Point) : Bool :=
  p.x.equals q.x && p.y.equals q.y

/-- The square root of the sum of the squared differences, each step rounded. -/
def distance (p q : Point) : Double :=
  let dx := p.x - q.x
  let dy := p.y - q.y
  (dx * dx + dy * dy).sqrt

def text (p : Point) : String :=
  "(" ++ Layout.exact.text p.x ++ ", " ++ Layout.exact.text p.y ++ ")"

end Point
end PlaneReport
