import PlaneReport.Point
import PlaneReport.Sum

/-!
# Reports

A report carries one sum and one distance.  It is computed from two integers and two points and
rendered as two lines; the distance is set in a style of its own.
-/

namespace PlaneReport

open Binary

/-- What a report is computed from. -/
structure Inputs where
  a : Int64
  b : Int64
  source : Point
  target : Point
deriving DecidableEq

namespace Inputs

def standard : Inputs where
  a := 1
  b := 2
  source := Point.origin
  target := ⟨Number.ofInt 3, Number.ofInt 4⟩

def equals (i j : Inputs) : Bool :=
  i.a == j.a && i.b == j.b && i.source.equals j.source && i.target.equals j.target

end Inputs

/-- How a distance is set. -/
inductive DistanceStyle where
  /-- With the fewest digits that tell the number apart from every other. -/
  | shortest
  /-- With a fixed count of decimal places. -/
  | fixed (places : Nat)
deriving DecidableEq, Repr

namespace DistanceStyle

/-- A style for an optional count of places. -/
def ofPrecision : Option UInt64 → DistanceStyle
  | none => .shortest
  | some places => .fixed places.toNat

/-- The most places a number can be set with. -/
def maxPlaces : Nat := 65535

/-- The text of a value; too many places are a fault whatever the value is. -/
def format (style : DistanceStyle) (value : Double) : Except Fault String :=
  match style with
  | .shortest => .ok (Layout.exact.text value)
  | .fixed places =>
    if maxPlaces < places then .error .tooManyPlaces
    else .ok (String.ofList (value.fixedChars places))

end DistanceStyle

structure Report where
  sum : Int64
  distance : Double
deriving DecidableEq

namespace Report

def compute (inputs : Inputs) : Except Fault Report := do
  let sum ← sumWords inputs.a inputs.b
  return ⟨sum, inputs.source.distance inputs.target⟩

/-- Two lines, the last one without a line end. -/
def render (report : Report) (style : DistanceStyle) : Except Fault String := do
  let distance ← style.format report.distance
  return "Sum: " ++ toString report.sum.toInt ++ "\nDistance: " ++ distance

/-- The rendering in the shortest style. -/
def text (report : Report) : String :=
  "Sum: " ++ toString report.sum.toInt ++ "\nDistance: " ++ Layout.exact.text report.distance

@[simp]
theorem render_shortest (report : Report) : report.render .shortest = .ok report.text := rfl

end Report
end PlaneReport
