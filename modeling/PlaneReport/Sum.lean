import PlaneReport.Fault
import PlaneReport.Power

/-!
# Exact sums

Integers of a fixed width are added exactly, or not at all.
-/

namespace PlaneReport

open Power

/-- A kind of integers of a fixed width. -/
structure IntegerKind where
  bits : Nat
  signed : Bool
deriving DecidableEq, Repr

namespace IntegerKind

def least (kind : IntegerKind) : Int :=
  if kind.signed then -(2 ^ (kind.bits - 1) : Nat) else 0

def greatest (kind : IntegerKind) : Int :=
  if kind.signed then (2 ^ (kind.bits - 1) : Nat) - 1 else (2 ^ kind.bits : Nat) - 1

/-- Whether the kind has the integer `n`. -/
def holds (kind : IntegerKind) (n : Int) : Bool :=
  decide (kind.least ≤ n) && decide (n ≤ kind.greatest)

/-- The sum, if the kind has it. -/
def add (kind : IntegerKind) (a b : Int) : Except Fault Int :=
  if kind.holds (a + b) then .ok (a + b) else .error .sumOverflow

/-- Signed integers of 64 bits, the operands of a report. -/
def word : IntegerKind := ⟨64, true⟩

end IntegerKind

/-- The sum of two 64-bit integers. -/
def sumWords (a b : Int64) : Except Fault Int64 :=
  (IntegerKind.word.add a.toInt b.toInt).map Int64.ofInt

end PlaneReport
