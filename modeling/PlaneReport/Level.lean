import PlaneReport.Decimal.Basic
import PlaneReport.Text.Blank

/-!
# Log levels

Six levels from silence to full detail, and the texts that name them: a name in any case, a
number from 0 to 5, or nothing at all.
-/

namespace PlaneReport

inductive Level where
  | off
  | error
  | warn
  | info
  | debug
  | trace
deriving DecidableEq, Repr

namespace Level

def name : Level → String
  | .off => "off"
  | .error => "error"
  | .warn => "warn"
  | .info => "info"
  | .debug => "debug"
  | .trace => "trace"

/-- How much a level lets through. -/
def rank : Level → Nat
  | .off => 0
  | .error => 1
  | .warn => 2
  | .info => 3
  | .debug => 4
  | .trace => 5

def all : List Level := [.off, .error, .warn, .info, .debug, .trace]

/-- The number that digits after an optional plus sign denote. -/
def numberOfText? (text : List Char) : Option Nat :=
  let digits :=
    match text with
    | '+' :: rest => rest
    | rest => rest
  if digits.isEmpty || !digits.all Decimal.isDigit then none
  else some (Decimal.digitsValue digits)

/-- The level with a given name, whatever the case of its letters. -/
def ofName? (text : List Char) : Option Level :=
  all.find? fun level => Text.sameWord text level.name.toList

/-- The level that a text without outer blanks names; the empty text names `error`. -/
def ofWord? (text : List Char) : Option Level :=
  match numberOfText? text with
  | some n =>
    match all.find? fun level => level.rank == n with
    | some level => some level
    | none => ofName? text
  | none => if text.isEmpty then some .error else ofName? text

/-- Why a text names no level. -/
def expectation : String :=
  "error parsing level filter: expected one of " ++
    "\"off\", \"error\", \"warn\", \"info\", \"debug\", \"trace\", or a number 0-5"

/-- The level that a text names. -/
def ofText? (text : String) : Option Level :=
  ofWord? (Text.trim text.toList)

end Level
end PlaneReport
