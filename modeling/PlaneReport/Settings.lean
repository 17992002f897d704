import PlaneReport.Error
import PlaneReport.Level
import PlaneReport.Report

/-!
# Settings

What a run is governed by: the operands of the report, the decimal places of the distance and the
log level.
-/

namespace PlaneReport

structure Settings where
  /-- The version of the settings' own layout. -/
  version : UInt32
  inputs : Inputs
  /-- Decimal places of the distance; without them it has the fewest digits. -/
  precision : Option UInt64
  /-- The text that names the log level. -/
  level : String
deriving DecidableEq

/-- The level that a text names, or the error for a text that names none. -/
def Level.parse (text : String) : Except Error Level :=
  match Level.ofText? text with
  | some level => .ok level
  | none =>
    .error <| .config <|
      "invalid log level '" ++ text ++ "': " ++ Level.expectation

namespace Settings

def standard : Settings where
  version := 1
  inputs := Inputs.standard
  precision := none
  level := "warn"

def equals (s t : Settings) : Bool :=
  s.version == t.version && s.inputs.equals t.inputs && s.precision == t.precision &&
    s.level == t.level

def style (s : Settings) : DistanceStyle :=
  DistanceStyle.ofPrecision s.precision

/-- Checks what decodes well and is still unusable: the log level. -/
def validate (s : Settings) : Except Error Unit :=
  (Level.parse s.level).map fun _ => ()

/-- Both points of the inputs are finite. -/
def IsFinite (s : Settings) : Prop :=
  s.inputs.source.IsFinite ∧ s.inputs.target.IsFinite

instance (s : Settings) : Decidable s.IsFinite :=
  inferInstanceAs (Decidable (_ ∧ _))

end Settings
end PlaneReport
