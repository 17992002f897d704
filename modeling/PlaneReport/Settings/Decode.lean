import PlaneReport.Json.Reader
import PlaneReport.Json.Value
import PlaneReport.Outline.Shape
import PlaneReport.Response
import PlaneReport.Settings

/-!
# Decoding settings

The shapes of points, inputs and settings in structured texts.  A point needs both coordinates and
they must be finite; everything else may be left out and then has its standard value.
-/

namespace PlaneReport

open Binary

/-- Coordinates as far as they have been read. -/
structure RawPoint where
  x : Option Double := none
  y : Option Double := none

namespace RawPoint

def shape (dialect : Dialect) : Shape RawPoint (Double × Double) where
  expected := "struct RawPoint"
  fields :=
    [⟨"x", fun value raw => (value.toNumber dialect).map fun x => { raw with x := some x }, true⟩,
      ⟨"y", fun value raw => (value.toNumber dialect).map fun y => { raw with y := some y }, true⟩]
  start := {}
  finish raw := do
    let x ← Shape.need "x" raw.x
    let y ← Shape.need "y" raw.y
    return (x, y)

end RawPoint

namespace Outline

/-- A point: its coordinates are checked once the whole record has been read. -/
def toPoint (dialect : Dialect) (outline : Outline) : Except DecodeError Point := do
  let (x, y) ← (RawPoint.shape dialect).decode dialect outline
  match Point.checked x y with
  | .ok point => return point
  | .error cause => throw (.unsuitable (.coordinate cause))

def inputsShape (dialect : Dialect) : Shape Inputs Inputs where
  expected := "struct SampleInputs"
  fields :=
    [⟨"a", fun value inputs =>
        (value.toInteger dialect .word "i64").map fun a => { inputs with a := Int64.ofInt a },
        false⟩,
      ⟨"b", fun value inputs =>
        (value.toInteger dialect .word "i64").map fun b => { inputs with b := Int64.ofInt b },
        false⟩,
      ⟨"from", fun value inputs =>
        (value.toPoint dialect).map fun source => { inputs with source := source }, false⟩,
      ⟨"to", fun value inputs =>
        (value.toPoint dialect).map fun target => { inputs with target := target }, false⟩]
  start := Inputs.standard
  finish := .ok

def toInputs (dialect : Dialect) : Outline → Except DecodeError Inputs :=
  (inputsShape dialect).decode dialect

/-- Unsigned integers of 64 bits. -/
def sizeKind : IntegerKind := ⟨64, false⟩

/-- Unsigned integers of 32 bits. -/
def versionKind : IntegerKind := ⟨32, false⟩

def outputShape (dialect : Dialect) : Shape (Option UInt64) (Option UInt64) where
  expected := "struct OutputConfig"
  fields :=
    [⟨"precision", fun value _ =>
      (value.toOptional (toInteger dialect sizeKind "usize")).map fun precision =>
        precision.map fun places => UInt64.ofNat places.toNat, false⟩]
  start := none
  finish := .ok

def loggingShape (dialect : Dialect) : Shape String String where
  expected := "struct LoggingConfig"
  fields := [⟨"level", fun value _ => value.toText dialect, false⟩]
  start := Settings.standard.level
  finish := .ok

def settingsShape (dialect : Dialect) : Shape Settings Settings where
  expected := "struct Settings"
  fields :=
    [⟨"version", fun value settings =>
        (value.toInteger dialect versionKind "u32").map fun version =>
          { settings with version := UInt32.ofNat version.toNat }, false⟩,
      ⟨"inputs", fun value settings =>
        (value.toInputs dialect).map fun inputs => { settings with inputs := inputs }, false⟩,
      ⟨"output", fun value settings =>
        ((outputShape dialect).decode dialect value).map fun precision =>
          { settings with precision := precision }, false⟩,
      ⟨"logging", fun value settings =>
        ((loggingShape dialect).decode dialect value).map fun level =>
          { settings with level := level }, false⟩]
  start := Settings.standard
  finish := .ok

def toSettings (dialect : Dialect) : Outline → Except DecodeError Settings :=
  (settingsShape dialect).decode dialect

end Outline

namespace Inputs

def toJson (inputs : Inputs) : Json :=
  .object
    [("a", .integer inputs.a.toInt), ("b", .integer inputs.b.toInt),
      ("from", inputs.source.toJson), ("to", inputs.target.toJson)]

end Inputs

namespace Settings

def toJson (s : Settings) : Json :=
  .object
    [("version", .integer s.version.toNat), ("inputs", s.inputs.toJson),
      ("output", .object (Json.optionalMember "precision"
        (s.precision.map fun places => .integer places.toNat))),
      ("logging", .object [("level", .string s.level)])]

end Settings
end PlaneReport
