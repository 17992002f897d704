import PlaneReport.Layer.Value
import PlaneReport.Problem
import PlaneReport.Settings
import PlaneReport.Sum
import PlaneReport.Text.Blank
import PlaneReport.Text.Quoted

/-!
# Decoding layered values

Settings out of merged layers.  Members are read in the order of their names and the first
unsuitable one is reported, with the path of its keys and the layer that it is from.  A record may
also stand as a list of its fields; what comes after them is passed over.
-/

namespace PlaneReport
namespace Layer

open Binary

/-- An unsuitable value. -/
structure Defect where
  problem : Problem
  /-- The keys that lead to the value, the outermost first. -/
  path : List String
  source : Source
deriving DecidableEq

/-- How layers word a problem. -/
def problemText : Problem → String
  | .wrongType found expected => "invalid type: found " ++ found ++ ", expected " ++ expected
  | .wrongValue found expected => "invalid value " ++ found ++ ", expected " ++ expected
  | problem => problem.message

/-- Where a value is from.  The keys of a file start at its only profile, and those of the
environment are written as in the names of its variables. -/
def Source.placeText (source : Source) (path : List String) : String :=
  match source with
  | .standard => " for key \"" ++ ".".intercalate path ++ "\" in the standard settings"
  | .file shown =>
    " for key \"" ++ ".".intercalate ("default" :: path) ++ "\" in " ++ shown ++ " TOML file"
  | .environment =>
    " for key \"" ++ (".".intercalate path).toUpper ++ "\" in `PLANAR_` environment variable(s)"

def Defect.message (defect : Defect) : String :=
  problemText defect.problem ++ defect.source.placeText defect.path

namespace Value

/-- The kind of a value, for messages. -/
def describe : Value → String
  | .bool _ value => "bool " ++ toString value
  | .integer _ true value => "signed int `" ++ toString value ++ "`"
  | .integer _ false value => "unsigned int `" ++ toString value ++ "`"
  | .number _ value => "float `" ++ Layout.plain.text value ++ "`"
  | .string _ value => "string " ++ Text.quoted value
  | .list _ _ => "sequence"
  | .table _ _ => "map"

/-- A value that is not of the expected kind. -/
def mismatch (expected : String) (path : List String) (value : Value) : Defect :=
  ⟨.wrongType value.describe expected, path, value.source⟩

def toInteger (kind : IntegerKind) (expected : String) (path : List String) :
    Value → Except Defect Int
  | .integer source signed n =>
    if kind.holds n then .ok n
    else .error ⟨.wrongValue (describe (.integer source signed n)) expected, path, source⟩
  | value => .error (value.mismatch expected path)

def toNumber (path : List String) : Value → Except Defect Double
  | .number _ x => .ok x
  | .integer _ _ n => .ok (Number.ofInt n)
  | value => .error (value.mismatch "f64" path)

def toText (path : List String) : Value → Except Defect String
  | .string _ s => .ok s
  | value => .error (value.mismatch "a string" path)

/-- The part of a record that stands for a field, with its key: the member of that name, or the
element at the place of the field. -/
def part? (fields : List String) (field : String) : Value → Option (String × Value)
  | .table _ members => (members.lookup field).map fun value => (field, value)
  | .list _ items =>
    items[fields.idxOf field]?.map fun value => (toString (fields.idxOf field), value)
  | _ => none

/-- Decodes a field of a record, if the record has it. -/
def field? {α : Type} (record : Value) (fields : List String) (path : List String)
    (field : String) (decode : List String → Value → Except Defect α) :
    Except Defect (Option α) :=
  match record.part? fields field with
  | none => .ok none
  | some (key, value) => (decode (path ++ [key]) value).map some

/-- A record is a table or a list. -/
def checkRecord (expected : String) (path : List String) : Value → Except Defect Unit
  | .table _ _ => .ok ()
  | .list _ _ => .ok ()
  | value => .error (value.mismatch expected path)

/-- What a record without a needed field is reported for; a list is short of it, and has as many
elements as fields come before. -/
def lacking (record : Value) (fields : List String) (expected : String) (field : String)
    (path : List String) : Defect :=
  match record with
  | .list source _ =>
    ⟨.wrongLength (fields.idxOf field)
      (expected ++ " with " ++ toString fields.length ++ " elements"), path, source⟩
  | value => ⟨.missingField field, path, value.source⟩

def pointFields : List String := ["x", "y"]

/-- A point needs both coordinates, and they must be finite. -/
def toPoint (path : List String) (record : Value) : Except Defect Point := do
  record.checkRecord "struct RawPoint" path
  let x ← record.field? pointFields path "x" toNumber
  let y ← record.field? pointFields path "y" toNumber
  match x, y with
  | some x, some y =>
    match Point.checked x y with
    | .ok point => return point
    | .error cause => throw ⟨.coordinate cause, path, record.source⟩
  | none, _ => throw (record.lacking pointFields "struct RawPoint" "x" path)
  | _, none => throw (record.lacking pointFields "struct RawPoint" "y" path)

def inputsFields : List String := ["a", "b", "from", "to"]

def toInputs (path : List String) (record : Value) : Except Defect Inputs := do
  record.checkRecord "struct SampleInputs" path
  let a ← record.field? inputsFields path "a" (toInteger .word "i64")
  let b ← record.field? inputsFields path "b" (toInteger .word "i64")
  let source ← record.field? inputsFields path "from" toPoint
  let target ← record.field? inputsFields path "to" toPoint
  return {
    a := (a.map Int64.ofInt).getD Inputs.standard.a
    b := (b.map Int64.ofInt).getD Inputs.standard.b
    source := source.getD Inputs.standard.source
    target := target.getD Inputs.standard.target }

def toPrecision (path : List String) (record : Value) : Except Defect (Option UInt64) := do
  record.checkRecord "struct OutputConfig" path
  let precision ← record.field? ["precision"] path "precision" (toInteger ⟨64, false⟩ "usize")
  return precision.map fun places => UInt64.ofNat places.toNat

def toLevel (path : List String) (record : Value) : Except Defect String := do
  record.checkRecord "struct LoggingConfig" path
  let level ← record.field? ["level"] path "level" toText
  return level.getD Settings.standard.level

def settingsFields : List String := ["version", "inputs", "output", "logging"]

def toSettings (record : Value) : Except Defect Settings := do
  record.checkRecord "struct Settings" []
  let inputs ← record.field? settingsFields [] "inputs" toInputs
  let level ← record.field? settingsFields [] "logging" toLevel
  let precision ← record.field? settingsFields [] "output" toPrecision
  let version ← record.field? settingsFields [] "version" (toInteger ⟨32, false⟩ "u32")
  return {
    version := (version.map fun n => UInt32.ofNat n.toNat).getD Settings.standard.version
    inputs := inputs.getD Inputs.standard
    precision := precision.getD none
    level := level.getD Settings.standard.level }

end Value
end Layer

namespace Settings

/-- Settings as the lowest layer; without a precision the output has no members. -/
def layer (s : Settings) : Layer.Value :=
  let table := Layer.Value.table .standard
  let point (p : Point) := table [("x", .number .standard p.x), ("y", .number .standard p.y)]
  table
    [("version", .integer .standard false s.version.toNat),
      ("inputs", table
        [("a", .integer .standard true s.inputs.a.toInt),
          ("b", .integer .standard true s.inputs.b.toInt),
          ("from", point s.inputs.source), ("to", point s.inputs.target)]),
      ("output", table (match s.precision with
        | none => []
        | some places => [("precision", .integer .standard false places.toNat)])),
      ("logging", table [("level", .string .standard s.level)])]

end Settings
end PlaneReport
