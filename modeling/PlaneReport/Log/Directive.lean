import PlaneReport.Decimal.Basic
import PlaneReport.Fault
import PlaneReport.Log.Event
import PlaneReport.Text.Blank
import PlaneReport.Text.Letter

/-!
# Directives

A directive admits events up to a level.  It is spelled as a level, or as a target, a span in
brackets, or both, perhaps with a level after an equal sign: `planar[{sum}]=debug` is about the
events of `planar` that have a field `sum`.

Blanks around a directive are passed over where its marks are looked for, yet places are counted
from the first mark on while names are cut out of the text as it stands.  So a blank in front shifts
all names by its bytes.

A value of a field that is neither a truth value nor a number is a pattern.  Which texts are no
patterns is left to a parameter: `objection? value` says what is wrong with a value, if anything is.
-/

namespace PlaneReport
namespace Log

/-- A field that an event or a span must have. -/
structure FieldPattern where
  name : String
  /-- Whether a value is asked for too. -/
  hasValue : Bool
deriving DecidableEq, Repr

structure Directive where
  /-- What the target of an event must start with. -/
  target : Option String := none
  /-- The name of the span that an event must be in. -/
  span : Option String := none
  field : Option FieldPattern := none
  level : Level
deriving DecidableEq, Repr

namespace Directive

/-- Whether a directive is about events as such.  One that asks for a span, or for the value of a
field, is about what happens in spans, of which there are none. -/
def isAboutEvents (directive : Directive) : Bool :=
  directive.span.isNone && directive.field.all fun field => !field.hasValue

def concerns (directive : Directive) (event : Event) : Bool :=
  directive.isAboutEvents &&
    (directive.target.all fun target => target.toList.isPrefixOf event.target.toList) &&
    directive.field.all fun field => event.hasField field.name

/-- The bytes of a target; no target counts less than any. -/
def weight (directive : Directive) : Nat :=
  match directive.target with
  | none => 0
  | some target => target.utf8ByteSize + 1

/-- Compares how specific two directives are about an event that both concern: first by their
targets, then by their fields. -/
def compareSpecific (a b : Directive) : Ordering :=
  (compare a.weight b.weight).then
    (match a.field, b.field with
      | none, none => .eq
      | none, some _ => .lt
      | some _, none => .gt
      | some a, some b => compare a.name b.name)

/-- Why a text is no directive. -/
inductive Defect where
  /-- The text is passed over; `why` is what the log says of it. -/
  | refused (why : String)
  /-- A name would have to start or end inside a character. -/
  | fault (fault : Fault)
deriving DecidableEq, Repr

namespace Defect

def malformed : Defect := .refused "invalid filter directive"

def badLevel : Defect := .refused Level.expectation

/-- The value of a field is no pattern. -/
def badPattern (objection : String) : Defect :=
  .refused ("invalid field filter: " ++ objection)

end Defect

/-- The part of a text between two places. -/
def slice (start stop : Nat) (text : List Char) : Except Defect (List Char) := do
  let (_, after) ← (Text.splitAtByte start 0 text).mapError fun e => .fault (.startInside e)
  let (between, _) ← (Text.splitAtByte stop start after).mapError fun e => .fault (.endInside e)
  return between

/-- The level that stands from a place on; if nothing does, everything passes. -/
def levelFrom (start : Nat) (text : List Char) : Except Defect Level := do
  let word ← slice start (Text.byteCount text) text
  if word.isEmpty then return .trace
  else
    match Level.ofWord? word with
    | some level => return level
    | none => throw .badLevel

/-- The level of a directive after a span; `rest` are the marks from `place` on. -/
def levelAfterSpan (text : List Char) (place : Nat) (rest : List Char) : Except Defect Level :=
  match rest with
  | [] => .ok .trace
  | '=' :: _ => levelFrom (place + 1) text
  | _ => .error .malformed

/-- Whether a value is a truth value or a number. -/
def isPlainValue (value : List Char) : Bool :=
  value == "true".toList || value == "false".toList ||
    (Binary.Number.ofText? value : Option Binary.Double).isSome

/-- The pattern that a text in braces spells.  What stands after a second equal sign is ignored. -/
def patternOf (objection? : String → Option String) (text : List Char) :
    Except Defect FieldPattern :=
  match text.span fun c => c != '=' with
  | (name, []) => .ok ⟨String.ofList name, false⟩
  | (name, _ :: rest) =>
    let value := rest.takeWhile fun c => c != '='
    match if isPlainValue value then none else objection? (String.ofList value) with
    | none => .ok ⟨String.ofList name, true⟩
    | some objection => .error (.badPattern objection)

/-- Completes a directive after the opening brace of its field. -/
def readField (objection? : String → Option String) (text : List Char)
    (target span : Option String) (place : Nat) (rest : List Char) : Except Defect Directive :=
  let (field, rest) := rest.span fun c => c != '\x7d'
  match rest with
  | [] => .error .malformed
  | _ :: rest => do
    let stop := place + Text.byteCount field
    let field ← slice place stop text
    if field.isEmpty then throw .malformed
    let pattern ← patternOf objection? field
    match rest with
    | ']' :: rest =>
      let level ← levelAfterSpan text (stop + 2) rest
      return { target := target, span := span, field := some pattern, level := level }
    | _ => throw .malformed

/-- Completes a directive after the opening bracket of its span. -/
def readSpan (objection? : String → Option String) (text : List Char) (target : Option String)
    (place : Nat) (rest : List Char) : Except Defect Directive :=
  let (name, rest) := rest.span fun c => c != ']' && c != '\x7b'
  match rest with
  | [] => .error .malformed
  | mark :: rest => do
    let stop := place + Text.byteCount name
    let name := String.ofList (← slice place stop text)
    if mark = ']' then
      let level ← levelAfterSpan text (stop + 1) rest
      return { target := target, span := some name, level := level }
    else
      readField objection? text target (if name.isEmpty then none else some name) (stop + 1) rest

/-- The characters that a target may start with. -/
def isTargetStart (c : Char) : Bool :=
  c == '-' || c == ':' || c == '_' || Text.isLetterOrDigit c

/-- The directive that a text spells.  A target without a level lets everything through. -/
def ofText (objection? : String → Option String) (text : List Char) : Except Defect Directive :=
  match Text.trim text with
  | [] => .error .malformed
  | '[' :: rest => readSpan objection? text none 1 rest
  | c :: rest =>
    if !isTargetStart c then .error .malformed
    else
      let (word, rest) := (c :: rest).span fun c => c != '=' && c != '['
      let stop := Text.byteCount word
      match rest with
      | [] =>
        match Level.ofWord? text with
        | some level => .ok { level := level }
        | none => .ok { target := some (String.ofList text), level := .trace }
      | mark :: rest => do
        let target := String.ofList (← slice 0 stop text)
        if mark = '=' then
          let level ← levelFrom (stop + 1) text
          return { target := some target, level := level }
        else readSpan objection? text (some target) (stop + 1) rest

end Directive
end Log
end PlaneReport
