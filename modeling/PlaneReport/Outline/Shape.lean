import PlaneReport.Outline
import PlaneReport.Problem
import PlaneReport.Sum
import PlaneReport.Text.Quoted

/-!
# Decoding outlines

A shape says which named fields a record has and how each is decoded.  Decoding follows the order
of the text: the first problem met is the one reported, and a text that breaks off is malformed
only if nothing before the break was unsuitable.
-/

namespace PlaneReport

open Binary Power

inductive DecodeError where
  /-- The text is not well formed. -/
  | malformed
  /-- The text is well formed as far as it was read, but not what is wanted. -/
  | unsuitable (problem : Problem)
deriving DecidableEq

/-- Integers beyond every 64-bit kind are shown as integers of twice the width. -/
def wideIntegerText (n : Int) : Option String :=
  if -(2 ^ (63 : Nat) : Int) ≤ n ∧ n < 2 ^ (64 : Nat) then none
  else if n < 2 ^ (127 : Nat) then some ("integer `" ++ toString n ++ "` as i128")
  else some ("integer `" ++ toString n ++ "` as u128")

namespace Outline

/-- The kind of a value, for messages. -/
def describe (dialect : Dialect) : Outline → String
  | .null => "null"
  | .bool value => "boolean `" ++ toString value ++ "`"
  | .integer value =>
    match wideIntegerText value with
    | some text => text
    | none => "integer `" ++ toString value ++ "`"
  | .number value => "floating point `" ++ dialect.layout.text value ++ "`"
  | .string value => "string " ++ Text.quoted value
  | .list _ _ => "sequence"
  | .table _ _ => "map"
  | .unreadable => ""
  | .overflow _ => ""
  | .broken => ""

/-- A value that is not of the expected kind. -/
def mismatch (dialect : Dialect) (expected : String) : Outline → DecodeError
  | .unreadable => .malformed
  | .overflow _ => .malformed
  | .broken => .malformed
  | outline => .unsuitable (.wrongType (outline.describe dialect) expected)

mutual

/-- Whether a value of no interest can be passed over. -/
def canSkip (dialect : Dialect) : Outline → Bool
  | .broken => false
  | .unreadable => dialect.skipsUnreadable
  | .overflow _ => dialect.skipsUnreadable
  | .list items closed => closed && canSkipItems dialect items
  | .table members closed => closed && canSkipMembers dialect members
  | _ => true

def canSkipItems (dialect : Dialect) : List Outline → Bool
  | [] => true
  | item :: rest => canSkip dialect item && canSkipItems dialect rest

def canSkipMembers (dialect : Dialect) : List (Option String × Outline) → Bool
  | [] => true
  | (_, value) :: rest => canSkip dialect value && canSkipMembers dialect rest

end

mutual

/-- Whether all numbers in a value are in range: integers of 64 bits with a sign, and fractional
numbers that do not overflow. -/
def isInRange : Outline → Bool
  | .integer n => IntegerKind.word.holds n
  | .unreadable => false
  | .overflow _ => false
  | .list items _ => areItemsInRange items
  | .table members _ => areMembersInRange members
  | _ => true

def areItemsInRange : List Outline → Bool
  | [] => true
  | item :: rest => isInRange item && areItemsInRange rest

def areMembersInRange : List (Option String × Outline) → Bool
  | [] => true
  | (_, value) :: rest => isInRange value && areMembersInRange rest

end

/-- An integer of a kind, which `expected` names. -/
def toInteger (dialect : Dialect) (kind : IntegerKind) (expected : String) :
    Outline → Except DecodeError Int
  | .integer n =>
    if kind.holds n then .ok n
    else if (wideIntegerText n).isSome then .error (mismatch dialect expected (.integer n))
    else .error (.unsuitable (.wrongValue ("integer `" ++ toString n ++ "`") expected))
  | outline => .error (outline.mismatch dialect expected)

/-- A number; integers of 64 bits are rounded to one. -/
def toNumber (dialect : Dialect) : Outline → Except DecodeError Double
  | .number x => .ok x
  | .integer n =>
    if (wideIntegerText n).isSome then .error (mismatch dialect "f64" (.integer n))
    else .ok (Number.ofInt n)
  | outline => .error (outline.mismatch dialect "f64")

def toText (dialect : Dialect) : Outline → Except DecodeError String
  | .string s => .ok s
  | outline => .error (outline.mismatch dialect "a string")

/-- A value that may be absent: `null` stands for its absence. -/
def toOptional {α : Type} (decode : Outline → Except DecodeError α) :
    Outline → Except DecodeError (Option α)
  | .null => .ok none
  | outline => (decode outline).map some

/-- All elements of a list, decoded in turn. -/
def toList {α : Type} (dialect : Dialect) (decode : Outline → Except DecodeError α) :
    Outline → Except DecodeError (List α)
  | .list items closed => do
    let values ← items.mapM decode
    if closed then return values else throw .malformed
  | outline => .error (outline.mismatch dialect "a sequence")

end Outline

/-- One field of a record under construction. -/
structure Field (σ : Type) where
  name : String
  decode : Outline → σ → Except DecodeError σ
  /-- Whether a list must have an element for the field. -/
  neededInList : Bool

/-- How a record is made from a table or a list. -/
structure Shape (σ α : Type) where
  /-- The record's name in messages. -/
  expected : String
  fields : List (Field σ)
  start : σ
  /-- Completes the record; a field that a table lacks is found here. -/
  finish : σ → Except DecodeError α

namespace Shape

variable {σ α : Type}

/-- The value of a field that a table must have. -/
def need (name : String) : Option α → Except DecodeError α
  | some value => .ok value
  | none => .error (.unsuitable (.missingField name))

/-- Takes the members of a table in turn; `seen` names the fields that are already there. -/
def takeMembers (dialect : Dialect) (fields : List (Field σ)) (seen : List String) (record : σ) :
    List (Option String × Outline) → Except DecodeError σ
  | [] => .ok record
  | (none, _) :: _ => .error .malformed
  | (some key, value) :: rest =>
    match fields.find? fun field => field.name == key with
    | none =>
      if value.canSkip dialect then takeMembers dialect fields seen record rest
      else .error .malformed
    | some field =>
      if seen.contains key then .error (.unsuitable (.duplicateField key))
      else do
        let record ← field.decode value record
        takeMembers dialect fields (key :: seen) record rest

/-- Takes the elements of a list for the fields in turn; `count` elements came before.  The result
holds the elements that are left over. -/
def takeItems (expected : String) (closed : Bool) (count : Nat) (record : σ) :
    List (Field σ) → List Outline → Except DecodeError (σ × List Outline)
  | [], items => .ok (record, items)
  | field :: fields, item :: items => do
    let record ← field.decode item record
    takeItems expected closed (count + 1) record fields items
  | field :: fields, [] =>
    if !closed then .error .malformed
    else if field.neededInList then .error (.unsuitable (.wrongLength count expected))
    else takeItems expected closed count record fields []

/-- Decodes a record from a table, or from a list in the order of the fields. -/
def decode (dialect : Dialect) (shape : Shape σ α) : Outline → Except DecodeError α
  | .table members closed => do
    let record ← takeMembers dialect shape.fields [] shape.start members
    if closed then shape.finish record else throw .malformed
  | .list items closed => do
    let size := shape.fields.length
    let expected := shape.expected ++ " with " ++ toString size ++
      (if size = 1 then " element" else " elements")
    let (record, surplus) ← takeItems expected closed 0 shape.start shape.fields items
    let value ← shape.finish record
    if closed && (surplus.isEmpty || dialect.allowsSurplus) then return value
    else throw .malformed
  | outline => .error (outline.mismatch dialect shape.expected)

end Shape
end PlaneReport
