import PlaneReport.Text.Quoted
import PlaneReport.Decimal.Layout

/-!
# JSON values and their texts

`Json` is a JSON value whose numbers are integers or binary numbers.  It is printed on one line
(`compact`) or over several (`pretty`, with two blanks for each level).
-/

namespace PlaneReport

open Binary

/-- JSON has no numeral for the values without digits, so they are written as `null`. -/
def Layout.json : Layout where
  decades := some (-5, 15)
  integralMark := ".0".toList
  plusSign := true
  nan := "null".toList
  infinity := "null".toList
  negativeInfinity := "null".toList
  tie := .toEven

inductive Json where
  | null
  | bool (value : Bool)
  | integer (value : Int)
  | number (value : Double)
  | string (value : String)
  | array (items : List Json)
  | object (members : List (String × Json))
deriving Inhabited

namespace Json

/-- A character inside a JSON string: only what JSON cannot show is escaped. -/
def escapeChar (c : Char) : List Char :=
  if c = '"' then ['\\', '"']
  else if c = '\\' then ['\\', '\\']
  else if c.toNat = 8 then ['\\', 'b']
  else if c.toNat = 12 then ['\\', 'f']
  else if c = '\n' then ['\\', 'n']
  else if c = '\r' then ['\\', 'r']
  else if c = '\t' then ['\\', 't']
  else if c.toNat < 32 then
    ['\\', 'u', '0', '0'] ++
      (if c.toNat < 16 then ['0'] else []) ++ Text.hexadecimal c.toNat
  else [c]

def stringChars (s : String) : List Char :=
  '"' :: (s.toList.flatMap escapeChar ++ ['"'])

/-- The integers of JSON texts are plain decimal. -/
def integerChars (n : Int) : List Char :=
  (if n < 0 then ['-'] else []) ++ Nat.toDigits 10 n.natAbs

/-- The text of a value that has no parts. -/
def leafChars : Json → List Char
  | .null => "null".toList
  | .bool value => if value then "true".toList else "false".toList
  | .integer value => integerChars value
  | .number value => Layout.json.chars value
  | .string value => stringChars value
  | .array _ => "[]".toList
  | .object _ => "\x7b\x7d".toList

mutual

def compactChars : Json → List Char
  | .array items => '[' :: compactItems items
  | .object members => '\x7b' :: compactMembers members
  | leaf => leafChars leaf

/-- The items of an array with its closing bracket. -/
def compactItems : List Json → List Char
  | [] => [']']
  | [item] => compactChars item ++ [']']
  | item :: rest => compactChars item ++ ',' :: compactItems rest

/-- The members of an object with its closing brace. -/
def compactMembers : List (String × Json) → List Char
  | [] => ['\x7d']
  | [(key, value)] => stringChars key ++ ':' :: (compactChars value ++ ['\x7d'])
  | (key, value) :: rest =>
    stringChars key ++ ':' :: (compactChars value ++ ',' :: compactMembers rest)

end

/-- A line end and two blanks for each level. -/
def lineStart (level : Nat) : List Char :=
  '\n' :: List.replicate (2 * level) ' '

mutual

def prettyChars (level : Nat) : Json → List Char
  | .array [] => "[]".toList
  | .array items => '[' :: prettyItems level items
  | .object [] => "\x7b\x7d".toList
  | .object members => '\x7b' :: prettyMembers level members
  | leaf => leafChars leaf

def prettyItems (level : Nat) : List Json → List Char
  | [] => [']']
  | [item] => lineStart (level + 1) ++ prettyChars (level + 1) item ++ lineStart level ++ [']']
  | item :: rest =>
    lineStart (level + 1) ++ prettyChars (level + 1) item ++ ',' :: prettyItems level rest

def prettyMembers (level : Nat) : List (String × Json) → List Char
  | [] => ['\x7d']
  | [(key, value)] =>
    lineStart (level + 1) ++ stringChars key ++
      ':' :: ' ' :: (prettyChars (level + 1) value ++ lineStart level ++ ['\x7d'])
  | (key, value) :: rest =>
    lineStart (level + 1) ++ stringChars key ++
      ':' :: ' ' :: (prettyChars (level + 1) value ++ ',' :: prettyMembers level rest)

end

/-- The value on one line, without blanks. -/
def compact (value : Json) : String :=
  String.ofList (compactChars value)

/-- The value over several lines. -/
def pretty (value : Json) : String :=
  String.ofList (prettyChars 0 value)

/-- A member that is left out when it has no value. -/
def optionalMember (key : String) : Option Json → List (String × Json)
  | none => []
  | some value => [(key, value)]

end Json
end PlaneReport
