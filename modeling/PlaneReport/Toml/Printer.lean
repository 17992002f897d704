import PlaneReport.Text.Quoted
import PlaneReport.Decimal.Layout

/-!
# Writing TOML texts

A document is a list of sections with scalar values, the first one without a header.  A string is
written in the plainest of six forms that can hold it.
-/

namespace PlaneReport

open Binary

/-- TOML has no exponents in this layout, and every number shows a point. -/
def Layout.toml : Layout where
  decades := none
  integralMark := ".0".toList
  plusSign := false
  nan := "nan".toList
  infinity := "inf".toList
  negativeInfinity := "-inf".toList
  tie := .up

namespace Toml

/-- The forms in which a string can be written. -/
inductive StringForm where
  | basic
  | literal
  | basicLines
  | literalLines
deriving DecidableEq, Repr

/-- Characters that never need more than plain quotes. -/
def isSimple (c : Char) : Bool :=
  c.isAlphanum || c == '_' || c == '-' || c == '.' || c == '/' || c == ':' || c == ' '

/-- Control characters that only an escape can hold; tab and line feed are not among them. -/
def needsEscape (c : Char) : Bool :=
  (c.toNat < 32 && c != '\t' && c != '\n') || c.toNat == 127

/-- The length of the longest run of a character; `current` is the length of the run that ends
before the text. -/
def longestRun (c : Char) (current : Nat) : List Char → Nat
  | [] => current
  | d :: rest =>
    if c = d then longestRun c (current + 1) rest else max current (longestRun c 0 rest)

/-- The plainest form that holds a text. -/
def formOf (text : List Char) : StringForm :=
  let controls := text.any needsEscape
  let lines := text.contains '\n'
  let slashes := text.contains '\\'
  if text.all isSimple then .basic
  else if !controls && !slashes && !text.contains '"' && !lines then .basic
  else if !controls && !text.contains '\'' && !lines then .literal
  else if !controls && !slashes && longestRun '"' 0 text ≤ 2 then .basicLines
  else if !controls && longestRun '\'' 0 text ≤ 2 then .literalLines
  else if lines then .basicLines
  else .basic

/-- Upper-case hexadecimal digits, at least four. -/
def fourDigits (n : Nat) : List Char :=
  let digits := (Text.hexadecimal n).map Char.toUpper
  List.replicate (4 - digits.length) '0' ++ digits

/-- The escape of a character other than a quote, if it needs one. -/
def escape? (c : Char) : Option (List Char) :=
  if c.toNat = 8 then some ['\\', 'b']
  else if c = '\t' then some ['\\', 't']
  else if c.toNat = 12 then some ['\\', 'f']
  else if c = '\r' then some ['\\', 'r']
  else if c = '\\' then some ['\\', '\\']
  else if needsEscape c then some ('\\' :: 'u' :: fourDigits c.toNat)
  else none

/-- The content of a string between double quotes.  At most `room` quotes may stand in a row
unescaped, and `quotes` of them stand before the text. -/
def basicContent (room : Nat) (quotes : Nat) : List Char → List Char
  | [] => []
  | c :: rest =>
    if c = '"' then
      if quotes < room then '"' :: basicContent room (quotes + 1) rest
      else '\\' :: '"' :: basicContent room 0 rest
    else if c = '\n' && room = 0 then '\\' :: 'n' :: basicContent room 0 rest
    else
      match escape? c with
      | some escaped => escaped ++ basicContent room 0 rest
      | none => c :: basicContent room 0 rest

/-- A string with its quotes.  A form of several lines starts a new line if the text has more than
one. -/
def stringChars (text : List Char) : List Char :=
  let start := if text.contains '\n' then ['\n'] else []
  match formOf text with
  | .basic => '"' :: (basicContent 0 0 text ++ ['"'])
  | .literal => '\'' :: (text ++ ['\''])
  | .basicLines => "\"\"\"".toList ++ start ++ basicContent 2 0 text ++ "\"\"\"".toList
  | .literalLines => "'''".toList ++ start ++ text ++ "'''".toList

inductive Scalar where
  | integer (value : Int)
  | number (value : Double)
  | string (value : String)

def Scalar.chars : Scalar → List Char
  | .integer value => (if value < 0 then ['-'] else []) ++ Nat.toDigits 10 value.natAbs
  | .number value => Layout.toml.chars value
  | .string value => stringChars value.toList

/-- A header's path and the pairs below it. -/
structure Section where
  path : List String
  pairs : List (String × Scalar)

def pairLine (pair : String × Scalar) : List Char :=
  pair.1.toList ++ " = ".toList ++ pair.2.chars ++ ['\n']

/-- A section under its header, after an empty line. -/
def Section.chars (s : Section) : List Char :=
  "\n[".toList ++ (".".intercalate s.path).toList ++ "]\n".toList ++ s.pairs.flatMap pairLine

/-- A document: pairs without a header, then sections. -/
def documentText (pairs : List (String × Scalar)) (sections : List Section) : String :=
  String.ofList (pairs.flatMap pairLine ++ sections.flatMap Section.chars)

end Toml
end PlaneReport
