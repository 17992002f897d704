import PlaneReport.Json.Reader
import PlaneReport.Text.Blank
import PlaneReport.Toml.Edition

/-!
# TOML scalars

Numbers, booleans, dates and strings of TOML, as outlines.  A date is a table with a single
member, so that no place for a number or a text takes it.
-/

namespace PlaneReport
namespace Toml

open Binary Power

/-- Space and tab. -/
def isBlank (c : Char) : Bool :=
  c == ' ' || c == '\t'

def skipBlanks (text : List Char) : List Char :=
  text.dropWhile isBlank

/-- Digits with single underscores between them: the digits alone. -/
def digitRun? (isDigit : Char → Bool) : List Char → Option (List Char)
  | [] => none
  | [c] => if isDigit c then some [c] else none
  | c :: '_' :: rest =>
    if isDigit c then (digitRun? isDigit rest).map (c :: ·) else none
  | c :: rest =>
    if isDigit c then (digitRun? isDigit rest).map (c :: ·) else none

/-- The number that digits of a base denote. -/
def valueInBase (base : Nat) (digits : List Char) : Nat :=
  digits.foldl (fun value c => base * value + (Json.hexValue? c).getD 0) 0

/-- Digits of a base below ten. -/
def isDigitBelow (base : Nat) (c : Char) : Bool :=
  Decimal.isDigit c && decide (Decimal.digitValue c < base)

def isHexDigit (c : Char) : Bool :=
  (Json.hexValue? c).isSome

/-- Decimal digits without a leading zero. -/
def wholeRun? (text : List Char) : Option (List Char) :=
  match digitRun? Decimal.isDigit text with
  | some digits => if digits.head? = some '0' && 1 < digits.length then none else some digits
  | none => none

/-- An integer as it is; beyond every kind of integer it can only be passed over. -/
def integer (n : Int) : Outline :=
  if -(2 ^ (127 : Nat) : Int) ≤ n ∧ n < 2 ^ (128 : Nat) then .integer n else .unreadable

/-- An integer: decimal with an optional sign, or of another base without one. -/
def integerOfText? (text : List Char) : Option Outline :=
  match text with
  | '0' :: 'x' :: rest =>
    (digitRun? isHexDigit rest).map fun digits => integer (valueInBase 16 digits)
  | '0' :: 'o' :: rest =>
    (digitRun? (isDigitBelow 8) rest).map fun digits => integer (valueInBase 8 digits)
  | '0' :: 'b' :: rest =>
    (digitRun? (isDigitBelow 2) rest).map fun digits => integer (valueInBase 2 digits)
  | '-' :: rest => (wholeRun? rest).map fun digits => integer (-(valueInBase 10 digits : Int))
  | '+' :: rest => (wholeRun? rest).map fun digits => integer (valueInBase 10 digits)
  | rest => (wholeRun? rest).map fun digits => integer (valueInBase 10 digits)

/-- An exponent: an optional sign and digits. -/
def exponentOfText? (text : List Char) : Option Int :=
  match text with
  | '-' :: rest =>
    (digitRun? Decimal.isDigit rest).map fun digits => -(Decimal.digitsValue digits : Int)
  | '+' :: rest =>
    (digitRun? Decimal.isDigit rest).map fun digits => (Decimal.digitsValue digits : Int)
  | rest =>
    (digitRun? Decimal.isDigit rest).map fun digits => (Decimal.digitsValue digits : Int)

/-- The number nearest to a decimal, or which way the decimal overflows. -/
def finite (d : Decimal) : Outline :=
  let value := d.toNumber double
  if value.isFinite then .number value else .overflow d.negative

/-- A fractional number without its sign. -/
def unsignedNumberOfText? (negative : Bool) (text : List Char) : Option Outline :=
  if text = "inf".toList then some (.number (.infinite negative))
  else if text = "nan".toList then some (.number .nan)
  else
    let (whole, rest) := text.span fun c => c != '.' && c != 'e' && c != 'E'
    match rest with
    | '.' :: rest =>
      let (fraction, rest) := rest.span fun c => c != 'e' && c != 'E'
      match wholeRun? whole, digitRun? Decimal.isDigit fraction with
      | some whole, some fraction =>
        let coefficient := Decimal.digitsValue (whole ++ fraction)
        match rest with
        | [] => some (finite ⟨negative, coefficient, -(fraction.length : Int)⟩)
        | _ :: rest =>
          (exponentOfText? rest).map fun exponent =>
            finite ⟨negative, coefficient, exponent - fraction.length⟩
      | _, _ => none
    | _ :: rest =>
      match wholeRun? whole, exponentOfText? rest with
      | some whole, some exponent =>
        some (finite ⟨negative, Decimal.digitsValue whole, exponent⟩)
      | _, _ => none
    | [] => none

def numberOfText? (text : List Char) : Option Outline :=
  match text with
  | '-' :: rest => unsignedNumberOfText? true rest
  | '+' :: rest => unsignedNumberOfText? false rest
  | rest => unsignedNumberOfText? false rest

/-- The value of exactly `count` digits at the start of a text, and the rest. -/
def takeDigits? (count : Nat) (text : List Char) : Option (Nat × List Char) :=
  let digits := text.take count
  if digits.length = count && digits.all Decimal.isDigit then
    some (Decimal.digitsValue digits, text.drop count)
  else none

def expect? (c : Char) : List Char → Option (List Char)
  | [] => none
  | d :: rest => if c = d then some rest else none

def daysIn (year month : Nat) : Nat :=
  if month = 2 then
    if year % 4 = 0 && (year % 100 != 0 || year % 400 = 0) then 29 else 28
  else if month = 4 || month = 6 || month = 9 || month = 11 then 30
  else 31

/-- A calendar date at the start of a text; the result is the rest. -/
def afterDate? (text : List Char) : Option (List Char) := do
  let (year, rest) ← takeDigits? 4 text
  let rest ← expect? '-' rest
  let (month, rest) ← takeDigits? 2 rest
  let rest ← expect? '-' rest
  let (day, rest) ← takeDigits? 2 rest
  if 1 ≤ month ∧ month ≤ 12 ∧ 1 ≤ day ∧ day ≤ daysIn year month then some rest else none

/-- A second at the start of a text, perhaps with a fraction; the result is the rest. -/
def afterSecond? (text : List Char) : Option (List Char) := do
  let (second, rest) ← takeDigits? 2 text
  if 60 < second then none
  else
    match rest with
    | '.' :: fraction =>
      let (digits, rest) := fraction.span Decimal.isDigit
      if digits.isEmpty then none else some rest
    | rest => some rest

/-- A time of day at the start of a text; the result is the rest. -/
def afterTime? (edition : Edition) (text : List Char) : Option (List Char) := do
  let (hour, rest) ← takeDigits? 2 text
  let rest ← expect? ':' rest
  let (minute, rest) ← takeDigits? 2 rest
  if 23 < hour ∨ 59 < minute then none
  else
    match rest with
    | ':' :: rest => afterSecond? rest
    | rest => if edition.hasShortTimes then some rest else none

/-- An offset from universal time, or nothing, up to the end of a text. -/
def isOffset : List Char → Bool
  | [] => true
  | ['Z'] => true
  | ['z'] => true
  | sign :: rest =>
    (sign == '+' || sign == '-') &&
      (match takeDigits? 2 rest with
        | some (hour, ':' :: rest) =>
          match takeDigits? 2 rest with
          | some (minute, []) => decide (hour ≤ 23) && decide (minute ≤ 59)
          | _ => false
        | _ => false)

/-- Whether a text is a date, a time, or both. -/
def isDate (edition : Edition) (text : List Char) : Bool :=
  match afterDate? text with
  | some [] => true
  | some (mark :: rest) =>
    (mark == 'T' || mark == 't' || mark == ' ') &&
      (match afterTime? edition rest with
        | some rest => isOffset rest
        | none => false)
  | none => afterTime? edition text == some []

/-- The name of the single member of a date. -/
def dateKey : String := "$__toml_private_datetime"

def date (text : List Char) : Outline :=
  .table [(some dateKey, .string (String.ofList text))] true

/-- The scalar that a whole text denotes. -/
def scalarOfText? (edition : Edition) (text : List Char) : Option Outline :=
  if text = "true".toList then some (.bool true)
  else if text = "false".toList then some (.bool false)
  else
    match integerOfText? text with
    | some value => some value
    | none =>
      match numberOfText? text with
      | some value => some value
      | none => if isDate edition text then some (date text) else none

/-- The characters that scalars without quotes are made of. -/
def isScalarChar (c : Char) : Bool :=
  c.isAlphanum || c == '+' || c == '-' || c == '_' || c == '.' || c == ':'

/-- The scalar at the start of a text.  A blank may stand between a date and a time. -/
def readScalar (edition : Edition) (text : List Char) : Option (Outline × List Char) :=
  let (run, rest) := text.span isScalarChar
  let (run, rest) :=
    match afterDate? run, rest with
    | some [], ' ' :: c :: more =>
      if Decimal.isDigit c then
        let (time, rest) := (c :: more).span isScalarChar
        (run ++ ' ' :: time, rest)
      else (run, rest)
    | _, _ => (run, rest)
  (scalarOfText? edition run).map fun value => (value, rest)

/-- The character that an escape names, and the rest of the text after it. -/
def readEscape (edition : Edition) (text : List Char) : Option (Char × List Char) :=
  let named (count : Nat) (text : List Char) : Option (Char × List Char) :=
    let digits := text.take count
    if digits.length = count && digits.all isHexDigit then
      let n := valueInBase 16 digits
      if n.isValidChar then some (Char.ofNat n, text.drop count) else none
    else none
  match text with
  | 'b' :: rest => some ('\x08', rest)
  | 't' :: rest => some ('\t', rest)
  | 'n' :: rest => some ('\n', rest)
  | 'f' :: rest => some ('\x0c', rest)
  | 'r' :: rest => some ('\r', rest)
  | '"' :: rest => some ('"', rest)
  | '\\' :: rest => some ('\\', rest)
  | 'u' :: rest => named 4 rest
  | 'U' :: rest => named 8 rest
  | 'x' :: rest => if edition.hasByteEscapes then named 2 rest else none
  | 'e' :: rest => if edition.hasByteEscapes then some ('\x1b', rest) else none
  | _ => none

/-- A string between double quotes, after the first of them. -/
def readBasic (edition : Edition) : Nat → List Char → Option (List Char × List Char)
  | 0, _ => none
  | fuel + 1, text =>
    match text with
    | [] => none
    | '"' :: rest => some ([], rest)
    | '\\' :: rest => do
      let (c, rest) ← readEscape edition rest
      let (chars, rest) ← readBasic edition fuel rest
      return (c :: chars, rest)
    | c :: rest =>
      if Text.isControl c then none
      else do
        let (chars, rest) ← readBasic edition fuel rest
        return (c :: chars, rest)

/-- A string between single quotes, after the first of them. -/
def readLiteral : List Char → Option (List Char × List Char)
  | [] => none
  | '\'' :: rest => some ([], rest)
  | c :: rest =>
    if Text.isControl c then none
    else do
      let (chars, rest) ← readLiteral rest
      return (c :: chars, rest)

/-- Cuts a line end off the front of a text. -/
def afterNewline? : List Char → Option (List Char)
  | '\n' :: rest => some rest
  | '\r' :: '\n' :: rest => some rest
  | _ => none

/-- A line end at the front of a text, as strings hold it, and the rest. -/
def readNewline? (edition : Edition) : List Char → Option (List Char × List Char)
  | '\n' :: rest => some (['\n'], rest)
  | '\r' :: '\n' :: rest =>
    some (if edition.keepsLineEnds then ['\r', '\n'] else ['\n'], rest)
  | _ => none

/-- A text without a line end at its front. -/
def dropNewline (text : List Char) : List Char :=
  (afterNewline? text).getD text

/-- Blanks and line ends at the front of a text. -/
def skipLines : Nat → List Char → List Char
  | 0, text => text
  | fuel + 1, text =>
    match afterNewline? (skipBlanks text) with
    | some rest => skipLines fuel rest
    | none => skipBlanks text

/-- Three quotes close a string of several lines; one or two more before them belong to it. -/
def closing? (quote : Char) (text : List Char) : Option (List Char × List Char) :=
  let count := (text.takeWhile (· == quote)).length
  if count < 3 then none
  else
    let inner := min (count - 3) 2
    some (List.replicate inner quote, text.drop (inner + 3))

/-- A string of several lines between double quotes, after the opening ones. -/
def readBasicLines (edition : Edition) : Nat → List Char → Option (List Char × List Char)
  | 0, _ => none
  | fuel + 1, text =>
    match closing? '"' text with
    | some closed => some closed
    | none =>
      match readNewline? edition text with
      | some (lineEnd, rest) => do
        let (chars, rest) ← readBasicLines edition fuel rest
        return (lineEnd ++ chars, rest)
      | none =>
        match text with
        | [] => none
        | '\\' :: rest =>
          match afterNewline? (skipBlanks rest) with
          | some rest => readBasicLines edition fuel (skipLines rest.length rest)
          | none => do
            let (c, rest) ← readEscape edition rest
            let (chars, rest) ← readBasicLines edition fuel rest
            return (c :: chars, rest)
        | c :: rest =>
          if Text.isControl c then none
          else do
            let (chars, rest) ← readBasicLines edition fuel rest
            return (c :: chars, rest)

/-- A string of several lines between single quotes, after the opening ones. -/
def readLiteralLines (edition : Edition) : Nat → List Char → Option (List Char × List Char)
  | 0, _ => none
  | fuel + 1, text =>
    match closing? '\'' text with
    | some closed => some closed
    | none =>
      match readNewline? edition text with
      | some (lineEnd, rest) => do
        let (chars, rest) ← readLiteralLines edition fuel rest
        return (lineEnd ++ chars, rest)
      | none =>
        match text with
        | [] => none
        | c :: rest =>
          if Text.isControl c then none
          else do
            let (chars, rest) ← readLiteralLines edition fuel rest
            return (c :: chars, rest)

/-- A string on one line, with its quotes. -/
def readLineString (edition : Edition) (text : List Char) : Option (List Char × List Char) :=
  match text with
  | '"' :: rest => readBasic edition (rest.length + 1) rest
  | '\'' :: rest => readLiteral rest
  | _ => none

/-- A string with its quotes, in any of the four forms. -/
def readString (edition : Edition) (text : List Char) : Option (List Char × List Char) :=
  match text with
  | '"' :: '"' :: '"' :: rest => readBasicLines edition (rest.length + 1) (dropNewline rest)
  | '\'' :: '\'' :: '\'' :: rest => readLiteralLines edition (rest.length + 1) (dropNewline rest)
  | text => readLineString edition text

end Toml
end PlaneReport
