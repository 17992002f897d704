import PlaneReport.Decimal.Basic

/-!
# JSON numerals

A numeral without point and exponent that fits 64 bits is an integer.  Every other numeral is
read as a 64-bit significand and a power of ten: digits that the significand cannot take only
count as places, and the significand, rounded, is multiplied or divided by a rounded power of ten.
-/

namespace PlaneReport
namespace Json

open Binary Power

inductive Numeral where
  | integer (value : Int)
  | number (value : Double)
  /-- A numeral whose value is beyond every number. -/
  | tooLarge
deriving DecidableEq

namespace Numeral

/-- One more than the largest significand. -/
def significandBound : Nat := 2 ^ (64 : Nat)

/-- The largest power of ten that is used as a factor. -/
def maxFactor : Nat := 308

/-- The number nearest to a power of ten. -/
def powerOfTen (n : Nat) : Double :=
  Number.ofUnits false (10 ^ n * 2 ^ double.scale) 1

/-- Divides until the remaining exponent is within reach of one factor; at most `steps` times,
after which every significand has vanished. -/
def scaleDown : Nat → Double → Int → Double × Int
  | 0, value, exponent => (value, exponent)
  | steps + 1, value, exponent =>
    if exponent.natAbs ≤ maxFactor || value.isZero then (value, exponent)
    else scaleDown steps (value / powerOfTen maxFactor) (exponent + maxFactor)

/-- The number made of a significand and a power of ten. -/
def ofParts (negative : Bool) (significand : Nat) (exponent : Int) : Numeral :=
  let signed (value : Double) : Numeral := .number (if negative then -value else value)
  let start : Double := Number.ofInt significand
  if 0 ≤ exponent then
    if exponent.natAbs ≤ maxFactor then
      let value := start * powerOfTen exponent.natAbs
      if value.isFinite then signed value else .tooLarge
    else if significand = 0 then signed start
    else .tooLarge
  else
    let (value, rest) := scaleDown 4 start exponent
    signed (if rest.natAbs ≤ maxFactor then value / powerOfTen rest.natAbs else value)

/-- The integer of an unscaled significand; a negative zero and integers below 64 bits become
numbers. -/
def ofSignificand (negative : Bool) (significand : Nat) : Numeral :=
  if !negative then .integer significand
  else if significand = 0 || 2 ^ (63 : Nat) < significand then
    .number (-(Number.ofInt significand : Double))
  else .integer (-(significand : Int))

/-- Takes digits into a significand as long as it stays within 64 bits; gives the significand, the
count of digits taken, and the rest of the text. -/
def takeDigits (significand : Nat) : List Char → Nat × Nat × List Char
  | [] => (significand, 0, [])
  | c :: rest =>
    if Decimal.isDigit c && 10 * significand + Decimal.digitValue c < significandBound then
      let (value, count, rest) := takeDigits (10 * significand + Decimal.digitValue c) rest
      (value, count + 1, rest)
    else (significand, 0, c :: rest)

/-- Largest exponent that is read as such. -/
def maxExponent : Nat := 2 ^ (31 : Nat) - 1

/-- After the exponent mark: a sign and digits.  `none` means that no digit follows. -/
def readExponent (negative : Bool) (significand : Nat) (shift : Int) (text : List Char) :
    Option (Numeral × List Char) :=
  let (below, digits) :=
    match text with
    | '-' :: rest => (true, rest)
    | '+' :: rest => (false, rest)
    | rest => (false, rest)
  let (run, rest) := digits.span Decimal.isDigit
  if run.isEmpty then none
  else
    let exponent := Decimal.digitsValue run
    if exponent ≤ maxExponent then
      let total := if below then shift - exponent else shift + exponent
      some (ofParts negative significand total, rest)
    else if significand ≠ 0 && !below then some (.tooLarge, rest)
    else some (.number (.finite negative .zero), rest)

/-- The end of a numeral that is no integer: perhaps an exponent. -/
def readScale (negative : Bool) (significand : Nat) (shift : Int) (text : List Char) :
    Option (Numeral × List Char) :=
  match text with
  | 'e' :: rest => readExponent negative significand shift rest
  | 'E' :: rest => readExponent negative significand shift rest
  | rest => some (ofParts negative significand shift, rest)

/-- After the point: at least one digit, then perhaps an exponent. -/
def readFraction (negative : Bool) (significand : Nat) (shift : Int) (text : List Char) :
    Option (Numeral × List Char) :=
  let (value, count, rest) := takeDigits significand text
  let passed := rest.dropWhile Decimal.isDigit
  if count = 0 && passed.length = rest.length then none
  else readScale negative value (shift - count) passed

/-- The numeral at the start of a text, after its sign, and the rest of the text; `none` if there
is none. -/
def readUnsigned (negative : Bool) (text : List Char) : Option (Numeral × List Char) :=
  match text with
  | [] => none
  | first :: _ =>
    if !Decimal.isDigit first then none
    else
      let (significand, count, rest) := takeDigits 0 text
      if first = '0' && 1 < count then none
      else
        let (skipped, rest) := rest.span Decimal.isDigit
        match rest with
        | '.' :: rest => readFraction negative significand skipped.length rest
        | rest =>
          if rest.head? = some 'e' || rest.head? = some 'E' || !skipped.isEmpty then
            readScale negative significand skipped.length rest
          else some (ofSignificand negative significand, rest)

def read (text : List Char) : Option (Numeral × List Char) :=
  match text with
  | '-' :: rest => readUnsigned true rest
  | rest => readUnsigned false rest

end Numeral
end Json
end PlaneReport
