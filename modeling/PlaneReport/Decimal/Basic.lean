import PlaneReport.Binary.Number

/-!
# Decimal numbers

A decimal number is a whole coefficient, a power of ten and a sign.  `Decimal.toNumber` rounds it
to the nearest binary number, and `Number.ofText?` reads the usual spellings of one.
-/

namespace PlaneReport

open Binary Power

/-- `coefficient * 10 ^ exponent`, negated when `negative` is set. -/
structure Decimal where
  negative : Bool
  coefficient : Nat
  exponent : Int
deriving DecidableEq, Repr

namespace Decimal

def isDigit (c : Char) : Bool :=
  '0' ≤ c && c ≤ '9'

def digitValue (c : Char) : Nat :=
  c.toNat - '0'.toNat

/-- The number that a run of digits denotes. -/
def digitsValue (digits : List Char) : Nat :=
  digits.foldl (fun value c => 10 * value + digitValue c) 0

/-- How many digits the decimal numeral of `n` has. -/
def digitCount (n : Nat) : Nat :=
  (Nat.toDigits 10 n).length

/-- A power of ten beyond which every number of the format overflows, and below whose inverse
every number vanishes. -/
def reach (f : Format) : Nat :=
  f.width + f.top + f.scale + 1

/-- The binary number nearest to a decimal one.  The two guards only spare the computation of
powers of ten that no number of the format could feel. -/
def toNumber (f : Format) (d : Decimal) : Number f :=
  if d.coefficient = 0 then .finite d.negative .zero
  else if (reach f : Int) ≤ d.exponent then .infinite d.negative
  else if d.exponent + digitCount d.coefficient ≤ -(reach f : Int) then .finite d.negative .zero
  else
    Number.ofUnits d.negative (d.coefficient * 10 ^ d.exponent.toNat * 2 ^ f.scale)
      (10 ^ (-d.exponent).toNat)

/-- An exponent: a sign and at least one digit, up to the end of the text. -/
def exponentOfText? (text : List Char) : Option Int :=
  let (negative, digits) :=
    match text with
    | '-' :: rest => (true, rest)
    | '+' :: rest => (false, rest)
    | rest => (false, rest)
  if digits.isEmpty || !digits.all isDigit then none
  else if negative then some (-(digitsValue digits : Int)) else some (digitsValue digits)

/-- An unsigned decimal: digits, perhaps a point among or around them, perhaps an exponent. -/
def unsignedOfText? (negative : Bool) (text : List Char) : Option Decimal :=
  let (whole, rest) := text.span isDigit
  let (fraction, rest) :=
    match rest with
    | '.' :: rest => rest.span isDigit
    | rest => ([], rest)
  if whole.isEmpty && fraction.isEmpty then none
  else
    let coefficient := digitsValue (whole ++ fraction)
    match rest with
    | [] => some ⟨negative, coefficient, -(fraction.length : Int)⟩
    | c :: rest =>
      if c == 'e' || c == 'E' then
        (exponentOfText? rest).map fun exponent =>
          ⟨negative, coefficient, exponent - fraction.length⟩
      else none

end Decimal

namespace Binary.Number

variable {f : Format}

/-- What a text without sign denotes: an infinity or a non-number by name, in any case, or a
decimal. -/
def unsignedOfText? (negative : Bool) (text : List Char) : Option (Number f) :=
  let word := text.map Char.toLower
  if word = "inf".toList || word = "infinity".toList then some (.infinite negative)
  else if word = "nan".toList then some .nan
  else (Decimal.unsignedOfText? negative text).map (Decimal.toNumber f)

/-- The binary number nearest to what a whole text denotes. -/
def ofText? (text : List Char) : Option (Number f) :=
  match text with
  | '-' :: rest => unsignedOfText? true rest
  | '+' :: rest => unsignedOfText? false rest
  | rest => unsignedOfText? false rest

end Binary.Number
end PlaneReport
