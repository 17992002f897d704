import PlaneReport.Decimal.Shortest

/-!
# Layouts of numbers

A layout says how the shortest digits of a number are set: within which decades every place is
written out, how an integral value is marked, how an exponent is signed, and what stands for the
values that have no digits.  `fixed` sets a number with a given count of places instead.
-/

namespace PlaneReport

open Binary Power

structure Layout where
  /-- The least and greatest power of ten of a first digit for which all places are written;
  without bounds they always are. -/
  decades : Option (Int × Int)
  /-- What an integral value ends in when its places are written. -/
  integralMark : List Char
  /-- Whether a positive exponent has its sign. -/
  plusSign : Bool
  nan : List Char
  infinity : List Char
  negativeInfinity : List Char
  tie : Tie

namespace Layout

/-- All places, the point after the `point`-th digit. -/
def positional (mark : List Char) (digits : List Char) (point : Int) : List Char :=
  if point ≤ 0 then
    '0' :: '.' :: (List.replicate (-point).toNat '0' ++ digits)
  else if digits.length ≤ point.toNat then
    digits ++ List.replicate (point.toNat - digits.length) '0' ++ mark
  else
    digits.take point.toNat ++ '.' :: digits.drop point.toNat

/-- One digit, a point before further ones, and the power of ten of the first. -/
def scientific (plusSign : Bool) (digits : List Char) (exponent : Int) : List Char :=
  let fraction := digits.drop 1
  let sign := if exponent < 0 then ['-'] else if plusSign then ['+'] else []
  digits.take 1 ++ (if fraction.isEmpty then [] else '.' :: fraction) ++
    'e' :: (sign ++ Nat.toDigits 10 exponent.natAbs)

/-- The digits of a magnitude and the place of the point after the first of them. -/
def digitsOf {f : Format} (tie : Tie) (x : Magnitude f) : List Char × Int :=
  if x.significand = 0 then (['0'], 1)
  else
    let (coefficient, place) := Decimal.shortest tie x
    let digits := Nat.toDigits 10 coefficient
    (digits, digits.length + place)

def magnitude (layout : Layout) {f : Format} (x : Magnitude f) : List Char :=
  let (digits, point) := digitsOf layout.tie x
  let writtenOut :=
    match layout.decades with
    | none => true
    | some (least, greatest) =>
      x.significand = 0 || (decide (least ≤ point - 1) && decide (point - 1 ≤ greatest))
  if writtenOut then positional layout.integralMark digits point
  else scientific layout.plusSign digits (point - 1)

/-- The characters of a number. -/
def chars (layout : Layout) {f : Format} : Number f → List Char
  | .nan => layout.nan
  | .infinite negative => if negative then layout.negativeInfinity else layout.infinity
  | .finite negative size =>
    (if negative then ['-'] else []) ++ layout.magnitude size

def text (layout : Layout) {f : Format} (x : Number f) : String :=
  String.ofList (layout.chars x)

/-- The report's own layout: every number shows a point or an exponent. -/
def exact : Layout where
  decades := some (-4, 15)
  integralMark := ".0".toList
  plusSign := false
  nan := "NaN".toList
  infinity := "inf".toList
  negativeInfinity := "-inf".toList
  tie := .up

/-- The layout of messages: no exponents and no superfluous point. -/
def plain : Layout where
  decades := none
  integralMark := []
  plusSign := false
  nan := "NaN".toList
  infinity := "inf".toList
  negativeInfinity := "-inf".toList
  tie := .up

/-- The layout of messages about a value that must be seen to be fractional. -/
def plainFractional : Layout :=
  { plain with integralMark := ".0".toList }

end Layout

namespace Binary.Number

variable {f : Format}

/-- A number with `places` decimal places, rounded half to even on its exact value.  The sign
stays, also before zeros; values without digits keep their names. -/
def fixedChars (places : Nat) : Number f → List Char
  | .nan => Layout.plain.nan
  | .infinite negative =>
    if negative then Layout.plain.negativeInfinity else Layout.plain.infinity
  | .finite negative size =>
    let scaled := roundHalfEven (size.units * 10 ^ places) (2 ^ f.scale)
    let digits := Nat.toDigits 10 scaled
    let padded := List.replicate (places + 1 - digits.length) '0' ++ digits
    let whole := padded.length - places
    (if negative then ['-'] else []) ++ padded.take whole ++
      (if places = 0 then [] else '.' :: padded.drop whole)

end Binary.Number
end PlaneReport
