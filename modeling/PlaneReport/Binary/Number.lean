import PlaneReport.Binary.Format

/-!
# Binary numbers

A number of a binary format is a magnitude with a sign, an infinity, or the one value that is not
a number.  The operations round the exact result once.  Bit patterns are only a way to write a
number down.
-/

namespace PlaneReport
namespace Binary

open Power

inductive Number (f : Format) where
  | nan
  | infinite (negative : Bool)
  | finite (negative : Bool) (size : Magnitude f)
deriving DecidableEq, Inhabited

abbrev Double := Number double
abbrev Single := Number single

/-- The whole part of the square root of a number below `4 ^ steps`. -/
def rootFrom : Nat → Nat → Nat
  | 0, _ => 0
  | steps + 1, n =>
    let root := 2 * rootFrom steps (n / 4)
    if (root + 1) * (root + 1) ≤ n then root + 1 else root

/-- The whole part of the square root. -/
def squareRoot (n : Nat) : Nat :=
  rootFrom (bitLength n) n

namespace Number

variable {f : Format}

def zero : Number f := .finite false .zero

/-- The number nearest to `num / den` units; too large a quotient becomes an infinity. -/
def ofUnits (negative : Bool) (num den : Nat) : Number f :=
  match Magnitude.nearest? f num den with
  | some size => .finite negative size
  | none => .infinite negative

/-- The number nearest to an integer. -/
def ofInt (n : Int) : Number f :=
  ofUnits (decide (n < 0)) (n.natAbs * 2 ^ f.scale) 1

def isFinite : Number f → Bool
  | .finite _ _ => true
  | _ => false

/-- The sign bit; a value that is not a number counts as unsigned. -/
def isNegative : Number f → Bool
  | .nan => false
  | .infinite negative => negative
  | .finite negative _ => negative

def isZero : Number f → Bool
  | .finite _ size => size.significand == 0
  | _ => false

/-- Equality of values: both zeros are equal, and what is not a number equals nothing. -/
def equals (x y : Number f) : Bool :=
  match x, y with
  | .nan, _ => false
  | _, .nan => false
  | x, y => (x.isZero && y.isZero) || x == y

def neg : Number f → Number f
  | .nan => .nan
  | .infinite negative => .infinite !negative
  | .finite negative size => .finite (!negative) size

/-- The exact value in units, of a finite number. -/
def signedUnits (negative : Bool) (size : Magnitude f) : Int :=
  if negative then -(size.units : Int) else size.units

/-- A sum that is exactly zero is negative only if both terms are. -/
def add (x y : Number f) : Number f :=
  match x, y with
  | .nan, _ => .nan
  | _, .nan => .nan
  | .infinite a, .infinite b => if a = b then .infinite a else .nan
  | .infinite a, .finite _ _ => .infinite a
  | .finite _ _, .infinite b => .infinite b
  | .finite a s, .finite b t =>
    let sum := signedUnits a s + signedUnits b t
    if sum = 0 then .finite (a && b) .zero
    else ofUnits (decide (sum < 0)) sum.natAbs 1

def sub (x y : Number f) : Number f :=
  add x (neg y)

def mul (x y : Number f) : Number f :=
  match x, y with
  | .nan, _ => .nan
  | _, .nan => .nan
  | .infinite a, .infinite b => .infinite (a != b)
  | .infinite a, .finite b t => if t.significand = 0 then .nan else .infinite (a != b)
  | .finite a s, .infinite b => if s.significand = 0 then .nan else .infinite (a != b)
  | .finite a s, .finite b t => ofUnits (a != b) (s.units * t.units) (2 ^ f.scale)

def div (x y : Number f) : Number f :=
  match x, y with
  | .nan, _ => .nan
  | _, .nan => .nan
  | .infinite _, .infinite _ => .nan
  | .infinite a, .finite b _ => .infinite (a != b)
  | .finite a _, .infinite b => .finite (a != b) .zero
  | .finite a s, .finite b t =>
    if t.significand = 0 then
      if s.significand = 0 then .nan else .infinite (a != b)
    else ofUnits (a != b) (s.units * 2 ^ f.scale) t.units

/-- The root is known to half a unit and one sticky digit more, which is enough to round it: an
inexact root is never a tie. -/
def sqrt : Number f → Number f
  | .nan => .nan
  | .infinite negative => if negative then .nan else .infinite false
  | .finite negative s =>
    if s.significand = 0 then .finite negative s
    else if negative then .nan
    else
      let square := 4 * (s.units * 2 ^ f.scale)
      let root := squareRoot square
      let sticky := if root * root = square then 0 else 1
      ofUnits false (2 * root + sticky) 4

instance : Neg (Number f) := ⟨neg⟩
instance : Add (Number f) := ⟨add⟩
instance : Sub (Number f) := ⟨sub⟩
instance : Mul (Number f) := ⟨mul⟩
instance : Div (Number f) := ⟨div⟩

/-- The number that a bit pattern stands for: a sign, an exponent and a fraction of
`width - 1` bits. -/
def ofBits (bits : Nat) : Number f :=
  let half : Nat := 2 ^ (f.width - 1)
  let fraction := bits % half
  let exponent := bits / half % (f.top + 3)
  let negative := bits / (half * (f.top + 3)) % 2 == 1
  have hw := f.width_pos
  have hhalf : 2 * half = 2 ^ f.width := by
    show 2 * 2 ^ (f.width - 1) = 2 ^ f.width
    rw [Nat.mul_comm, ← Nat.pow_succ]
    congr 1
    omega
  have hfraction : fraction < half := Nat.mod_lt _ (Nat.two_pow_pos _)
  if exponent = 0 then
    .finite negative ⟨fraction, 0, by omega, f.zero_le_top, Or.inl rfl⟩
  else if hs : exponent - 1 ≤ f.top then
    .finite negative ⟨half + fraction, exponent - 1, by omega, hs,
      Or.inr (Nat.le_add_right _ _)⟩
  else if fraction = 0 then .infinite negative
  else .nan

end Number
end Binary
end PlaneReport
