/-!
# Editions of TOML

The format has grown, and texts are read by the rules of one edition of it, within limits of their
own.  Files of a workspace follow `Edition.v1_0`; texts that are decoded at once follow
`Edition.v1_1`.
-/

namespace PlaneReport
namespace Toml

structure Edition where
  /-- How deep values may stand inside one another. -/
  depth : Nat
  /-- How many parts a key may have, if that is limited. -/
  keyParts : Option Nat
  /-- Whether inline tables may run over several lines and end with a comma. -/
  hasLooseTables : Bool
  /-- Whether an escape may name a character by two digits, and the escape character by a letter. -/
  hasByteEscapes : Bool
  /-- Whether a time may do without seconds. -/
  hasShortTimes : Bool
  /-- Whether a line end inside a string stays as it is; else it is a line feed. -/
  keepsLineEnds : Bool
deriving DecidableEq, Repr

namespace Edition

def v1_0 : Edition where
  depth := 79
  keyParts := some 79
  hasLooseTables := false
  hasByteEscapes := false
  hasShortTimes := false
  keepsLineEnds := false

def v1_1 : Edition where
  depth := 80
  keyParts := none
  hasLooseTables := true
  hasByteEscapes := true
  hasShortTimes := true
  keepsLineEnds := true

/-- Whether a key may have so many parts. -/
def allowsParts (edition : Edition) (count : Nat) : Bool :=
  match edition.keyParts with
  | none => true
  | some most => count ≤ most

end Edition
end Toml
end PlaneReport
