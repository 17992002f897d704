/-!
# Terminal control sequences

Texts from outside may hold sequences that steer a terminal: an escape character and what follows
it, up to the byte that ends the sequence.  `plain` drops them, and with them all control
characters that are no white space.
-/

namespace PlaneReport
namespace Text

/-- How far a terminal has come in a control sequence. -/
inductive Control where
  /-- Outside all sequences. -/
  | ground
  | escape
  | escapeIntermediate
  /-- After an escape character and an opening bracket. -/
  | sequenceStart
  | sequenceParameter
  | sequenceIntermediate
  | sequenceIgnored
  /-- In the head of a string for the device. -/
  | deviceStart
  | deviceParameter
  | deviceIntermediate
  | deviceIgnored
  /-- In the body of a string for the device. -/
  | deviceData
  /-- In a command for the system around the terminal. -/
  | command
  /-- In a string that the terminal takes no notice of. -/
  | unnoticed
deriving DecidableEq, Repr

namespace Control

/-- Whether a byte lies in a range. -/
def within (first last byte : Nat) : Bool :=
  first ≤ byte && byte ≤ last

/-- What follows the escape character decides the kind of the sequence. -/
def afterEscape (byte : Nat) : Control :=
  if within 0x20 0x2f byte then .escapeIntermediate
  else if byte = 0x50 then .deviceStart
  else if byte = 0x58 || byte = 0x5e || byte = 0x5f then .unnoticed
  else if byte = 0x5b then .sequenceStart
  else if byte = 0x5d then .command
  else if within 0x30 0x7e byte then .ground
  else .escape

/-- One byte.  Cancel and substitute end any sequence, and an escape character starts a new one. -/
def step (control : Control) (byte : Nat) : Control :=
  if byte = 0x18 || byte = 0x1a then .ground
  else if byte = 0x1b then .escape
  else
    match control with
    | .ground => .ground
    | .escape => afterEscape byte
    | .escapeIntermediate => if within 0x30 0x7e byte then .ground else .escapeIntermediate
    | .sequenceStart =>
      if within 0x20 0x2f byte then .sequenceIntermediate
      else if within 0x30 0x3f byte then .sequenceParameter
      else if within 0x40 0x7e byte then .ground
      else .sequenceStart
    | .sequenceParameter =>
      if within 0x20 0x2f byte then .sequenceIntermediate
      else if within 0x3c 0x3f byte then .sequenceIgnored
      else if within 0x40 0x7e byte then .ground
      else .sequenceParameter
    | .sequenceIntermediate =>
      if within 0x30 0x3f byte then .sequenceIgnored
      else if within 0x40 0x7e byte then .ground
      else .sequenceIntermediate
    | .sequenceIgnored => if within 0x40 0x7e byte then .ground else .sequenceIgnored
    | .deviceStart =>
      if within 0x20 0x2f byte then .deviceIntermediate
      else if within 0x30 0x3f byte then .deviceParameter
      else if within 0x40 0x7e byte then .deviceData
      else .deviceStart
    | .deviceParameter =>
      if within 0x20 0x2f byte then .deviceIntermediate
      else if within 0x3c 0x3f byte then .deviceIgnored
      else if within 0x40 0x7e byte then .deviceData
      else .deviceParameter
    | .deviceIntermediate =>
      if within 0x30 0x3f byte then .deviceIgnored
      else if within 0x40 0x7e byte then .deviceData
      else .deviceIntermediate
    | .deviceIgnored => if byte = 0x9c then .ground else .deviceIgnored
    | .deviceData => if byte = 0x9c then .ground else .deviceData
    | .command => if byte = 0x07 then .ground else .command
    | .unnoticed => if byte = 0x9c then .ground else .unnoticed

/-- Whether white space that breaks a sequence shows all the same. -/
def showsBlanks : Control → Bool
  | .ground => true
  | .escape => true
  | .escapeIntermediate => true
  | .sequenceStart => true
  | .sequenceParameter => true
  | .sequenceIntermediate => true
  | .sequenceIgnored => true
  | _ => false

end Control

/-- A terminal that shows a text.  Once a character has been shown those after it are too, up to the
next control character, whatever sequence it broke. -/
structure Terminal where
  control : Control := .ground
  isShowing : Bool := false
deriving DecidableEq, Repr

namespace Terminal

/-- Whether the terminal shows a character in its present state. -/
def shows (terminal : Terminal) (c : Char) : Bool :=
  let n := c.toNat
  if n = 9 || n = 10 || n = 12 || n = 13 then
    terminal.isShowing || terminal.control.showsBlanks
  else if n < 0x20 || n = 0x7f then false
  else terminal.isShowing || terminal.control = .ground

/-- The terminal after a character. -/
def advance (terminal : Terminal) (c : Char) : Terminal :=
  if terminal.shows c then
    { control := if 0x80 ≤ c.toNat then .ground else terminal.control, isShowing := true }
  else
    let bytes := (String.utf8EncodeChar c).map UInt8.toNat
    { control := bytes.foldl Control.step terminal.control, isShowing := false }

/-- The characters of a text that the terminal shows. -/
def shown (terminal : Terminal) : List Char → List Char
  | [] => []
  | c :: rest =>
    let after := (terminal.advance c).shown rest
    if terminal.shows c then c :: after else after

end Terminal

/-- A text without control sequences. -/
def plain (text : String) : String :=
  String.ofList (({} : Terminal).shown text.toList)

end Text
end PlaneReport
