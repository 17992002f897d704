import PlaneReport.Json.Numeral
import PlaneReport.Json.Value
import PlaneReport.Outline.Shape

/-!
# Reading JSON texts

`Json.outline` makes an outline of a text: how far it is JSON, and with which values.
-/

namespace PlaneReport
namespace Json

/-- The blanks that JSON allows between tokens. -/
def isBlank (c : Char) : Bool :=
  c == ' ' || c == '\n' || c == '\t' || c == '\r'

def skipBlanks (text : List Char) : List Char :=
  text.dropWhile isBlank

/-- The value of a hexadecimal digit. -/
def hexValue? (c : Char) : Option Nat :=
  if '0' ≤ c ∧ c ≤ '9' then some (c.toNat - '0'.toNat)
  else if 'a' ≤ c ∧ c ≤ 'f' then some (c.toNat - 'a'.toNat + 10)
  else if 'A' ≤ c ∧ c ≤ 'F' then some (c.toNat - 'A'.toNat + 10)
  else none

/-- The value of four hexadecimal digits. -/
def hexUnit? (a b c d : Char) : Option Nat := do
  let a ← hexValue? a
  let b ← hexValue? b
  let c ← hexValue? c
  let d ← hexValue? d
  return ((a * 16 + b) * 16 + c) * 16 + d

/-- What a simple escape stands for. -/
def simpleEscape? (c : Char) : Option Char :=
  if c = '"' then some '"'
  else if c = '\\' then some '\\'
  else if c = '/' then some '/'
  else if c = 'b' then some '\x08'
  else if c = 'f' then some '\x0c'
  else if c = 'n' then some '\n'
  else if c = 'r' then some '\r'
  else if c = 't' then some '\t'
  else none

/-- One piece of a string: a character, or a unit of sixteen bits that an escape names. -/
inductive Piece where
  | char (c : Char)
  | unit (value : Nat)
deriving DecidableEq

/-- The pieces of a string up to its closing quote, and the rest of the text. -/
def readPieces : List Char → Option (List Piece × List Char)
  | [] => none
  | '"' :: rest => some ([], rest)
  | '\\' :: 'u' :: a :: b :: c :: d :: rest => do
    let value ← hexUnit? a b c d
    let (pieces, rest) ← readPieces rest
    return (.unit value :: pieces, rest)
  | '\\' :: c :: rest => do
    let c ← simpleEscape? c
    let (pieces, rest) ← readPieces rest
    return (.char c :: pieces, rest)
  | c :: rest =>
    if c.toNat < 32 then none
    else do
      let (pieces, rest) ← readPieces rest
      return (.char c :: pieces, rest)

/-- The characters that pieces stand for: two units may form one character, and half a pair none. -/
def charsOfPieces? : List Piece → Option (List Char)
  | [] => some []
  | .char c :: rest => (charsOfPieces? rest).map (c :: ·)
  | .unit high :: .unit low :: rest =>
    if 0xd800 ≤ high ∧ high < 0xdc00 then
      if 0xdc00 ≤ low ∧ low < 0xe000 then
        (charsOfPieces? rest).map
          (Char.ofNat (0x10000 + (high - 0xd800) * 0x400 + (low - 0xdc00)) :: ·)
      else none
    else if 0xdc00 ≤ high ∧ high < 0xe000 then none
    else (charsOfPieces? (.unit low :: rest)).map (Char.ofNat high :: ·)
  | .unit value :: rest =>
    if 0xd800 ≤ value ∧ value < 0xe000 then none
    else (charsOfPieces? rest).map (Char.ofNat value :: ·)

/-- A string after its opening quote: the text it denotes, if it denotes one, and the rest. -/
def readString (text : List Char) : Option (Option String × List Char) := do
  let (pieces, rest) ← readPieces text
  return ((charsOfPieces? pieces).map String.ofList, rest)

/-- Cuts a word off the front of a text. -/
def afterWord? : List Char → List Char → Option (List Char)
  | [], rest => some rest
  | _ :: _, [] => none
  | w :: word, c :: rest => if w = c then afterWord? word rest else none

/-- The outline of a value without parts; the rest of the text is absent where it breaks off. -/
def readLeaf (text : List Char) : Outline × Option (List Char) :=
  match text with
  | 'n' :: rest =>
    match afterWord? "ull".toList rest with
    | some rest => (.null, some rest)
    | none => (.broken, none)
  | 't' :: rest =>
    match afterWord? "rue".toList rest with
    | some rest => (.bool true, some rest)
    | none => (.broken, none)
  | 'f' :: rest =>
    match afterWord? "alse".toList rest with
    | some rest => (.bool false, some rest)
    | none => (.broken, none)
  | '"' :: rest =>
    match readString rest with
    | some (some value, rest) => (.string value, some rest)
    | some (none, rest) => (.unreadable, some rest)
    | none => (.broken, none)
  | text =>
    match Numeral.read text with
    | some (.integer value, rest) => (.integer value, some rest)
    | some (.number value, rest) => (.number value, some rest)
    | some (.tooLarge, rest) => (.unreadable, some rest)
    | none => (.broken, none)

mutual

/-- The outline of the value at the start of a text.  The fuel bounds the steps, of which there
are at most two for each character. -/
def readValue : Nat → List Char → Outline × Option (List Char)
  | 0, _ => (.broken, none)
  | fuel + 1, text =>
    match skipBlanks text with
    | '[' :: rest =>
      let (items, rest) := readItems fuel true rest
      (.list items rest.isSome, rest)
    | '\x7b' :: rest =>
      let (members, rest) := readMembers fuel true rest
      (.table members rest.isSome, rest)
    | rest => readLeaf rest

/-- The items of a list after its opening bracket or, later on, after an item. -/
def readItems : Nat → Bool → List Char → List Outline × Option (List Char)
  | 0, _, _ => ([], none)
  | fuel + 1, first, text =>
    let item (text : List Char) :=
      match readValue fuel text with
      | (value, some rest) =>
        let (items, rest) := readItems fuel false rest
        (value :: items, rest)
      | (value, none) => ([value], none)
    match skipBlanks text with
    | [] => ([], none)
    | ']' :: rest => ([], some rest)
    | c :: rest =>
      if first then item (c :: rest)
      else if c = ',' then
        match skipBlanks rest with
        | [] => ([], none)
        | ']' :: _ => ([], none)
        | rest => item rest
      else ([], none)

/-- The members of a table after its opening brace or, later on, after a member. -/
def readMembers : Nat → Bool → List Char → List (Option String × Outline) × Option (List Char)
  | 0, _, _ => ([], none)
  | fuel + 1, first, text =>
    let member (text : List Char) : List (Option String × Outline) × Option (List Char) :=
      match text with
      | '"' :: rest =>
        match readString rest with
        | none => ([], none)
        | some (key, rest) =>
          match skipBlanks rest with
          | ':' :: rest =>
            match readValue fuel rest with
            | (value, some rest) =>
              let (members, rest) := readMembers fuel false rest
              ((key, value) :: members, rest)
            | (value, none) => ([(key, value)], none)
          | _ => ([(key, .broken)], none)
      | _ => ([], none)
    match skipBlanks text with
    | [] => ([], none)
    | '\x7d' :: rest => ([], some rest)
    | c :: rest =>
      if first then member (c :: rest)
      else if c = ',' then member (skipBlanks rest)
      else ([], none)

end

/-- The outline of a whole text, and whether nothing but blanks follows the value. -/
def outline (text : List Char) : Outline × Bool :=
  match readValue (2 * text.length + 2) text with
  | (value, some rest) => (value, (skipBlanks rest).isEmpty)
  | (value, none) => (value, false)

def dialect : Dialect where
  layout := Layout.json
  allowsSurplus := false
  skipsUnreadable := true

/-- Decodes a whole text; what follows the value is looked at last. -/
def decodeText {α : Type} (decode : Outline → Except DecodeError α) (text : String) :
    Except DecodeError α := do
  let (outline, clean) := outline text.toList
  let value ← decode outline
  if clean then return value else throw .malformed

end Json
end PlaneReport
