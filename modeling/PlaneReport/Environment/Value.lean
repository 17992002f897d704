import PlaneReport.Json.Reader
import PlaneReport.Layer.Value
import PlaneReport.Level
import PlaneReport.Sum
import PlaneReport.Text.Blank

/-!
# Values of environment variables

A variable may spell a truth value, a number, a quoted text, a list in brackets or a table in
braces.  Whatever is not spelled so, up to its end, stands for itself.
-/

namespace PlaneReport
namespace Environment

open Layer (Value)
open Power

def skipBlanks (text : List Char) : List Char :=
  text.dropWhile Text.isAsciiBlank

/-- The characters that end a word. -/
def isSeparator (c : Char) : Bool :=
  c == ',' || c == '\x7b' || c == '\x7d' || c == '[' || c == ']'

def isKeyChar (c : Char) : Bool :=
  c.isAlphanum || c == '_' || c == '-'

/-- The whole number that digits after an optional sign denote, within 64 bits. -/
def integerOfText? (text : List Char) : Option Int :=
  let value? : Option Int :=
    match text with
    | '-' :: rest =>
      if rest.head? == some '+' then none
      else (Level.numberOfText? rest).map fun n => -(n : Int)
    | rest => (Level.numberOfText? rest).map fun n => (n : Int)
  value?.filter IntegerKind.word.holds

/-- What a word denotes: a number with a point, a whole number, or itself. -/
def word (text : List Char) : Value :=
  let number? : Option Binary.Double :=
    if text.contains '.' then Binary.Number.ofText? text else none
  match number? with
  | some x => .number .environment x
  | none =>
    match (Level.numberOfText? text).filter fun (n : Nat) => decide (n < 2 ^ (64 : Nat)) with
    | some n => .integer .environment false n
    | none =>
      match integerOfText? text with
      | some n => .integer .environment true n
      | none => .string .environment (String.ofList text)

/-- The character that `count` hexadecimal digits name, and the rest. -/
def readCode (count : Nat) (text : List Char) : Option (Char × List Char) := do
  let digits := text.take count
  if digits.length < count then none
  else
    let values ← digits.mapM Json.hexValue?
    let code := values.foldl (fun code digit => 16 * code + digit) 0
    if code.isValidChar then some (Char.ofNat code, text.drop count) else none

/-- The character that an escape names, and the rest of the text after it. -/
def readEscape (text : List Char) : Option (Char × List Char) :=
  match text with
  | '"' :: rest => some ('"', rest)
  | '\\' :: rest => some ('\\', rest)
  | 'b' :: rest => some ('\x08', rest)
  | 'f' :: rest => some ('\x0c', rest)
  | 'n' :: rest => some ('\n', rest)
  | 'r' :: rest => some ('\r', rest)
  | 't' :: rest => some ('\t', rest)
  | 'u' :: rest => readCode 4 rest
  | 'U' :: rest => readCode 8 rest
  | _ => none

/-- A text after its opening quote.  The fuel bounds the characters. -/
def readQuoted : Nat → List Char → Option (List Char × List Char)
  | 0, _ => none
  | fuel + 1, text =>
    match text with
    | [] => none
    | '"' :: rest => some ([], rest)
    | '\\' :: rest => do
      let (c, rest) ← readEscape rest
      let (chars, rest) ← readQuoted fuel rest
      return (c :: chars, rest)
    | c :: rest =>
      if Text.isControl c then none
      else do
        let (chars, rest) ← readQuoted fuel rest
        return (c :: chars, rest)

/-- A key in a table: a word or a quoted text. -/
def readKey (text : List Char) : Option (String × List Char) :=
  match text with
  | '"' :: rest =>
    (readQuoted (rest.length + 1) rest).map fun (key, rest) => (String.ofList key, rest)
  | text =>
    let (key, rest) := text.span isKeyChar
    if key.isEmpty then none else some (String.ofList key, rest)

mutual

/-- The value at the start of a text, with the blanks around it.  The fuel bounds the steps, of
which there are at most two for each character. -/
def readValue : Nat → List Char → Option (Value × List Char)
  | 0, _ => none
  | fuel + 1, text =>
    (readCore fuel (skipBlanks text)).map fun (value, rest) => (value, skipBlanks rest)

/-- A value without blanks around it. -/
def readCore : Nat → List Char → Option (Value × List Char)
  | 0, _ => none
  | fuel + 1, text =>
    match text with
    | 't' :: 'r' :: 'u' :: 'e' :: rest => some (.bool .environment true, rest)
    | 'f' :: 'a' :: 'l' :: 's' :: 'e' :: rest => some (.bool .environment false, rest)
    | '\x7b' :: rest =>
      (readPairs fuel [] rest).map fun (members, rest) => (.table .environment members, rest)
    | '[' :: rest =>
      (readItems fuel rest).map fun (items, rest) => (.list .environment items, rest)
    | '"' :: rest =>
      (readQuoted (rest.length + 1) rest).map fun (chars, rest) =>
        (.string .environment (String.ofList chars), rest)
    | '\'' :: c :: '\'' :: rest => some (.string .environment (String.singleton c), rest)
    | '\'' :: _ => none
    | text =>
      let (run, rest) := text.span fun c => !isSeparator c
      some (word (Text.trim run), rest)

/-- The items of a list up to its closing bracket. -/
def readItems : Nat → List Char → Option (List Value × List Char)
  | 0, _ => none
  | fuel + 1, text =>
    match text with
    | ']' :: rest => some ([], rest)
    | text => do
      let (item, rest) ← readValue fuel text
      match rest with
      | ',' :: rest =>
        let (items, rest) ← readItems fuel rest
        return (item :: items, rest)
      | ']' :: rest => return ([item], rest)
      | _ => none

/-- The pairs of a table up to its closing brace; of two with one key the later counts. -/
def readPairs :
    Nat → List (String × Value) → List Char → Option (List (String × Value) × List Char)
  | 0, _, _ => none
  | fuel + 1, members, text =>
    match text with
    | '\x7d' :: rest => some (members, rest)
    | text => do
      let (key, rest) ← readKey (skipBlanks text)
      match skipBlanks rest with
      | '=' :: rest =>
        let (value, rest) ← readValue fuel rest
        let members := Entries.assign key value members
        match rest with
        | ',' :: rest => readPairs fuel members rest
        | '\x7d' :: rest => return (members, rest)
        | _ => none
      | _ => none

end

/-- The value of a variable. -/
def valueOfText (text : String) : Value :=
  match readValue (2 * text.length + 3) text.toList with
  | some (value, []) => value
  | _ => .string .environment text

end Environment
end PlaneReport
