import PlaneReport.Toml.Scalar

/-!
# Reading TOML texts

`Toml.outline?` gives the outline of a whole TOML text by the rules of an edition, with the members
of every table in the order in which the text first brings them.  A text that breaks a rule of the
format, such as defining a table twice, has no outline.
-/

namespace PlaneReport
namespace Toml

/-- How a table came to be: under its own header, on the way to another header, or on the way to
a dotted key. -/
inductive Origin where
  | header
  | parent
  | dotted
deriving DecidableEq

/-- A member of a table while the text is read. -/
inductive Node where
  | value (outline : Outline)
  | table (origin : Origin) (members : List (String × Node))
  /-- A list of tables that headers add to. -/
  | tables (items : List (List (String × Node)))
deriving Inhabited

/-- The members of a table while the text is read. -/
abbrev Members := List (String × Node)

namespace Members

/-- Puts a node in the place of the one that a key has. -/
def replace (key : String) (node : Node) (members : Members) : Members :=
  members.map fun (k, old) => if k = key then (k, node) else (k, old)

/-- Sets a value under a dotted key whose last part is `key`.  Tables that have a header of their own
are not entered, a list is entered at its last table, and a value is set only in a table that a
dotted key made. -/
def insert (key : String) (value : Outline) : List String → Members → Option Members
  | [], members =>
    match members.lookup key with
    | some _ => none
    | none => some (members ++ [(key, .value value)])
  | part :: path, members =>
    match members.lookup part with
    | none => do
      let inner ← insert key value path []
      return members ++ [(part, .table .dotted inner)]
    | some (.table origin inner) =>
      if origin = .header || (path.isEmpty && origin != .dotted) then none
      else do
        let inner ← insert key value path inner
        return members.replace part (.table origin inner)
    | some (.tables items) =>
      match items.getLast? with
      | none => none
      | some last =>
        if path.isEmpty then none
        else do
          let last ← insert key value path last
          return members.replace part (.tables (items.dropLast ++ [last]))
    | some (.value _) => none

/-- Applies a change to the table that a header names, entering the last table of a list. -/
def change (f : Members → Option Members) : List String → Members → Option Members
  | [], members => f members
  | part :: path, members =>
    match members.lookup part with
    | some (.table origin inner) => do
      let inner ← change f path inner
      return members.replace part (.table origin inner)
    | some (.tables items) =>
      match items.getLast? with
      | none => none
      | some last => do
        let last ← change f path last
        return members.replace part (.tables (items.dropLast ++ [last]))
    | _ => none

/-- Opens the parent tables of a header and applies a change to the innermost. -/
def descend (f : Members → Option Members) : List String → Members → Option Members
  | [], members => f members
  | part :: path, members =>
    match members.lookup part with
    | none => do
      let inner ← descend f path []
      return members ++ [(part, .table .parent inner)]
    | some (.table origin inner) => do
      let inner ← descend f path inner
      return members.replace part (.table origin inner)
    | some (.tables items) =>
      match items.getLast? with
      | none => none
      | some last => do
        let last ← descend f path last
        return members.replace part (.tables (items.dropLast ++ [last]))
    | some (.value _) => none

/-- Opens a table under its own header.  A table that already stands there because of a further
header moves behind its neighbours. -/
def openTable (key : String) (members : Members) : Option Members :=
  match members.lookup key with
  | none => some (members ++ [(key, .table .header [])])
  | some (.table .parent inner) =>
    some (members.filter (fun member => member.1 != key) ++ [(key, .table .header inner)])
  | some _ => none

/-- Opens one more table of a list. -/
def openItem (key : String) (members : Members) : Option Members :=
  match members.lookup key with
  | none => some (members ++ [(key, .tables [[]])])
  | some (.tables items) => some (members.replace key (.tables (items ++ [[]])))
  | some _ => none

end Members

mutual

def Node.outline : Node → Outline
  | .value outline => outline
  | .table _ members => .table (Members.outlines members) true
  | .tables items => .list (Members.outlineItems items) true

def Members.outlines : List (String × Node) → List (Option String × Outline)
  | [] => []
  | (key, node) :: rest => (some key, node.outline) :: Members.outlines rest

def Members.outlineItems : List (List (String × Node)) → List Outline
  | [] => []
  | members :: rest => .table (Members.outlines members) true :: Members.outlineItems rest

end

/-- The characters of keys without quotes. -/
def isKeyChar (c : Char) : Bool :=
  c.isAlphanum || c == '_' || c == '-'

/-- One part of a key. -/
def readKeyPart (edition : Edition) (text : List Char) : Option (String × List Char) :=
  match text with
  | '"' :: _ =>
    (readLineString edition text).map fun (key, rest) => (String.ofList key, rest)
  | '\'' :: _ =>
    (readLineString edition text).map fun (key, rest) => (String.ofList key, rest)
  | text =>
    let (key, rest) := text.span isKeyChar
    if key.isEmpty then none else some (String.ofList key, rest)

/-- The parts of a dotted key: the leading ones, the last one, and the rest of the text without
blanks at its front. -/
def readKeyParts (edition : Edition) : Nat → List Char → Option (List String × String × List Char)
  | 0, _ => none
  | fuel + 1, text => do
    let (part, rest) ← readKeyPart edition (skipBlanks text)
    match skipBlanks rest with
    | '.' :: rest => do
      let (path, key, rest) ← readKeyParts edition fuel rest
      return (part :: path, key, rest)
    | rest => return ([], part, rest)

/-- A dotted key with no more parts than it may have. -/
def readKey (edition : Edition) (text : List Char) : Option (List String × String × List Char) :=
  (readKeyParts edition text.length text).filter fun (path, _, _) =>
    edition.allowsParts (path.length + 1)

/-- Blanks, line ends and comments, which may stand between the values of a list. -/
def skipGaps (inComment : Bool) : List Char → Option (List Char)
  | [] => some []
  | '\r' :: '\n' :: rest => skipGaps false rest
  | c :: rest =>
    if c = '\n' then skipGaps false rest
    else if inComment then if Text.isControl c then none else skipGaps true rest
    else if isBlank c then skipGaps false rest
    else if c = '#' then skipGaps true rest
    else some (c :: rest)

/-- What may stand between the parts of an inline table: blanks, or all that may stand in a list. -/
def skipInline (edition : Edition) (text : List Char) : Option (List Char) :=
  if edition.hasLooseTables then skipGaps false text else some (skipBlanks text)

/-- The rest of a line after its content: blanks, perhaps a comment, and a line end or the end of
the text. -/
def afterLine? (text : List Char) : Option (List Char) :=
  let rest :=
    match skipBlanks text with
    | '#' :: comment => comment.dropWhile fun c => !Text.isControl c
    | rest => rest
  if rest.isEmpty then some [] else afterNewline? rest

mutual

/-- The value at the start of a text.  The fuel bounds the steps, of which there are at most two
for each character; `depth` bounds the nesting. -/
def readValue (edition : Edition) : Nat → Nat → List Char → Option (Outline × List Char)
  | 0, _, _ => none
  | fuel + 1, depth, text =>
    match text with
    | '"' :: _ => (readString edition text).map fun (s, rest) => (.string (String.ofList s), rest)
    | '\'' :: _ => (readString edition text).map fun (s, rest) => (.string (String.ofList s), rest)
    | '[' :: rest =>
      if depth = 0 then none
      else
        (readItems edition fuel (depth - 1) rest).map fun (items, rest) =>
          (.list items true, rest)
    | '\x7b' :: rest =>
      if depth = 0 then none
      else
        match skipInline edition rest with
        | none => none
        | some ('\x7d' :: rest) => some (.table [] true, rest)
        | some rest =>
          (readPairs edition fuel (depth - 1) [] rest).map fun (members, rest) =>
            (.table (Members.outlines members) true, rest)
    | text => readScalar edition text

/-- The items of a list up to its closing bracket. -/
def readItems (edition : Edition) : Nat → Nat → List Char → Option (List Outline × List Char)
  | 0, _, _ => none
  | fuel + 1, depth, text =>
    match skipGaps false text with
    | none => none
    | some (']' :: rest) => some ([], rest)
    | some text =>
      match readValue edition fuel depth text with
      | none => none
      | some (item, rest) =>
        match skipGaps false rest with
        | some (']' :: rest) => some ([item], rest)
        | some (',' :: rest) =>
          (readItems edition fuel depth rest).map fun (items, rest) => (item :: items, rest)
        | _ => none

/-- The pairs of an inline table, of which there is one more at least, up to its closing brace. -/
def readPairs (edition : Edition) :
    Nat → Nat → Members → List Char → Option (Members × List Char)
  | 0, _, _, _ => none
  | fuel + 1, depth, members, text => do
    let (path, key, rest) ← readKey edition text
    let rest ← expect? '=' (← skipInline edition rest)
    let (value, rest) ← readValue edition fuel depth (← skipInline edition rest)
    let members ← Members.insert key value path members
    match ← skipInline edition rest with
    | '\x7d' :: rest => return (members, rest)
    | ',' :: rest =>
      match ← skipInline edition rest with
      | '\x7d' :: rest => if edition.hasLooseTables then return (members, rest) else none
      | rest => readPairs edition fuel depth members rest
    | _ => none

end

/-- A header after its opening bracket: its path, and the text after the line. -/
def readHeader (edition : Edition) (text : List Char) :
    Option (Bool × List String × String × List Char) :=
  match text with
  | '[' :: rest => do
    let (path, key, rest) ← readKey edition rest
    let rest ← expect? ']' rest
    let rest ← expect? ']' rest
    let rest ← afterLine? rest
    return (true, path, key, rest)
  | rest => do
    let (path, key, rest) ← readKey edition rest
    let rest ← expect? ']' rest
    let rest ← afterLine? rest
    return (false, path, key, rest)

/-- Reads line by line; `header` is the path of the last header. -/
def readLines (edition : Edition) : Nat → List String → Members → List Char → Option Members
  | 0, _, _, _ => none
  | fuel + 1, header, members, text =>
    match skipBlanks text with
    | [] => some members
    | '[' :: rest =>
      match readHeader edition rest with
      | none => none
      | some (isItem, path, key, rest) =>
        let start := if isItem then Members.openItem key else Members.openTable key
        match Members.descend start path members with
        | none => none
        | some members => readLines edition fuel (path ++ [key]) members rest
    | c :: rest =>
      if c = '#' || (afterNewline? (c :: rest)).isSome then
        match afterLine? (c :: rest) with
        | none => none
        | some rest => readLines edition fuel header members rest
      else
        match readKey edition (c :: rest) with
        | some (path, key, '=' :: rest) =>
          match readValue edition (2 * rest.length + 2) edition.depth (skipBlanks rest) with
          | none => none
          | some (value, rest) =>
            match Members.change (Members.insert key value path) header members with
            | none => none
            | some members =>
              match afterLine? rest with
              | none => none
              | some rest => readLines edition fuel header members rest
        | _ => none

/-- A text without a byte order mark at its front. -/
def dropMark : List Char → List Char
  | [] => []
  | c :: rest => if c.toNat = 0xfeff then rest else c :: rest

/-- The outline of a whole text. -/
def outline? (edition : Edition) (text : String) : Option Outline :=
  let chars := dropMark text.toList
  (readLines edition (chars.length + 1) [] [] chars).map fun members =>
    .table (Members.outlines members) true

def dialect : Dialect where
  layout := Layout.plainFractional
  allowsSurplus := true
  skipsUnreadable := false

/-- Decodes a whole text; it must be well formed up to its end. -/
def decodeText {α : Type} (decode : Outline → Except DecodeError α) (text : String) :
    Except DecodeError α :=
  match outline? .v1_1 text with
  | none => .error .malformed
  | some outline => decode outline

/-- Decodes a whole text as a document, in which every number must be in range, also one of no
interest. -/
def decodeDocument {α : Type} (decode : Outline → Except DecodeError α) (text : String) :
    Except DecodeError α :=
  match (outline? .v1_1 text).filter Outline.isInRange with
  | none => .error .malformed
  | some outline => decode outline

end Toml
end PlaneReport
