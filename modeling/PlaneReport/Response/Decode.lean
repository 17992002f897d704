import PlaneReport.Settings.Decode

/-!
# Reading response envelopes

A response is decoded from a JSON text.  Its payload may be any JSON value, with the members of
objects in ascending order of their keys.
-/

namespace PlaneReport

namespace Json

/-- Adds a member to members in ascending order of keys; a later value for a key replaces an
earlier one. -/
def insertMember (key : String) (value : Json) : List (String × Json) → List (String × Json)
  | [] => [(key, value)]
  | (k, v) :: rest =>
    if key = k then (key, value) :: rest
    else if key < k then (key, value) :: (k, v) :: rest
    else (k, v) :: insertMember key value rest

mutual

/-- The JSON value of an outline that does not break off.  At most `depth` containers may stand
inside one another. -/
def ofOutline? (depth : Nat) : Outline → Option Json
  | .null => some .null
  | .bool value => some (.bool value)
  | .integer value => some (.integer value)
  | .number value => some (.number value)
  | .string value => some (.string value)
  | .unreadable => none
  | .overflow _ => none
  | .broken => none
  | .list items closed =>
    if closed && 0 < depth then (ofItems? (depth - 1) items).map .array else none
  | .table members closed =>
    if closed && 0 < depth then (ofMembers? (depth - 1) [] members).map .object else none

def ofItems? (depth : Nat) : List Outline → Option (List Json)
  | [] => some []
  | item :: rest =>
    match ofOutline? depth item, ofItems? depth rest with
    | some value, some values => some (value :: values)
    | _, _ => none

def ofMembers? (depth : Nat) (sorted : List (String × Json)) :
    List (Option String × Outline) → Option (List (String × Json))
  | [] => some sorted
  | (none, _) :: _ => none
  | (some key, value) :: rest =>
    match ofOutline? depth value with
    | some value => ofMembers? depth (insertMember key value sorted) rest
    | none => none

end

/-- How many containers may stand inside one another in a text. -/
def maxDepth : Nat := 127

end Json

namespace Response

/-- A response as far as it has been read. -/
structure Draft where
  status : Option String := none
  code : Option String := none
  message : Option String := none
  data : Option Json := none
  suggestions : Option (List String) := none
  exitCode : Option UInt8 := none
  origin : Option ResponseMeta := none

/-- The origin as far as it has been read. -/
structure DraftMeta where
  version : Option String := none
  timestamp : Option String := none

def suggestionsShape (dialect : Dialect) : Shape (Option (List String)) (List String) where
  expected := "struct ErrorDetails"
  fields :=
    [⟨"suggestions", fun value _ => (value.toList dialect (Outline.toText dialect)).map some, true⟩]
  start := none
  finish := Shape.need "suggestions"

def metaShape (dialect : Dialect) : Shape DraftMeta ResponseMeta where
  expected := "struct ResponseMeta"
  fields :=
    [⟨"version", fun value draft =>
        (value.toText dialect).map fun version => { draft with version := some version }, true⟩,
      ⟨"timestamp", fun value draft =>
        (value.toOptional (Outline.toText dialect)).map fun timestamp =>
          { draft with timestamp := timestamp }, true⟩]
  start := {}
  finish draft := do
    let version ← Shape.need "version" draft.version
    return ⟨version, draft.timestamp⟩

/-- Integers of 8 bits without sign. -/
def byteKind : IntegerKind := ⟨8, false⟩

/-- The payload stands inside the response, which is a container itself. -/
def payload (outline : Outline) : Except DecodeError Json :=
  match Json.ofOutline? (Json.maxDepth - 1) outline with
  | some value => .ok value
  | none => .error .malformed

def shape (dialect : Dialect) : Shape Draft Response where
  expected := "struct JsonResponse"
  fields :=
    [⟨"status", fun value draft =>
        (value.toText dialect).map fun status => { draft with status := some status }, true⟩,
      ⟨"code", fun value draft =>
        (value.toText dialect).map fun code => { draft with code := some code }, true⟩,
      ⟨"message", fun value draft =>
        (value.toText dialect).map fun message => { draft with message := some message }, true⟩,
      ⟨"data", fun value draft =>
        (value.toOptional payload).map fun data => { draft with data := data }, true⟩,
      ⟨"error", fun value draft =>
        (value.toOptional ((suggestionsShape dialect).decode dialect)).map fun suggestions =>
          { draft with suggestions := suggestions }, true⟩,
      ⟨"exit_code", fun value draft =>
        (value.toInteger dialect byteKind "u8").map fun code =>
          { draft with exitCode := some (UInt8.ofNat code.toNat) }, true⟩,
      ⟨"meta", fun value draft =>
        (value.toOptional ((metaShape dialect).decode dialect)).map fun origin =>
          { draft with origin := origin }, true⟩]
  start := {}
  finish draft := do
    let status ← Shape.need "status" draft.status
    let code ← Shape.need "code" draft.code
    let message ← Shape.need "message" draft.message
    let exitCode ← Shape.need "exit_code" draft.exitCode
    return ⟨status, code, message, draft.data, draft.suggestions, exitCode, draft.origin⟩

def decode (dialect : Dialect) : Outline → Except DecodeError Response :=
  (shape dialect).decode dialect

/-- The response that a JSON text denotes. -/
def ofText (source : String) : Except DecodeError Response :=
  Json.decodeText (decode Json.dialect) source

end Response
end PlaneReport
