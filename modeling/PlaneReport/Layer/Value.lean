import PlaneReport.Entries
import PlaneReport.Outline

/-!
# Layered values

Settings come in layers, and each value remembers the layer it is from.  Merging lays a later value
over an earlier one: tables are merged member by member, and everything else is replaced.
-/

namespace PlaneReport
namespace Layer

open Binary Power

/-- Where the values of a layer come from. -/
inductive Source where
  | standard
  /-- A file, by the path that messages show for it. -/
  | file (path : String)
  | environment
deriving DecidableEq, Repr

inductive Value where
  | bool (source : Source) (value : Bool)
  /-- An integer, together with whether it was read as one that may be negative. -/
  | integer (source : Source) (signed : Bool) (value : Int)
  | number (source : Source) (value : Double)
  | string (source : Source) (value : String)
  | list (source : Source) (items : List Value)
  | table (source : Source) (members : List (String × Value))

namespace Value

def source : Value → Source
  | .bool source _ => source
  | .integer source _ _ => source
  | .number source _ => source
  | .string source _ => source
  | .list source _ => source
  | .table source _ => source

mutual

/-- Lays a later value over an earlier one. -/
def merge (earlier : Value) : Value → Value
  | .table source members =>
    match earlier with
    | .table _ old => .table source (mergeMembers old members)
    | _ => .table source members
  | later => later

/-- Lays the members of a later table over those of an earlier one. -/
def mergeMembers (old : List (String × Value)) : List (String × Value) → List (String × Value)
  | [] => old
  | (key, value) :: rest =>
    match old.lookup key with
    | some earlier => mergeMembers (Entries.assign key (merge earlier value) old) rest
    | none => mergeMembers (Entries.assign key value old) rest

end

/-- A value under a path of keys, as nested tables. -/
def nest (source : Source) (value : Value) : List String → Value
  | [] => value
  | key :: path => .table source [(key, nest source value path)]

end Value

mutual

/-- The value of an outline from a file.  An integer beyond 64 bits and a value that cannot be read
have none; a number below the finite ones is the negative infinity. -/
def Value.ofOutline? (source : Source) : Outline → Option Value
  | .bool value => some (.bool source value)
  | .integer n =>
    if -(2 ^ (63 : Nat) : Int) ≤ n ∧ n < 2 ^ (63 : Nat) then some (.integer source true n) else none
  | .number x => some (.number source x)
  | .overflow true => some (.number source (.infinite true))
  | .string s => some (.string source s)
  | .list items true => (itemsOfOutlines? source items).map (.list source ·)
  | .table members true => (membersOfOutlines? source members).map (.table source ·)
  | _ => none

def itemsOfOutlines? (source : Source) : List Outline → Option (List Value)
  | [] => some []
  | item :: rest =>
    match Value.ofOutline? source item, itemsOfOutlines? source rest with
    | some value, some values => some (value :: values)
    | _, _ => none

def membersOfOutlines? (source : Source) :
    List (Option String × Outline) → Option (List (String × Value))
  | [] => some []
  | (some key, item) :: rest =>
    match Value.ofOutline? source item, membersOfOutlines? source rest with
    | some value, some values => some ((key, value) :: values)
    | _, _ => none
  | (none, _) :: _ => none

end

end Layer
end PlaneReport
