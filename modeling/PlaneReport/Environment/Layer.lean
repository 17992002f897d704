import PlaneReport.Environment.Value

/-!
# The environment as a layer

Variables whose names start with `PLANAR_` in any case set values; two underscores in a name part
one key from the next.  Other variables are of no concern.
-/

namespace PlaneReport

/-- Names and values of variables, in the order in which they are looked through. -/
abbrev Environment := List (String × String)

namespace Environment

open Layer (Value)

def nameStart : List Char := "PLANAR_".toList

/-- Two underscores part keys as a point does. -/
def pointed : List Char → List Char
  | '_' :: '_' :: rest => '.' :: pointed rest
  | c :: rest => c :: pointed rest
  | [] => []

/-- The path of keys that a name leads to; every key must have a letter.

Names are lowered as a whole, of which only the ASCII letters matter here.  Of all other letters only
the Kelvin sign is lowered to an ASCII letter by itself, to `k`, which no key of the settings has; a
dotted capital `i` leaves its dot behind; and none is lowered to a blank, a point or an underscore.
So a name with such a letter leads to no key of the settings, lowered or not. -/
def path? (name : String) : Option (List String) :=
  let name := Text.trim name.toList
  if Text.sameWord (name.take nameStart.length) nameStart then
    let rest := (name.drop nameStart.length).map Text.lowerAscii
    let keys := Text.splitAt '.' (Text.trim (pointed rest))
    if keys.any List.isEmpty then none else some (keys.map String.ofList)
  else none

/-- The value that one variable sets, under its path. -/
def setting? (entry : String × String) : Option Value :=
  (path? entry.1).map (Value.nest .environment (valueOfText entry.2))

/-- The layer of all variables; a later one is laid over those before it. -/
def layer (environment : Environment) : Value :=
  (environment.filterMap setting?).foldl Value.merge (.table .environment [])

end Environment

end PlaneReport
