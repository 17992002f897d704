import PlaneReport.Text.Bytes
import PlaneReport.Text.Quoted

/-!
# Faults

A fault ends a computation that has no result to give: it is neither a value nor an error that a
caller could report and go on from.
-/

namespace PlaneReport

inductive Fault where
  /-- A sum left the range of its integers. -/
  | sumOverflow
  /-- More decimal places were asked for than a number can be set with. -/
  | tooManyPlaces
  /-- A part of a text would start inside a character. -/
  | startInside (spot : Text.Inside)
  /-- A part of a text would end inside a character. -/
  | endInside (spot : Text.Inside)
deriving DecidableEq, Repr

namespace Fault

/-- A place inside a character, for messages. -/
def placeMessage (spot : Text.Inside) : String :=
  "byte index " ++ toString spot.place ++ " is not a char boundary; it is inside '" ++
    String.ofList (Text.escapeChar '\'' spot.character) ++ "' (bytes " ++ toString spot.start ++
    ".." ++ toString (spot.start + spot.character.utf8Size) ++ " of string)"

def message : Fault → String
  | .sumOverflow => "attempt to add with overflow"
  | .tooManyPlaces => "Formatting argument out of range"
  | .startInside spot => "start " ++ placeMessage spot
  | .endInside spot => "end " ++ placeMessage spot

end Fault
end PlaneReport
