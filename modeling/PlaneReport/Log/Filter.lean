import PlaneReport.Log.Directive

/-!
# Filters

A filter is a list of directives.  Of those that concern an event the most specific decides whether
the log shows it, and of two that are equally specific the later.
-/

namespace PlaneReport
namespace Log

abbrev Filter := List Directive

namespace Filter

/-- The filter that lets all events up to a level through. -/
def upTo (level : Level) : Filter := [{ level := level }]

/-- What a text of directives comes to. -/
structure Reading where
  /-- The lines that complain about pieces of the text which are no directives. -/
  complaints : List String
  filter : Except Fault Filter

/-- The line that complains about a piece of a text. -/
def complaint (piece : List Char) (why : String) : String :=
  "ignoring `" ++ String.ofList piece ++ "`: " ++ why ++ "\n"

/-- Reads pieces in turn, up to the first that cannot be cut; `filter` holds the directives so
far. -/
def readPieces (objection? : String → Option String) (filter : Filter) :
    List (List Char) → Reading
  | [] => ⟨[], .ok filter⟩
  | piece :: rest =>
    match Directive.ofText objection? piece with
    | .ok directive => readPieces objection? (filter ++ [directive]) rest
    | .error (.fault fault) => ⟨[], .error fault⟩
    | .error (.refused why) =>
      let reading := readPieces objection? filter rest
      { reading with complaints := complaint piece why :: reading.complaints }

/-- Reads the directives between the commas of a text; without any only errors pass. -/
def ofText (objection? : String → Option String) (text : String) : Reading :=
  let pieces := (Text.splitAt ',' text.toList).filter fun piece => !piece.isEmpty
  let reading := readPieces objection? [] pieces
  { reading with
    filter := reading.filter.map fun filter => if filter.isEmpty then upTo .error else filter }

/-- The directive that decides about an event. -/
def deciding? (filter : Filter) (event : Event) : Option Directive :=
  (filter.filter fun directive => directive.concerns event).foldl
    (fun best? directive =>
      match best? with
      | none => some directive
      | some best =>
        if best.compareSpecific directive = .gt then some best else some directive)
    none

def admits (filter : Filter) (event : Event) : Bool :=
  match filter.deciding? event with
  | none => false
  | some directive => event.level.rank ≤ directive.level.rank

end Filter
end Log
end PlaneReport
