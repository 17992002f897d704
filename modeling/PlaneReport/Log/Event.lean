import PlaneReport.Level
import PlaneReport.Text.Quoted

/-!
# Events

What a run reports about itself, and the lines of the log in which that is written, in the colours of
a terminal or without any.
-/

namespace PlaneReport
namespace Log

structure Event where
  level : Level
  /-- The part of the program that the event is about. -/
  target : String
  message : String
  /-- Names and texts of further values. -/
  fields : List (String × String) := []
deriving DecidableEq, Repr

/-- A character of a message.  Those that would steer a terminal are named. -/
def escapeChar (c : Char) : List Char :=
  if c.toNat = 0x1b || c.toNat = 0x07 || c.toNat = 0x08 || c.toNat = 0x0c || c.toNat = 0x7f then
    ['\\', 'x'] ++ (if c.toNat < 16 then ['0'] else []) ++ Text.hexadecimal c.toNat
  else if 0x80 ≤ c.toNat && c.toNat ≤ 0x9f then
    ['\\', 'u', '\x7b'] ++ Text.hexadecimal c.toNat ++ ['\x7d']
  else [c]

def escaped (text : String) : String :=
  String.ofList (text.toList.flatMap escapeChar)

/-- The name of a level as it starts a line, always five characters wide. -/
def heading : Level → String
  | .off => "  OFF"
  | .error => "ERROR"
  | .warn => " WARN"
  | .info => " INFO"
  | .debug => "DEBUG"
  | .trace => "TRACE"

/-- A text in a style, which terminals know by a number. -/
def painted (style : Nat) (text : String) : String :=
  "\x1b[" ++ toString style ++ "m" ++ text ++ "\x1b[0m"

/-- The colour in which a level is named. -/
def colourOf : Level → Nat
  | .off => 31
  | .error => 31
  | .warn => 33
  | .info => 32
  | .debug => 34
  | .trace => 35

def dimmed : Nat := 2

def italic : Nat := 3

namespace Event

/-- Whether an event has a field of a given name; its message counts as one. -/
def hasField (event : Event) (name : String) : Bool :=
  name == "message" || event.fields.any fun field => field.1 == name

/-- The line of an event.  Only its message is escaped; the fields stand as they are.  If the log is
coloured, the level and the names of the fields are. -/
def line (coloured : Bool) (event : Event) : String :=
  let paint (style : Nat) (text : String) : String := if coloured then painted style text else text
  paint (colourOf event.level) (heading event.level) ++ " " ++ escaped event.message ++
    String.join (event.fields.map fun (name, value) =>
      " " ++ paint italic name ++ paint dimmed "=" ++ value) ++ "\n"

end Event
end Log
end PlaneReport
