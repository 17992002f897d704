import PlaneReport.Text.Terminal

/-!
# Commands

What a command line can ask for, and the ways in which it can be wrong.
-/

namespace PlaneReport

inductive Command where
  /-- Prints the report, with a count of decimal places of its own or that of the settings. -/
  | report (precision : Option UInt64)
  /-- Starts a settings file; `force` overwrites one that is there. -/
  | initialise (force : Bool)
  /-- Shows the settings. -/
  | settings
deriving DecidableEq, Repr

structure Invocation where
  command : Command
  /-- The settings file to load instead of that of the workspace. -/
  config : Option String
  json : Bool
  /-- Whether the log shows details. -/
  info : Bool
deriving DecidableEq, Repr

/-- Why a command line asks for nothing.  Arguments are named as they are shown. -/
inductive UsageError where
  | unexpectedArgument (text : String)
  | unknownCommand (name : String)
  | missingValue (argument : String)
  | invalidValue (value argument cause : String)
  | repeated (argument : String)
  | unexpectedValue (value argument : String)
deriving DecidableEq, Repr

/-- The message for a command line.  What the user wrote is shown without control sequences. -/
def UsageError.message : UsageError → String
  | .unexpectedArgument text => "error: unexpected argument '" ++ Text.plain text ++ "' found"
  | .unknownCommand name => "error: unrecognized subcommand '" ++ Text.plain name ++ "'"
  | .missingValue argument =>
    "error: a value is required for '" ++ argument ++ "' but none was supplied"
  | .invalidValue value argument cause =>
    "error: invalid value '" ++ Text.plain value ++ "' for '" ++ argument ++ "': " ++ cause
  | .repeated argument => "error: the argument '" ++ argument ++ "' cannot be used multiple times"
  | .unexpectedValue value argument =>
    "error: unexpected value '" ++ Text.plain value ++ "' for '" ++ argument ++
      "' found; no more were expected"

end PlaneReport
