import PlaneReport.IoError
import PlaneReport.Point

/-!
# Errors

What can go wrong for a user: an unsuitable coordinate, an unusable configuration, a file or an
output that cannot be written, or anything else.  Each error has a message, a stable code for
programs, an exit code for shells, and hints for people.
-/

namespace PlaneReport

/-- How a run ends, as a number for the shell. -/
inductive ExitCode where
  | success
  | generalError
  | invalidInput
  | ioError
  | configError
deriving DecidableEq, Repr

def ExitCode.value : ExitCode → Nat
  | .success => 0
  | .generalError => 1
  | .invalidInput => 4
  | .ioError => 5
  | .configError => 6

inductive Error where
  | geometry (cause : NonFiniteCoordinate)
  | config (reason : String)
  | fileWrite (path : String) (cause : IoError)
  | output (cause : IoError)
  | general (text : String)
deriving DecidableEq

namespace Error

def message : Error → String
  | .geometry cause => cause.message
  | .config reason => "Invalid configuration: " ++ reason
  | .fileWrite path cause => "Failed to write file '" ++ path ++ "': " ++ cause.message
  | .output cause => "Failed to write output: " ++ cause.message
  | .general text => text

/-- The code by which programs tell errors apart. -/
def statusCode : Error → String
  | .geometry _ => "NON_FINITE_COORDINATE"
  | .config _ => "CONFIG_ERROR"
  | .fileWrite _ _ => "FILE_WRITE_ERROR"
  | .output _ => "OUTPUT_ERROR"
  | .general _ => "GENERAL_ERROR"

def exitCode : Error → ExitCode
  | .geometry _ => .invalidInput
  | .config _ => .configError
  | .fileWrite _ _ => .ioError
  | .output _ => .ioError
  | .general _ => .generalError

/-- What the user may try. -/
def suggestions : Error → List String
  | .geometry _ =>
    ["Point coordinates must be finite numbers (no NaN or infinity)",
      "Check the [inputs] table in .planar/settings.toml"]
  | .config _ =>
    ["Run 'planar init --force' to regenerate the configuration",
      "Check PLANAR_* environment variables for typos"]
  | .fileWrite _ _ => ["Check that you have write permissions in the current directory"]
  | .output _ => []
  | .general _ => []

end Error
end PlaneReport
