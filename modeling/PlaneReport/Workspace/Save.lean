import PlaneReport.Settings.Toml
import PlaneReport.Workspace.Load

/-!
# Saving settings

A settings file is written with all directories above it, either from settings or, to start with,
from a template that explains itself.
-/

namespace PlaneReport

namespace FileTree

/-- Writes a text to a file after its directories; a failure names the path that it concerns. -/
def writeBelow (tree : FileTree) (directory? : Option String) (path text : String) :
    Except Error Unit × FileTree :=
  let (created, tree) :=
    match directory? with
    | none => (Except.ok (), tree)
    | some directory =>
      let (result, tree) := tree.createDirectories directory
      (result.mapError (Error.fileWrite directory), tree)
  match created with
  | .error e => (.error e, tree)
  | .ok () =>
    match tree.write path text.toUTF8 with
    | .ok tree => (.ok (), tree)
    | .error e => (.error (.fileWrite path e), tree)

end FileTree

namespace Settings

/-- Saves settings in a file. -/
def save (settings : Settings) (tree : FileTree) (path : String) : Except Error Unit × FileTree :=
  tree.writeBelow (Path.parent? path) path settings.tomlText

/-- The settings file that a workspace starts with. -/
def template : String :=
  Text.ofLines
    ["# planar configuration file",
      "",
      "# Version of the configuration schema",
      "version = 1",
      "",
      "[inputs]",
      "# Operands for the sum line (64-bit signed integers).",
      "# A sum outside the i64 range panics in debug builds and wraps in release builds.",
      "a = 1",
      "b = 2",
      "",
      "# Endpoints for the distance line",
      "from = \x7b x = 0.0, y = 0.0 \x7d",
      "to = \x7b x = 3.0, y = 4.0 \x7d",
      "",
      "[output]",
      "# Decimal places for the distance. Leave unset for the shortest",
      "# round-trip form (5.0); 6 gives printf-style output (5.000000).",
      "# precision = 6",
      "",
      "[logging]",
      "# Default log level (error, warn, info, debug, trace).",
      "# RUST_LOG takes precedence when set.",
      "level = \"warn\""]

/-- Starts a settings file in a directory.  One that is there is overwritten only on demand.  The
result is its path. -/
def initialise (tree : FileTree) (directory : String) (force : Bool) :
    Except Error String × FileTree :=
  let path := FileTree.settingsPath directory
  if !force && tree.exists? path then
    (.error (.config (path ++ " already exists. Use --force to overwrite")), tree)
  else
    let (written, tree) :=
      tree.writeBelow (some (Path.join directory FileTree.settingsDirectory)) path template
    (written.map fun () => path, tree)

/-- Starts a settings file in the current directory. -/
def initialiseHere (tree : FileTree) (force : Bool) : Except Error String × FileTree :=
  match tree.currentPath? with
  | some current => initialise tree current force
  | none => (.error (.general IoError.noSuchEntry.message), tree)

end Settings
end PlaneReport
