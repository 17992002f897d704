import PlaneReport.Environment.Layer
import PlaneReport.FileTree
import PlaneReport.Layer.Decode
import PlaneReport.Toml.Reader

/-!
# Loading settings

Settings are the standard ones, overlaid with a file and then with the environment.  The file is
named, or it is the nearest settings file of a workspace, on the way from a directory to the root.
-/

namespace PlaneReport

/-- A layer that cannot be read, or merged layers that are no settings. -/
inductive LoadError where
  /-- The text of the file is not well formed. -/
  | malformed (shown text : String)
  /-- The file is no text. -/
  | notText (shown : String)
  | unsuitable (defect : Layer.Defect)
deriving DecidableEq

/-- The message of an error.  What a parser has to say of a text that is not well formed is left to
`diagnosis`. -/
def LoadError.message (diagnosis : String → String) : LoadError → String
  | .malformed shown text => diagnosis text ++ " in " ++ shown ++ " TOML file"
  | .notText shown => "stream did not contain valid UTF-8\n in " ++ shown ++ " TOML file"
  | .unsuitable defect => defect.message

def LoadError.toError (diagnosis : String → String) (e : LoadError) : Error :=
  .config (e.message diagnosis)

namespace Layer

/-- A layer without values. -/
def empty (source : Source) : Value :=
  .table source []

/-- The layer of a file's content. -/
def ofContent (shown : String) (content : ByteArray) : Except LoadError Value :=
  match String.fromUTF8? content with
  | none => .error (.notText shown)
  | some text =>
    match (Toml.outline? .v1_0 text).bind (Value.ofOutline? (.file shown)) with
    | none => .error (.malformed shown text)
    | some value => .ok value

end Layer

namespace FileTree

/-- The file that a path names: an absolute path only itself, a relative one from the current
directory or from the nearest directory above it. -/
def lookUp? (tree : FileTree) (path : String) : Option String :=
  let candidates :=
    if Path.isAbsolute path then [path]
    else
      match tree.currentPath? with
      | some current => (Path.ancestors current).map fun directory => Path.join directory path
      | none => []
  candidates.find? tree.isFile

/-- The layer of the file that a path names, or an empty one if there is no such file. -/
def fileLayer (tree : FileTree) (path : String) : Except LoadError Layer.Value :=
  match tree.lookUp? path with
  | none => .ok (Layer.empty (.file path))
  | some found =>
    match tree.read? found with
    | none => .ok (Layer.empty (.file path))
    | some content => Layer.ofContent (Path.shown tree.currentPath? found) content

/-- The directory that holds the settings of a workspace. -/
def settingsDirectory : String := ".planar"

/-- The path of the settings file of a directory. -/
def settingsPath (directory : String) : String :=
  Path.join (Path.join directory settingsDirectory) "settings.toml"

/-- The nearest settings file on the way up from a path. -/
def findSettings? (tree : FileTree) (start : String) : Option String :=
  ((Path.ancestors start).map settingsPath).find? tree.isFile

/-- The nearest settings file on the way up from the current directory. -/
def workspaceSettings? (tree : FileTree) : Option String :=
  tree.currentPath?.bind tree.findSettings?

end FileTree

namespace Settings

/-- The settings that merged layers amount to. -/
def ofLayers (file environment : Layer.Value) : Except LoadError Settings :=
  (((standard.layer.merge file).merge environment).toSettings).mapError .unsuitable

/-- Loads settings with the file that a path names. -/
def loadFrom (tree : FileTree) (environment : Environment) (path : String) :
    Except LoadError Settings := do
  ofLayers (← tree.fileLayer path) (environment.layer)

/-- Loads settings with the file of the workspace. -/
def load (tree : FileTree) (environment : Environment) : Except LoadError Settings :=
  loadFrom tree environment (tree.workspaceSettings?.getD (FileTree.settingsPath ""))

end Settings
end PlaneReport
