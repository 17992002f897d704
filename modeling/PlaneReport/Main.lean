import PlaneReport.Clock
import PlaneReport.Run
import Std.Time.DateTime.Timestamp

/-!
# The program

Gathers what a run depends on, carries it out, and does to the real files and streams what the run
did to the modelled ones.
-/

namespace PlaneReport
namespace Program

/-- A failure by the code of the system, as far as it has one. -/
def ioErrorOf : IO.Error → IoError
  | .alreadyExists _ code _ => .system code.toNat
  | .otherError code _ => .system code.toNat
  | .resourceBusy code _ => .system code.toNat
  | .resourceVanished code _ => .system code.toNat
  | .unsupportedOperation code _ => .system code.toNat
  | .hardwareFault code _ => .system code.toNat
  | .unsatisfiedConstraints code _ => .system code.toNat
  | .illegalOperation code _ => .system code.toNat
  | .protocolError code _ => .system code.toNat
  | .timeExpired code _ => .system code.toNat
  | .interrupted _ code _ => .system code.toNat
  | .noFileOrDirectory _ code _ => .system code.toNat
  | .invalidArgument _ code _ => .system code.toNat
  | .permissionDenied _ code _ => .system code.toNat
  | .resourceExhausted _ code _ => .system code.toNat
  | .inappropriateType _ code _ => .system code.toNat
  | .noSuchThing _ code _ => .system code.toNat
  | .unexpectedEof => .plain .unexpectedEof
  | .userError message => .described .other message

/-- The variables in the block of memory that the system hands to a program. -/
def environmentOf (block : List Char) : Environment :=
  (Text.splitAt '\x00' block).filterMap fun entry =>
    match entry.span fun c => c != '=' with
    | (name, _ :: value) => some (String.ofList name, String.ofList value)
    | _ => none

/-- The location of an absolute path, as far as it can be told from the path alone. -/
def locationOf (path : String) : Location :=
  (Path.pieces path).foldl
    (fun location piece =>
      if piece = "" ∨ piece = "." then location
      else if piece = ".." then location.dropLast
      else location ++ [piece])
    []

/-- Adds a node, with all directories above it. -/
def plant (root : Node) (location : Location) (node : Node) : Node :=
  let above := (List.range location.length).map fun count => location.take count
  let root := above.foldl
    (fun root directory =>
      if (root.get? directory).isSome then root else Node.put (.directory []) directory root)
    root
  Node.put node location root

/-- The paths that a run may look at. -/
def pathsOf (current : String) (arguments : List String) : List String :=
  let above := Path.ancestors current
  let asked :=
    match Arguments.parse arguments with
    | .ok { config := some path, .. } =>
      if Path.isAbsolute path then [path] else above.map fun directory => Path.join directory path
    | _ => []
  [Path.join current FileTree.settingsDirectory] ++ above.map FileTree.settingsPath ++ asked

/-- What is at a path, if it is a file or a directory. -/
def survey (path : String) : IO (Option Node) := do
  try
    let place ← IO.FS.realPath path
    match (← place.metadata).type with
    | .file => return some (.file (← IO.FS.readBinFile place))
    | .dir => return some (.directory [])
    | _ => return none
  catch _ => return none

/-- The part of the real file tree that a run may look at. -/
def surveyTree (arguments : List String) : IO FileTree := do
  try
    let current := (← IO.currentDir).toString
    let mut root := plant (.directory []) (locationOf current) (.directory [])
    for path in pathsOf current arguments do
      if let some node ← survey path then
        unless (root.get? (locationOf path)).isSome do
          root := plant root (locationOf path) node
    return { root := root, current := locationOf current }
  catch _ => return { root := .directory [], current := [], lost := 1 }

/-- Writes the settings file of the current directory if a run changed it. -/
def commit (before after : FileTree) : IO (Option Error) := do
  let some current := before.currentPath? | return none
  let path := FileTree.settingsPath current
  let some content := after.read? path | return none
  if (before.read? path).map ByteArray.data = some content.data then return none
  try
    IO.FS.createDirAll (Path.join current FileTree.settingsDirectory)
    IO.FS.writeBinFile path content
    return none
  catch e => return some (.fileWrite path (ioErrorOf e))

/-- Writes bytes to a stream; the result is the failure, if there is one. -/
def emit (stream : IO.FS.Stream) (bytes : List UInt8) : IO (Option IoError) := do
  try
    stream.write (ByteArray.mk bytes.toArray)
    stream.flush
    return none
  catch e => return some (ioErrorOf e)

/-- A sink that takes nothing. -/
def refusing (cause : IoError) : Sink :=
  { limit := some 0, failure := cause }

end Program
end PlaneReport

open PlaneReport

def main (arguments : List String) : IO UInt32 := do
  let block ← IO.FS.readBinFile "/proc/self/environ"
  let environment := Program.environmentOf ((String.fromUTF8? block).getD "").toList
  let now ← Std.Time.Timestamp.now
  let here : Surroundings :=
    { tree := ← Program.surveyTree arguments
      environment := environment
      now := Clock.stamp now.toSecondsSinceUnixEpoch.toInt.toNat
      library := .plain }
  let mut stdout : Sink := {}
  let mut outcome := Run.program arguments here stdout {}
  if let some e ← Program.commit here.tree outcome.tree then
    outcome := Run.fail ⟨.text, {}, {}⟩ e here.tree
  if let some cause ← Program.emit (← IO.getStdout) outcome.stdout.taken then
    stdout := Program.refusing cause
    outcome := Run.program arguments here stdout {}
  if let some cause ← Program.emit (← IO.getStderr) outcome.stderr.taken then
    outcome := Run.program arguments here stdout (Program.refusing cause)
  return UInt32.ofNat outcome.ending.code
