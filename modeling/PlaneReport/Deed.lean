import PlaneReport.Command
import PlaneReport.Log.Event
import PlaneReport.Output
import PlaneReport.Workspace.Save

/-!
# Deeds

What an invocation does, apart from writing anything to a stream: which settings govern it, which
events it logs, what it changes in the file tree, and what it comes to.
-/

namespace PlaneReport

/-- What a run has from the libraries that it is linked with: texts that are theirs to word, and which
patterns they know. -/
structure Library where
  /-- What the parser of settings files says of a text that is not well formed. -/
  diagnosis : String → String
  /-- What is wrong with the value of a field in `RUST_LOG`, if it is no pattern. -/
  objection? : String → Option String
  /-- What stands on the second stream of a run that breaks off with a message. -/
  notice : String → String

/-- A library with few words, which takes every text for a pattern. -/
def Library.plain : Library where
  diagnosis _ := "TOML parse error"
  objection? _ := none
  notice message := "\nthread 'main' panicked:\n" ++ message ++ "\n"

/-- Where a run takes place. -/
structure Surroundings where
  tree : FileTree
  environment : Environment
  /-- The time that answers are stamped with. -/
  now : String
  library : Library

/-- What an invocation comes to. -/
inductive Result where
  /-- A text for whoever asked. -/
  | answer (text : String)
  | failure (e : Error)
  | fault (fault : Fault)

/-- What governs a run. -/
structure Preparation where
  settings : Settings
  level : Level
  /-- Why standard settings stand in for those of the workspace. -/
  fallback : Option Error

structure Deed where
  events : List Log.Event
  result : Result
  tree : FileTree

namespace Event

open Log (Event)

def initialised (level : Level) : Event :=
  ⟨.debug, "planar::logging", "logger initialised", [("level", level.name)]⟩

def fallback (cause : Error) : Event :=
  ⟨.warn, "planar",
    "Configuration error: " ++ cause.message ++ ". Using default configuration.", []⟩

def sum (inputs : Inputs) (report : Report) : Event :=
  ⟨.debug, "planar::report", "computed sum",
    [("a", toString inputs.a.toInt), ("b", toString inputs.b.toInt),
      ("sum", toString report.sum.toInt)]⟩

def distance (inputs : Inputs) (report : Report) : Event :=
  ⟨.debug, "planar::report", "computed distance",
    [("from", inputs.source.text), ("to", inputs.target.text),
      ("distance", Layout.exact.text report.distance)]⟩

def ready (report : Report) : Event :=
  ⟨.info, "planar", "report ready",
    [("sum", toString report.sum.toInt), ("distance", Layout.exact.text report.distance)]⟩

def written (path : String) (force : Bool) : Event :=
  ⟨.info, "planar::config", "wrote configuration file",
    [("path", path), ("force", toString force)]⟩

def dropped : Event :=
  ⟨.debug, "planar::io::output", "stdout closed early, dropping output", []⟩

end Event

/-- The events before the command itself. -/
def Preparation.events (preparation : Preparation) : List Log.Event :=
  Event.initialised preparation.level :: preparation.fallback.toList.map Event.fallback

namespace Invocation

def format (invocation : Invocation) : OutputFormat :=
  if invocation.json then .json else .text

/-- The settings for a run.  A file that was asked for must load; if there is anything wrong with the
workspace, standard settings take its place. -/
def loadSettings (invocation : Invocation) (here : Surroundings) :
    Except Error (Settings × Option Error) :=
  match invocation.config with
  | some path => do
    let settings ← (Settings.loadFrom here.tree here.environment path).mapError fun e =>
      Error.config ("loading " ++ path ++ ": " ++ e.message here.library.diagnosis)
    settings.validate
    return (settings, none)
  | none =>
    let loaded := do
      let settings ←
        (Settings.load here.tree here.environment).mapError
          (LoadError.toError here.library.diagnosis)
      settings.validate
      return settings
    match loaded with
    | .ok settings => .ok (settings, none)
    | .error e => .ok (Settings.standard, some e)

/-- What governs a run with given settings, or with the error that took their place. -/
def prepareWith (invocation : Invocation) (loaded : Except Error (Settings × Option Error)) :
    Except Error Preparation := do
  let (settings, fallback) ← loaded
  let level ← if invocation.info then pure .debug else Level.parse settings.level
  return ⟨settings, level, fallback⟩

def prepare (invocation : Invocation) (here : Surroundings) : Except Error Preparation :=
  invocation.prepareWith (invocation.loadSettings here)

/-- Carries out the command. -/
def act (invocation : Invocation) (here : Surroundings) (settings : Settings) : Deed :=
  match invocation.command with
  | .report precision =>
    match Report.compute settings.inputs with
    | .error fault => ⟨[], .fault fault, here.tree⟩
    | .ok report =>
      let style := DistanceStyle.ofPrecision (precision.or settings.precision)
      let events :=
        [Event.sum settings.inputs report, Event.distance settings.inputs report,
          Event.ready report]
      match Output.reportText invocation.format report style here.now with
      | .ok text => ⟨events, .answer text, here.tree⟩
      | .error fault => ⟨events, .fault fault, here.tree⟩
  | .initialise force =>
    match Settings.initialiseHere here.tree force with
    | (.ok path, tree) =>
      let text := "Created configuration file at: " ++ path
      ⟨[Event.written path force],
        .answer (Output.answerText invocation.format (.string text) text here.now), tree⟩
    | (.error e, tree) => ⟨[], .failure e, tree⟩
  | .settings => ⟨[], .answer (Output.settingsText invocation.format settings), here.tree⟩

end Invocation
end PlaneReport
