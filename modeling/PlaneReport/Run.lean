import PlaneReport.Command.Arguments
import PlaneReport.Deed
import PlaneReport.Log.Logger

/-!
# Runs

A whole run, from its arguments to its end: results go to the first sink, the log and errors to the
second.  A log that cannot be written ends the run at once.
-/

namespace PlaneReport

inductive Ending where
  /-- The run ends by itself, with a code for the shell. -/
  | exit (code : Nat)
  /-- The run breaks off. -/
  | crash (message : String)
deriving DecidableEq, Repr

/-- The code that the shell sees. -/
def Ending.code : Ending → Nat
  | .exit code => code
  | .crash _ => 101

structure Outcome where
  ending : Ending
  stdout : Sink
  stderr : Sink
  tree : FileTree

namespace Console

variable {W : Type} [Writer W]

/-- Writes lines to the second writer, up to the first failure. -/
def log (out : Console W) (lines : List String) : Except IoError Unit × Console W :=
  let (written, stderr) := Writer.writeTexts out.stderr lines
  (written, { out with stderr := stderr })

end Console

namespace Run

def outcome (ending : Ending) (out : Output) (tree : FileTree) : Outcome :=
  ⟨ending, out.stdout, out.stderr, tree⟩

/-- Breaks a run off.  Nothing comes of it if the notice cannot be written. -/
def crash (library : Library) (message : String) (out : Output) (tree : FileTree) : Outcome :=
  let (_, stderr) := Writer.writeText out.stderr (library.notice message)
  outcome (.crash message) { out with stderr := stderr } tree

/-- The message of a run whose log cannot be written. -/
def lostLog (cause : IoError) : String :=
  "failed printing to stderr: " ++ cause.message

/-- What follows once lines are logged. -/
def afterLog (library : Library) (out : Output) (lines : List String) (tree : FileTree)
    (next : Output → Outcome) : Outcome :=
  match out.log lines with
  | (.error e, out) => crash library (lostLog e) out tree
  | (.ok (), out) => next out

/-- Ends a run with an error.  If the error cannot be written, its kind does not matter. -/
def fail (out : Output) (e : Error) (tree : FileTree) : Outcome :=
  match out.error e with
  | (.ok code, out) => outcome (.exit code.value) out tree
  | (.error _, out) => outcome (.exit ExitCode.generalError.value) out tree

/-- Ends a run with what the command came to. -/
def conclude (library : Library) (out : Output) (logger : Log.Logger) (deed : Deed) : Outcome :=
  match deed.result with
  | .failure e => fail out e deed.tree
  | .fault fault => crash library fault.message out deed.tree
  | .answer text =>
    match out.writeResult text with
    | (.ok .complete, out) => outcome (.exit ExitCode.success.value) out deed.tree
    | (.ok .dropped, out) =>
      afterLog library out (logger.lines [Event.dropped]) deed.tree fun out =>
        outcome (.exit ExitCode.success.value) out deed.tree
    | (.error e, out) => fail out (.output e) deed.tree

/-- Carries out an invocation with given settings, or with the error that took their place. -/
def performWith (invocation : Invocation) (here : Surroundings)
    (loaded : Except Error (Settings × Option Error)) (stdout stderr : Sink) : Outcome :=
  let library := here.library
  let out : Output := ⟨invocation.format, stdout, stderr⟩
  match invocation.prepareWith loaded with
  | .error e => fail out e here.tree
  | .ok preparation =>
    let reading := Log.readingOf library.objection? here.environment preparation.level
    match reading.filter with
    | .error fault =>
      afterLog library out reading.complaints here.tree fun out =>
        crash library fault.message out here.tree
    | .ok filter =>
      match Log.Logger.install none ⟨filter, Log.isColoured here.environment⟩ with
      | .error e =>
        afterLog library out reading.complaints here.tree fun out => fail out e here.tree
      | .ok logger =>
        afterLog library out (reading.complaints ++ logger.lines preparation.events) here.tree
          fun out =>
            let deed := invocation.act here preparation.settings
            afterLog library out (logger.lines deed.events) deed.tree fun out =>
              conclude library out logger deed

/-- Carries out an invocation. -/
def perform (invocation : Invocation) (here : Surroundings) (stdout stderr : Sink) : Outcome :=
  performWith invocation here (invocation.loadSettings here) stdout stderr

/-- The code for a command line that asks for nothing. -/
def usageCode : Nat := 2

/-- Runs the program on its standard streams.  Help is shown and command lines are refused whether or
not that can be written. -/
def program (arguments : List String) (here : Surroundings) (stdout stderr : Sink) : Outcome :=
  let stdout := stdout.asStream
  let stderr := stderr.asStream
  match Arguments.parse arguments with
  | .ok invocation => perform invocation here stdout stderr
  | .error (.text text) =>
    ⟨.exit ExitCode.success.value, (Writer.writeText stdout text).2, stderr, here.tree⟩
  | .error (.usage e) =>
    ⟨.exit usageCode, stdout, (Writer.writeText stderr (e.message ++ "\n")).2, here.tree⟩

end Run
end PlaneReport
