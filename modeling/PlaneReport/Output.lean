import PlaneReport.Response
import PlaneReport.Settings.Decode
import PlaneReport.Settings.Toml
import PlaneReport.Sink
import PlaneReport.Text.Blank

/-!
# Output

Answers go to two writers: results to the first and errors to the second, as text or as JSON.  A
reader that closes the first one early is no failure; what was to be written is then dropped.
-/

namespace PlaneReport

inductive OutputFormat where
  | text
  | json
deriving DecidableEq, Repr

/-- The version that answers carry. -/
def programVersion : String := "0.1.0"

/-- What became of a result. -/
inductive Delivery where
  | complete
  /-- The writer was closed by its reader. -/
  | dropped
deriving DecidableEq, Repr

/-- A format and two writers. -/
structure Console (W : Type) where
  format : OutputFormat
  stdout : W
  stderr : W

/-- The console of a run. -/
abbrev Output := Console Sink

namespace Output

/-- The line of equal signs under the heading of the settings. -/
def rule : String :=
  String.ofList (List.replicate 50 '=')

/-- The envelope of a success, stamped with the version and the time. -/
def successText (data : Json) (now : String) : String :=
  Json.pretty
    { Response.success data with origin := some ⟨programVersion, some now⟩ }.toJson

/-- What is written of a result, which has a JSON form and a text form. -/
def answerText (format : OutputFormat) (data : Json) (text now : String) : String :=
  match format with
  | .json => successText data now
  | .text => text

/-- What is written of a report.  The style matters to the text form only. -/
def reportText (format : OutputFormat) (report : Report) (style : DistanceStyle) (now : String) :
    Except Fault String :=
  match format with
  | .json => .ok (successText report.toJson now)
  | .text => report.render style

/-- What is written of settings. -/
def settingsText (format : OutputFormat) (settings : Settings) : String :=
  match format with
  | .json => (Response.success settings.toJson).toJson.pretty
  | .text =>
    "Current Configuration:\n" ++ rule ++ "\n" ++
      String.ofList (Text.trimRight settings.tomlText.toList)

/-- The texts of an error in the order in which they are written, line ends included. -/
def errorTexts (format : OutputFormat) (e : Error) : List String :=
  match format with
  | .json => [(Response.ofError e).toJson.pretty, "\n"]
  | .text =>
    ["Error: ", e.message, "\n"] ++
      e.suggestions.flatMap fun suggestion => ["  Suggestion: ", suggestion, "\n"]

/-- What is written of an error in all. -/
def errorText (format : OutputFormat) (e : Error) : String :=
  match format with
  | .json => (Response.ofError e).toJson.pretty ++ "\n"
  | .text =>
    "Error: " ++ e.message ++ "\n" ++
      String.join (e.suggestions.map fun suggestion => "  Suggestion: " ++ suggestion ++ "\n")

end Output

namespace Console

variable {W : Type} [Writer W]

/-- Writes a text and a line end to the first writer and flushes it. -/
def writeResult (out : Console W) (text : String) : Except IoError Delivery × Console W :=
  let (written, stdout) := Writer.writeTexts out.stdout [text, "\n"]
  let (result, stdout) :=
    match written with
    | .ok () => Writer.flush stdout
    | .error e => (.error e, stdout)
  let delivery :=
    match result with
    | .ok () => .ok .complete
    | .error e => if e.kind = .brokenPipe then .ok .dropped else .error e
  (delivery, { out with stdout := stdout })

/-- Writes a result. -/
def success (out : Console W) (data : Json) (text : String) (now : String) :
    Except IoError Delivery × Console W :=
  out.writeResult (Output.answerText out.format data text now)

/-- Writes a report; one that cannot be set is a fault, and nothing is written. -/
def report (out : Console W) (report : Report) (style : DistanceStyle) (now : String) :
    Except Fault (Except IoError Delivery × Console W) :=
  (Output.reportText out.format report style now).map out.writeResult

def settings (out : Console W) (settings : Settings) : Except IoError Delivery × Console W :=
  out.writeResult (Output.settingsText out.format settings)

/-- Writes an error to the second writer; the result is the exit code that it calls for. -/
def error (out : Console W) (e : Error) : Except IoError ExitCode × Console W :=
  let (written, stderr) := Writer.writeTexts out.stderr (Output.errorTexts out.format e)
  (written.map fun () => e.exitCode, { out with stderr := stderr })

end Console

/-- Writes settings to the console of a run. -/
abbrev Output.settings (out : Output) (settings : Settings) : Except IoError Delivery × Output :=
  Console.settings out settings

end PlaneReport
