import PlaneReport.Proofs.Result
import PlaneReport.Proofs.Sink
import PlaneReport.Run

/-!
# The course of a run

Up to its end a run takes the same course whatever becomes of its log: which lines it has to log,
what becomes of the first sink and of the file tree, and whether it comes through, fails or breaks
off.  Only then is a failure reported.  The second sink has a say in two places: a line that it does
not take breaks the run off, and so a run either gets lost in its log or closes its course.  Main
statements: `performWith_follows`, and `performWith_closed` for a second sink that takes everything.
-/

namespace PlaneReport

namespace Console

variable {W : Type} [Writer W]

/-- Writes a result to a writer, on whatever console. -/
def deliver (stdout : W) (text : String) : Except IoError Delivery × W :=
  let (delivery, out) := writeResult ⟨.text, stdout, stdout⟩ text
  (delivery, out.stdout)

theorem writeResult_eq_deliver (out : Console W) (text : String) :
    out.writeResult text =
      ((deliver out.stdout text).1, { out with stdout := (deliver out.stdout text).2 }) := rfl

end Console

namespace Run

/-! ## Courses -/

/-- How a course ends. -/
inductive Finish where
  | done
  | failed (e : Error)
  | broken (message : String)

/-- The ending of a run with such a finish, if nothing keeps it from its report. -/
def Finish.ending : Finish → Ending
  | .done => .exit ExitCode.success.value
  | .failed e => .exit e.exitCode.value
  | .broken message => .crash message

/-- What is reported of a finish. -/
def Finish.errorText (library : Library) (format : OutputFormat) : Finish → String
  | .done => ""
  | .failed e => Output.errorText format e
  | .broken message => library.notice message

structure Course where
  /-- What is to be logged. -/
  lines : List String
  finish : Finish
  stdout : Sink
  tree : FileTree

end Run

/-- What comes of a deed with a sink for its answer, and what is then still to be logged. -/
def Deed.finish (deed : Deed) (stdout : Sink) : Run.Finish × List Log.Event × Sink :=
  match deed.result with
  | .failure e => (.failed e, [], stdout)
  | .fault fault => (.broken fault.message, [], stdout)
  | .answer text =>
    match Console.deliver stdout text with
    | (.ok .complete, stdout) => (.done, [], stdout)
    | (.ok .dropped, stdout) => (.done, [Event.dropped], stdout)
    | (.error e, stdout) => (.failed (.output e), [], stdout)

namespace Invocation

/-- The course that an invocation takes with given settings, or with the error that took their
place. -/
def courseWith (invocation : Invocation) (here : Surroundings)
    (loaded : Except Error (Settings × Option Error)) (stdout : Sink) : Run.Course :=
  match invocation.prepareWith loaded with
  | .error e => ⟨[], .failed e, stdout, here.tree⟩
  | .ok preparation =>
    let reading := Log.readingOf here.library.objection? here.environment preparation.level
    match reading.filter with
    | .error fault => ⟨reading.complaints, .broken fault.message, stdout, here.tree⟩
    | .ok filter =>
      let logger : Log.Logger := ⟨filter, Log.isColoured here.environment⟩
      let deed := invocation.act here preparation.settings
      let (finish, events, stdout) := deed.finish stdout
      ⟨reading.complaints ++ logger.lines (preparation.events ++ deed.events ++ events), finish,
        stdout, deed.tree⟩

/-- The course that an invocation takes. -/
def course (invocation : Invocation) (here : Surroundings) (stdout : Sink) : Run.Course :=
  invocation.courseWith here (invocation.loadSettings here) stdout

end Invocation

namespace Run

variable {library : Library} {format : OutputFormat} {finish : Finish} {stdout stderr : Sink}
  {tree : FileTree}

/-- Ends a run whose log is written. -/
def Course.close (course : Course) (library : Library) (out : Output) : Outcome :=
  let out := { out with stdout := course.stdout }
  match course.finish with
  | .done => outcome (.exit ExitCode.success.value) out course.tree
  | .failed e => fail out e course.tree
  | .broken message => crash library message out course.tree

/-- What a run with a certain course comes to: it gets lost in its log, or it closes its course. -/
inductive Course.Follows (course : Course) (library : Library) (format : OutputFormat)
    (stderr : Sink) : Outcome → Prop
  | lost {cause : IoError} {after : Sink} (stdout : Sink) (tree : FileTree)
    (hlog : Writer.writeTexts stderr course.lines = (.error cause, after)) :
    Follows course library format stderr
      (crash library (lostLog cause) ⟨format, stdout, after⟩ tree)
  | closed {after : Sink} (hlog : Writer.writeTexts stderr course.lines = (.ok (), after)) :
    Follows course library format stderr (course.close library ⟨format, course.stdout, after⟩)

/-- Without anything to log a course is closed at once. -/
theorem Course.Follows.of_nil :
    Follows ⟨[], finish, stdout, tree⟩ library format stderr
      (close ⟨[], finish, stdout, tree⟩ library ⟨format, stdout, stderr⟩) :=
  .closed rfl

/-- The first lines of a course are logged before what follows them. -/
theorem afterLog_follows {course : Course} {lines more : List String} {next : Output → Outcome}
    (hlines : course.lines = lines ++ more)
    (hnext : ∀ after, { course with lines := more }.Follows library format after
      (next ⟨format, stdout, after⟩)) :
    course.Follows library format stderr
      (afterLog library ⟨format, stdout, stderr⟩ lines tree next) := by
  have happend := Writer.writeTexts_append stderr lines more
  rw [← hlines] at happend
  rw [afterLog, Console.log]
  dsimp only
  generalize Writer.writeTexts stderr lines = written at happend ⊢
  obtain ⟨written, after⟩ := written
  cases written with
  | error cause => exact .lost stdout tree happend
  | ok _ =>
    dsimp only at happend ⊢
    have hfollows := hnext after
    generalize next ⟨format, stdout, after⟩ = outcome at hfollows ⊢
    cases hfollows with
    | lost stdout tree hlog => exact .lost stdout tree (happend.trans hlog)
    | closed hlog => exact .closed (happend.trans hlog)

theorem conclude_follows (logger : Log.Logger) (deed : Deed) :
    let (finish, events, stdout') := deed.finish stdout
    Course.Follows ⟨logger.lines events, finish, stdout', deed.tree⟩ library format stderr
      (conclude library ⟨format, stdout, stderr⟩ logger deed) := by
  unfold Deed.finish conclude
  cases deed.result with
  | failure e => exact .of_nil
  | fault fault => exact .of_nil
  | answer text =>
    dsimp only
    rw [Console.writeResult_eq_deliver]
    dsimp only
    generalize Console.deliver stdout text = delivered
    obtain ⟨delivery, after⟩ := delivered
    cases delivery with
    | error e => exact .of_nil
    | ok delivery =>
      cases delivery with
      | complete => exact .of_nil
      | dropped => exact afterLog_follows (List.append_nil _).symm fun last => .of_nil

variable {invocation : Invocation} {here : Surroundings}
  {loaded : Except Error (Settings × Option Error)}

theorem performWith_follows (invocation : Invocation) (here : Surroundings)
    (loaded : Except Error (Settings × Option Error)) (stdout stderr : Sink) :
    (invocation.courseWith here loaded stdout).Follows here.library invocation.format stderr
      (performWith invocation here loaded stdout stderr) := by
  rw [performWith, Invocation.courseWith]
  cases invocation.prepareWith loaded with
  | error e => exact .of_nil
  | ok preparation =>
    dsimp only
    generalize Log.readingOf here.library.objection? here.environment preparation.level = reading
    cases reading.filter with
    | error fault => exact afterLog_follows (List.append_nil _).symm fun after => .of_nil
    | ok filter =>
      simp only [Log.Logger.install_none]
      generalize (⟨filter, Log.isColoured here.environment⟩ : Log.Logger) = logger
      have hconclude := fun after : Sink =>
        @conclude_follows here.library invocation.format stdout after logger
          (invocation.act here preparation.settings)
      generalize invocation.act here preparation.settings = deed at hconclude ⊢
      generalize deed.finish stdout = finished at hconclude ⊢
      obtain ⟨finish, events, stdout'⟩ := finished
      have hlines : reading.complaints ++ logger.lines (preparation.events ++ deed.events ++ events) =
          reading.complaints ++ logger.lines preparation.events ++
            (logger.lines deed.events ++ logger.lines events) := by
        simp
      exact afterLog_follows hlines fun before => afterLog_follows rfl fun after => hconclude after

/-! ## What is logged -/

/-- An event that is admitted has its line in the log. -/
theorem exists_bytesOf_lines {logger : Log.Logger} {events : List Log.Event} {event : Log.Event}
    (hmem : event ∈ events) (hadmits : logger.filter.admits event = true) :
    ∃ before after, Writer.bytesOf (logger.lines events) =
      before ++ (event.line logger.coloured).toUTF8.toList ++ after := by
  have hline : event.line logger.coloured ∈ logger.lines events :=
    List.mem_map_of_mem (List.mem_filter.mpr ⟨hmem, hadmits⟩)
  obtain ⟨before, after, hlines⟩ := List.append_of_mem hline
  exact ⟨Writer.bytesOf before, Writer.bytesOf after, by simp [hlines]⟩

/-- Without directives of its own the log shows what comes before the command, up to the level. -/
theorem exists_line {preparation : Preparation} {event : Log.Event}
    (hprepared : invocation.prepareWith loaded = .ok preparation)
    (hsilent : here.environment.lookup "RUST_LOG" = none) (hmem : event ∈ preparation.events)
    (hadmits : (Log.Filter.upTo preparation.level).admits event = true) (stdout : Sink) :
    ∃ before after, Writer.bytesOf (invocation.courseWith here loaded stdout).lines =
      before ++ (event.line (Log.isColoured here.environment)).toUTF8.toList ++ after := by
  rw [Invocation.courseWith, hprepared]
  dsimp only
  rw [Log.readingOf_eq_upTo hsilent]
  exact @exists_bytesOf_lines ⟨_, _⟩ _ _
    (List.mem_append_left _ (List.mem_append_left _ hmem)) hadmits

/-! ## Second sinks that take everything -/

/-- What becomes of a course whose log and report are taken. -/
structure Course.Closed (course : Course) (library : Library) (format : OutputFormat)
    (stderr : Sink) (outcome : Outcome) : Prop where
  ending : outcome.ending = course.finish.ending
  stdout : outcome.stdout = course.stdout
  stderr : stderr.Took (Writer.bytesOf course.lines ++
    (course.finish.errorText library format).toUTF8.toList) outcome.stderr
  tree : outcome.tree = course.tree

theorem fail_eq (hstderr : stderr.AcceptsAll) (e : Error) (tree : FileTree) :
    ∃ after, fail ⟨format, stdout, stderr⟩ e tree =
        ⟨.exit e.exitCode.value, stdout, after, tree⟩ ∧
      stderr.Took (Output.errorText format e).toUTF8.toList after := by
  obtain ⟨after, hafter, htook⟩ := Output.error_took ⟨format, stdout, stderr⟩ hstderr e
  rw [fail, hafter]
  exact ⟨after, rfl, htook⟩

theorem crash_eq (hstderr : stderr.AcceptsAll) (library : Library) (message : String)
    (tree : FileTree) :
    ∃ after, crash library message ⟨format, stdout, stderr⟩ tree =
        ⟨.crash message, stdout, after, tree⟩ ∧
      stderr.Took (library.notice message).toUTF8.toList after := by
  obtain ⟨after, hafter, htook⟩ := Sink.writeText_took hstderr (library.notice message)
  rw [crash, hafter]
  exact ⟨after, rfl, htook⟩

theorem Course.close_eq (course : Course) (hstderr : stderr.AcceptsAll) :
    ∃ after, course.close library ⟨format, stdout, stderr⟩ =
        ⟨course.finish.ending, course.stdout, after, course.tree⟩ ∧
      stderr.Took (course.finish.errorText library format).toUTF8.toList after := by
  rw [close]
  cases course.finish with
  | done =>
    refine ⟨stderr, rfl, ?_, hstderr⟩
    rw [Finish.errorText, ByteArray.toList_eq]
    exact (List.append_nil _).symm
  | failed e => exact fail_eq hstderr e course.tree
  | broken message => exact crash_eq hstderr library message course.tree

/-- A sink that takes everything takes the log and what is reported after it, and the run ends as
its course does. -/
theorem performWith_closed (hstderr : stderr.AcceptsAll) (invocation : Invocation)
    (here : Surroundings) (loaded : Except Error (Settings × Option Error)) (stdout : Sink) :
    (invocation.courseWith here loaded stdout).Closed here.library invocation.format stderr
      (performWith invocation here loaded stdout stderr) := by
  have hfollows := performWith_follows invocation here loaded stdout stderr
  generalize invocation.courseWith here loaded stdout = course at hfollows ⊢
  generalize performWith invocation here loaded stdout stderr = outcome at hfollows ⊢
  obtain ⟨logged, hlogged, htook⟩ := Sink.writeTexts_took hstderr course.lines
  cases hfollows with
  | lost _ _ hlog => cases hlogged.symm.trans hlog
  | closed hlog =>
    cases hlogged.symm.trans hlog
    obtain ⟨after, hclose, hreported⟩ :=
      @Course.close_eq here.library invocation.format course.stdout logged course htook.acceptsAll
    rw [hclose]
    exact ⟨rfl, rfl, htook.trans hreported, rfl⟩

/-- A run is that of its invocation between the streams. -/
theorem program_of_parse {arguments : List String}
    (hparse : Arguments.parse arguments = .ok invocation) (here : Surroundings)
    (stdout stderr : Sink) :
    program arguments here stdout stderr =
      perform invocation here stdout.asStream stderr.asStream := by
  rw [program, hparse]

/-- The course of a run whose second sink takes everything. -/
theorem program_closed {arguments : List String}
    (hparse : Arguments.parse arguments = .ok invocation) (hstderr : stderr.AcceptsAll)
    (here : Surroundings) (stdout : Sink) :
    (invocation.course here stdout.asStream).Closed here.library invocation.format stderr
      (program arguments here stdout stderr) := by
  rw [program_of_parse hparse, hstderr.asStream_eq]
  exact performWith_closed hstderr invocation here _ _

end Run
end PlaneReport
