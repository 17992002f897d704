import PlaneReport.Proofs.Run.Fate

/-!
# Settings that cannot be used

A settings file that was asked for has to load and to pass its check, or the run is refused before
anything else is done.  If there is anything wrong with the settings of the workspace, be it in the
file or in the environment, standard settings take the place of all of them, and the log says why.
Main statement: `program_of_objection`.
-/

namespace PlaneReport

namespace Settings

/-- Why settings cannot be used: they do not load, or they do not pass their check.  What goes before
the message of the former depends on who asked for them. -/
inductive Objection (diagnosis : String → String) (context : String)
    (loaded : Except LoadError Settings) : Error → Prop
  | load {e : LoadError} (h : loaded = .error e) :
    Objection diagnosis context loaded (.config (context ++ e.message diagnosis))
  | check {s : Settings} {e : Error} (h : loaded = .ok s) (hcheck : s.validate = .error e) :
    Objection diagnosis context loaded e

variable {diagnosis : String → String} {context : String} {loaded : Except LoadError Settings}
  {e : Error}

/-- Whatever the objection, it is a configuration error. -/
theorem Objection.exitCode_eq (h : Objection diagnosis context loaded e) :
    e.exitCode = .configError := by
  cases h with
  | load _ => rfl
  | @check s _ _ hcheck =>
    obtain ⟨level, -, hvalid, -⟩ | ⟨reason, hinvalid, -⟩ := s.validate_cases
    · cases hcheck.symm.trans hvalid
    · cases hcheck.symm.trans hinvalid
      rfl

end Settings

namespace Invocation

variable {invocation : Invocation} {here : Surroundings} {path : String} {e : Error}

/-- A file that was asked for is not done without. -/
theorem loadSettings_of_config (hconfig : invocation.config = some path)
    (h : Settings.Objection here.library.diagnosis ("loading " ++ path ++ ": ")
      (Settings.loadFrom here.tree here.environment path) e) :
    invocation.loadSettings here = .error e := by
  cases h with
  | load hload => simp [loadSettings, hconfig, hload]
  | check hload hcheck => simp [loadSettings, hconfig, hload, hcheck]

/-- Nothing of a workspace that is at fault is kept but the fault itself. -/
theorem loadSettings_of_workspace (hconfig : invocation.config = none)
    (h : Settings.Objection here.library.diagnosis "" (Settings.load here.tree here.environment) e) :
    invocation.loadSettings here = .ok (Settings.standard, some e) := by
  cases h with
  | load hload => simp [loadSettings, hconfig, hload, LoadError.toError]
  | check hload hcheck => simp [loadSettings, hconfig, hload, hcheck]

/-- A settings file that was asked for and cannot be used is all that there is to tell. -/
theorem course_of_config (hconfig : invocation.config = some path)
    (h : Settings.Objection here.library.diagnosis ("loading " ++ path ++ ": ")
      (Settings.loadFrom here.tree here.environment path) e) (stdout : Sink) :
    invocation.course here stdout = ⟨[], .failed e, stdout, here.tree⟩ := by
  rw [course, loadSettings_of_config hconfig h]
  rfl

/-- The standard settings can be prepared, whatever they stand in for. -/
theorem prepareWith_standard (invocation : Invocation) (fallback : Option Error) :
    ∃ level : Level, (level = .debug ∨ level = .warn) ∧
      invocation.prepareWith (.ok (Settings.standard, fallback)) =
        .ok ⟨Settings.standard, level, fallback⟩ :=
  invocation.prepareWith_of_parse fallback Settings.parse_standard_level

end Invocation

/-! ## The warning -/

namespace Log

@[simp]
theorem escaped_append (text more : String) :
    escaped (text ++ more) = escaped text ++ escaped more := by
  simp [escaped, List.flatMap_append, String.ofList_append]

/-- The line that tells why standard settings stand in for others. -/
def warning (coloured : Bool) (cause : Error) : String :=
  (if coloured then "\x1b[33m WARN\x1b[0m" else " WARN") ++ " Configuration error: " ++
    escaped cause.message ++ ". Using default configuration.\n"

theorem line_fallback (coloured : Bool) (cause : Error) :
    (Event.fallback cause).line coloured = warning coloured cause := by
  have hstart : escaped "Configuration error: " = "Configuration error: " := by decide
  have hend : escaped ". Using default configuration." = ". Using default configuration." := by
    decide
  have hpainted : painted (colourOf .warn) (heading .warn) = "\x1b[33m WARN\x1b[0m" := by decide
  unfold Event.line Event.fallback warning
  rw [escaped_append, escaped_append, hstart, hend]
  dsimp only
  rw [hpainted]
  apply String.toList_inj.mp
  simp [heading]

end Log

namespace Run

variable {invocation : Invocation} {here : Surroundings} {stdout stderr : Sink}

/-- Without directives of its own the log shows why standard settings were taken. -/
theorem exists_warning {loaded : Except Error (Settings × Option Error)} {level : Level}
    {cause : Error} (hlevel : level = .debug ∨ level = .warn)
    (hprepared : invocation.prepareWith loaded = .ok ⟨Settings.standard, level, some cause⟩)
    (hsilent : here.environment.lookup "RUST_LOG" = none) (stdout : Sink) :
    ∃ before after, Writer.bytesOf (invocation.courseWith here loaded stdout).lines =
      before ++ (Log.warning (Log.isColoured here.environment) cause).toUTF8.toList ++ after := by
  rw [← Log.line_fallback]
  refine exists_line hprepared hsilent (by simp [Preparation.events]) ?_ stdout
  obtain rfl | rfl := hlevel <;> rfl

/-! ## Runs without settings of their own -/

/-- A command that writes no file does not fail. -/
theorem fate_code_ne (s : Settings) (h : ∀ force, invocation.command ≠ .initialise force) :
    (invocation.fate here s).code ≠ 6 := by
  unfold Invocation.fate
  split
  · nofun
  · unfold Invocation.act
    cases hcommand : invocation.command with
    | report precision =>
      dsimp only
      cases Report.compute s.inputs with
      | error fault => nofun
      | ok report =>
        dsimp only
        cases Output.reportText invocation.format report _ here.now <;> nofun
    | initialise force => exact absurd hcommand (h force)
    | settings => nofun

/-- Settings that were asked for and cannot be used end the run with a configuration error, before
anything was printed or written.  Settings of the workspace that cannot be used are dropped as a
whole: the run leaves behind what it would with the standard settings, and if the log is left to
itself, it says so.  So only a run that writes a settings file can end with a configuration error
that no one asked for. -/
theorem program_of_objection {arguments : List String} {invocation : Invocation}
    {here : Surroundings} {stdout stderr : Sink}
    (hparse : Arguments.parse arguments = .ok invocation)
    (hstdout : stdout.AcceptsAll) (hstderr : stderr.AcceptsAll) :
    let outcome := program arguments here stdout stderr
    (∀ path e, invocation.config = some path →
      Settings.Objection here.library.diagnosis ("loading " ++ path ++ ": ")
        (Settings.loadFrom here.tree here.environment path) e →
      outcome.ending = .exit 6 ∧ outcome.stdout.taken = stdout.taken ∧
      outcome.stderr.taken =
        stderr.taken ++ (Output.errorText invocation.format e).toUTF8.toList ∧
      outcome.tree = here.tree) ∧
    (∀ e, invocation.config = none →
      Settings.Objection here.library.diagnosis "" (Settings.load here.tree here.environment) e →
      let reference := performWith invocation here (.ok (Settings.standard, none)) stdout stderr
      outcome.ending.code = reference.ending.code ∧
      outcome.stdout.taken = reference.stdout.taken ∧ outcome.tree = reference.tree ∧
      (here.environment.lookup "RUST_LOG" = none → ∃ before after,
        outcome.stderr.taken =
          stderr.taken ++ (before ++
            (Log.warning (Log.isColoured here.environment) e).toUTF8.toList ++ after))) ∧
    (invocation.config = none → (∀ force, invocation.command ≠ .initialise force) →
      outcome.ending.code ≠ 6) := by
  intro outcome
  have hclosed : (invocation.course here stdout).Closed here.library invocation.format stderr
      outcome := by
    have h := program_closed hparse hstderr here stdout
    rwa [hstdout.asStream_eq] at h
  refine ⟨?_, ?_, ?_⟩
  · intro path e hconfig hobjection
    rw [Invocation.course_of_config hconfig hobjection] at hclosed
    have hending := hclosed.ending
    rw [Finish.ending, hobjection.exitCode_eq] at hending
    exact ⟨hending, congrArg Sink.taken hclosed.stdout, hclosed.stderr.taken, hclosed.tree⟩
  · intro e hconfig hobjection reference
    have hload := Invocation.loadSettings_of_workspace hconfig hobjection
    -- The two runs are prepared alike but for the reason that one of them has to give.
    obtain ⟨level, hlevel, hprepared⟩ := invocation.prepareWith_standard (some e)
    obtain ⟨level', -, hprepared'⟩ := invocation.prepareWith_standard none
    have hmeets : outcome.Meets stdout (invocation.fate here Settings.standard) := by
      refine hclosed.meets ?_
      rw [Invocation.course, hload]
      exact courseWith_leads hstdout hprepared
    have hmeets' : reference.Meets stdout (invocation.fate here Settings.standard) :=
      performWith_meets hstdout hstderr hprepared'
    refine ⟨hmeets.code.trans hmeets'.code.symm, hmeets.printed.trans hmeets'.printed.symm,
      hmeets.tree.trans hmeets'.tree.symm, fun hsilent => ?_⟩
    rw [← hload] at hprepared
    obtain ⟨before, after, hwarned⟩ := exists_warning hlevel hprepared hsilent stdout
    have hlogged := hclosed.stderr.taken
    rw [Invocation.course, hwarned, List.append_assoc _ after] at hlogged
    exact ⟨before, _, hlogged⟩
  · intro hconfig hcommand
    obtain ⟨s, -, hmeets⟩ :=
      @program_meets_of_workspace _ here _ _ _ hparse hconfig hstdout hstderr
    exact hmeets.code ▸ fate_code_ne s hcommand

/-- Of two variables one sets what is no number.  The other one has no effect either. -/
theorem program_of_objection_dropped :
    let here : Surroundings := ⟨⟨.directory [], ["home"], 0⟩,
      [("PLANAR_INPUTS__A", "one"), ("PLANAR_INPUTS__B", "40")], "", .plain⟩
    let stdout : Sink := { chunk := some 3, interrupts := 2 }
    let arguments := ["run", "--precision", "2"]
    let invocation : Invocation := ⟨.report (some 2), none, false, false⟩
    let reference := performWith invocation here (.ok (Settings.standard, none)) stdout {}
    Arguments.parse arguments = .ok invocation ∧
      ∃ e, Settings.Objection here.library.diagnosis ""
          (Settings.load here.tree here.environment) e ∧
        (program arguments here stdout {}).ending.code = reference.ending.code ∧
        (program arguments here stdout {}).stdout.taken = reference.stdout.taken ∧
        ∃ before after, (program arguments here stdout {}).stderr.taken =
          before ++ (Log.warning true e).toUTF8.toList ++ after := by
  intro here stdout arguments invocation reference
  have hparse : Arguments.parse arguments = .ok invocation := by
    decide
  have hload : Settings.load here.tree here.environment = .error (.unsuitable
      ⟨.wrongType "string \"one\"" "i64", ["inputs", "a"], .environment⟩) := by
    decide +kernel
  have hobjection : Settings.Objection here.library.diagnosis ""
      (Settings.load here.tree here.environment) _ := .load hload
  have hstdout : stdout.AcceptsAll := by decide
  have hstderr : Sink.AcceptsAll {} := by decide
  obtain ⟨hcode, hprinted, -, hwarned⟩ :=
    (program_of_objection hparse hstdout hstderr).2.1 _ rfl hobjection
  exact ⟨hparse, _, hobjection, hcode, hprinted, hwarned rfl⟩

end Run
end PlaneReport
