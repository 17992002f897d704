import PlaneReport.Deed
import PlaneReport.Proofs.Report
import PlaneReport.Proofs.Result

/-!
# What an invocation comes to

Either an invocation has settings that govern it or it ends with a configuration error.  Under given
settings a command has a text to print, or it fails while it starts a settings file, or it has no
report to give.
-/

namespace PlaneReport

/-! ## The settings that govern an invocation -/

namespace Settings

/-- Settings that were loaded, if their log level has a name. -/
def usable? (loaded : Except LoadError Settings) : Option Settings :=
  loaded.toOption.filter fun s => (Level.ofText? s.level).isSome

/-- The check of settings finds fault with the log level, or with nothing. -/
theorem validate_cases (s : Settings) :
    (∃ level, Level.parse s.level = .ok level ∧ s.validate = .ok () ∧
        usable? (.ok s) = some s) ∨
      ∃ reason, s.validate = .error (.config reason) ∧ usable? (.ok s) = none := by
  have husable : usable? (.ok s) = if (Level.ofText? s.level).isSome = true then some s else none :=
    Option.filter_some
  rw [husable, validate, Level.parse]
  cases Level.ofText? s.level with
  | none => exact .inr ⟨_, rfl, rfl⟩
  | some level => exact .inl ⟨level, rfl, rfl, rfl⟩

theorem parse_standard_level : Level.parse standard.level = .ok .warn := by
  have hlevel : Level.ofText? standard.level = some .warn := by
    decide
  rw [Level.parse, hlevel]

end Settings

namespace Invocation

/-- The settings for an invocation.  The file that was asked for has to give them; a workspace that
does not is passed over. -/
def settings? (invocation : Invocation) (here : Surroundings) : Option Settings :=
  match invocation.config with
  | some path => Settings.usable? (Settings.loadFrom here.tree here.environment path)
  | none =>
    some ((Settings.usable? (Settings.load here.tree here.environment)).getD Settings.standard)

/-- Settings are loaded and can be used, or the configuration is at fault. -/
theorem loadSettings_cases (invocation : Invocation) (here : Surroundings) :
    (∃ s cause? level, invocation.loadSettings here = .ok (s, cause?) ∧
        invocation.settings? here = some s ∧ Level.parse s.level = .ok level) ∨
      ∃ reason, invocation.loadSettings here = .error (.config reason) ∧
        invocation.settings? here = none := by
  unfold loadSettings settings?
  cases invocation.config with
  | some path =>
    dsimp only
    cases Settings.loadFrom here.tree here.environment path with
    | error e => exact .inr ⟨_, rfl, rfl⟩
    | ok s =>
      obtain ⟨level, hparse, hvalid, husable⟩ | ⟨reason, hinvalid, husable⟩ := s.validate_cases
      · exact .inl ⟨s, none, level, by simp [hvalid], husable, hparse⟩
      · exact .inr ⟨reason, by simp [hinvalid], husable⟩
  | none =>
    dsimp only
    left
    cases Settings.load here.tree here.environment with
    | error e => exact ⟨_, _, _, rfl, rfl, Settings.parse_standard_level⟩
    | ok s =>
      obtain ⟨level, hparse, hvalid, husable⟩ | ⟨reason, hinvalid, husable⟩ := s.validate_cases
      · have hloaded : (do
            let settings ← (Except.ok s).mapError (LoadError.toError here.library.diagnosis)
            settings.validate
            return settings) = Except.ok s := by simp [hvalid]
        rw [husable, hloaded]
        exact ⟨s, none, level, rfl, rfl, hparse⟩
      · have hloaded : (do
            let settings ← (Except.ok s).mapError (LoadError.toError here.library.diagnosis)
            settings.validate
            return settings) = Except.error (.config reason) := by simp [hinvalid]
        rw [husable, hloaded]
        exact ⟨Settings.standard, _, _, rfl, rfl, Settings.parse_standard_level⟩

/-- Settings whose level has a name prepare a run. -/
theorem prepareWith_of_parse {s : Settings} {level : Level} (invocation : Invocation)
    (cause? : Option Error) (hparse : Level.parse s.level = .ok level) :
    ∃ shown : Level, (shown = .debug ∨ shown = level) ∧
      invocation.prepareWith (.ok (s, cause?)) = .ok ⟨s, shown, cause?⟩ := by
  cases hinfo : invocation.info with
  | true =>
    exact ⟨.debug, .inl rfl, by simp [prepareWith, hinfo]⟩
  | false =>
    exact ⟨level, .inr rfl, by simp [prepareWith, hinfo, hparse]⟩

theorem prepare_cases (invocation : Invocation) (here : Surroundings) :
    (∃ preparation, invocation.prepare here = .ok preparation ∧
        invocation.settings? here = some preparation.settings) ∨
      ∃ reason, invocation.prepare here = .error (.config reason) ∧
        invocation.settings? here = none := by
  unfold prepare
  obtain ⟨s, cause?, level, hload, hsettings, hparse⟩ | ⟨reason, hload, hsettings⟩ :=
    invocation.loadSettings_cases here
  · obtain ⟨shown, -, hprepared⟩ := invocation.prepareWith_of_parse cause? hparse
    exact .inl ⟨_, by rw [hload, hprepared], hsettings⟩
  · exact .inr ⟨reason, by rw [hload]; rfl, hsettings⟩

end Invocation

/-! ## Starting a settings file -/

theorem FileTree.writeBelow_cases (tree : FileTree) (directory? : Option String)
    (path text : String) :
    (tree.writeBelow directory? path text).1 = .ok () ∨
      ∃ place cause,
        (tree.writeBelow directory? path text).1 = .error (.fileWrite place cause) := by
  unfold writeBelow
  cases directory? with
  | none =>
    dsimp only
    cases tree.write path text.toUTF8 with
    | ok tree => exact .inl rfl
    | error cause => exact .inr ⟨path, cause, rfl⟩
  | some directory =>
    dsimp only
    obtain ⟨created, tree'⟩ := tree.createDirectories directory
    cases created with
    | error cause => exact .inr ⟨directory, cause, rfl⟩
    | ok _ =>
      dsimp only [Except.mapError]
      cases tree'.write path text.toUTF8 with
      | ok tree => exact .inl rfl
      | error cause => exact .inr ⟨path, cause, rfl⟩

theorem Settings.initialise_cases (tree : FileTree) (directory : String) (force : Bool) :
    (initialise tree directory force).1 = .ok (FileTree.settingsPath directory) ∨
      ∃ e, (initialise tree directory force).1 = .error e ∧
        (e.exitCode = .ioError ∨ e.exitCode = .configError) := by
  unfold initialise
  dsimp only
  split
  · exact .inr ⟨_, rfl, .inr rfl⟩
  · obtain hwritten | ⟨place, cause, hwritten⟩ := tree.writeBelow_cases
      (some (Path.join directory FileTree.settingsDirectory)) (FileTree.settingsPath directory)
      template
    · left
      rw [hwritten]
      rfl
    · right
      rw [hwritten]
      exact ⟨_, rfl, .inl rfl⟩

/-! ## What a command comes to -/

namespace Invocation

variable (invocation : Invocation) (here : Surroundings) (current : String) (s : Settings)

/-- The success that an invocation tells of in JSON. -/
def envelope : Response :=
  let origin := some ⟨programVersion, some here.now⟩
  match invocation.command with
  | .report _ =>
    { Response.success (.object
        [("sum", .integer (s.inputs.a.toInt + s.inputs.b.toInt)),
          ("distance", .number (s.inputs.source.distance s.inputs.target))]) with
      origin := origin }
  | .initialise _ =>
    { Response.success
        (.string ("Created configuration file at: " ++ FileTree.settingsPath current)) with
      origin := origin }
  | .settings => Response.success s.toJson

/-- What an invocation has to say, without the last line end. -/
def Says (document : String) : Prop :=
  match invocation.format with
  | .json => document = (invocation.envelope here current s).toJson.pretty
  | .text =>
    match invocation.command with
    | .report precision =>
      ∃ distance, (DistanceStyle.ofPrecision (precision.or s.precision)).format
          (s.inputs.source.distance s.inputs.target) = .ok distance ∧
        document = "Sum: " ++ toString (s.inputs.a.toInt + s.inputs.b.toInt) ++
          "\nDistance: " ++ distance
    | .initialise _ =>
      document = "Created configuration file at: " ++ FileTree.settingsPath current
    | .settings =>
      document = "Current Configuration:\n" ++ Output.rule ++ "\n" ++
        String.ofList (Text.trimRight s.tomlText.toList)

/-- Whether there is no report to give: the sum is out of range, or the text has more decimal places
than can be set. -/
def Overruns : Prop :=
  ∃ precision, invocation.command = .report precision ∧
    (s.inputs.a.toInt + s.inputs.b.toInt < -2 ^ 63 ∨
      2 ^ 63 ≤ s.inputs.a.toInt + s.inputs.b.toInt ∨
      invocation.json = false ∧
        ∃ places, precision.or s.precision = some places ∧ 65535 < places.toNat)

/-- What a command can come to. -/
inductive ComesTo : Result → Prop
  | answer {text : String} (htext : invocation.Says here current s text)
      (hoverruns : ¬ invocation.Overruns s) : ComesTo (.answer text)
  | failure {e : Error} {force : Bool} (hcommand : invocation.command = .initialise force)
      (hcode : e.exitCode = .ioError ∨ e.exitCode = .configError) : ComesTo (.failure e)
  | fault {fault : Fault} (hoverruns : invocation.Overruns s) : ComesTo (.fault fault)


variable {invocation here current s}

theorem overruns_iff {precision : Option UInt64}
    (hcommand : invocation.command = .report precision) :
    invocation.Overruns s ↔
      IntegerKind.word.holds (s.inputs.a.toInt + s.inputs.b.toInt) = false ∨
        invocation.json = false ∧ DistanceStyle.IsTooMany (precision.or s.precision) := by
  have hholds : IntegerKind.word.holds (s.inputs.a.toInt + s.inputs.b.toInt) = false ↔
      s.inputs.a.toInt + s.inputs.b.toInt < -2 ^ 63 ∨
        2 ^ 63 ≤ s.inputs.a.toInt + s.inputs.b.toInt := by
    rw [← Bool.not_eq_true, IntegerKind.word_holds_iff]
    omega
  rw [hholds, or_assoc]
  constructor
  · rintro ⟨precision', hcommand', h⟩
    rw [hcommand] at hcommand'
    cases hcommand'
    exact h
  · intro h
    exact ⟨precision, hcommand, h⟩

theorem not_overruns (h : ∀ precision, invocation.command ≠ .report precision) :
    ¬ invocation.Overruns s := by
  rintro ⟨precision, hcommand, -⟩
  exact h precision hcommand

theorem act_report_comesTo {precision : Option UInt64}
    (hcommand : invocation.command = .report precision) :
    invocation.ComesTo here current s (invocation.act here s).result := by
  unfold act
  rw [hcommand]
  dsimp only
  rw [Report.compute_eq]
  cases hsum : IntegerKind.word.holds (s.inputs.a.toInt + s.inputs.b.toInt) with
  | false => exact .fault ((overruns_iff hcommand).mpr (.inl hsum))
  | true =>
    rw [if_pos rfl]
    dsimp only
    cases hjson : invocation.json with
    | true =>
      have hformat : invocation.format = .json := if_pos hjson
      rw [hformat]
      refine .answer ?_ ?_
      · rw [Says, hformat, envelope, hcommand]
        dsimp only
        rw [← Report.sum_ofInputs hsum]
        rfl
      · rw [overruns_iff hcommand, hsum, hjson]
        simp
    | false =>
      have hformat : invocation.format = .text := if_neg (by rw [hjson]; nofun)
      rw [hformat]
      dsimp only [Output.reportText, Report.render]
      obtain ⟨hmany, hset⟩ | ⟨hfew, distance, hset⟩ := DistanceStyle.format_ofPrecision
        (precision.or s.precision) (Report.ofInputs s.inputs).distance
      · rw [hset]
        exact .fault ((overruns_iff hcommand).mpr (.inr ⟨hjson, hmany⟩))
      · rw [hset]
        refine .answer ?_ ?_
        · rw [Says, hformat, hcommand]
          refine ⟨distance, hset, ?_⟩
          rw [← Report.sum_ofInputs hsum]
        · rw [overruns_iff hcommand, hsum]
          rintro (h | ⟨-, hmany⟩)
          · cases h
          · exact hfew hmany

/-- A command has something to say, or fails in starting a settings file, or overruns. -/
theorem act_comesTo (hcurrent : here.tree.currentPath? = some current) :
    invocation.ComesTo here current s (invocation.act here s).result := by
  cases hcommand : invocation.command with
  | report precision => exact act_report_comesTo hcommand
  | initialise force =>
    unfold act Settings.initialiseHere
    rw [hcommand, hcurrent]
    dsimp only
    have hcases := Settings.initialise_cases here.tree current force
    generalize Settings.initialise here.tree current force = started at hcases ⊢
    obtain ⟨result, tree⟩ := started
    obtain hpath | ⟨e, he, hcode⟩ := hcases
    · cases hpath
      refine .answer ?_ (not_overruns fun precision h => nomatch hcommand.symm.trans h)
      rw [Says, envelope, hcommand]
      cases invocation.format with
      | json => rfl
      | text => rfl
    · cases he
      exact .failure hcommand hcode
  | settings =>
    unfold act
    rw [hcommand]
    refine .answer ?_ (not_overruns fun precision h => nomatch hcommand.symm.trans h)
    rw [Says, envelope, hcommand]
    cases invocation.format with
    | json => rfl
    | text => rfl

end Invocation
end PlaneReport
