import PlaneReport.Proofs.Command.Informed
import PlaneReport.Proofs.FileTree.Exchange
import PlaneReport.Proofs.Layer.Masked
import PlaneReport.Proofs.Workspace.Initialise

/-!
# Runs that differ in how much they log

How much a run logs is up to an option, to a variable and to the settings.  None of these has a part
in what the run prints, in its exit code or in what it does to the file tree.  Main statement:
`program_logging`.
-/

namespace PlaneReport

/-! ## Settings files -/

/-- Contents of files that are well formed and the same but for texts that name log levels. -/
def SameButLevels (content content' : ByteArray) : Prop :=
  ∃ text text' outline outline', content = text.toUTF8 ∧ content' = text'.toUTF8 ∧
    Toml.outline? .v1_0 text = some outline ∧ Toml.outline? .v1_0 text' = some outline' ∧
    outline.masked = outline'.masked

theorem Layer.ofContent_masked {content content' : ByteArray} (h : SameButLevels content content')
    (shown : String) :
    (ofContent shown content).toOption.map Value.masked =
      (ofContent shown content').toOption.map Value.masked := by
  obtain ⟨text, text', outline, outline', rfl, rfl, hread, hread', hmasked⟩ := h
  have hlayer := Layer.ofOutline?_masked (.file shown) outline
  rw [hmasked, Layer.ofOutline?_masked] at hlayer
  rw [Settings.ofContent_toUTF8, Settings.ofContent_toUTF8, hread, hread', Option.bind_some,
    Option.bind_some]
  generalize Value.ofOutline? (.file shown) outline = value? at hlayer ⊢
  generalize Value.ofOutline? (.file shown) outline' = value?' at hlayer ⊢
  cases value? <;> cases value?' <;> simp_all [Except.toOption]

/-! ## Loading -/

section Load

variable {tree tree' : FileTree} {environment environment' : Environment} {place : Location}
  {content content' : ByteArray}

theorem FileTree.fileLayer_masked (htrees : tree.SameBut place content content' tree')
    (hcontents : SameButLevels content content') (path : String) :
    (tree'.fileLayer path).toOption.map Layer.Value.masked =
      (tree.fileLayer path).toOption.map Layer.Value.masked := by
  obtain rfl | ⟨hplace, rfl⟩ := htrees
  · rfl
  · have hcurrent : (tree.withFile place content').currentPath? = tree.currentPath? := rfl
    have hfile : (tree.withFile place content').isFile = tree.isFile :=
      funext (isFile_withFile hplace content')
    have hfound : (tree.withFile place content').lookUp? path = tree.lookUp? path := by
      rw [lookUp?, lookUp?, hcurrent, hfile]
    unfold fileLayer
    rw [hfound, hcurrent]
    cases tree.lookUp? path with
    | none => rfl
    | some found =>
      dsimp only
      obtain hread | ⟨hread, hread'⟩ := read?_withFile hplace content' found
      · rw [hread]
      · rw [hread, hread']
        exact (Layer.ofContent_masked hcontents _).symm

/-- The layer of the environment does not depend on the variable of the log. -/
theorem Environment.layer_filter (environment : Environment) :
    layer (environment.filter fun entry => entry.1 != "RUST_LOG") = layer environment := by
  have hlog : path? "RUST_LOG" = none := by decide
  have hsettings : (environment.filter fun entry => entry.1 != "RUST_LOG").filterMap setting? =
      environment.filterMap setting? := by
    induction environment with
    | nil => rfl
    | cons entry rest ih =>
      by_cases hname : entry.1 = "RUST_LOG"
      · have hsetting : setting? entry = none := by rw [setting?, hname, hlog, Option.map_none]
        rw [List.filterMap_cons_none hsetting, ← ih, List.filter_cons_of_neg (by simp [hname])]
      · rw [List.filter_cons_of_pos (by simp [hname]), List.filterMap_cons, List.filterMap_cons, ih]
  rw [layer, layer, hsettings]

namespace Settings

theorem loadFrom_masked (htrees : tree.SameBut place content content' tree')
    (hcontents : SameButLevels content content')
    (henvironment : environment'.layer = environment.layer) (path : String) :
    (loadFrom tree' environment' path).toOption.map masked =
      (loadFrom tree environment path).toOption.map masked := by
  have hlayer := FileTree.fileLayer_masked htrees hcontents path
  unfold loadFrom
  rw [henvironment]
  generalize tree.fileLayer path = file at hlayer ⊢
  generalize tree'.fileLayer path = file' at hlayer ⊢
  cases file with
  | error e =>
    cases file' with
    | error e' => rfl
    | ok file' => cases hlayer
  | ok file =>
    cases file' with
    | error e' => cases hlayer
    | ok file' =>
      have hfiles : file'.masked = file.masked := Option.some.inj hlayer
      show (ofLayers file' _).toOption.map masked = (ofLayers file _).toOption.map masked
      rw [ofLayers_masked, ofLayers_masked, hfiles]

theorem load_masked (htrees : tree.SameBut place content content' tree')
    (hcontents : SameButLevels content content')
    (henvironment : environment'.layer = environment.layer) :
    (load tree' environment').toOption.map masked =
      (load tree environment).toOption.map masked := by
  have hsearch : tree'.workspaceSettings? = tree.workspaceSettings? := by
    obtain rfl | ⟨hplace, rfl⟩ := htrees
    · rfl
    · have hfile : (tree.withFile place content').isFile = tree.isFile :=
        funext (FileTree.isFile_withFile hplace content')
      show tree.currentPath?.bind _ = _
      unfold FileTree.workspaceSettings? FileTree.findSettings?
      rw [hfile]
  rw [load, load, hsearch]
  exact loadFrom_masked htrees hcontents henvironment _

/-- A level that is masked still has a name. -/
theorem usable?_masked {loaded loaded' : Except LoadError Settings}
    (h : loaded'.toOption.map masked = loaded.toOption.map masked) :
    (usable? loaded').map masked = (usable? loaded).map masked := by
  have hlevel : (fun s : Settings => (Level.ofText? s.level).isSome) ∘ masked =
      fun s => (Level.ofText? s.level).isSome := by
    funext s
    rw [Function.comp_apply, masked, Level.isSome_ofText?_masked]
  have husable : ∀ loaded : Except LoadError Settings, (usable? loaded).map masked =
      (loaded.toOption.map masked).filter fun s => (Level.ofText? s.level).isSome := by
    intro loaded
    rw [usable?, Option.filter_map, hlevel]
  rw [husable, husable, h]

end Settings

end Load

namespace Invocation

variable {here here' : Surroundings} {place : Location} {content content' : ByteArray}

theorem settings?_masked (invocation : Invocation) (info : Bool)
    (htrees : here.tree.SameBut place content content' here'.tree)
    (hcontents : SameButLevels content content')
    (henvironment : here'.environment.layer = here.environment.layer) :
    (settings? { invocation with info := info } here').map Settings.masked =
      (settings? invocation here).map Settings.masked := by
  unfold settings?
  dsimp only
  cases invocation.config with
  | some path =>
    exact Settings.usable?_masked (Settings.loadFrom_masked htrees hcontents henvironment path)
  | none =>
    have hload := Settings.usable?_masked (Settings.load_masked htrees hcontents henvironment)
    generalize Settings.usable? (Settings.load here.tree here.environment) = usable? at hload ⊢
    generalize Settings.usable? (Settings.load here'.tree here'.environment) = usable?' at hload ⊢
    cases usable? <;> cases usable?' <;> simp_all

/-- Under settings that differ in their log level at most, a command leaves the same behind. -/
theorem fate_masked {invocation : Invocation} {s s' : Settings} (info : Bool)
    (hcommand : invocation.command ≠ .settings) (hsettings : s'.masked = s.masked)
    (hnow : here'.now = here.now) (hrooted : here.tree.IsRooted)
    (htrees : here.tree.SameBut place content content' here'.tree)
    (hcut : Log.isUncuttable here'.library.objection? here'.environment =
      Log.isUncuttable here.library.objection? here.environment) :
    (fate { invocation with info := info } here' s').code = (invocation.fate here s).code ∧
      (fate { invocation with info := info } here' s').printed =
        (invocation.fate here s).printed ∧
      (here'.tree = here.tree →
        (fate { invocation with info := info } here' s').tree = (invocation.fate here s).tree) ∧
      (invocation.fate here s).tree.SameBut place content content'
        (fate { invocation with info := info } here' s').tree := by
  have hinputs : s'.inputs = s.inputs := (Settings.mk.inj hsettings).2.1
  have hprecision : s'.precision = s.precision := (Settings.mk.inj hsettings).2.2.1
  unfold fate
  rw [hcut]
  split
  · exact ⟨rfl, rfl, id, htrees⟩
  · unfold act
    dsimp only [format]
    cases hthis : invocation.command with
    | settings => exact absurd hthis hcommand
    | report precision =>
      dsimp only
      rw [hinputs, hprecision, hnow]
      cases Report.compute s.inputs with
      | error fault => exact ⟨rfl, rfl, id, htrees⟩
      | ok report =>
        dsimp only
        cases Output.reportText _ report _ here.now with
        | error fault => exact ⟨rfl, rfl, id, htrees⟩
        | ok text => exact ⟨rfl, rfl, id, htrees⟩
    | initialise force =>
      obtain ⟨hresult, htree⟩ := Settings.initialiseHere_sameBut htrees hrooted force
      have hequal : here'.tree = here.tree → (Settings.initialiseHere here'.tree force).2 =
          (Settings.initialiseHere here.tree force).2 := fun h => by rw [h]
      dsimp only
      rw [hnow]
      generalize Settings.initialiseHere here.tree force = started at hresult htree hequal ⊢
      generalize Settings.initialiseHere here'.tree force = started' at hresult htree hequal ⊢
      obtain ⟨result, after⟩ := started
      obtain ⟨result', after'⟩ := started'
      cases hresult
      cases result with
      | error e => exact ⟨rfl, rfl, hequal, htree⟩
      | ok path => exact ⟨rfl, rfl, hequal, htree⟩

end Invocation

namespace Run

/-- How much is logged has no part in what a run prints, in its exit code or in what becomes of the
file tree: with or without `--info`, under any value of `RUST_LOG` and with any name of a level in a
settings file the effect is the same.  The log itself has to be possible in both runs or in neither,
if there are settings to run with. -/
theorem program_logging {arguments arguments' : List String} {invocation invocation' : Invocation}
    {here here' : Surroundings} {place : Location} {content content' : ByteArray}
    {stdout stderr stdout' stderr' : Sink}
    (harguments : Arguments.Informed arguments arguments')
    (hparse : Arguments.parse arguments = .ok invocation)
    (hparse' : Arguments.parse arguments' = .ok invocation')
    (hcommand : invocation.command ≠ .settings)
    (henvironment : (here'.environment.filter fun entry => entry.1 != "RUST_LOG") =
      here.environment.filter fun entry => entry.1 != "RUST_LOG")
    (hnow : here'.now = here.now) (hrooted : here.tree.IsRooted)
    (hcontents : SameButLevels content content')
    (htrees : here.tree.SameBut place content content' here'.tree)
    (hcut : (invocation.settings? here).isSome = true →
      Log.isUncuttable here'.library.objection? here'.environment =
        Log.isUncuttable here.library.objection? here.environment)
    (hstdout : stdout.AcceptsAll) (hstderr : stderr.AcceptsAll)
    (hstdout' : stdout'.AcceptsAll) (hstderr' : stderr'.AcceptsAll) :
    let outcome := program arguments here stdout stderr
    let outcome' := program arguments' here' stdout' stderr'
    outcome'.ending.code = outcome.ending.code ∧
      (∃ printed, outcome.stdout.taken = stdout.taken ++ printed ∧
        outcome'.stdout.taken = stdout'.taken ++ printed) ∧
      (here'.tree = here.tree → outcome'.tree = outcome.tree) ∧
      outcome.tree.SameBut place content content' outcome'.tree := by
  intro outcome outcome'
  have hlayer : here'.environment.layer = here.environment.layer := by
    rw [← Environment.layer_filter, henvironment, Environment.layer_filter]
  have hsettings := invocation.settings?_masked invocation'.info htrees hcontents hlayer
  rw [← Arguments.parse_informed harguments hparse hparse'] at hsettings
  obtain ⟨s, hs, hmeets⟩ | ⟨hnone, hmeets⟩ :=
    @program_meets invocation here stdout stderr arguments hparse hstdout hstderr
  · obtain ⟨s', hs', hmeets'⟩ | ⟨hnone', -⟩ :=
      @program_meets invocation' here' stdout' stderr' arguments' hparse' hstdout' hstderr'
    · rw [hs, hs'] at hsettings
      rw [hs] at hcut
      obtain ⟨hcode, hprinted, hequal, htree⟩ := Invocation.fate_masked invocation'.info hcommand
        (Option.some.inj hsettings) hnow hrooted htrees (hcut rfl)
      rw [← Arguments.parse_informed harguments hparse hparse'] at hcode hprinted hequal htree
      refine ⟨?_, ⟨_, hmeets.printed, ?_⟩, fun h => ?_, ?_⟩
      · exact hmeets'.code.trans (hcode.trans hmeets.code.symm)
      · rw [← hprinted]
        exact hmeets'.printed
      · exact hmeets'.tree.trans ((hequal h).trans hmeets.tree.symm)
      · rw [hmeets.tree, hmeets'.tree]
        exact htree
    · rw [hs, hnone'] at hsettings
      cases hsettings
  · obtain ⟨s', hs', -⟩ | ⟨-, hmeets'⟩ :=
      @program_meets invocation' here' stdout' stderr' arguments' hparse' hstdout' hstderr'
    · rw [hnone, hs'] at hsettings
      cases hsettings
    · refine ⟨?_, ⟨[], hmeets.printed, hmeets'.printed⟩, fun h => ?_, ?_⟩
      · exact hmeets'.code.trans hmeets.code.symm
      · exact hmeets'.tree.trans (h.trans hmeets.tree.symm)
      · rw [hmeets.tree, hmeets'.tree]
        exact htrees

/-- The content of a settings file that gives nothing but a log level. -/
def levelContent (level : String) : ByteArray :=
  ("[logging]\nlevel = \"" ++ level ++ "\"\n").toUTF8

/-- A tree with such a settings file. -/
def levelTree (level : String) : FileTree where
  root := .directory
    [(".planar", .directory [("settings.toml", .file (levelContent level))])]
  current := []

theorem levelContent_sameButLevels : SameButLevels (levelContent "info") (levelContent "5") := by
  refine ⟨_, _, .table [(some "logging", .table [(some "level", .string "info")] true)] true,
    .table [(some "logging", .table [(some "level", .string "5")] true)] true, rfl, rfl, ?_, ?_, ?_⟩
  · exact Outline.eq_some_of_same (by decide +kernel)
  · exact Outline.eq_some_of_same (by decide +kernel)
  · exact Outline.eq_of_same _ _ (by decide)

theorem levelTree_sameBut : (levelTree "info").SameBut [".planar", "settings.toml"]
    (levelContent "info") (levelContent "5") (levelTree "5") :=
  .inr ⟨rfl, rfl⟩

theorem program_logging_levels :
    ∃ outcome outcome',
      outcome = program ["run", "--precision", "1"]
        ⟨levelTree "info", [("PLANAR_INPUTS__A", "7")], "", .plain⟩ {} {} ∧
      outcome' = program ["run", "--info", "--precision", "1"]
        ⟨levelTree "5", [("RUST_LOG", "trace"), ("PLANAR_INPUTS__A", "7")], "", .plain⟩ {} {} ∧
      outcome'.ending.code = outcome.ending.code ∧
      outcome'.stdout.taken = outcome.stdout.taken ∧
      outcome.tree.SameBut [".planar", "settings.toml"] (levelContent "info") (levelContent "5")
        outcome'.tree := by
  have hparse : Arguments.parse ["run", "--precision", "1"] =
      .ok ⟨.report (some 1), none, false, false⟩ := by
    decide
  have hparse' : Arguments.parse ["run", "--info", "--precision", "1"] =
      .ok ⟨.report (some 1), none, false, true⟩ := by
    decide
  have hinformed : Arguments.Informed ["run", "--precision", "1"]
      ["run", "--info", "--precision", "1"] :=
    ⟨["run"], ["--precision", "1"], .inl rfl, .inr rfl⟩
  have hcut : Log.isUncuttable Library.plain.objection?
        [("RUST_LOG", "trace"), ("PLANAR_INPUTS__A", "7")] =
      Log.isUncuttable Library.plain.objection? [("PLANAR_INPUTS__A", "7")] := by
    decide
  have hmain := @program_logging _ _ _ _ ⟨levelTree "info", [("PLANAR_INPUTS__A", "7")], "", .plain⟩
    ⟨levelTree "5", [("RUST_LOG", "trace"), ("PLANAR_INPUTS__A", "7")], "", .plain⟩ _ _ _ {} {} {} {}
    hinformed hparse hparse' nofun (by decide) rfl ⟨_, rfl⟩ levelContent_sameButLevels
    levelTree_sameBut (fun _ => hcut) (by decide) (by decide) (by decide) (by decide)
  generalize program ["run", "--precision", "1"] _ {} {} = outcome at hmain ⊢
  generalize program ["run", "--info", "--precision", "1"] _ {} {} = outcome' at hmain ⊢
  obtain ⟨hcode, ⟨printed, hprinted, hprinted'⟩, -, htree⟩ := hmain
  exact ⟨outcome, outcome', rfl, rfl, hcode, hprinted'.trans hprinted.symm, htree⟩

/-- A log that cannot be filtered stops a run that succeeds without the variable. -/
theorem program_logging_stopped :
    (program [] ⟨Settings.bareTree, [], "", .plain⟩ {} {}).ending.code = 0 ∧
      (program [] ⟨Settings.bareTree, [("RUST_LOG", " é=x")], "", .plain⟩ {} {}).ending.code =
        101 := by
  have hparse : Arguments.parse [] = .ok ⟨.report none, none, false, false⟩ := by
    decide
  have hsettings : Settings.usable? (Settings.load Settings.bareTree []) =
      some Settings.standard := by
    decide +kernel
  constructor
  · obtain ⟨s, hs, hmeets⟩ := @program_meets_of_workspace _ ⟨Settings.bareTree, [], "", .plain⟩ {} {} _
      hparse rfl (by decide) (by decide)
    have hstandard : s = Settings.standard := by
      simpa [Invocation.settings?, hsettings] using hs.symm
    rw [hmeets.code, hstandard, fate_standard _ (by decide)]
  · have hcut : Log.isUncuttable Library.plain.objection? [("RUST_LOG", " é=x")] = true := by decide
    obtain ⟨s, -, hmeets⟩ := @program_meets_of_workspace _
      ⟨Settings.bareTree, [("RUST_LOG", " é=x")], "", .plain⟩ {} {} _ hparse rfl (by decide) (by decide)
    rw [hmeets.code, Invocation.fate_of_isUncuttable hcut]

end Run
end PlaneReport
