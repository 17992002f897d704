import PlaneReport.Proofs.Workspace.Initialise
import PlaneReport.Proofs.Workspace.Lookup

/-!
# Runs with a settings file that was asked for

A path that was given for the settings leads to the file it names, or to one further up, or nowhere.
Whichever it is, the standard settings overlaid with that file, if any, and with the environment
govern the run, or end it if they cannot be used.  Nothing tells a run that succeeds with the named
file from one that found no such file.  Main statement: `program_of_config`.
-/

namespace PlaneReport

namespace FileTree

/-- The file that is read for a path: the named one, or else one further up, or else none. -/
inductive Sought (tree : FileTree) (current path : String) : Option String → Prop
  | named (hfile : tree.isFile (Path.join current path) = true) :
    Sought tree current path (some (Path.join current path))
  | above {found : String} (hfound : tree.FoundAbove current path found) :
    Sought tree current path (some found)
  | missing (hfile : tree.isFile (Path.join current path) = false)
    (hlocal : tree.IsLocal current path) : Sought tree current path none

variable {tree : FileTree} {current path : String} {file? : Option String}

theorem exists_sought (tree : FileTree) (current path : String) :
    ∃ file?, tree.Sought current path file? := by
  by_cases hlocal : tree.IsLocal current path
  · cases hfile : tree.isFile (Path.join current path) with
    | true => exact ⟨_, .named hfile⟩
    | false => exact ⟨none, .missing hfile hlocal⟩
  · obtain ⟨found, hfound⟩ := exists_foundAbove hlocal
    exact ⟨some found, .above hfound⟩

/-- If the named file is there, no other one is read. -/
theorem Sought.eq_named (h : tree.Sought current path file?)
    (hfile : tree.isFile (Path.join current path) = true) :
    file? = some (Path.join current path) := by
  cases h with
  | named _ => rfl
  | above hfound => cases hfile.symm.trans hfound.isFile_named
  | missing hnone _ => cases hfile.symm.trans hnone

end FileTree

namespace Settings

variable {tree : FileTree} {current path : String} {file? : Option String}

/-- The settings are the layering with the file that is read, if one is. -/
theorem loadFrom_of_sought (hcurrent : tree.currentPath? = some current)
    (h : tree.Sought current path file?) (environment : Environment) :
    loadFrom tree environment path =
      layering environment (Path.shown (some current) (file?.getD path))
        (file?.bind tree.read?) := by
  cases h with
  | named hfile => exact loadFrom_of_isLocal hcurrent (.inr (.inl hfile)) environment
  | above hfound => exact loadFrom_of_foundAbove hcurrent hfound environment
  | missing hfile hlocal =>
    rw [FileTree.isFile_eq_isSome_read?, Option.isSome_eq_false_iff, Option.isNone_iff_eq_none]
      at hfile
    rw [loadFrom_of_isLocal hcurrent hlocal, hfile]
    simp only [Option.bind_none, layering]

theorem usable?_eq_some_iff {loaded : Except LoadError Settings} {s : Settings} :
    usable? loaded = some s ↔ loaded = .ok s ∧ (Level.ofText? s.level).isSome = true := by
  cases loaded with
  | error e => exact ⟨nofun, fun h => nomatch h.1⟩
  | ok s' =>
    rw [usable?]
    simp only [Except.toOption, Option.filter_eq_some_iff, Option.some.injEq, Except.ok.injEq]

end Settings

namespace Run

/-- A path that was given for the settings leads to some file or to none, and nothing but the
settings with that file governs the run: it has their fate if they can be used, and is refused as a
configuration error if not.  So a run that succeeds went by the named file if there is one; if
there is none, it may still succeed, with a file further up or with none at all. -/
theorem program_of_config {arguments : List String} {invocation : Invocation} {here : Surroundings}
    {path current : String} {stdout stderr : Sink}
    (hparse : Arguments.parse arguments = .ok invocation) (hconfig : invocation.config = some path)
    (hcurrent : here.tree.currentPath? = some current)
    (hstdout : stdout.AcceptsAll) (hstderr : stderr.AcceptsAll) :
    let outcome := program arguments here stdout stderr
    let named := Path.join current path
    ∃ file?, here.tree.Sought current path file? ∧
      (here.tree.isFile named = true → file? = some named) ∧
      let loaded := Settings.layering here.environment
        (Path.shown (some current) (file?.getD path)) (file?.bind here.tree.read?)
      (∀ s, loaded = .ok s → (Level.ofText? s.level).isSome = true →
        outcome.Meets stdout (invocation.fate here s)) ∧
      ((∀ s, loaded = .ok s → (Level.ofText? s.level).isSome = false) →
        outcome.Meets stdout ⟨6, [], here.tree⟩) ∧
      (outcome.ending.code = 0 → ∃ s, loaded = .ok s ∧ (Level.ofText? s.level).isSome = true ∧
        outcome.Meets stdout (invocation.fate here s)) := by
  intro outcome named
  obtain ⟨file?, hsought⟩ := here.tree.exists_sought current path
  refine ⟨file?, hsought, hsought.eq_named, ?_⟩
  intro loaded
  have hloaded : invocation.settings? here = Settings.usable? loaded := by
    rw [Invocation.settings?, hconfig]
    exact congrArg Settings.usable? (Settings.loadFrom_of_sought hcurrent hsought _)
  obtain ⟨s, hs, hmeets⟩ | ⟨hnone, hmeets⟩ :=
    @program_meets invocation here stdout stderr arguments hparse hstdout hstderr
  · obtain ⟨hok, hlevel⟩ := Settings.usable?_eq_some_iff.mp (hloaded.symm.trans hs)
    refine ⟨fun s' hok' _ => ?_, fun hunnamed => ?_, fun _ => ⟨s, hok, hlevel, hmeets⟩⟩
    · cases hok.symm.trans hok'
      exact hmeets
    · cases hlevel.symm.trans (hunnamed s hok)
  · refine ⟨fun s hok hlevel => ?_, fun _ => hmeets, fun hcode => ?_⟩
    · have hsome := Settings.usable?_eq_some_iff.mpr ⟨hok, hlevel⟩
      cases hsome.symm.trans (hloaded.symm.trans hnone)
    · cases hcode.symm.trans hmeets.code

/-- From the directory below, the settings file governs the run although the path names none. -/
theorem program_of_config_outer :
    let arguments := ["--config", "settings.toml", "config"]
    let invocation : Invocation := ⟨.settings, some "settings.toml", false, false⟩
    let here : Surroundings := ⟨Settings.outerTree, [], "", .plain⟩
    Arguments.parse arguments = .ok invocation ∧ here.tree.currentPath? = some "/inner" ∧
      here.tree.isFile (Path.join "/inner" "settings.toml") = false ∧
      (program arguments here {} {}).Meets {}
        (invocation.fate here { Settings.standard with version := 2 }) := by
  intro arguments invocation here
  have hparse : Arguments.parse arguments = .ok invocation := by decide
  have hcurrent : here.tree.currentPath? = some "/inner" := by decide
  have hfile : here.tree.isFile (Path.join "/inner" "settings.toml") = false := by decide +kernel
  have habove : ¬ here.tree.IsLocal "/inner" "settings.toml" := by decide
  have hlookup : here.tree.lookUp? "settings.toml" = some "/settings.toml" := by decide
  have hloaded : Settings.layering [] (Path.shown (some "/inner") "/settings.toml")
      (here.tree.read? "/settings.toml") = .ok { Settings.standard with version := 2 } := by
    decide +kernel
  obtain ⟨file?, hsought, -, hmeets, -⟩ :=
    @program_of_config _ _ _ _ _ {} {} hparse rfl hcurrent (by decide) (by decide)
  refine ⟨hparse, hcurrent, hfile, ?_⟩
  cases hsought with
  | named hnamed => cases hfile.symm.trans hnamed
  | above hfound =>
    cases hlookup.symm.trans (hfound.lookUp?_eq hcurrent)
    exact hmeets _ hloaded (by decide)
  | missing _ hlocal => exact absurd hlocal habove

/-- A directory and a link that leads nowhere, each in the place of a settings file. -/
def vainTree : FileTree where
  root := .directory [("settings.toml", .directory []), ("linked.toml", .link "gone")]
  current := []

theorem program_of_vain_path :
    ∀ path ∈ ["settings.toml", "linked.toml", "setings.toml"],
      vainTree.isFile (Path.join "/" path) = false ∧
        (program ["--config", path] ⟨vainTree, [], "", .plain⟩ {} {}).ending.code = 0 := by
  have hall : ∀ path ∈ ["settings.toml", "linked.toml", "setings.toml"],
      vainTree.isFile (Path.join "/" path) = false ∧
        Arguments.parse ["--config", path] = .ok ⟨.report none, some path, false, false⟩ ∧
        Settings.usable? (Settings.loadFrom vainTree [] path) = some Settings.standard := by
    decide +kernel
  intro path hpath
  obtain ⟨hfile, hparse, hsettings⟩ := hall path hpath
  refine ⟨hfile, ?_⟩
  obtain ⟨s, hs, hmeets⟩ | ⟨hnone, -⟩ :=
    @program_meets _ ⟨vainTree, [], "", .plain⟩ {} {} _ hparse (by decide) (by decide)
  · have hstandard : s = Settings.standard := Option.some.inj (hs.symm.trans hsettings)
    have hfate := fate_standard ⟨vainTree, [], "", .plain⟩ (by decide)
    rw [hmeets.code, hstandard]
    exact congrArg Fate.code hfate
  · cases hsettings.symm.trans hnone

/-- None of these paths names a file, and no run with one of them tells. -/
theorem program_of_config_ignored :
    (vainTree.isFile (Path.join "/" "settings.toml") = false ∧
        (program ["--config", "settings.toml"] ⟨vainTree, [], "", .plain⟩ {} {}).ending.code = 0) ∧
      (vainTree.isFile (Path.join "/" "linked.toml") = false ∧
        (program ["--config", "linked.toml"] ⟨vainTree, [], "", .plain⟩ {} {}).ending.code = 0) ∧
      vainTree.isFile (Path.join "/" "setings.toml") = false ∧
        (program ["--config", "setings.toml"] ⟨vainTree, [], "", .plain⟩ {} {}).ending.code = 0 :=
  ⟨program_of_vain_path _ (by decide), program_of_vain_path _ (by decide),
    program_of_vain_path _ (by decide)⟩

end Run
end PlaneReport
