import PlaneReport.Proofs.Binary.Root
import PlaneReport.Proofs.Decimal.Digits
import PlaneReport.Proofs.FileTree.Frame
import PlaneReport.Proofs.FileTree.Vacant
import PlaneReport.Proofs.Run.Fate
import PlaneReport.Proofs.Settings.Template

/-!
# Starting a settings file

A settings file that is there is not overwritten unless that is demanded, and no other file is ever
touched.  What is written governs the next run, whatever other settings files there are.  Main
statement: `program_initialise`.
-/

namespace PlaneReport

namespace FileTree

variable {directory : String}

/-- A settings file is in the directory for settings. -/
theorem settingsPath_eq (directory : String) : settingsPath directory =
    Path.join directory settingsDirectory ++ "/" ++ "settings.toml" := by
  have hplanar : Path.isAbsolute ".planar" = false := by decide
  have hsettings : Path.isAbsolute "settings.toml" = false := by decide
  unfold settingsPath settingsDirectory Path.join
  apply String.toList_inj.mp
  by_cases hempty : directory.isEmpty = true
  · simp [hempty, hplanar, hsettings]
  · by_cases hslash : directory.toList.getLast? = some '/' <;>
      simp [hempty, hplanar, hsettings, hslash]

end FileTree

namespace Settings

variable {tree : FileTree} {directory : String} {force : Bool}

/-- What starting a settings file comes to. -/
inductive Starts (tree : FileTree) (directory : String) (force : Bool) :
    Except Error String × FileTree → Prop
  | refused {reason : String} (hforce : force = false)
    (hthere : tree.exists? (FileTree.settingsPath directory) = true) :
    Starts tree directory force (.error (.config reason), tree)
  | failed {place : String} {cause : IoError} {tree' : FileTree}
    (hallowed : ¬(force = false ∧ tree.exists? (FileTree.settingsPath directory) = true))
    (hspares : tree.Spares none tree') :
    Starts tree directory force (.error (.fileWrite place cause), tree')
  | written {tree' : FileTree} {location : Location}
    (hallowed : ¬(force = false ∧ tree.exists? (FileTree.settingsPath directory) = true))
    (hfind : tree'.find (FileTree.settingsPath directory) = .ok (.file template.toUTF8))
    (hspot : tree'.resolve true (FileTree.settingsPath directory) = .ok (.entry location false))
    (hspares : tree.Spares (some location) tree') :
    Starts tree directory force (.ok (FileTree.settingsPath directory), tree')

theorem initialise_starts (htree : tree.IsRooted) (h : Path.isAbsolute directory = true)
    (force : Bool) : Starts tree directory force (initialise tree directory force) := by
  have hpath := FileTree.isAbsolute_settingsPath h
  unfold initialise
  dsimp only
  split
  · next hthere =>
    rw [Bool.and_eq_true, Bool.not_eq_true'] at hthere
    exact .refused hthere.1 hthere.2
  · next hallowed =>
    replace hallowed : ¬(force = false ∧ tree.exists? (FileTree.settingsPath directory) = true) := by
      simpa using hallowed
    obtain ⟨tree', ⟨_, _, hwritten, -, hgrows⟩ | ⟨location, hwritten, hfind, hspot, hgrows⟩⟩ :=
      FileTree.writeBelow_grows (some (Path.join directory FileTree.settingsDirectory)) template
        (.of_isAbsolute htree hpath)
    · rw [hwritten]
      exact .failed hallowed hgrows.toSpares
    · rw [hwritten]
      exact .written hallowed hfind hspot hgrows.toSpares

/-- Nothing stops a settings file that may be overwritten. -/
theorem exists_initialise (htree : tree.IsRooted) (h : Path.isAbsolute directory = true)
    (hfits : (FileTree.settingsPath directory).utf8ByteSize ≤ longestPath)
    (hplace : tree.IsVacant (Path.join directory FileTree.settingsDirectory) ∨
      tree.isDirectory (Path.join directory FileTree.settingsDirectory) = true ∧
        (tree.IsVacant (FileTree.settingsPath directory) ∨
          tree.isFile (FileTree.settingsPath directory) = true)) :
    ∃ tree', initialise tree directory true = (.ok (FileTree.settingsPath directory), tree') := by
  have hname : Node.IsName "settings.toml" := ⟨by decide, by decide, by decide⟩
  rw [FileTree.settingsPath_eq] at hfits hplace
  obtain ⟨tree', hwritten⟩ := @FileTree.exists_writeBelow tree _ _ template htree
    (Path.isAbsolute_join h _) hname (by decide) (by decide) hfits hplace
  refine ⟨tree', ?_⟩
  unfold initialise
  dsimp only
  rw [FileTree.settingsPath_eq, hwritten]
  rfl

end Settings

/-! ## The report under the standard settings -/

namespace Inputs

open Binary Power

/-- Five, as a number of 64 bits. -/
def five : Magnitude double where
  significand := 5 * 2 ^ 50
  shift := 1024
  significand_lt := by decide
  shift_le := by decide
  canonical := .inr (by decide)

theorem distance_standard :
    standard.source.distance standard.target = .finite false five := by
  have hsquares : ∃ square : Magnitude double,
      (standard.source.x - standard.target.x) * (standard.source.x - standard.target.x) +
          (standard.source.y - standard.target.y) * (standard.source.y - standard.target.y) =
        .finite false square ∧ square.significand ≠ 0 ∧
          4 * (square.units * 2 ^ double.scale) = 2 * five.units * (2 * five.units) :=
    ⟨⟨25 * 2 ^ 48, 1026, by decide, by decide, .inr (by decide)⟩, by decide +kernel⟩
  obtain ⟨square, hsum, hsquare, hroot⟩ := hsquares
  rw [Point.distance, hsum, Number.sqrt_of_square hsquare hroot]
  decide +kernel

theorem leading_five : five.leading = 1 := by
  have hdigits : Decimal.digitCount (five.units * 10 ^ double.scale / 2 ^ double.scale) = 1075 := by
    apply Decimal.digitCount_eq <;> decide +kernel
  rw [Magnitude.leading, hdigits]
  decide

theorem text_five : Layout.exact.text (.finite false five) = "5.0" := by
  have hdigits : Layout.digitsOf .up five = (['5'], 1) := by
    rw [Layout.digitsOf, Decimal.shortest, leading_five]
    decide +kernel
  simp only [Layout.text, Layout.chars, Layout.magnitude, Layout.exact, hdigits]
  decide

theorem compute_standard :
    Report.compute standard = .ok ⟨3, .finite false five⟩ := by
  rw [Report.compute, distance_standard]
  decide

end Inputs

namespace Run

variable {invocation : Invocation} {here : Surroundings} {force : Bool} {current : String}

/-- A bare invocation under the standard settings. -/
theorem fate_standard (here : Surroundings)
    (hcut : Log.isUncuttable here.library.objection? here.environment = false) :
    Invocation.fate ⟨.report none, none, false, false⟩ here Settings.standard =
      ⟨0, "Sum: 3\nDistance: 5.0\n".toUTF8.toList, here.tree⟩ := by
  have hcompute : Report.compute Settings.standard.inputs = .ok ⟨3, .finite false Inputs.five⟩ :=
    Inputs.compute_standard
  have hreport : Output.reportText .text ⟨3, .finite false Inputs.five⟩
      (DistanceStyle.ofPrecision (Option.or none Settings.standard.precision)) here.now =
        .ok "Sum: 3\nDistance: 5.0" := by
    show Report.render _ .shortest = _
    rw [Report.render_shortest, Report.text, Inputs.text_five]
    decide
  have htext : "Sum: 3\nDistance: 5.0" ++ "\n" = "Sum: 3\nDistance: 5.0\n" := by decide
  simp only [Invocation.fate, hcut, Bool.false_eq_true, if_false, Invocation.act, hcompute,
    Invocation.format, hreport, Deed.fate, htext]
  rfl

/-- What a run that starts a settings file leaves behind. -/
theorem fate_initialise (hcommand : invocation.command = .initialise force)
    (hcurrent : here.tree.currentPath? = some current)
    (hcut : Log.isUncuttable here.library.objection? here.environment = false) (s : Settings)
    {result : Except Error String} {tree' : FileTree}
    (h : Settings.initialise here.tree current force = (result, tree')) :
    (invocation.fate here s).tree = tree' ∧ (invocation.fate here s).code =
      match result with
      | .ok _ => 0
      | .error e => e.exitCode.value := by
  simp only [Invocation.fate, hcut, Invocation.act, hcommand, Settings.initialiseHere, hcurrent, h]
  cases result <;> exact ⟨rfl, rfl⟩

/-- Where the settings file of the current directory is the template, a bare run is governed by the
standard settings, unless the log cannot be filtered. -/
theorem program_of_template {stdout stderr : Sink}
    (hcurrent : here.tree.currentPath? = some current)
    (hfind : here.tree.find (FileTree.settingsPath current) = .ok (.file Settings.template.toUTF8))
    (hsilent : here.environment.IsSilent)
    (hstdout : stdout.AcceptsAll) (hstderr : stderr.AcceptsAll) :
    let outcome := program [] here stdout stderr
    let uncuttable := Log.isUncuttable here.library.objection? here.environment
    (uncuttable = false → outcome.ending.code = 0 ∧
      outcome.stdout.taken = stdout.taken ++ "Sum: 3\nDistance: 5.0\n".toUTF8.toList) ∧
    (uncuttable = true → outcome.ending.code = 101 ∧ outcome.tree = here.tree) := by
  have hparse : Arguments.parse [] = .ok ⟨.report none, none, false, false⟩ := by
    decide
  have hnearest : here.tree.findSettings? current = some (FileTree.settingsPath current) := by
    obtain ⟨further, hancestors⟩ : ∃ further, Path.ancestors current = current :: further := ⟨_, rfl⟩
    refine FileTree.findSettings?_eq_some_iff.mpr ⟨[], current, further, hancestors, rfl, ?_, nofun⟩
    rw [FileTree.isFile, hfind]
  have hread : here.tree.read? (FileTree.settingsPath current) = some Settings.template.toUTF8 := by
    rw [FileTree.read?, hfind]
  have hload : Settings.load here.tree here.environment = .ok Settings.standard :=
    Settings.load_template hcurrent hnearest hread hsilent
  have hsettings : Invocation.settings? ⟨.report none, none, false, false⟩ here =
      some Settings.standard := by
    have husable : Settings.usable? (.ok Settings.standard) = some Settings.standard := by
      decide +kernel
    simp [Invocation.settings?, hload, husable]
  obtain ⟨s, hs, hmeets⟩ := @program_meets_of_workspace _ here _ _ _ hparse rfl hstdout hstderr
  cases hsettings.symm.trans hs
  constructor
  · intro hcut
    rw [fate_standard here hcut] at hmeets
    exact ⟨hmeets.code, hmeets.printed⟩
  · intro hcut
    rw [Invocation.fate_of_isUncuttable hcut] at hmeets
    exact ⟨hmeets.code, hmeets.tree⟩

/-- A settings file is started in the current directory, unless the log cannot be filtered.  One that
is there is overwritten only on demand.  After a success the file is the template, only it has
changed, and the next run starts from the standard settings, whatever settings there were before.
After a failure no file is new or changed.  With the demand nothing stops it but a path that is too
long, something that is no directory in the place of the directory for settings, or something that is
no file in the place of the file. -/
theorem program_initialise {arguments : List String} {invocation : Invocation}
    {here : Surroundings} {current : String} {force : Bool} {stdout stderr : Sink}
    (hparse : Arguments.parse arguments = .ok invocation)
    (hcommand : invocation.command = .initialise force) (hconfig : invocation.config = none)
    (hcurrent : here.tree.currentPath? = some current) (hrooted : here.tree.IsRooted)
    (hstdout : stdout.AcceptsAll) (hstderr : stderr.AcceptsAll) :
    let directory := Path.join current FileTree.settingsDirectory
    let path := FileTree.settingsPath current
    let outcome := program arguments here stdout stderr
    let code := outcome.ending.code
    let uncuttable := Log.isUncuttable here.library.objection? here.environment
    (uncuttable = true → code = 101 ∧ outcome.tree = here.tree) ∧
    (force = false → here.tree.exists? path = true →
      (uncuttable = false → code = 6) ∧ outcome.tree = here.tree) ∧
    (code = 0 →
      outcome.tree.read? path = some Settings.template.toUTF8 ∧
      (∃ location, outcome.tree.resolve true path = .ok (.entry location false) ∧
        (here.tree.isFile path = true →
          here.tree.resolve true path = .ok (.entry location false)) ∧
        here.tree.Spares (some location) outcome.tree) ∧
      ∀ (environment : Environment) (now : String) (library : Library) (stdout stderr : Sink),
        environment.IsSilent → stdout.AcceptsAll → stderr.AcceptsAll →
        let next := program [] ⟨outcome.tree, environment, now, library⟩ stdout stderr
        let uncuttable := Log.isUncuttable library.objection? environment
        (uncuttable = false → next.ending.code = 0 ∧
          next.stdout.taken = stdout.taken ++ "Sum: 3\nDistance: 5.0\n".toUTF8.toList) ∧
        (uncuttable = true → next.ending.code = 101 ∧ next.tree = outcome.tree)) ∧
    (code ≠ 0 → here.tree.Spares none outcome.tree) ∧
    (force = true → uncuttable = false → path.utf8ByteSize ≤ longestPath →
      (here.tree.IsVacant directory ∨ here.tree.isDirectory directory = true ∧
        (here.tree.IsVacant path ∨ here.tree.isFile path = true)) → code = 0) := by
  intro directory path outcome code uncuttable
  have habsolute := FileTree.isAbsolute_of_currentPath? hcurrent
  obtain ⟨s, -, hmeets⟩ : ∃ s, _ ∧ outcome.Meets stdout (invocation.fate here s) :=
    program_meets_of_workspace hparse hconfig hstdout hstderr
  have hcode : code = (invocation.fate here s).code := hmeets.code
  have htree : outcome.tree = (invocation.fate here s).tree := hmeets.tree
  cases hcut : Log.isUncuttable here.library.objection? here.environment with
  | true =>
    rw [Invocation.fate_of_isUncuttable hcut] at hcode htree
    have hcode : code = 101 := hcode
    have htree : outcome.tree = here.tree := htree
    have hnot : uncuttable ≠ false := ne_of_eq_of_ne hcut nofun
    refine ⟨fun _ => ⟨hcode, htree⟩, fun _ _ => ⟨fun h => absurd h hnot, htree⟩, by omega,
      fun _ => ?_, fun _ h => absurd h hnot⟩
    rw [htree]
    exact .refl _ _
  | false =>
    have hnot : uncuttable ≠ true := ne_of_eq_of_ne hcut nofun
    have hstarts := Settings.initialise_starts hrooted habsolute force
    obtain ⟨result, tree', hstarted⟩ : ∃ result tree',
        Settings.initialise here.tree current force = (result, tree') := ⟨_, _, rfl⟩
    obtain ⟨hfateTree, hfateCode⟩ := fate_initialise hcommand hcurrent hcut s hstarted
    rw [hfateTree] at htree
    rw [hfateCode] at hcode
    rw [hstarted] at hstarts
    refine ⟨fun h => absurd h hnot, ?_⟩
    cases hstarts with
    | refused hforce hthere =>
      have hcode : code = 6 := hcode
      refine ⟨fun _ _ => ⟨fun _ => hcode, htree⟩, by omega, fun _ => ?_, fun h => ?_⟩
      · rw [htree]
        exact .refl _ _
      · cases hforce.symm.trans h
    | failed hallowed hspares =>
      have hcode : code = 5 := hcode
      refine ⟨fun hforce hthere => absurd ⟨hforce, hthere⟩ hallowed, by omega, fun _ => ?_, ?_⟩
      · rwa [htree]
      · rintro rfl - hfits hplace
        obtain ⟨tree'', hdone⟩ := Settings.exists_initialise hrooted habsolute hfits hplace
        cases hstarted.symm.trans hdone
    | @written _ location hallowed hfind hspot hspares =>
      have hcode : code = 0 := hcode
      refine ⟨fun hforce hthere => absurd ⟨hforce, hthere⟩ hallowed, fun _ => ?_, by omega,
        fun _ _ _ _ => hcode⟩
      rw [htree]
      refine ⟨?_, ⟨location, hspot, ?_, hspares⟩, ?_⟩
      · rw [FileTree.read?, hfind]
      · exact hspares.resolve_of_isFile hspot
      · intro environment now library stdout stderr hsilent hstdout hstderr
        have hcurrent' : tree'.currentPath? = some current := hspares.currentPath?_eq.trans hcurrent
        exact @program_of_template ⟨tree', environment, now, library⟩ _ _ _ hcurrent' hfind hsilent
          hstdout hstderr

/-- A link leads to the directory for settings, and another one to a settings file that is broken.
There is one more further up. -/
def linkedTree : FileTree where
  root := .directory
    [(".planar", .directory [("settings.toml", .file "version = 2\n".toUTF8)]),
      ("shared", .directory
        [("settings.toml", .link "real.toml"), ("real.toml", .file "version = [".toUTF8)]),
      ("home", .directory [(".planar", .link "../shared")])]
  current := ["home"]

theorem program_initialise_linked :
    Arguments.parse ["init", "--force"] = .ok ⟨.initialise true, none, false, false⟩ ∧
      linkedTree.exists? "/home/.planar/settings.toml" = true ∧
      ∃ outcome, outcome =
          program ["init", "--force"] ⟨linkedTree, [("PLANAR_INPUTS__A", "7")], "", .plain⟩ {}
            {} ∧
        outcome.ending.code = 0 ∧
        (program [] ⟨outcome.tree, [("HOME", "/home")], "", .plain⟩ { chunk := some 3 }
            {}).stdout.taken =
          "Sum: 3\nDistance: 5.0\n".toUTF8.toList := by
  have hparse : Arguments.parse ["init", "--force"] = .ok ⟨.initialise true, none, false, false⟩ := by
    decide +kernel
  have hcurrent : linkedTree.currentPath? = some "/home" := by decide
  have hsilent : Environment.IsSilent [("HOME", "/home")] := by
    intro entry hentry
    rw [List.mem_singleton] at hentry
    subst hentry
    decide
  have hmain := @program_initialise _ _ ⟨linkedTree, [("PLANAR_INPUTS__A", "7")], "", .plain⟩ _ _
    {} {} hparse rfl rfl hcurrent ⟨_, rfl⟩ (by decide) (by decide)
  generalize program ["init", "--force"] _ {} {} = outcome at hmain ⊢
  obtain ⟨-, -, hsuccess, -, hforce⟩ := hmain
  have hcode : outcome.ending.code = 0 :=
    hforce rfl (by decide) (by decide)
      (.inr ⟨by decide, .inr (by decide +kernel)⟩)
  have hnext := (hsuccess hcode).2.2 [("HOME", "/home")] "" .plain { chunk := some 3 } {} hsilent
    (by decide) (by decide)
  exact ⟨hparse, by decide +kernel, outcome, rfl, hcode, (hnext.1 (by decide)).2⟩

/-- A name of 254 bytes. -/
def longName : String := String.ofList (List.replicate 254 'd')

/-- The names of directories that are nested so deeply that the path of a settings directory has 4088
bytes, and that of a settings file 14 more. -/
def deepNames : List String := List.replicate 16 longName

/-- Nothing but these directories. -/
def deepTree : FileTree where
  root := deepNames.foldr (fun name inner => .directory [(name, inner)]) (.directory [])
  current := deepNames

theorem get?_nested (names : List String) :
    Node.get? names (names.foldr (fun name inner => .directory [(name, inner)]) (.directory [])) =
      some (.directory []) := by
  induction names with
  | nil => rfl
  | cons name names ih => simpa [Node.get?] using ih

theorem eq_of_mem_longName {c : Char} (h : c ∈ longName.toList) : c = 'd' := by
  have htext : longName.toList = List.replicate 254 'd' := by
    unfold longName
    exact String.toList_ofList
  rw [htext, List.mem_replicate] at h
  exact h.2

theorem forall_deepNames {P : String → Prop} (hlong : P longName)
    (hlast : P FileTree.settingsDirectory) :
    ∀ name ∈ deepNames ++ [FileTree.settingsDirectory], P name := by
  intro name hname
  rw [deepNames, List.mem_append, List.mem_replicate, List.mem_singleton] at hname
  obtain ⟨-, rfl⟩ | rfl := hname
  · exact hlong
  · exact hlast

theorem longName_isPiece : Path.IsPiece longName :=
  fun h => absurd (eq_of_mem_longName h) (by decide)

theorem join_deepNames : Path.join ("/" ++ "/".intercalate deepNames) FileTree.settingsDirectory =
    "/" ++ "/".intercalate deepNames ++ "/" ++ FileTree.settingsDirectory :=
  Path.join_intercalate (by decide +kernel) longName_isPiece (List.replicate 15 longName) (by decide)

theorem deepTree_isVacant :
    deepTree.IsVacant (Path.join ("/" ++ "/".intercalate deepNames) FileTree.settingsDirectory) := by
  have hname : Node.IsName longName := ⟨by decide +kernel, by decide +kernel, by decide +kernel⟩
  have hclean : '\x00' ∉ longName.toList := fun h => absurd (eq_of_mem_longName h) (by decide)
  rw [join_deepNames]
  refine FileTree.isVacant_below (by decide)
    (forall_deepNames hname ⟨by decide, by decide, by decide⟩)
    (forall_deepNames longName_isPiece (by decide)) (forall_deepNames hclean (by decide))
    (by decide +kernel) ⟨[], get?_nested deepNames⟩ ?_
  rw [Node.get?_append, deepTree, get?_nested]
  rfl

/-- A settings file whose path is too long is not written, though the directory for it is created. -/
theorem code_of_tooLong {arguments : List String} {stdout stderr : Sink}
    (hparse : Arguments.parse arguments = .ok ⟨.initialise true, none, false, false⟩)
    (hcurrent : here.tree.currentPath? = some current) (hrooted : here.tree.IsRooted)
    (hcut : Log.isUncuttable here.library.objection? here.environment = false)
    (hlong : longestPath < (FileTree.settingsPath current).utf8ByteSize)
    (hstdout : stdout.AcceptsAll) (hstderr : stderr.AcceptsAll) :
    (program arguments here stdout stderr).ending.code = 5 := by
  obtain ⟨s, -, hmeets⟩ :=
    @program_meets_of_workspace _ here stdout stderr _ hparse rfl hstdout hstderr
  have habsolute := FileTree.isAbsolute_of_currentPath? hcurrent
  have hstarts := Settings.initialise_starts hrooted habsolute true
  obtain ⟨result, tree', hstarted⟩ : ∃ result tree',
      Settings.initialise here.tree current true = (result, tree') := ⟨_, _, rfl⟩
  rw [hmeets.code, (fate_initialise rfl hcurrent hcut s hstarted).2]
  rw [hstarted] at hstarts
  cases hstarts with
  | refused hforce _ => cases hforce
  | failed _ _ => rfl
  | written _ _ hspot _ =>
    have hpath := FileTree.isAbsolute_settingsPath habsolute
    exact absurd ((FileTree.resolve_eq_ok_iff hpath).mp hspot).1.2 (Nat.not_le_of_lt hlong)

/-- Two things stop a settings file that is there or that could be written: a log that cannot be
filtered, and a path that is too long. -/
theorem program_initialise_stopped :
    (linkedTree.currentPath? = some "/home" ∧
      linkedTree.exists? (FileTree.settingsPath "/home") = true ∧
      (program ["init"] ⟨linkedTree, [("RUST_LOG", " é=x")], "", .plain⟩ {} {}).ending.code = 101) ∧
    (deepTree.currentPath? = some ("/" ++ "/".intercalate deepNames) ∧
      deepTree.IsVacant
        (Path.join ("/" ++ "/".intercalate deepNames) FileTree.settingsDirectory) ∧
      (program ["init", "--force"] ⟨deepTree, [], "", .plain⟩ {} {}).ending.code = 5) := by
  refine ⟨⟨by decide, by decide +kernel, ?_⟩, rfl, deepTree_isVacant, ?_⟩
  · have hparse : Arguments.parse ["init"] = .ok ⟨.initialise false, none, false, false⟩ := by
      decide
    have hcut : Log.isUncuttable Library.plain.objection? [("RUST_LOG", " é=x")] = true := by decide
    obtain ⟨s, -, hmeets⟩ := @program_meets_of_workspace _
      ⟨linkedTree, [("RUST_LOG", " é=x")], "", .plain⟩ {} {} _ hparse rfl (by decide) (by decide)
    rw [hmeets.code, Invocation.fate_of_isUncuttable hcut]
  · have hparse : Arguments.parse ["init", "--force"] =
        .ok ⟨.initialise true, none, false, false⟩ := by
      decide
    have hlong : longestPath <
        (FileTree.settingsPath ("/" ++ "/".intercalate deepNames)).utf8ByteSize := by
      rw [FileTree.settingsPath_eq, join_deepNames]
      decide +kernel
    have hrooted : deepTree.IsRooted := ⟨_, rfl⟩
    exact @code_of_tooLong ⟨deepTree, [], "", .plain⟩ _ _ {} {} hparse rfl hrooted (by decide) hlong
      (by decide) (by decide)

end Run
end PlaneReport
