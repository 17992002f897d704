import PlaneReport.Proofs.Run.Fate

/-!
# Exit codes

With sinks that take everything a run ends in one of few ways, which the shell can tell by the exit
code.  Only an answer goes to the first sink; the log and errors go to the second.  Main statement:
`program_exit`.
-/

namespace PlaneReport

/-- The ways in which a command with settings ends, by exit code. -/
theorem Invocation.fate_cases (invocation : Invocation) {here : Surroundings} {current : String}
    (hcurrent : here.tree.currentPath? = some current) (s : Settings) :
    let fate := invocation.fate here s
    let breaks := Log.isUncuttable here.library.objection? here.environment = true ∨
      invocation.Overruns s
    (breaks ∧ fate.code = 101 ∧ fate.printed = []) ∨
      ¬ breaks ∧
        (((∃ force, invocation.command = .initialise force) ∧
            (fate.code = 5 ∨ fate.code = 6) ∧ fate.printed = []) ∨
          ∃ document, invocation.Says here current s document ∧ fate.code = 0 ∧
            fate.printed = (document ++ "\n").toUTF8.toList) := by
  intro fate breaks
  by_cases hcut : Log.isUncuttable here.library.objection? here.environment = true
  · refine .inl ⟨.inl hcut, ?_⟩
    rw [show fate = _ from fate_of_isUncuttable hcut invocation s]
    exact ⟨rfl, rfl⟩
  · have hfate : fate = (invocation.act here s).fate := if_neg hcut
    have hcomes := invocation.act_comesTo (s := s) hcurrent
    rw [hfate, Deed.fate]
    generalize (invocation.act here s).result = result at hcomes ⊢
    cases hcomes with
    | answer htext hoverruns =>
      exact .inr ⟨not_or.mpr ⟨hcut, hoverruns⟩, .inr ⟨_, htext, rfl, rfl⟩⟩
    | @failure e force hcommand hcode =>
      have hoverruns : ¬ invocation.Overruns s := by
        refine not_overruns fun precision hreport => ?_
        cases hcommand.symm.trans hreport
      have hcode : e.exitCode.value = 5 ∨ e.exitCode.value = 6 :=
        hcode.imp (congrArg ExitCode.value) (congrArg ExitCode.value)
      exact .inr ⟨not_or.mpr ⟨hcut, hoverruns⟩, .inl ⟨⟨_, hcommand⟩, hcode, rfl⟩⟩
    | fault hoverruns => exact .inl ⟨.inr hoverruns, rfl, rfl⟩

namespace Run

/-- A run whose sinks take everything exits with one of four codes.  Only with 0 does it print, and
then one document and a line end.  It breaks off exactly if there are settings and either the log
cannot be filtered or there is no report to give; the code 5 is left to the command that writes. -/
theorem program_exit {arguments : List String} {invocation : Invocation} {here : Surroundings}
    {current : String} {stdout stderr : Sink}
    (hparse : Arguments.parse arguments = .ok invocation)
    (hcurrent : here.tree.currentPath? = some current)
    (hstdout : stdout.AcceptsAll) (hstderr : stderr.AcceptsAll) :
    let outcome := program arguments here stdout stderr
    let code := outcome.ending.code
    (code = 0 ∨ code = 5 ∨ code = 6 ∨ code = 101) ∧
    (code ≠ 0 → outcome.stdout.taken = stdout.taken) ∧
    (code = 0 → ∃ s document, invocation.settings? here = some s ∧
      invocation.Says here current s document ∧
      outcome.stdout.taken = stdout.taken ++ (document ++ "\n").toUTF8.toList) ∧
    (code = 101 ↔ ∃ s, invocation.settings? here = some s ∧
      (Log.isUncuttable here.library.objection? here.environment = true ∨ invocation.Overruns s)) ∧
    (Log.isUncuttable here.library.objection? here.environment = true →
      ∃ text piece, here.environment.lookup "RUST_LOG" = some text ∧
        piece ∈ Text.splitAt ',' text.toList ∧
        (∃ c rest, piece = c :: rest ∧ Text.isBlank c = true) ∧ ∃ c ∈ piece, c.utf8Size ≠ 1) ∧
    (code = 5 → ∃ force, invocation.command = .initialise force) := by
  intro outcome code
  have hpiece := @Log.exists_piece_of_isUncuttable here.library.objection? here.environment
  obtain ⟨s, hs, hmeets⟩ | ⟨hnone, hmeets⟩ :=
    @program_meets invocation here stdout stderr arguments hparse hstdout hstderr
  · have hcode : code = (invocation.fate here s).code := hmeets.code
    have hprinted : outcome.stdout.taken = stdout.taken ++ (invocation.fate here s).printed :=
      hmeets.printed
    -- The settings that the statement speaks of are those of the run.
    have hbreaks : (∃ s', invocation.settings? here = some s' ∧
        (Log.isUncuttable here.library.objection? here.environment = true ∨
          invocation.Overruns s')) ↔
        (Log.isUncuttable here.library.objection? here.environment = true ∨
          invocation.Overruns s) := by
      simp [hs]
    rw [hbreaks]
    obtain ⟨hbreak, hfate, hnothing⟩ | ⟨hbreak, ⟨hcommand, hfate, hnothing⟩ |
        ⟨document, hsays, hfate, htext⟩⟩ := invocation.fate_cases hcurrent s
    · rw [hnothing, List.append_nil] at hprinted
      exact ⟨by omega, fun _ => hprinted, by omega, ⟨fun _ => hbreak, fun _ => by omega⟩, hpiece,
        by omega⟩
    · rw [hnothing, List.append_nil] at hprinted
      exact ⟨by omega, fun _ => hprinted, by omega,
        ⟨by omega, fun h => absurd h hbreak⟩, hpiece, fun _ => hcommand⟩
    · rw [htext] at hprinted
      exact ⟨by omega, by omega, fun _ => ⟨s, document, hs, hsays, hprinted⟩,
        ⟨by omega, fun h => absurd h hbreak⟩, hpiece, by omega⟩
  · have hcode : code = 6 := hmeets.code
    refine ⟨by omega, fun _ => hmeets.printed.trans (List.append_nil _), by omega,
      ⟨by omega, ?_⟩, hpiece, by omega⟩
    rintro ⟨s, hs, -⟩
    cases hnone.symm.trans hs

theorem program_exit_too_many_places :
    Arguments.parse ["run", "--precision", "65536"] =
        .ok ⟨.report (some 65536), none, false, false⟩ ∧
      (program ["run", "--precision", "65536"]
          ⟨⟨.directory [], ["home"], 0⟩, [("PLANAR_INPUTS__A", "7")], "", .plain⟩
          { chunk := some 3, interrupts := 2 } {}).ending.code = 101 := by
  have hparse : Arguments.parse ["run", "--precision", "65536"] =
      .ok ⟨.report (some 65536), none, false, false⟩ := by decide
  have hsettings : Invocation.settings? ⟨.report (some 65536), none, false, false⟩
      ⟨⟨.directory [], ["home"], 0⟩, [("PLANAR_INPUTS__A", "7")], "", .plain⟩ =
        some { Settings.standard with inputs := { Inputs.standard with a := 7 } } := by
    decide +kernel
  refine ⟨hparse, (program_exit hparse rfl (by decide) (by decide)).2.2.2.1.mpr
    ⟨_, hsettings, .inr ⟨some 65536, rfl, .inr (.inr ⟨rfl, 65536, rfl, by decide⟩)⟩⟩⟩

/-- A blank in front of `é=x` moves the end of its target into the first character, whatever the
command is. -/
theorem program_exit_uncuttable :
    Arguments.parse ["config"] = .ok ⟨.settings, none, false, false⟩ ∧
      (program ["config"] ⟨⟨.directory [], ["home"], 0⟩, [("RUST_LOG", " é=x")], "", .plain⟩ {}
          {}).ending.code = 101 := by
  have hparse : Arguments.parse ["config"] = .ok ⟨.settings, none, false, false⟩ := by
    decide
  have hcut : Log.isUncuttable Library.plain.objection? [("RUST_LOG", " é=x")] = true := by
    decide
  obtain ⟨s, -, hmeets⟩ := @program_meets_of_workspace _
    ⟨⟨.directory [], ["home"], 0⟩, [("RUST_LOG", " é=x")], "", .plain⟩ {} {} _ hparse rfl
    (by decide) (by decide)
  refine ⟨hparse, ?_⟩
  rw [hmeets.code, Invocation.fate_of_isUncuttable hcut]

end Run
end PlaneReport
