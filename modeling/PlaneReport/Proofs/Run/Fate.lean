import PlaneReport.Proofs.Deed
import PlaneReport.Proofs.Log.Filter
import PlaneReport.Proofs.Run.Course

/-!
# What a run leaves behind

Apart from its log and its errors a run leaves an exit code, what it printed and a file tree.  A run
as such is one with the settings that are loaded for it.  The theorem this file exists for is
`performWith_meets`: if the sinks take everything, all that a run leaves behind follows from the
settings and from whether its log can be filtered.  How detailed the log is and why standard settings
may stand in for others has no part in it.
-/

namespace PlaneReport

/-- What a run leaves behind, apart from what it writes to the second sink. -/
structure Fate where
  code : Nat
  printed : List UInt8
  tree : FileTree

/-- What a command leaves behind once it is done. -/
def Deed.fate (deed : Deed) : Fate :=
  match deed.result with
  | .answer text => ⟨ExitCode.success.value, (text ++ "\n").toUTF8.toList, deed.tree⟩
  | .failure e => ⟨e.exitCode.value, [], deed.tree⟩
  | .fault fault => ⟨(Ending.crash fault.message).code, [], deed.tree⟩

/-- A run that was given a first sink has left the fate behind. -/
structure Outcome.Meets (outcome : Outcome) (stdout : Sink) (fate : Fate) : Prop where
  code : outcome.ending.code = fate.code
  printed : outcome.stdout.taken = stdout.taken ++ fate.printed
  tree : outcome.tree = fate.tree

namespace Invocation

/-- What a run under given settings leaves behind. -/
def fate (invocation : Invocation) (here : Surroundings) (s : Settings) : Fate :=
  if Log.isUncuttable here.library.objection? here.environment then ⟨101, [], here.tree⟩
  else (invocation.act here s).fate

/-- A log that cannot be filtered leaves everything undone. -/
theorem fate_of_isUncuttable {here : Surroundings}
    (h : Log.isUncuttable here.library.objection? here.environment = true)
    (invocation : Invocation) (s : Settings) : invocation.fate here s = ⟨101, [], here.tree⟩ :=
  if_pos h

end Invocation

namespace Run

variable {invocation : Invocation} {here : Surroundings} {stdout stderr : Sink}
  {loaded : Except Error (Settings × Option Error)}

/-- A course that was given a first sink leaves the fate behind once it is closed. -/
structure Course.Leads (course : Course) (stdout : Sink) (fate : Fate) : Prop where
  code : course.finish.ending.code = fate.code
  printed : course.stdout.taken = stdout.taken ++ fate.printed
  tree : course.tree = fate.tree

theorem Course.Closed.meets {course : Course} {library : Library} {format : OutputFormat}
    {outcome : Outcome} {fate : Fate} (h : course.Closed library format stderr outcome)
    (hleads : course.Leads stdout fate) : outcome.Meets stdout fate :=
  ⟨h.ending ▸ hleads.code, h.stdout ▸ hleads.printed, h.tree ▸ hleads.tree⟩

/-- A first sink that takes everything takes the answer of a deed, and nothing is dropped. -/
theorem finish_leads (hstdout : stdout.AcceptsAll) (deed : Deed) (lines : List String) :
    Course.Leads ⟨lines, (deed.finish stdout).1, (deed.finish stdout).2.2, deed.tree⟩ stdout
      deed.fate := by
  rw [Deed.finish, Deed.fate]
  cases deed.result with
  | failure e => exact ⟨rfl, (List.append_nil _).symm, rfl⟩
  | fault fault => exact ⟨rfl, (List.append_nil _).symm, rfl⟩
  | answer text =>
    obtain ⟨after, hafter, htook⟩ := Output.writeResult_took ⟨.text, stdout, stdout⟩ hstdout text
    dsimp only [Console.deliver]
    rw [hafter]
    exact ⟨rfl, htook.taken, rfl⟩

theorem courseWith_leads (hstdout : stdout.AcceptsAll) {preparation : Preparation}
    (h : invocation.prepareWith loaded = .ok preparation) :
    (invocation.courseWith here loaded stdout).Leads stdout
      (invocation.fate here preparation.settings) := by
  rw [Invocation.courseWith, h, Invocation.fate]
  dsimp only
  cases hfilter : (Log.readingOf here.library.objection? here.environment
      preparation.level).filter with
  | error fault =>
    rw [if_pos (Log.isUncuttable_of_readingOf_error hfilter)]
    exact ⟨rfl, (List.append_nil _).symm, rfl⟩
  | ok filter =>
    rw [if_neg (Bool.eq_false_iff.mp (Log.isUncuttable_of_readingOf_ok hfilter))]
    exact finish_leads hstdout _ _

/-- What a run under settings leaves behind is left to the settings, the command and the place. -/
theorem performWith_meets (hstdout : stdout.AcceptsAll) (hstderr : stderr.AcceptsAll)
    {preparation : Preparation} (h : invocation.prepareWith loaded = .ok preparation) :
    (performWith invocation here loaded stdout stderr).Meets stdout
      (invocation.fate here preparation.settings) :=
  (performWith_closed hstderr invocation here loaded stdout).meets (courseWith_leads hstdout h)

/-- A run without settings leaves the tree as it is. -/
theorem performWith_meets_of_error (hstderr : stderr.AcceptsAll) {e : Error}
    (h : invocation.prepareWith loaded = .error e) :
    (performWith invocation here loaded stdout stderr).Meets stdout
      ⟨e.exitCode.value, [], here.tree⟩ := by
  refine (performWith_closed hstderr invocation here loaded stdout).meets ?_
  rw [Invocation.courseWith, h]
  exact ⟨rfl, (List.append_nil _).symm, rfl⟩

/-- A run has the fate of the settings that it is governed by, or ends with a configuration error. -/
theorem program_meets {arguments : List String} (hparse : Arguments.parse arguments = .ok invocation)
    (hstdout : stdout.AcceptsAll) (hstderr : stderr.AcceptsAll) :
    (∃ s, invocation.settings? here = some s ∧
        (program arguments here stdout stderr).Meets stdout (invocation.fate here s)) ∨
      invocation.settings? here = none ∧
        (program arguments here stdout stderr).Meets stdout ⟨6, [], here.tree⟩ := by
  rw [program_of_parse hparse, hstdout.asStream_eq, hstderr.asStream_eq]
  obtain ⟨preparation, hprepare, hsettings⟩ | ⟨reason, hprepare, hnone⟩ :=
    invocation.prepare_cases here
  · exact .inl ⟨_, hsettings, performWith_meets hstdout hstderr hprepare⟩
  · exact .inr ⟨hnone, performWith_meets_of_error hstderr hprepare⟩

/-- Without a file that was asked for there are always settings. -/
theorem program_meets_of_workspace {arguments : List String}
    (hparse : Arguments.parse arguments = .ok invocation) (hconfig : invocation.config = none)
    (hstdout : stdout.AcceptsAll) (hstderr : stderr.AcceptsAll) :
    ∃ s, invocation.settings? here = some s ∧
      (program arguments here stdout stderr).Meets stdout (invocation.fate here s) := by
  obtain hmeets | ⟨hnone, -⟩ := @program_meets _ here _ _ _ hparse hstdout hstderr
  · exact hmeets
  · rw [Invocation.settings?, hconfig] at hnone
    cases hnone

end Run
end PlaneReport
