import PlaneReport.Proofs.Run.Reported
import PlaneReport.Proofs.Settings.Saving

/-!
# Runs whose second sink takes nothing

Whether the second sink takes anything has no part in the course of a run, but it has one in the
exit code.  A run that has to log anything breaks off when it is refused, and one that fails and
cannot say so exits with the code for an error of no particular kind.  Every other run ends in the
same way, and so does every run whose second stream is not open for writing, since it is never told.
Main statement: `program_refused`.
-/

namespace PlaneReport

namespace Sink

/-- No write to a sink takes anything. -/
def RefusesAll (sink : Sink) : Prop :=
  ∀ size, sink.portion size = 0

variable {sink after : Sink}

theorem RefusesAll.of_full {limit : Nat} (hlimit : sink.limit = some limit)
    (hfull : limit ≤ sink.taken.length) : sink.RefusesAll := by
  intro size
  have hroom : sink.room size = 0 := by
    rw [room, hlimit]
    dsimp only
    omega
  unfold portion
  rw [hroom]
  cases sink.chunk with
  | none => rfl
  | some chunk => exact Nat.min_zero chunk

/-- No offer changes what a sink refuses. -/
theorem RefusesAll.offer {buffer : List UInt8} {attempt : Attempt} (h : sink.RefusesAll)
    (hoffer : Writer.offer sink buffer = (attempt, after)) :
    attempt.count = 0 ∧ after.RefusesAll := by
  obtain ⟨-, heq⟩ | ⟨-, -, heq⟩ | ⟨-, -, heq⟩ := sink.offer_cases buffer
  · cases heq.symm.trans hoffer
    exact ⟨rfl, h⟩
  · cases heq.symm.trans hoffer
    exact ⟨rfl, h⟩
  · cases heq.symm.trans hoffer
    have hnothing := h buffer.length
    refine ⟨hnothing, ?_⟩
    rw [hnothing, List.take_zero, List.append_nil]
    exact h

theorem RefusesAll.writes {buffer bytes : List UInt8} {cause? : Option IoError}
    (h : sink.RefusesAll) (hwrites : Writer.Writes sink buffer bytes cause? after) :
    bytes = [] ∧ after.RefusesAll := by
  induction hwrites with
  | done sink => exact ⟨rfl, h⟩
  | interrupted _ hoffer _ ih => exact ih (h.offer hoffer).2
  | takes _ hoffer hcount _ _ => exact absurd (h.offer hoffer).1 hcount
  | takesNothing _ hoffer => exact ⟨rfl, (h.offer hoffer).2⟩
  | fails _ hoffer => exact ⟨rfl, (h.offer hoffer).2⟩

/-- A standard stream refuses what its sink refuses, unless it is not open for writing. -/
theorem RefusesAll.asStream (h : sink.RefusesAll) (hopen : sink.isClosed = false) :
    sink.asStream.RefusesAll := by
  rw [Sink.asStream, if_neg (Bool.eq_false_iff.mp hopen)]
  exact h

/-- Nothing can be written to such a sink but nothing. -/
theorem writeTexts_refused (h : sink.RefusesAll) (texts : List String) :
    ∃ cause? after, Writer.writeTexts sink texts = (Writer.resultOf cause?, after) ∧
      after.RefusesAll ∧ (cause? = none ↔ Writer.bytesOf texts = []) := by
  obtain ⟨bytes, cause?, after, hwrites, hresult⟩ := Writer.writeTexts_writes sink texts
  obtain ⟨rfl, hrefuses⟩ := h.writes hwrites
  obtain ⟨rest, hbytes, hnone⟩ := hwrites.exists_append
  rw [List.nil_append] at hbytes
  rw [← hbytes] at hnone
  exact ⟨cause?, after, hresult, hrefuses, hnone.symm⟩

end Sink

theorem Writer.line_ne_nil (text : String) : (text ++ "\n").toUTF8.toList ≠ [] := by
  have hend : "\n".toUTF8.toList ≠ [] := by decide +kernel
  rw [toList_toUTF8_append]
  exact List.append_ne_nil_of_right_ne_nil _ hend

/-- Something is written of every error. -/
theorem Output.errorText_ne_nil (format : OutputFormat) (e : Error) :
    (errorText format e).toUTF8.toList ≠ [] := by
  cases format with
  | json => exact Writer.line_ne_nil _
  | text =>
    have hstart : "Error: ".toUTF8.toList ≠ [] := by decide +kernel
    rw [errorText, String.append_assoc, String.append_assoc, Writer.toList_toUTF8_append]
    exact List.append_ne_nil_of_left_ne_nil hstart _

theorem Log.Event.line_ne_nil (coloured : Bool) (event : Event) :
    (event.line coloured).toUTF8.toList ≠ [] :=
  Writer.line_ne_nil _

theorem Invocation.level_of_info {invocation : Invocation}
    {loaded : Except Error (Settings × Option Error)} {preparation : Preparation}
    (hinfo : invocation.info = true) (h : invocation.prepareWith loaded = .ok preparation) :
    preparation.level = .debug := by
  unfold prepareWith at h
  obtain ⟨⟨s, fallback⟩, -, h⟩ := bind_eq_ok.mp h
  rw [hinfo] at h
  cases h
  rfl

namespace Run

variable {stdout stderr : Sink}

/-- The code of a failure is not kept if the failure cannot be reported. -/
theorem fail_refused {format : OutputFormat} (hstderr : stderr.RefusesAll) (e : Error)
    (tree : FileTree) : (fail ⟨format, stdout, stderr⟩ e tree).ending = .exit 1 := by
  obtain ⟨cause?, after, hresult, -, hnone⟩ :=
    Sink.writeTexts_refused hstderr (Output.errorTexts format e)
  cases cause? with
  | none =>
    have hnothing := hnone.mp rfl
    rw [Writer.bytesOf_eq, Output.join_errorTexts] at hnothing
    exact absurd hnothing (Output.errorText_ne_nil format e)
  | some cause =>
    rw [fail, Console.error]
    dsimp only
    rw [hresult]
    rfl

/-- The ending of a run with such a finish, if what it has to report is refused. -/
def Finish.unreported : Finish → Ending
  | .failed _ => .exit ExitCode.generalError.value
  | finish => finish.ending

theorem Finish.unreported_eq_ending {finish : Finish} (h : ∀ e, finish ≠ .failed e) :
    finish.unreported = finish.ending := by
  cases finish with
  | failed e => exact absurd rfl (h e)
  | done => rfl
  | broken message => rfl

theorem Course.close_refused (course : Course) (library : Library) {out : Output}
    (hstderr : out.stderr.RefusesAll) :
    (course.close library out).ending = course.finish.unreported := by
  unfold close
  cases course.finish with
  | done => rfl
  | broken message => rfl
  | failed e => exact fail_refused hstderr e course.tree

/-- A run that is refused gets lost in its log if there is anything to log. -/
theorem perform_refused (hstderr : stderr.RefusesAll) (invocation : Invocation)
    (here : Surroundings) (stdout : Sink) :
    let course := invocation.course here stdout
    let outcome := perform invocation here stdout stderr
    (Writer.bytesOf course.lines ≠ [] → outcome.ending.code = 101) ∧
      (Writer.bytesOf course.lines = [] → outcome.ending = course.finish.unreported) := by
  intro course outcome
  obtain ⟨cause?, after, hresult, hrefuses, hnone⟩ := Sink.writeTexts_refused hstderr course.lines
  have hfollows : course.Follows here.library invocation.format stderr outcome :=
    performWith_follows invocation here _ stdout stderr
  generalize outcome = outcome at hfollows ⊢
  cases hfollows with
  | lost _ _ hlog =>
    refine ⟨fun _ => rfl, fun hnothing => ?_⟩
    rw [hnone.mpr hnothing] at hresult
    cases hresult.symm.trans hlog
  | closed hlog =>
    have hnothing : Writer.bytesOf course.lines = [] := by
      cases cause? with
      | none => exact hnone.mp rfl
      | some cause => cases hresult.symm.trans hlog
    rw [hnone.mpr hnothing] at hresult
    cases hresult.symm.trans hlog
    exact ⟨fun hsome => absurd hnothing hsome, fun _ => course.close_refused _ hrefuses⟩

/-- A run that shows details has something to log, unless there are no settings for it. -/
theorem bytesOf_lines_of_info {invocation : Invocation} {here : Surroundings} {s : Settings}
    (hinfo : invocation.info = true) (hsilent : here.environment.lookup "RUST_LOG" = none)
    (hsettings : invocation.settings? here = some s) (stdout : Sink) :
    Writer.bytesOf (invocation.course here stdout).lines ≠ [] := by
  obtain ⟨preparation, hprepare, -⟩ | ⟨reason, -, hnone⟩ := invocation.prepare_cases here
  · obtain ⟨settings, level, fallback⟩ := preparation
    have hlevel : level = .debug := Invocation.level_of_info hinfo hprepare
    subst hlevel
    obtain ⟨before, after, hlines⟩ := exists_line hprepare hsilent List.mem_cons_self rfl stdout
    rw [Invocation.course, hlines]
    exact List.append_ne_nil_of_left_ne_nil
      (List.append_ne_nil_of_right_ne_nil _ (Log.Event.line_ne_nil _ _)) _
  · cases hnone.symm.trans hsettings

/-- A run whose second stream is not open for writing ends as if that took everything.  Any other run
that has nothing to write to the second sink ends in the same way whether this takes everything or
nothing.  If it has something to log, it breaks off when it is refused.  If it only fails, it then
exits with the general code in place of that of its error. -/
theorem program_refused {arguments : List String} {invocation : Invocation} (here : Surroundings)
    (stdout : Sink) {accepting refusing : Sink}
    (hparse : Arguments.parse arguments = .ok invocation)
    (haccepting : accepting.AcceptsAll) (hrefusing : refusing.RefusesAll) :
    let course := invocation.course here stdout.asStream
    let accepted := program arguments here stdout accepting
    let refused := program arguments here stdout refusing
    accepted.ending = course.finish.ending ∧
    accepted.stderr.taken = accepting.taken ++ (Writer.bytesOf course.lines ++
      (course.finish.errorText here.library invocation.format).toUTF8.toList) ∧
    (refusing.isClosed = true → refused.ending = accepted.ending) ∧
    (refusing.isClosed = false →
      (accepted.stderr.taken = accepting.taken → refused.ending = accepted.ending) ∧
      (Writer.bytesOf course.lines ≠ [] → refused.ending.code = 101) ∧
      (Writer.bytesOf course.lines = [] →
        (∀ e, course.finish = .failed e →
          accepted.ending = .exit e.exitCode.value ∧ refused.ending = .exit 1) ∧
        ((∀ e, course.finish ≠ .failed e) → refused.ending = accepted.ending))) := by
  intro course accepted refused
  obtain ⟨hending, -, htook, -⟩ := program_closed hparse haccepting here stdout
  have hrefused : refused = perform invocation here stdout.asStream refusing.asStream :=
    program_of_parse hparse here stdout refusing
  refine ⟨hending, htook.taken, fun hclosed => ?_, fun hopen => ?_⟩
  · have haccepts := Sink.asStream_acceptsAll hclosed
    have hsame := (performWith_closed haccepts invocation here (invocation.loadSettings here)
      stdout.asStream).ending
    rw [hrefused]
    exact hsame.trans hending.symm
  · obtain ⟨hlost, hclosed⟩ :=
      perform_refused (hrefusing.asStream hopen) invocation here stdout.asStream
    rw [← hrefused] at hlost hclosed
    have hsound : Writer.bytesOf course.lines = [] → (∀ e, course.finish ≠ .failed e) →
        refused.ending = accepted.ending := by
      intro hnothing hfinish
      exact (hclosed hnothing).trans
        ((Finish.unreported_eq_ending hfinish).trans hending.symm)
    refine ⟨fun hsame => ?_, hlost, fun hnothing => ⟨fun e hfailed => ?_, hsound hnothing⟩⟩
    · rw [htook.taken, List.append_right_eq_self, List.append_eq_nil_iff] at hsame
      refine hsound hsame.1 fun e hfailed => ?_
      have hreport := hsame.2
      rw [show Course.finish _ = _ from hfailed] at hreport
      exact Output.errorText_ne_nil invocation.format e hreport
    · have hfailed : (invocation.course here stdout.asStream).finish = .failed e := hfailed
      rw [hfailed] at hending hclosed
      exact ⟨hending, hclosed hnothing⟩

/-- Settings with what is no number are refused with their own code on a stream that is not open, and
with another one on a device that is full. -/
theorem program_refused_full :
    let arguments := ["--json", "--config", "x.toml", "init"]
    let invocation : Invocation := ⟨.initialise false, some "x.toml", true, false⟩
    let here : Surroundings := ⟨Settings.bareTree, [("PLANAR_INPUTS__A", "one")], "", .plain⟩
    let full : Sink := { limit := some 0, failure := .noSpace }
    let closed : Sink := { limit := some 0, failure := .notOpen }
    Arguments.parse arguments = .ok invocation ∧ full.RefusesAll ∧ closed.RefusesAll ∧
      (program arguments here {} {}).ending = .exit 6 ∧
      (program arguments here {} full).ending = .exit 1 ∧
      (program arguments here {} closed).ending = .exit 6 := by
  intro arguments invocation here full closed
  have hparse : Arguments.parse arguments = .ok invocation := by decide
  have haccepts : Sink.AcceptsAll {} := by decide
  have hfull : full.RefusesAll := .of_full rfl (Nat.zero_le _)
  have hclosed : closed.RefusesAll := .of_full rfl (Nat.zero_le _)
  have hload : Settings.loadFrom here.tree here.environment "x.toml" = .error (.unsuitable
      ⟨.wrongType "string \"one\"" "i64", ["inputs", "a"], .environment⟩) := by decide +kernel
  have hcourse := @Invocation.course_of_config invocation here _ _ rfl (.load hload) {}
  obtain ⟨-, -, -, hopen⟩ := program_refused here {} hparse haccepts hfull
  obtain ⟨-, -, hsame, -⟩ := program_refused here {} hparse haccepts hclosed
  obtain ⟨-, -, hfails⟩ := hopen rfl
  have hends := (hfails (by rw [show Sink.asStream {} = {} from rfl, hcourse]; rfl)).1 _
    (congrArg Course.finish hcourse)
  exact ⟨hparse, hfull, hclosed, hends.1, hends.2, (hsame rfl).trans hends.1⟩

/-- Settings that cannot be used, and a log that cannot be written, in either case apart from what
becomes of the second sink the same run. -/
theorem program_refused_differs :
    let refusing : Sink := { limit := some 0, failure := .noSpace }
    let here : Surroundings := ⟨Settings.bareTree, [("PLANAR_INPUTS__A", "one")], "", .plain⟩
    let there : Surroundings := ⟨Settings.bareTree, [], "", .plain⟩
    (program ["--config", "x.toml"] here {} {}).ending.code = 6 ∧
      (program ["--config", "x.toml"] here {} refusing).ending.code = 1 ∧
      (program ["--info", "config"] there {} {}).ending.code = 0 ∧
      (program ["--info", "config"] there {} refusing).ending.code = 101 := by
  intro refusing here there
  have haccepts : Sink.AcceptsAll {} := by decide
  have hrefuses : refusing.asStream.RefusesAll := .of_full rfl (Nat.zero_le _)
  have hparse : Arguments.parse ["--config", "x.toml"] =
      .ok ⟨.report none, some "x.toml", false, false⟩ := by decide
  have hload : Settings.loadFrom here.tree here.environment "x.toml" = .error (.unsuitable
      ⟨.wrongType "string \"one\"" "i64", ["inputs", "a"], .environment⟩) := by decide +kernel
  have hcourse := @Invocation.course_of_config ⟨.report none, some "x.toml", false, false⟩ here _ _
    rfl (.load hload) (Sink.asStream {})
  have hparse' : Arguments.parse ["--info", "config"] = .ok ⟨.settings, none, false, true⟩ := by
    decide
  refine ⟨?_, ?_, ?_, ?_⟩
  · have hending := (program_closed hparse haccepts here {}).ending
    rw [hending, hcourse]
    rfl
  · have hclosed := (perform_refused hrefuses ⟨.report none, some "x.toml", false, false⟩ here
      (Sink.asStream {})).2
    rw [hcourse] at hclosed
    rw [program_of_parse hparse, hclosed rfl]
    rfl
  · obtain ⟨s, -, hmeets⟩ :=
      @program_meets_of_workspace _ there {} {} _ hparse' rfl haccepts haccepts
    rw [hmeets.code]
    rfl
  · obtain ⟨s, hs, -⟩ :=
      @program_meets_of_workspace _ there {} {} _ hparse' rfl haccepts haccepts
    rw [program_of_parse hparse']
    exact (perform_refused hrefuses ⟨.settings, none, false, true⟩ there (Sink.asStream {})).1
      (bytesOf_lines_of_info rfl rfl hs (Sink.asStream {}))

end Run
end PlaneReport
