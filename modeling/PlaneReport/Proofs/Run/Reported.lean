import PlaneReport.Proofs.Response.Envelope
import PlaneReport.Proofs.Run.Fallback

/-!
# How errors are reported in JSON

An error is reported as one JSON document, and what that denotes is the error with all that belongs
to it.  A run that fails ends with this document, and with the exit code that stands in it.  Main
statement: `program_reports`.
-/

namespace PlaneReport

/-- A text is a JSON document that reports an error. -/
def Output.IsReport (document : String) (e : Error) : Prop :=
  ∃ response, Response.ofText document = .ok response ∧ response.Reports e

theorem Output.exists_report (e : Error) :
    ∃ document, errorText .json e = document ++ "\n" ∧ IsReport document e := by
  have hread := @Response.ofText_pretty_ofError e "" rfl
  rw [String.append_empty] at hread
  exact ⟨_, rfl, _, hread, Response.ofError_reports e⟩

namespace Run

/-- An error is written as one JSON document that reports it and as nothing else, with the exit code
for which it calls.  A run whose answers are JSON closes with this document if it fails, and exits
with the code in it; and it does fail if it exits by itself with another code than 0. -/
theorem program_reports :
    (∀ (e : Error) (out : Output), out.format = .json → out.stderr.AcceptsAll →
      ∃ document after, out.error e = (.ok e.exitCode, { out with stderr := after }) ∧
        after.taken = out.stderr.taken ++ (document ++ "\n").toUTF8.toList ∧
        Output.IsReport document e) ∧
    ∀ (arguments : List String) (invocation : Invocation) (here : Surroundings)
      (stdout stderr : Sink), Arguments.parse arguments = .ok invocation →
      invocation.json = true → stderr.AcceptsAll →
      let outcome := program arguments here stdout stderr
      let course := invocation.course here stdout.asStream
      (∀ e, course.finish = .failed e → ∃ document, Output.IsReport document e ∧
        outcome.stderr.taken = stderr.taken ++ Writer.bytesOf course.lines ++
          (document ++ "\n").toUTF8.toList ∧
        outcome.ending = .exit e.exitCode.value) ∧
      ∀ code, outcome.ending = .exit code → code ≠ 0 → ∃ e, course.finish = .failed e := by
  constructor
  · intro e out hformat hstderr
    obtain ⟨document, htext, hreport⟩ := Output.exists_report e
    obtain ⟨after, hafter, htook⟩ := out.error_took hstderr e
    rw [hformat, htext] at htook
    exact ⟨document, after, hafter, htook.taken, hreport⟩
  · intro arguments invocation here stdout stderr hparse hjson hstderr outcome course
    have hformat : invocation.format = .json := if_pos hjson
    obtain ⟨hending, -, htook, -⟩ := program_closed hparse hstderr here stdout
    constructor
    · intro e hfailed
      obtain ⟨document, htext, hreport⟩ := Output.exists_report e
      have hfinish : (invocation.course here stdout.asStream).finish = .failed e := hfailed
      rw [hfinish, hformat, Finish.errorText, htext] at htook
      rw [hfinish] at hending
      exact ⟨document, hreport, by rw [htook.taken, List.append_assoc], hending⟩
    · intro code hexit hcode
      have hcode' : course.finish.ending = .exit code := hending.symm.trans hexit
      cases hfinish : course.finish with
      | failed e => exact ⟨e, rfl⟩
      | done =>
        rw [hfinish] at hcode'
        cases hcode'
        exact absurd rfl hcode
      | broken message =>
        rw [hfinish] at hcode'
        cases hcode'

/-- A variable sets what is no number, and the name of the settings file has to be escaped. -/
theorem program_reports_quoted :
    let arguments := ["--json", "-c", "a\"b\\.toml"]
    let invocation : Invocation := ⟨.report none, some "a\"b\\.toml", true, false⟩
    let here : Surroundings := ⟨⟨.directory [], [], 0⟩, [("PLANAR_INPUTS__A", "one")], "", .plain⟩
    let stdout : Sink := { limit := some 0 }
    let stderr : Sink := { chunk := some 1, interrupts := 3 }
    let e : Error :=
      .config ("loading a\"b\\.toml: invalid type: found string \"one\", expected i64 " ++
        "for key \"INPUTS.A\" in `PLANAR_` environment variable(s)")
    Arguments.parse arguments = .ok invocation ∧
      ∃ document, Output.IsReport document e ∧
        (program arguments here stdout stderr).stderr.taken = (document ++ "\n").toUTF8.toList ∧
        (program arguments here stdout stderr).ending = .exit 6 := by
  intro arguments invocation here stdout stderr e
  have hparse : Arguments.parse arguments = .ok invocation := by decide
  let cause : LoadError :=
    .unsuitable ⟨.wrongType "string \"one\"" "i64", ["inputs", "a"], .environment⟩
  have hload : Settings.loadFrom here.tree here.environment "a\"b\\.toml" = .error cause := by
    decide +kernel
  have hmessage : Error.config ("loading " ++ "a\"b\\.toml" ++ ": " ++
      cause.message here.library.diagnosis) = e := by
    decide +kernel
  have hcourse : invocation.course here stdout.asStream =
      ⟨[], .failed e, stdout.asStream, here.tree⟩ := by
    rw [Invocation.course_of_config rfl (.load hload), hmessage]
  obtain ⟨document, hreport, htaken, hending⟩ :=
    (program_reports.2 arguments invocation here stdout stderr hparse rfl (by decide)).1 e
      (congrArg Course.finish hcourse)
  rw [hcourse] at htaken
  exact ⟨hparse, document, hreport, htaken, hending⟩

end Run
end PlaneReport
