import PlaneReport.Proofs.Report
import PlaneReport.Proofs.Result
import PlaneReport.Proofs.Settings.RoundTrip

/-!
# Calls to a console

A call to a console has one text to write, to one of its two writers.  Whatever those writers do, a
call leaves the other one alone, it writes the front of its text, and its result tells the first
failure: of writing, or of the flush that follows a result.  The one failure that is passed over is
a first writer that was closed by its reader.  The statement for a sequence of calls,
`calls_followsAll`, comes from that for one call.
-/

namespace PlaneReport

/-! ## Writing and flushing -/

namespace Writer

variable {W : Type} [Writer W]

/-- A buffer is written and then flushed, up to the first failure. -/
inductive Delivers : W → List UInt8 → List UInt8 → Option IoError → W → Prop
  | delivered {w written after : W} {buffer bytes : List UInt8}
      (hwrites : Writes w buffer bytes none written) (hflush : flush written = (.ok (), after)) :
      Delivers w buffer bytes none after
  | notFlushed {w written after : W} {buffer bytes : List UInt8} {e : IoError}
      (hwrites : Writes w buffer bytes none written) (hflush : flush written = (.error e, after)) :
      Delivers w buffer bytes (some e) after
  | notWritten {w after : W} {buffer bytes : List UInt8} {e : IoError}
      (hwrites : Writes w buffer bytes (some e) after) : Delivers w buffer bytes (some e) after

theorem taken_of_flush {w after : W} {result : Except IoError Unit}
    (h : flush w = (result, after)) : taken after = taken w := by
  have htaken := taken_flush w
  rw [h] at htaken
  exact htaken

theorem flushes_of_flush {w after : W} {result : Except IoError Unit}
    (h : flush w = (result, after)) : flushes after = flushes w + 1 := by
  have hflushes := flushes_flush w
  rw [h] at hflushes
  exact hflushes

namespace Delivers

variable {w after : W} {buffer bytes : List UInt8} {cause? : Option IoError}

theorem taken_eq (h : Delivers w buffer bytes cause? after) : taken after = taken w ++ bytes := by
  cases h with
  | delivered hwrites hflush => rw [taken_of_flush hflush, hwrites.taken_eq]
  | notFlushed hwrites hflush => rw [taken_of_flush hflush, hwrites.taken_eq]
  | notWritten hwrites => exact hwrites.taken_eq

/-- The front of the buffer is taken.  If that is all of it the writer is flushed, and else it is
not. -/
theorem exists_append (h : Delivers w buffer bytes cause? after) :
    ∃ rest, buffer = bytes ++ rest ∧ (cause? = none → rest = []) ∧
      flushes after = flushes w + if rest = [] then 1 else 0 := by
  have hwhole : ∀ {written : W} {result : Except IoError Unit},
      Writes w buffer bytes none written → flush written = (result, after) →
        ∃ rest, buffer = bytes ++ rest ∧ rest = [] ∧
          flushes after = flushes w + if rest = [] then 1 else 0 := by
    intro written result hwrites hflush
    obtain ⟨rest, hbuffer, hnone⟩ := hwrites.exists_append
    have hrest : rest = [] := hnone.mpr rfl
    refine ⟨rest, hbuffer, hrest, ?_⟩
    rw [flushes_of_flush hflush, hwrites.flushes_eq, if_pos hrest]
  cases h with
  | delivered hwrites hflush =>
    obtain ⟨rest, hbuffer, hrest, hflushes⟩ := hwhole hwrites hflush
    exact ⟨rest, hbuffer, fun _ => hrest, hflushes⟩
  | notFlushed hwrites hflush =>
    obtain ⟨rest, hbuffer, hrest, hflushes⟩ := hwhole hwrites hflush
    exact ⟨rest, hbuffer, fun _ => hrest, hflushes⟩
  | notWritten hwrites =>
    obtain ⟨rest, hbuffer, hnone⟩ := hwrites.exists_append
    have hrest : rest ≠ [] := by
      intro hrest
      cases hnone.mp hrest
    refine ⟨rest, hbuffer, fun h => (nomatch h), ?_⟩
    rw [hwrites.flushes_eq, if_neg hrest, Nat.add_zero]

end Delivers
end Writer

/-! ## One call -/

/-- A call to a console. -/
inductive Call where
  | success (data : Json) (text now : String)
  | report (result : Report) (style : DistanceStyle) (now : String)
  | settings (values : Settings)
  | error (e : Error)

namespace Call

/-- The JSON form of a payload, with the time if it carries one. -/
def envelope (data : Json) (now? : Option String) : String :=
  Json.pretty <| .object <|
    [("status", .string "success"), ("code", .string "OK"),
      ("message", .string "Operation completed successfully"), ("data", data),
      ("exit_code", .integer 0)] ++
    now?.toList.map fun now =>
      ("meta", .object [("version", .string programVersion), ("timestamp", .string now)])

/-- The whole text of a call, with its last line end. -/
def text : OutputFormat → Call → Except Fault String
  | .json, .success data _ now => .ok (envelope data (some now) ++ "\n")
  | .text, .success _ text _ => .ok (text ++ "\n")
  | .json, .report result _ now => .ok (envelope result.toJson (some now) ++ "\n")
  | .text, .report result style _ => (result.render style).map (· ++ "\n")
  | .json, .settings values => .ok (envelope values.toJson none ++ "\n")
  | .text, .settings values =>
    .ok ("Current Configuration:\n" ++ Output.rule ++ "\n" ++ values.tomlText)
  | format, .error e => .ok (Output.errorText format e)

@[simp]
theorem text_success (format : OutputFormat) (data : Json) (text now : String) :
    Call.text format (.success data text now) =
      .ok (Output.answerText format data text now ++ "\n") := by
  cases format <;> rfl

@[simp]
theorem text_report (format : OutputFormat) (result : Report) (style : DistanceStyle)
    (now : String) :
    Call.text format (.report result style now) =
      (Output.reportText format result style now).map (· ++ "\n") := by
  cases format <;> rfl

@[simp]
theorem text_settings (format : OutputFormat) (values : Settings) :
    Call.text format (.settings values) = .ok (Output.settingsText format values ++ "\n") := by
  cases format with
  | json => rfl
  | text => rw [Settings.settingsText_feed]; rfl

@[simp]
theorem text_error (format : OutputFormat) (e : Error) :
    Call.text format (.error e) = .ok (Output.errorText format e) := by
  cases format <;> rfl

/-- No more decimal places are asked for than a number can be set with. -/
def CanBeSet : Call → Prop
  | .report _ style _ => style.CanBeSet
  | _ => True

end Call

namespace Console

variable {W : Type} [Writer W]

/-- Whoever makes a call is told an exit code, and not whether a result was dropped. -/
def answer (written : Except IoError Delivery × Console W) :
    Except IoError ExitCode × Console W :=
  (written.1.map fun _ => .success, written.2)

def call (out : Console W) : Call → Except Fault (Except IoError ExitCode × Console W)
  | .success data text now => .ok (answer (out.success data text now))
  | .report result style now => (out.report result style now).map answer
  | .settings values => .ok (answer (out.settings values))
  | .error e => .ok (out.error e)

/-- What a call that has a result does: `bytes` of its text are taken and `rest` is not. -/
structure WritesResult (out : Console W) (text : String) (bytes rest : List UInt8)
    (cause? : Option IoError) (result : Except IoError ExitCode) (after : Console W) : Prop where
  format_eq : after.format = out.format
  stderr_eq : after.stderr = out.stderr
  text_eq : text.toUTF8.toList = bytes ++ rest
  taken_eq : Writer.taken after.stdout = Writer.taken out.stdout ++ bytes
  flushes_eq : Writer.flushes after.stdout = Writer.flushes out.stdout + if rest = [] then 1 else 0
  /-- The cause is that of the first failure. -/
  delivers : Writer.Delivers out.stdout (bytes ++ rest) bytes cause? after.stdout
  ok_iff : result = .ok .success ↔
    (rest = [] ∧ cause? = none) ∨ ∃ cause, cause? = some cause ∧ cause.kind = .brokenPipe
  error_iff (cause : IoError) :
    result = .error cause ↔ cause? = some cause ∧ cause.kind ≠ .brokenPipe

/-- What a call that has an error does: `bytes` of its text are taken and `rest` is not. -/
structure WritesError (out : Console W) (e : Error) (text : String) (bytes rest : List UInt8)
    (cause? : Option IoError) (result : Except IoError ExitCode) (after : Console W) : Prop where
  format_eq : after.format = out.format
  stdout_eq : after.stdout = out.stdout
  text_eq : text.toUTF8.toList = bytes ++ rest
  taken_eq : Writer.taken after.stderr = Writer.taken out.stderr ++ bytes
  flushes_eq : Writer.flushes after.stderr = Writer.flushes out.stderr
  /-- The cause is that of the first failure. -/
  writes : Writer.Writes out.stderr (bytes ++ rest) bytes cause? after.stderr
  ok_iff : result = .ok e.exitCode ↔ rest = []
  error_iff (cause : IoError) : result = .error cause ↔ cause? = some cause

/-- What a call does. -/
def Follows (out : Console W) (call : Call) (result : Except IoError ExitCode)
    (after : Console W) : Prop :=
  ∃ text bytes rest cause?, call.text out.format = .ok text ∧
    match call with
    | .error e => out.WritesError e text bytes rest cause? result after
    | _ => out.WritesResult text bytes rest cause? result after

/-- What becomes of a result when the first failure is known. -/
def deliveryOf : Option IoError → Except IoError Delivery
  | none => .ok .complete
  | some cause => if cause.kind = .brokenPipe then .ok .dropped else .error cause

theorem deliveryOf_ok_iff (cause? : Option IoError) :
    (deliveryOf cause?).map (fun _ => ExitCode.success) = .ok .success ↔
      cause? = none ∨ ∃ cause, cause? = some cause ∧ cause.kind = .brokenPipe := by
  cases cause? with
  | none => simp [deliveryOf]
  | some cause => by_cases hkind : cause.kind = .brokenPipe <;> simp [deliveryOf, hkind]

theorem deliveryOf_error_iff (cause? : Option IoError) (cause : IoError) :
    (deliveryOf cause?).map (fun _ => ExitCode.success) = .error cause ↔
      cause? = some cause ∧ cause.kind ≠ .brokenPipe := by
  cases cause? with
  | none => simp [deliveryOf]
  | some first =>
    by_cases hkind : first.kind = .brokenPipe
    · simp only [deliveryOf, if_pos hkind, map_ok]
      constructor
      · intro h
        cases h
      · rintro ⟨hcause, hother⟩
        cases hcause
        exact absurd hkind hother
    · simp only [deliveryOf, if_neg hkind, map_error]
      constructor
      · intro h
        cases h
        exact ⟨rfl, hkind⟩
      · rintro ⟨hcause, -⟩
        cases hcause
        rfl

theorem writeResult_delivers (out : Console W) (text : String) :
    ∃ bytes cause? stdout,
      Writer.Delivers out.stdout (text ++ "\n").toUTF8.toList bytes cause? stdout ∧
        out.writeResult text = (deliveryOf cause?, { out with stdout := stdout }) := by
  obtain ⟨bytes, cause?, written, hwrites, hresult⟩ :=
    Writer.writeTexts_writes out.stdout [text, "\n"]
  rw [Output.bytesOf_line] at hwrites
  unfold writeResult
  rw [hresult]
  cases cause? with
  | some e => exact ⟨bytes, some e, written, .notWritten hwrites, rfl⟩
  | none =>
    dsimp only [Writer.resultOf]
    cases hflush : Writer.flush written with
    | mk result stdout =>
      cases result with
      | ok => exact ⟨bytes, none, stdout, .delivered hwrites hflush, rfl⟩
      | error e => exact ⟨bytes, some e, stdout, .notFlushed hwrites hflush, rfl⟩

theorem writeResult_writesResult (out : Console W) (text : String) :
    ∃ bytes rest cause?, out.WritesResult (text ++ "\n") bytes rest cause?
      (answer (out.writeResult text)).1 (answer (out.writeResult text)).2 := by
  obtain ⟨bytes, cause?, stdout, hdelivers, hresult⟩ := out.writeResult_delivers text
  obtain ⟨rest, htext, hwhole, hflushes⟩ := hdelivers.exists_append
  have hnone : rest = [] ∧ cause? = none ↔ cause? = none := and_iff_right_of_imp hwhole
  rw [hresult]
  refine ⟨bytes, rest, cause?, rfl, rfl, htext, hdelivers.taken_eq, hflushes, htext ▸ hdelivers,
    ?_, deliveryOf_error_iff cause?⟩
  rw [hnone]
  exact deliveryOf_ok_iff cause?

theorem error_writesError (out : Console W) (e : Error) :
    ∃ bytes rest cause?, out.WritesError e (Output.errorText out.format e) bytes rest cause?
      (out.error e).1 (out.error e).2 := by
  obtain ⟨bytes, cause?, stderr, hwrites, hresult⟩ :=
    Writer.writeTexts_writes out.stderr (Output.errorTexts out.format e)
  rw [Writer.bytesOf_eq, Output.join_errorTexts] at hwrites
  obtain ⟨rest, htext, hnone⟩ := hwrites.exists_append
  have herror : out.error e =
      ((Writer.resultOf cause?).map fun _ => e.exitCode, { out with stderr := stderr }) := by
    unfold Console.error
    rw [hresult]
  rw [herror]
  refine ⟨bytes, rest, cause?, rfl, rfl, htext, hwrites.taken_eq, hwrites.flushes_eq,
    htext ▸ hwrites, ?_, ?_⟩
  · rw [hnone]
    cases cause? with
    | none => simp [Writer.resultOf]
    | some cause => simp [Writer.resultOf]
  · intro cause
    cases cause? with
    | none => simp [Writer.resultOf]
    | some first => simp [Writer.resultOf]

/-- A call of which the text can be set returns, and does what calls do. -/
theorem call_follows (out : Console W) (call : Call) (hset : call.CanBeSet) :
    ∃ result after, out.call call = .ok (result, after) ∧ out.Follows call result after := by
  have hresult : ∀ text, ∃ bytes rest cause?, out.WritesResult (text ++ "\n") bytes rest cause?
      (answer (out.writeResult text)).1 (answer (out.writeResult text)).2 :=
    out.writeResult_writesResult
  cases call with
  | success data text now =>
    obtain ⟨bytes, rest, cause?, hwrites⟩ := hresult (Output.answerText out.format data text now)
    exact ⟨_, _, rfl, _, bytes, rest, cause?, Call.text_success .., hwrites⟩
  | report result style now =>
    obtain ⟨-, text, htext⟩ | ⟨-, hmany, -⟩ :=
      Output.reportText_cases out.format result style now
    · obtain ⟨bytes, rest, cause?, hwrites⟩ := hresult text
      refine ⟨_, _, ?_, _, bytes, rest, cause?, ?_, hwrites⟩
      · rw [call, Console.report, htext]
        rfl
      · rw [Call.text_report, htext]
        rfl
    · exact absurd hset hmany
  | settings values =>
    obtain ⟨bytes, rest, cause?, hwrites⟩ := hresult (Output.settingsText out.format values)
    exact ⟨_, _, rfl, _, bytes, rest, cause?, Call.text_settings .., hwrites⟩
  | error e =>
    obtain ⟨bytes, rest, cause?, hwrites⟩ := out.error_writesError e
    exact ⟨_, _, rfl, _, bytes, rest, cause?, Call.text_error .., hwrites⟩

/-! ## Many calls -/

/-- Makes calls in turn. -/
def calls (out : Console W) :
    List Call → Except Fault (List (Except IoError ExitCode) × Console W)
  | [] => .ok ([], out)
  | call :: rest => do
    let (result, next) ← out.call call
    let (results, after) ← next.calls rest
    return (result :: results, after)

/-- What many calls do: each does what calls do on the console that the one before it left. -/
inductive FollowsAll :
    Console W → List Call → List (Except IoError ExitCode) → Console W → Prop
  | done (out : Console W) : FollowsAll out [] [] out
  | next {out next after : Console W} {call : Call} {rest : List Call}
      {result : Except IoError ExitCode} {results : List (Except IoError ExitCode)}
      (hcall : out.Follows call result next) (hrest : FollowsAll next rest results after) :
      FollowsAll out (call :: rest) (result :: results) after

/-- Calls to a console, whatever its writers do. -/
theorem calls_followsAll (out : Console W) (calls : List Call)
    (hset : ∀ call ∈ calls, call.CanBeSet) :
    ∃ results after, out.calls calls = .ok (results, after) ∧
      FollowsAll out calls results after := by
  induction calls generalizing out with
  | nil => exact ⟨[], out, rfl, .done out⟩
  | cons call rest ih =>
    obtain ⟨result, next, hcall, hfollows⟩ :=
      out.call_follows call (hset call (List.mem_cons_self ..))
    obtain ⟨results, after, hrest, hall⟩ := ih next fun other hother =>
      hset other (List.mem_cons_of_mem call hother)
    refine ⟨result :: results, after, ?_, .next hfollows hall⟩
    rw [Console.calls]
    exact bind_eq_ok.mpr ⟨(result, next), hcall, bind_eq_ok.mpr ⟨(results, after), hrest, rfl⟩⟩

/-- Results go to a pipe that is interrupted twice, takes three bytes at a time and breaks inside
the second result; errors go to a sink that fills up. -/
def frail : Output where
  format := .text
  stdout := { limit := some 20, chunk := some 3, interrupts := 2, failure := .brokenPipe }
  stderr := { limit := some 30, flushFailure := some .writeZero }

/-- One call of each kind, the report with the most places that it can be set with. -/
def frailCalls : List Call :=
  [.success (.string "early") "early" "", .report ⟨3, Point.origin.distance Point.origin⟩
    (.fixed DistanceStyle.maxPlaces) "", .settings .standard, .error (.config "no such table")]

theorem calls_followsAll_frail :
    (∀ call ∈ frailCalls, call.CanBeSet) ∧
      ∃ results after, frail.calls frailCalls = .ok (results, after) ∧
        FollowsAll frail frailCalls results after := by
  have hset : ∀ call ∈ frailCalls, call.CanBeSet := by
    simp [frailCalls, Call.CanBeSet, DistanceStyle.CanBeSet]
  exact ⟨hset, calls_followsAll frail frailCalls hset⟩

end Console
end PlaneReport
