import PlaneReport.Output
import PlaneReport.Proofs.Text.Bytes

/-!
# Sinks that take everything

A sink without a limit and without a failing flush takes all that is written to it, in whatever
pieces and after however many interruptions.  As a standard stream it stays what it is, and one that
is not open for writing takes everything too.
-/

namespace PlaneReport

/-- A sink that takes every byte and can be flushed. -/
structure Sink.AcceptsAll (sink : Sink) : Prop where
  limit : sink.limit = none
  chunk : sink.chunk ≠ some 0
  flushFailure : sink.flushFailure = none

instance (sink : Sink) : Decidable sink.AcceptsAll :=
  decidable_of_iff (sink.limit = none ∧ sink.chunk ≠ some 0 ∧ sink.flushFailure.isNone = true)
    ⟨fun h => ⟨h.1, h.2.1, Option.isNone_iff_eq_none.mp h.2.2⟩,
      fun h => ⟨h.limit, h.chunk, Option.isNone_iff_eq_none.mpr h.flushFailure⟩⟩

namespace Sink

/-- What an accepting sink has become after some bytes. -/
structure Took (sink : Sink) (bytes : List UInt8) (after : Sink) : Prop where
  taken : after.taken = sink.taken ++ bytes
  acceptsAll : after.AcceptsAll

theorem Took.trans {sink middle after : Sink} {first rest : List UInt8}
    (hfirst : sink.Took first middle) (hrest : middle.Took rest after) :
    sink.Took (first ++ rest) after := by
  refine ⟨?_, hrest.acceptsAll⟩
  rw [hrest.taken, hfirst.taken, List.append_assoc]

theorem AcceptsAll.room {sink : Sink} (h : sink.AcceptsAll) (size : Nat) :
    sink.room size = size := by
  unfold Sink.room
  rw [h.limit]

/-- No offer changes what a sink accepts. -/
theorem AcceptsAll.offer {sink after : Sink} {buffer : List UInt8} {attempt : Attempt}
    (h : sink.AcceptsAll) (hoffer : Writer.offer sink buffer = (attempt, after)) :
    after.AcceptsAll := by
  obtain ⟨-, heq⟩ | ⟨-, -, heq⟩ | ⟨-, -, heq⟩ := sink.offer_cases buffer
  all_goals
    cases heq.symm.trans hoffer
    exact ⟨h.limit, h.chunk, h.flushFailure⟩

theorem AcceptsAll.portion_pos {sink : Sink} (h : sink.AcceptsAll) {size : Nat}
    (hsize : 0 < size) : 0 < sink.portion size := by
  unfold portion
  rw [h.room]
  cases hchunk : sink.chunk with
  | none => exact hsize
  | some chunk =>
    have hne : chunk ≠ 0 := by
      rintro rfl
      exact h.chunk hchunk
    dsimp only
    omega

theorem AcceptsAll.writes {sink after : Sink} {buffer bytes : List UInt8} {cause? : Option IoError}
    (h : sink.AcceptsAll) (hwrites : Writer.Writes sink buffer bytes cause? after) :
    cause? = none ∧ after.AcceptsAll := by
  induction hwrites with
  | done sink => exact ⟨rfl, h⟩
  | interrupted _ hoffer _ ih => exact ih (h.offer hoffer)
  | takes _ hoffer _ _ ih => exact ih (h.offer hoffer)
  | @takesNothing sink after front back hfront hoffer =>
    obtain ⟨-, heq⟩ | ⟨-, -, heq⟩ | ⟨-, -, heq⟩ := sink.offer_cases front
    · cases heq.symm.trans hoffer
    · cases heq.symm.trans hoffer
    · have hportion := h.portion_pos (List.length_pos_iff.mpr hfront)
      have hnothing : sink.portion front.length = 0 := by
        have hattempt := congrArg (fun result => result.1.count) (heq.symm.trans hoffer)
        exact hattempt
      omega
  | @fails sink after front back e hfront hoffer =>
    obtain ⟨-, heq⟩ | ⟨-, hroom, -⟩ | ⟨-, -, heq⟩ := sink.offer_cases front
    · cases heq.symm.trans hoffer
    · rw [h.room, List.length_eq_zero_iff] at hroom
      exact absurd hroom hfront
    · cases heq.symm.trans hoffer

theorem writeTexts_took {sink : Sink} (h : sink.AcceptsAll) (texts : List String) :
    ∃ after, Writer.writeTexts sink texts = (.ok (), after) ∧
      sink.Took (Writer.bytesOf texts) after := by
  obtain ⟨bytes, cause?, after, hwrites, hresult⟩ := Writer.writeTexts_writes sink texts
  obtain ⟨rfl, haccepts⟩ := h.writes hwrites
  obtain ⟨rest, hbytes, hnone⟩ := hwrites.exists_append
  have hrest : rest = [] := hnone.mpr rfl
  rw [hrest, List.append_nil] at hbytes
  rw [hbytes]
  exact ⟨after, hresult, hwrites.taken_eq, haccepts⟩

theorem flush_took {sink : Sink} (h : sink.AcceptsAll) :
    ∃ after, Writer.flush sink = (.ok (), after) ∧ sink.Took [] after := by
  refine ⟨{ sink with flushes := sink.flushes + 1 }, ?_, (List.append_nil _).symm, h.limit, h.chunk,
    h.flushFailure⟩
  show sink.flush = _
  rw [sink.flush_eq, h.flushFailure]

theorem writeText_took {sink : Sink} (h : sink.AcceptsAll) (text : String) :
    ∃ after, Writer.writeText sink text = (.ok (), after) ∧
      sink.Took text.toUTF8.toList after := by
  simpa using writeTexts_took h [text]

/-! ## Standard streams -/

theorem AcceptsAll.asStream_eq {sink : Sink} (h : sink.AcceptsAll) : sink.asStream = sink := by
  obtain ⟨taken, limit, chunk, interrupts, failure, flushFailure, flushes⟩ := sink
  obtain ⟨rfl, -, rfl⟩ := h
  rfl

theorem asStream_acceptsAll {sink : Sink} (h : sink.isClosed = true) :
    sink.asStream.AcceptsAll := by
  rw [asStream, if_pos h]
  exact ⟨rfl, nofun, rfl⟩

end Sink

namespace Output

@[simp]
theorem bytesOf_line (text : String) :
    Writer.bytesOf [text, "\n"] = (text ++ "\n").toUTF8.toList := by
  rw [Writer.bytesOf_eq, String.join_cons, String.join_cons, String.join_nil, String.append_empty]

/-- The texts of an error are what is written of it. -/
@[simp]
theorem join_errorTexts (format : OutputFormat) (e : Error) :
    String.join (errorTexts format e) = errorText format e := by
  cases format with
  | json => simp [errorTexts, errorText]
  | text =>
    have hsuggestions : ∀ suggestions : List String,
        String.join
            (suggestions.flatMap fun suggestion => ["  Suggestion: ", suggestion, "\n"]) =
          String.join
            (suggestions.map fun suggestion => "  Suggestion: " ++ suggestion ++ "\n") := by
      intro suggestions
      induction suggestions with
      | nil => rfl
      | cons suggestion rest ih =>
        simp [ih, String.append_assoc]
    simp [errorTexts, errorText, hsuggestions, String.append_assoc]

theorem writeResult_took (out : Output) (h : out.stdout.AcceptsAll) (text : String) :
    ∃ after, out.writeResult text = (.ok .complete, { out with stdout := after }) ∧
      out.stdout.Took (text ++ "\n").toUTF8.toList after := by
  obtain ⟨written, hwritten, htaken, haccepts⟩ := Sink.writeTexts_took h [text, "\n"]
  obtain ⟨after, hafter, hsame, hflushed⟩ := Sink.flush_took haccepts
  unfold Console.writeResult
  rw [hwritten]
  dsimp only
  rw [hafter]
  refine ⟨after, rfl, ?_, hflushed⟩
  rw [hsame, List.append_nil, htaken, bytesOf_line]

theorem error_took (out : Output) (h : out.stderr.AcceptsAll) (e : Error) :
    ∃ after, out.error e = (.ok e.exitCode, { out with stderr := after }) ∧
      out.stderr.Took (errorText out.format e).toUTF8.toList after := by
  obtain ⟨after, hafter, htook⟩ := Sink.writeTexts_took h (errorTexts out.format e)
  unfold Console.error
  rw [Writer.bytesOf_eq, join_errorTexts] at htook
  rw [hafter]
  exact ⟨after, rfl, htook⟩

end Output
end PlaneReport
