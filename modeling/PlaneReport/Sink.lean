import PlaneReport.Writer

/-!
# Sinks

A sink is a writer that keeps what it takes.  It takes bytes in pieces, may be interrupted at first,
and from some byte on may take nothing more.

Programs write to their standard streams through sinks that hide one failure: what goes to a stream
that is not open for writing is lost without a word.
-/

namespace PlaneReport

structure Sink where
  /-- Everything taken so far. -/
  taken : List UInt8 := []
  /-- How many bytes are taken in all. -/
  limit : Option Nat := none
  /-- How many bytes are taken at a time. -/
  chunk : Option Nat := none
  /-- How many more writes are interrupted. -/
  interrupts : Nat := 0
  /-- How a write beyond the limit fails. -/
  failure : IoError := .writeZero
  /-- How a flush fails. -/
  flushFailure : Option IoError := none
  /-- How often the sink was flushed. -/
  flushes : Nat := 0

namespace Sink

/-- How many bytes are left before the limit, out of `size`. -/
def room (sink : Sink) (size : Nat) : Nat :=
  match sink.limit with
  | none => size
  | some limit => min size (limit - sink.taken.length)

/-- How many bytes of a buffer of `size` the next write takes. -/
def portion (sink : Sink) (size : Nat) : Nat :=
  match sink.chunk with
  | none => sink.room size
  | some chunk => min chunk (sink.room size)

/-- Takes as much of a buffer as the sink takes at a time, unless it is interrupted or full. -/
def offer (sink : Sink) (buffer : List UInt8) : Attempt × Sink :=
  if 0 < sink.interrupts then (.interrupted, { sink with interrupts := sink.interrupts - 1 })
  else if sink.room buffer.length = 0 then (.fails sink.failure, sink)
  else
    let count := sink.portion buffer.length
    (.takes count, { sink with taken := sink.taken ++ buffer.take count })

def flush (sink : Sink) : Except IoError Unit × Sink :=
  let sink := { sink with flushes := sink.flushes + 1 }
  match sink.flushFailure with
  | none => (.ok (), sink)
  | some e => (.error e, sink)

/-- Whether writes fail because the stream behind a sink is not open for writing. -/
def isClosed (sink : Sink) : Bool :=
  sink.limit.isSome && sink.failure == .notOpen

/-- A sink as a standard stream.  Writes and flushes that fail because the stream is not open are
reported as done.  So such a stream counts as one that takes everything, although all is lost. -/
def asStream (sink : Sink) : Sink :=
  if sink.isClosed then { taken := sink.taken, flushes := sink.flushes }
  else { sink with flushFailure := sink.flushFailure.filter fun e => e != .notOpen }

theorem offer_cases (sink : Sink) (buffer : List UInt8) :
    (0 < sink.interrupts ∧ sink.offer buffer =
        (.interrupted, { sink with interrupts := sink.interrupts - 1 })) ∨
      (sink.interrupts = 0 ∧ sink.room buffer.length = 0 ∧
        sink.offer buffer = (.fails sink.failure, sink)) ∨
      (sink.interrupts = 0 ∧ sink.room buffer.length ≠ 0 ∧
        sink.offer buffer = (.takes (sink.portion buffer.length),
          { sink with taken := sink.taken ++ buffer.take (sink.portion buffer.length) })) := by
  unfold offer
  by_cases hinterrupts : 0 < sink.interrupts
  · exact .inl ⟨hinterrupts, if_pos hinterrupts⟩
  · have hnone : sink.interrupts = 0 := by omega
    rw [if_neg hinterrupts]
    by_cases hroom : sink.room buffer.length = 0
    · exact .inr (.inl ⟨hnone, hroom, if_pos hroom⟩)
    · exact .inr (.inr ⟨hnone, hroom, if_neg hroom⟩)

theorem flush_eq (sink : Sink) :
    sink.flush = (match sink.flushFailure with | none => .ok () | some e => .error e,
      { sink with flushes := sink.flushes + 1 }) := by
  unfold flush
  cases sink.flushFailure with
  | none => rfl
  | some e => rfl

/-- An interruption uses up one of those that are left. -/
theorem wellFounded_interrupted :
    WellFounded fun after before : Sink =>
      ∃ buffer, offer before buffer = (.interrupted, after) := by
  refine Subrelation.wf ?_ (measure Sink.interrupts).wf
  rintro after before ⟨buffer, hoffer⟩
  obtain ⟨hinterrupts, heq⟩ | ⟨-, -, heq⟩ | ⟨-, -, heq⟩ := before.offer_cases buffer
  · rw [heq] at hoffer
    cases hoffer
    exact Nat.sub_lt hinterrupts Nat.one_pos
  · rw [heq] at hoffer
    cases hoffer
  · rw [heq] at hoffer
    cases hoffer

end Sink

instance : Writer Sink where
  taken := Sink.taken
  flushes := Sink.flushes
  offer := Sink.offer
  flush := Sink.flush
  taken_offer sink buffer := by
    obtain ⟨-, heq⟩ | ⟨-, -, heq⟩ | ⟨-, -, heq⟩ := sink.offer_cases buffer
    · rw [heq]
      exact (List.append_nil _).symm
    · rw [heq]
      exact (List.append_nil _).symm
    · rw [heq]
      rfl
  flushes_offer sink buffer := by
    obtain ⟨-, heq⟩ | ⟨-, -, heq⟩ | ⟨-, -, heq⟩ := sink.offer_cases buffer <;> rw [heq]
  taken_flush sink := by rw [sink.flush_eq]
  flushes_flush sink := by rw [sink.flush_eq]
  wellFounded_interrupted := Sink.wellFounded_interrupted

end PlaneReport
