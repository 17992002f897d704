import PlaneReport.Writer

/-!
# How texts are written

`Writes` tells what becomes of bytes that a writer is offered: each offer is of some of those that
are left, from the front on, and the offers go on until nothing is left or one of them fails.  It
has one constructor for each thing that an offer can come to, and says nothing of how many bytes
are offered at once.  `writeTexts_writes` says that texts are written in this way.  What is taken of
them is therefore their front, and the whole exactly if no offer failed.
-/

namespace PlaneReport
namespace Writer

variable {W : Type} [Writer W]

section Offer

variable {w after : W} {buffer : List UInt8} {attempt : Attempt}

theorem taken_of_offer (h : offer w buffer = (attempt, after)) :
    taken after = taken w ++ buffer.take attempt.count := by
  have htaken := taken_offer w buffer
  rw [h] at htaken
  exact htaken

theorem flushes_of_offer (h : offer w buffer = (attempt, after)) : flushes after = flushes w := by
  have hflushes := flushes_offer w buffer
  rw [h] at hflushes
  exact hflushes

end Offer

/-- The first bytes of a buffer are taken, and then nothing is left of it or an offer fails for a
cause. -/
inductive Writes : W → List UInt8 → List UInt8 → Option IoError → W → Prop
  | done (w : W) : Writes w [] [] none w
  | interrupted {w next after : W} {front back bytes : List UInt8} {cause? : Option IoError}
      (hfront : front ≠ []) (hoffer : offer w front = (.interrupted, next))
      (hrest : Writes next (front ++ back) bytes cause? after) :
      Writes w (front ++ back) bytes cause? after
  | takes {w next after : W} {front back bytes : List UInt8} {cause? : Option IoError} {count : Nat}
      (hfront : front ≠ []) (hoffer : offer w front = (.takes count, next)) (hcount : count ≠ 0)
      (hrest : Writes next (front.drop count ++ back) bytes cause? after) :
      Writes w (front ++ back) (front.take count ++ bytes) cause? after
  | takesNothing {w after : W} {front back : List UInt8} (hfront : front ≠ [])
      (hoffer : offer w front = (.takes 0, after)) :
      Writes w (front ++ back) [] (some .writeZero) after
  | fails {w after : W} {front back : List UInt8} {e : IoError} (hfront : front ≠ [])
      (hoffer : offer w front = (.fails e, after)) : Writes w (front ++ back) [] (some e) after

/-- What writing comes to when the first failure is known. -/
def resultOf : Option IoError → Except IoError Unit
  | none => .ok ()
  | some e => .error e

theorem writeAll_writes (w : W) (buffer : List UInt8) :
    ∃ bytes cause? after, Writes w buffer bytes cause? after ∧
      writeAll w buffer = (resultOf cause?, after) := by
  fun_induction writeAll w buffer with
  | case1 w => exact ⟨[], none, w, .done w, rfl⟩
  | case2 w buffer hbuffer after hoffer ih =>
    obtain ⟨bytes, cause?, last, hrest, hresult⟩ := ih
    rw [← buffer.append_nil] at hrest
    have hwrites := Writes.interrupted hbuffer hoffer hrest
    rw [buffer.append_nil] at hwrites
    exact ⟨bytes, cause?, last, hwrites, hresult⟩
  | case3 w buffer hbuffer e after hoffer =>
    rw [← buffer.append_nil]
    exact ⟨[], some e, after, .fails hbuffer hoffer, rfl⟩
  | case4 w buffer hbuffer after hoffer =>
    rw [← buffer.append_nil]
    exact ⟨[], some .writeZero, after, .takesNothing hbuffer hoffer, rfl⟩
  | case5 w buffer hbuffer count after hoffer hcount ih =>
    obtain ⟨bytes, cause?, last, hrest, hresult⟩ := ih
    rw [← (buffer.drop count).append_nil] at hrest
    have hwrites := Writes.takes hbuffer hoffer hcount hrest
    rw [buffer.append_nil] at hwrites
    exact ⟨buffer.take count ++ bytes, cause?, last, hwrites, hresult⟩

namespace Writes

variable {w next after : W} {buffer bytes : List UInt8} {cause? : Option IoError}

/-- What is taken is the front of the buffer, and all of it unless an offer failed. -/
theorem exists_append (h : Writes w buffer bytes cause? after) :
    ∃ rest, buffer = bytes ++ rest ∧ (rest = [] ↔ cause? = none) := by
  induction h with
  | done w => exact ⟨[], rfl, by simp⟩
  | interrupted _ _ _ ih => exact ih
  | @takes w next after front back bytes cause? count _ _ _ _ ih =>
    obtain ⟨rest, hrest, hnone⟩ := ih
    refine ⟨rest, ?_, hnone⟩
    rw [List.append_assoc, ← hrest, ← List.append_assoc, List.take_append_drop]
  | takesNothing hfront => exact ⟨_, rfl, by simp [hfront]⟩
  | fails hfront => exact ⟨_, rfl, by simp [hfront]⟩

theorem taken_eq (h : Writes w buffer bytes cause? after) : taken after = taken w ++ bytes := by
  induction h with
  | done w => exact (List.append_nil _).symm
  | interrupted _ hoffer _ ih =>
    rw [ih, taken_of_offer hoffer]
    simp [Attempt.count]
  | takes _ hoffer _ _ ih =>
    rw [ih, taken_of_offer hoffer, List.append_assoc]
    rfl
  | takesNothing _ hoffer => exact taken_of_offer hoffer
  | fails _ hoffer => exact taken_of_offer hoffer

/-- Writing flushes nothing. -/
theorem flushes_eq (h : Writes w buffer bytes cause? after) : flushes after = flushes w := by
  induction h with
  | done w => rfl
  | interrupted _ hoffer _ ih => rw [ih, flushes_of_offer hoffer]
  | takes _ hoffer _ _ ih => rw [ih, flushes_of_offer hoffer]
  | takesNothing _ hoffer => exact flushes_of_offer hoffer
  | fails _ hoffer => exact flushes_of_offer hoffer

/-- What follows a buffer is written once the buffer is. -/
theorem trans {rest more : List UInt8} (h : Writes w buffer bytes none next)
    (hrest : Writes next rest more cause? after) :
    Writes w (buffer ++ rest) (bytes ++ more) cause? after := by
  generalize hnone : (none : Option IoError) = first? at h
  induction h with
  | done w => exact hrest
  | interrupted hfront hoffer _ ih =>
    have hwrites := ih hrest hnone
    rw [List.append_assoc] at hwrites ⊢
    exact .interrupted hfront hoffer hwrites
  | takes hfront hoffer hcount _ ih =>
    have hwrites := ih hrest hnone
    rw [List.append_assoc] at hwrites
    rw [List.append_assoc, List.append_assoc]
    exact .takes hfront hoffer hcount hwrites
  | takesNothing => cases hnone
  | fails => cases hnone

/-- After a failure nothing more is offered. -/
theorem append_of_fails {e : IoError} (rest : List UInt8)
    (h : Writes w buffer bytes (some e) after) :
    Writes w (buffer ++ rest) bytes (some e) after := by
  generalize hsome : some e = cause? at h
  induction h with
  | done w => cases hsome
  | interrupted hfront hoffer _ ih =>
    have hwrites := ih hsome
    rw [List.append_assoc] at hwrites ⊢
    exact .interrupted hfront hoffer hwrites
  | takes hfront hoffer hcount _ ih =>
    have hwrites := ih hsome
    rw [List.append_assoc] at hwrites ⊢
    exact .takes hfront hoffer hcount hwrites
  | takesNothing hfront hoffer =>
    rw [List.append_assoc]
    exact .takesNothing hfront hoffer
  | fails hfront hoffer =>
    rw [List.append_assoc]
    exact .fails hfront hoffer

end Writes

/-- The bytes of texts, one after another. -/
def bytesOf (texts : List String) : List UInt8 :=
  texts.flatMap fun text => text.toUTF8.toList

@[simp] theorem bytesOf_nil : bytesOf [] = [] := rfl

@[simp] theorem bytesOf_cons (text : String) (rest : List String) :
    bytesOf (text :: rest) = text.toUTF8.toList ++ bytesOf rest := rfl

@[simp] theorem bytesOf_append (texts more : List String) :
    bytesOf (texts ++ more) = bytesOf texts ++ bytesOf more :=
  List.flatMap_append

@[simp] theorem writeTexts_nil (w : W) : writeTexts w [] = (.ok (), w) := rfl

@[simp] theorem writeTexts_singleton (w : W) (text : String) :
    writeTexts w [text] = writeText w text := by
  rw [writeTexts]
  obtain ⟨written, next⟩ := writeText w text
  cases written with
  | ok _ => rfl
  | error e => rfl

theorem writeTexts_append (w : W) (texts more : List String) :
    writeTexts w (texts ++ more) =
      match writeTexts w texts with
      | (.ok (), next) => writeTexts next more
      | (.error e, next) => (.error e, next) := by
  induction texts generalizing w with
  | nil => rfl
  | cons text texts ih =>
    rw [List.cons_append, writeTexts, writeTexts]
    obtain ⟨written, next⟩ := writeText w text
    cases written with
    | ok _ => exact ih next
    | error e => rfl

theorem writeTexts_writes (w : W) (texts : List String) :
    ∃ bytes cause? after, Writes w (bytesOf texts) bytes cause? after ∧
      writeTexts w texts = (resultOf cause?, after) := by
  induction texts generalizing w with
  | nil => exact ⟨[], none, w, .done w, rfl⟩
  | cons text rest ih =>
    obtain ⟨bytes, cause?, next, hwrites, hresult⟩ := writeAll_writes w text.toUTF8.toList
    rw [writeTexts, writeText, hresult]
    cases cause? with
    | none =>
      obtain ⟨more, cause?, after, hrest, heq⟩ := ih next
      exact ⟨bytes ++ more, cause?, after, hwrites.trans hrest, heq⟩
    | some e => exact ⟨bytes, some e, next, hwrites.append_of_fails _, rfl⟩

end Writer
end PlaneReport
