import PlaneReport.IoError

/-!
# Writers

A writer is offered bytes.  It takes some from the front of them, or is interrupted, or fails.
`writeAll` offers what is left of a buffer again and again, until nothing is left or the writer
fails, and `writeTexts` does so with one text after another.  Nothing else is known of a writer than
what `Writer` says, so what holds of all writers holds however finely they cut a buffer, whenever
they are interrupted and wherever they fail.
-/

namespace PlaneReport

/-- What an offer of bytes comes to. -/
inductive Attempt where
  /-- So many bytes from the front are taken. -/
  | takes (count : Nat)
  | interrupted
  /-- Any failure but an interruption. -/
  | fails (cause : IoError)
deriving DecidableEq, Repr

/-- How many bytes are taken. -/
def Attempt.count : Attempt → Nat
  | .takes count => count
  | _ => 0

/-- Where bytes are written to.  A writer keeps account of what it took and how often it was
flushed. -/
class Writer (W : Type) where
  /-- Everything taken so far. -/
  taken : W → List UInt8
  /-- How often the writer was flushed. -/
  flushes : W → Nat
  /-- Offers bytes, of which there is at least one. -/
  offer : W → List UInt8 → Attempt × W
  flush : W → Except IoError Unit × W
  taken_offer (w : W) (buffer : List UInt8) :
    taken (offer w buffer).2 = taken w ++ buffer.take (offer w buffer).1.count
  flushes_offer (w : W) (buffer : List UInt8) : flushes (offer w buffer).2 = flushes w
  taken_flush (w : W) : taken (flush w).2 = taken w
  flushes_flush (w : W) : flushes (flush w).2 = flushes w + 1
  /-- No writer is interrupted for ever. -/
  wellFounded_interrupted :
    WellFounded fun after before : W => ∃ buffer, offer before buffer = (.interrupted, after)

namespace Writer

variable {W : Type} [Writer W]

/-- Writes all bytes of a buffer, or as many as the writer takes.  Interrupted offers are made
again, and one of which nothing is taken is a failure. -/
def writeAll (w : W) (buffer : List UInt8) : Except IoError Unit × W :=
  if buffer = [] then (.ok (), w)
  else
    match _hoffer : offer w buffer with
    | (.interrupted, after) => writeAll after buffer
    | (.fails e, after) => (.error e, after)
    | (.takes count, after) =>
      if count = 0 then (.error .writeZero, after)
      else writeAll after (buffer.drop count)
termination_by (buffer.length, wellFounded_interrupted.wrap w)
decreasing_by
  · exact Prod.Lex.right _ ⟨buffer, by assumption⟩
  · have hlength : 0 < buffer.length := List.length_pos_iff.mpr (by assumption)
    refine Prod.Lex.left _ _ ?_
    rw [List.length_drop]
    omega

/-- Writes a text. -/
def writeText (w : W) (text : String) : Except IoError Unit × W :=
  writeAll w text.toUTF8.toList

/-- Writes texts in turn, up to the first failure. -/
def writeTexts (w : W) : List String → Except IoError Unit × W
  | [] => (.ok (), w)
  | text :: rest =>
    match writeText w text with
    | (.ok (), after) => writeTexts after rest
    | (.error e, after) => (.error e, after)

end Writer
end PlaneReport
