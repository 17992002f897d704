import PlaneReport.Log.Logger
import PlaneReport.Proofs.Log.Directive

/-!
# Filters that cannot be read

The pieces of `RUST_LOG` are read in turn.  One that is no directive is complained about and passed
over; one whose names cannot be cut out between characters ends the reading.  Which of the two it is
depends on the piece alone.
-/

namespace PlaneReport
namespace Log

/-- Whether a name in a piece would have to start or end inside a character. -/
def Directive.isUncuttable (objection? : String → Option String) (piece : List Char) : Bool :=
  match Directive.ofText objection? piece with
  | .error (.fault _) => true
  | _ => false

/-- Whether the variable `RUST_LOG` has a piece that cannot be cut. -/
def isUncuttable (objection? : String → Option String) (environment : Environment) : Bool :=
  match environment.lookup "RUST_LOG" with
  | none => false
  | some text => (Text.splitAt ',' text.toList).any (Directive.isUncuttable objection?)

variable {objection? : String → Option String} {environment : Environment} {level : Level}

namespace Filter

/-- The pieces after one that is passed over decide. -/
theorem readPieces_filter (pieces : List (List Char)) (filter : Filter) :
    (readPieces objection? filter pieces).filter.toBool =
      !pieces.any (Directive.isUncuttable objection?) := by
  induction pieces generalizing filter with
  | nil => rfl
  | cons piece rest ih =>
    rw [List.any_cons, readPieces, Directive.isUncuttable]
    cases Directive.ofText objection? piece with
    | ok directive => exact ih _
    | error defect =>
      cases defect with
      | fault fault => rfl
      | refused why => exact ih filter

/-- An empty piece is no directive, but it can be cut. -/
theorem any_isUncuttable_filter (pieces : List (List Char)) :
    (pieces.filter fun piece => !piece.isEmpty).any (Directive.isUncuttable objection?) =
      pieces.any (Directive.isUncuttable objection?) := by
  induction pieces with
  | nil => rfl
  | cons piece rest ih =>
    cases piece with
    | nil => exact ih
    | cons c piece => exact congrArg (Directive.isUncuttable objection? (c :: piece) || ·) ih

theorem ofText_filter (text : String) :
    (ofText objection? text).filter.toBool =
      !(Text.splitAt ',' text.toList).any (Directive.isUncuttable objection?) := by
  rw [← any_isUncuttable_filter, ← readPieces_filter _ [], ofText]
  dsimp only
  generalize readPieces objection? [] _ = reading
  cases reading.filter with
  | error fault => rfl
  | ok filter => rfl

end Filter

/-- Whether a run has a filter depends on the environment, not on the level. -/
theorem readingOf_filter (objection? : String → Option String) (environment : Environment)
    (level : Level) :
    (readingOf objection? environment level).filter.toBool =
      !isUncuttable objection? environment := by
  unfold readingOf isUncuttable
  cases environment.lookup "RUST_LOG" with
  | none => rfl
  | some text => exact Filter.ofText_filter text

theorem isUncuttable_of_readingOf_error {fault : Fault}
    (h : (readingOf objection? environment level).filter = .error fault) :
    isUncuttable objection? environment = true := by
  simpa [h, Except.toBool] using readingOf_filter objection? environment level

theorem isUncuttable_of_readingOf_ok {filter : Filter}
    (h : (readingOf objection? environment level).filter = .ok filter) :
    isUncuttable objection? environment = false := by
  simpa [h, Except.toBool] using readingOf_filter objection? environment level

/-- What cannot be cut is a piece with a blank in front and a character of several bytes. -/
theorem exists_piece_of_isUncuttable (h : isUncuttable objection? environment = true) :
    ∃ text piece, environment.lookup "RUST_LOG" = some text ∧
      piece ∈ Text.splitAt ',' text.toList ∧
      (∃ c rest, piece = c :: rest ∧ Text.isBlank c = true) ∧ ∃ c ∈ piece, c.utf8Size ≠ 1 := by
  unfold isUncuttable at h
  split at h
  · cases h
  · next text htext =>
    obtain ⟨piece, hpiece, hcut⟩ := List.any_eq_true.mp h
    unfold Directive.isUncuttable at hcut
    split at hcut
    · next fault hfault => exact ⟨text, piece, htext, hpiece, Directive.ofText_fault hfault⟩
    · cases hcut

end Log
end PlaneReport
