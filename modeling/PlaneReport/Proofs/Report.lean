import PlaneReport.Output
import PlaneReport.Proofs.Sum

/-!
# Which reports there are

A report fails for its sum alone, and its text for the count of places alone.  The envelope of a
report takes any style.
-/

namespace PlaneReport

namespace Report

/-- What a report carries if the sum is an integer of its kind. -/
def ofInputs (inputs : Inputs) : Report where
  sum := Int64.ofInt (inputs.a.toInt + inputs.b.toInt)
  distance := inputs.source.distance inputs.target

theorem compute_eq (inputs : Inputs) :
    compute inputs =
      if IntegerKind.word.holds (inputs.a.toInt + inputs.b.toInt) = true then .ok (ofInputs inputs)
      else .error .sumOverflow := by
  rw [compute, sumWords, IntegerKind.add]
  split
  · rfl
  · rfl

theorem sum_ofInputs {inputs : Inputs}
    (h : IntegerKind.word.holds (inputs.a.toInt + inputs.b.toInt) = true) :
    (ofInputs inputs).sum.toInt = inputs.a.toInt + inputs.b.toInt :=
  IntegerKind.toInt_ofInt_of_holds h

end Report

namespace DistanceStyle

/-- A style asks for no more decimal places than a number can be set with. -/
def CanBeSet : DistanceStyle → Prop
  | .shortest => True
  | .fixed places => places ≤ maxPlaces

theorem format_cases (style : DistanceStyle) (value : Binary.Double) :
    style.CanBeSet ∧ (∃ text, style.format value = .ok text) ∨
      ¬ style.CanBeSet ∧ style.format value = .error .tooManyPlaces := by
  cases style with
  | shortest => exact .inl ⟨trivial, _, rfl⟩
  | fixed places =>
    rw [format]
    by_cases hmany : maxPlaces < places
    · exact .inr ⟨Nat.not_le.mpr hmany, if_pos hmany⟩
    · exact .inl ⟨Nat.not_lt.mp hmany, _, if_neg hmany⟩

/-- A count of places that no number can be set with. -/
def IsTooMany (precision : Option UInt64) : Prop :=
  ∃ places, precision = some places ∧ maxPlaces < places.toNat

theorem isTooMany_iff (precision : Option UInt64) :
    IsTooMany precision ↔ ¬ (ofPrecision precision).CanBeSet := by
  cases precision with
  | none =>
    constructor
    · rintro ⟨places, hplaces, -⟩
      cases hplaces
    · intro h
      exact absurd trivial h
  | some places =>
    constructor
    · rintro ⟨places', hplaces, hmany⟩
      cases hplaces
      exact Nat.not_le.mpr hmany
    · intro h
      exact ⟨places, rfl, Nat.not_le.mp h⟩

theorem format_ofPrecision (precision : Option UInt64) (value : Binary.Double) :
    IsTooMany precision ∧ (ofPrecision precision).format value = .error .tooManyPlaces ∨
      ¬ IsTooMany precision ∧ ∃ text, (ofPrecision precision).format value = .ok text := by
  rw [isTooMany_iff, Classical.not_not]
  exact (format_cases _ value).symm

end DistanceStyle

namespace Output

/-- A report has a text in each format, but for the text form in a style that cannot be set. -/
theorem reportText_cases (format : OutputFormat) (report : Report) (style : DistanceStyle)
    (now : String) :
    (format = .json ∨ style.CanBeSet) ∧ (∃ text, reportText format report style now = .ok text) ∨
      format = .text ∧ ¬ style.CanBeSet ∧
        reportText format report style now = .error .tooManyPlaces := by
  cases format with
  | json => exact .inl ⟨.inl rfl, _, rfl⟩
  | text =>
    rw [reportText, Report.render]
    obtain ⟨hset, distance, hdistance⟩ | ⟨hmany, herror⟩ := style.format_cases report.distance
    · rw [hdistance]
      exact .inl ⟨.inr hset, _, rfl⟩
    · rw [herror]
      exact .inr ⟨rfl, hmany, rfl⟩

end Output
end PlaneReport
