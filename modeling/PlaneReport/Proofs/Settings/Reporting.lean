import PlaneReport.Proofs.Report
import PlaneReport.Proofs.Settings.Finite

/-!
# Which settings can be reported

A report for settings fails for its sum, or for the places that its style asks for.  The check of
settings looks at neither: it knows the log level alone, so the settings that it lets pass are not
those that can be reported.
-/

namespace PlaneReport

variable {W : Type} [Writer W]

namespace Console

/-- A report is written if the format or the style allows it, and is a fault if not. -/
theorem report_cases (out : Console W) (report : Report) (style : DistanceStyle) (now : String) :
    (out.format = .json ∨ style.CanBeSet) ∧
        (∃ text, Output.reportText out.format report style now = .ok text ∧
          out.report report style now = .ok (out.writeResult text)) ∨
      out.format = .text ∧ ¬ style.CanBeSet ∧
        out.report report style now = .error .tooManyPlaces := by
  rw [Console.report]
  obtain ⟨hset, text, htext⟩ | ⟨hformat, hmany, herror⟩ :=
    Output.reportText_cases out.format report style now
  · rw [htext]
    exact .inl ⟨hset, text, rfl, rfl⟩
  · rw [herror]
    exact .inr ⟨hformat, hmany, rfl⟩

end Console

/-- An output to which nothing was written. -/
def Output.fresh (format : OutputFormat) : Output where
  format := format
  stdout := {}
  stderr := {}

namespace Settings

theorem validate_iff (s : Settings) :
    s.validate = .ok () ↔ (Level.ofText? s.level).isSome = true := by
  rw [validate, Level.parse]
  cases Level.ofText? s.level with
  | none => exact iff_of_false nofun nofun
  | some level => exact iff_of_true rfl rfl

/-- Settings of which the sum is in range can be reported unless their report is set with too many
places, whatever their check says: it is the same for every count of places. -/
theorem report_returns_iff (s : Settings) (out : Console W) (now : String)
    (hsum : IntegerKind.word.holds (s.inputs.a.toInt + s.inputs.b.toInt) = true) :
    ∃ report, Report.compute s.inputs = .ok report ∧
      ((∃ result after, out.report report s.style now = .ok (result, after)) ↔
        out.format = .json ∨ ¬ DistanceStyle.IsTooMany s.precision) ∧
      (out.report report s.style now = .error .tooManyPlaces ↔
        out.format = .text ∧ DistanceStyle.IsTooMany s.precision) ∧
      ∀ precision, { s with precision := precision }.validate = s.validate := by
  refine ⟨Report.ofInputs s.inputs, ?_, ?_⟩
  · rw [Report.compute_eq, if_pos hsum]
  · have hmany : DistanceStyle.IsTooMany s.precision ↔ ¬ s.style.CanBeSet :=
      DistanceStyle.isTooMany_iff s.precision
    rw [hmany, Classical.not_not]
    obtain ⟨hset, text, -, hwritten⟩ | ⟨hformat, hmany, hfault⟩ :=
      out.report_cases (Report.ofInputs s.inputs) s.style now
    · rw [hwritten]
      refine ⟨iff_of_true ⟨_, _, rfl⟩ hset, iff_of_false nofun ?_, fun _ => rfl⟩
      rintro ⟨hformat, hmany⟩
      obtain hjson | hset := hset
      · cases hformat.symm.trans hjson
      · exact hmany hset
    · rw [hfault]
      refine ⟨iff_of_false nofun ?_, iff_of_true rfl ⟨hformat, hmany⟩, fun _ => rfl⟩
      rintro (hjson | hset)
      · cases hformat.symm.trans hjson
      · exact hmany hset

/-- The standard settings with one more decimal place than a number can be set with. -/
def overprecise : Settings :=
  { standard with precision := some 65536 }

theorem overprecise_sum_holds : IntegerKind.word.holds
    (overprecise.inputs.a.toInt + overprecise.inputs.b.toInt) = true := by
  decide

theorem report_returns_iff_overprecise :
    IntegerKind.word.holds (overprecise.inputs.a.toInt + overprecise.inputs.b.toInt) = true ∧
      ∃ report, Report.compute overprecise.inputs = .ok report ∧
        ∃ result after, (Output.fresh .json).report report overprecise.style "" =
          .ok (result, after) := by
  obtain ⟨report, hcompute, hreturns, -, -⟩ :=
    report_returns_iff overprecise (Output.fresh .json) "" overprecise_sum_holds
  exact ⟨overprecise_sum_holds, report, hcompute, hreturns.mpr (.inl rfl)⟩

/-- They pass their check, and there is no text form of their report. -/
theorem overprecise_passes_validate :
    overprecise.IsFinite ∧ overprecise.validate = .ok () ∧
      ∃ report, Report.compute overprecise.inputs = .ok report ∧
        (Output.fresh .text).report report overprecise.style "" = .error .tooManyPlaces := by
  have hlevel : overprecise.validate = .ok () := (validate_iff overprecise).mpr (by decide)
  refine ⟨standard_isFinite, hlevel, Report.ofInputs overprecise.inputs, ?_, rfl⟩
  rw [Report.compute_eq, if_pos overprecise_sum_holds]

end Settings
end PlaneReport
