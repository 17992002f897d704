import PlaneReport.Proofs.Point.Distance
import PlaneReport.Proofs.Report

/-!
# Reports of exchanged inputs

A report adds exactly or not at all, and neither its sum nor its distance depends on the order of
the inputs.  That holds for whatever coordinates bit patterns stand for: the differences of two
coordinates are opposite, not a number together, or infinite together, and their squares agree.
-/

namespace PlaneReport

open Binary

namespace IntegerKind

theorem signed_holds_iff {bits : ℕ} {n : ℤ} :
    (⟨bits, true⟩ : IntegerKind).holds n = true ↔ -2 ^ (bits - 1) ≤ n ∧ n < 2 ^ (bits - 1) := by
  rw [holds_iff]
  show -((2 ^ (bits - 1) : ℕ) : ℤ) ≤ n ∧ n ≤ ((2 ^ (bits - 1) : ℕ) : ℤ) - 1 ↔ _
  push_cast
  omega

theorem unsigned_holds_iff {bits : ℕ} {n : ℤ} :
    (⟨bits, false⟩ : IntegerKind).holds n = true ↔ 0 ≤ n ∧ n < 2 ^ bits := by
  rw [holds_iff]
  show 0 ≤ n ∧ n ≤ ((2 ^ bits : ℕ) : ℤ) - 1 ↔ _
  push_cast
  omega

theorem add_signed (bits : ℕ) (m n : ℤ) :
    (⟨bits, true⟩ : IntegerKind).add m n =
      if -2 ^ (bits - 1) ≤ m + n ∧ m + n < 2 ^ (bits - 1) then .ok (m + n)
      else .error .sumOverflow := by
  unfold add
  simp only [signed_holds_iff]

theorem add_unsigned (bits : ℕ) (m n : ℤ) :
    (⟨bits, false⟩ : IntegerKind).add m n =
      if 0 ≤ m + n ∧ m + n < 2 ^ bits then .ok (m + n) else .error .sumOverflow := by
  unfold add
  simp only [unsigned_holds_iff]

end IntegerKind

namespace Inputs

/-- The integers exchanged, and the points. -/
def swapped (inputs : Inputs) : Inputs where
  a := inputs.b
  b := inputs.a
  source := inputs.target
  target := inputs.source

end Inputs

namespace Report

theorem ofInputs_swapped (inputs : Inputs) : ofInputs inputs.swapped = ofInputs inputs := by
  unfold ofInputs Inputs.swapped
  rw [Int.add_comm, Point.distance_comm]

/-- Exchanged inputs have the same report, or none either. -/
theorem compute_swapped (inputs : Inputs) : compute inputs.swapped = compute inputs := by
  have hsum : inputs.swapped.a.toInt + inputs.swapped.b.toInt =
      inputs.a.toInt + inputs.b.toInt :=
    Int.add_comm _ _
  rw [compute_eq, compute_eq, ofInputs_swapped, hsum]

theorem exists_render_eq {style : DistanceStyle} (hstyle : style.CanBeSet) (report : Report) :
    ∃ text, report.render style = .ok text := by
  obtain ⟨-, distance, hdistance⟩ | ⟨hnot, -⟩ := style.format_cases report.distance
  · rw [render, hdistance]
    exact ⟨_, rfl⟩
  · exact absurd hstyle hnot

/-- A report fails just if the sum of the integers has more than 64 bits, and otherwise carries the
exact sum.  Exchanged inputs fail as well, or have a report with the same text in every style.  Sums
of integers of any width are exact or fail in the same way. -/
theorem compute_exact_symmetric (inputs : Inputs) :
    (compute inputs = .error .sumOverflow ∧ compute inputs.swapped = .error .sumOverflow ∧
          ¬ (-2 ^ 63 ≤ inputs.a.toInt + inputs.b.toInt ∧
            inputs.a.toInt + inputs.b.toInt < 2 ^ 63) ∨
        (-2 ^ 63 ≤ inputs.a.toInt + inputs.b.toInt ∧
            inputs.a.toInt + inputs.b.toInt < 2 ^ 63) ∧
          ∃ report swapped, compute inputs = .ok report ∧
            compute inputs.swapped = .ok swapped ∧
            report.sum.toInt = inputs.a.toInt + inputs.b.toInt ∧
            ∀ style : DistanceStyle, style.CanBeSet →
              ∃ text, report.render style = .ok text ∧ swapped.render style = .ok text) ∧
      Fault.sumOverflow.message = "attempt to add with overflow" ∧
      (∀ (bits : ℕ) (m n : ℤ), (⟨bits, true⟩ : IntegerKind).add m n =
        if -2 ^ (bits - 1) ≤ m + n ∧ m + n < 2 ^ (bits - 1) then .ok (m + n)
        else .error .sumOverflow) ∧
      ∀ (bits : ℕ) (m n : ℤ), (⟨bits, false⟩ : IntegerKind).add m n =
        if 0 ≤ m + n ∧ m + n < 2 ^ bits then .ok (m + n) else .error .sumOverflow := by
  refine ⟨?_, rfl, IntegerKind.add_signed, IntegerKind.add_unsigned⟩
  rw [← IntegerKind.word_holds_iff, compute_swapped, compute_eq]
  by_cases hsum : IntegerKind.word.holds (inputs.a.toInt + inputs.b.toInt) = true
  · rw [if_pos hsum]
    refine .inr ⟨hsum, ofInputs inputs, ofInputs inputs, rfl, rfl, sum_ofInputs hsum, ?_⟩
    intro style hstyle
    obtain ⟨text, htext⟩ := (ofInputs inputs).exists_render_eq hstyle
    exact ⟨text, htext, htext⟩
  · rw [if_neg hsum]
    exact .inl ⟨rfl, rfl, hsum⟩

/-- The greatest sum, and coordinates without a number, beyond every number and at the greatest. -/
def extremeInputs : Inputs where
  a := Int64.maxValue
  b := 0
  source := ⟨.infinite true, .nan⟩
  target := ⟨Point.greatest, -Number.zero⟩

theorem compute_exact_symmetric_extreme :
    (DistanceStyle.fixed 65535).CanBeSet ∧
      ∃ report swapped text, compute extremeInputs = .ok report ∧
        compute extremeInputs.swapped = .ok swapped ∧ report.sum.toInt = 2 ^ 63 - 1 ∧
        report.render (.fixed 65535) = .ok text ∧ swapped.render (.fixed 65535) = .ok text := by
  have hstyle : (DistanceStyle.fixed 65535).CanBeSet := Nat.le_refl _
  obtain ⟨⟨-, -, hbeyond⟩ | ⟨-, report, swapped, hreport, hswapped, hsum, hrender⟩, -⟩ :=
    compute_exact_symmetric extremeInputs
  · exact absurd (by decide) hbeyond
  · obtain ⟨text, htext, htext'⟩ := hrender _ hstyle
    exact ⟨hstyle, report, swapped, text, hreport, hswapped, hsum, htext, htext'⟩

/-- One more is too much. -/
example : compute { extremeInputs with b := 1 } = .error .sumOverflow := by decide

end Report
end PlaneReport
