import PlaneReport.Proofs.Json.Numeral
import PlaneReport.Proofs.Point
import PlaneReport.Proofs.Report
import PlaneReport.Proofs.Settings.Reporting

/-!
# A report in two forms

The text form of a report and its JSON form are set in two layouts, with other bounds for exponents,
another tie rule and other names of what is not finite.  Both carry the same sum and, where the
distance is finite, numerals that the same number is nearest to.  The squares of far apart
coordinates overflow; the text form then names the infinity, and the JSON form has no number.
-/

namespace PlaneReport

open Binary

namespace Output

/-- The text of a success around the texts of its data and of the time. -/
def envelope (data now : String) : String :=
  "\x7b\n" ++
  "  \"status\": \"success\",\n" ++
  "  \"code\": \"OK\",\n" ++
  "  \"message\": \"Operation completed successfully\",\n" ++
  "  \"data\": " ++ data ++ ",\n" ++
  "  \"exit_code\": 0,\n" ++
  "  \"meta\": \x7b\n" ++
  "    \"version\": \"0.1.0\",\n" ++
  "    \"timestamp\": " ++ now ++ "\n" ++
  "  \x7d\n" ++
  "\x7d"

/-- The data of a report around the texts of its sum and its distance. -/
def reportData (sum distance : String) : String :=
  "\x7b\n" ++
  "    \"sum\": " ++ sum ++ ",\n" ++
  "    \"distance\": " ++ distance ++ "\n" ++
  "  \x7d"

set_option maxRecDepth 1000 in
theorem successText_eq (data : Json) (now : String) :
    successText data now =
      envelope (String.ofList (Json.prettyChars 1 data))
        (String.ofList (Json.stringChars now)) := by
  rw [← String.toList_inj]
  unfold successText Json.pretty envelope
  simp only [String.toList_append, String.toList_ofList, Response.toJson, Response.success,
    programVersion, Json.optionalMember, Option.map_some, Option.map_none, List.cons_append,
    List.nil_append, List.append_nil, Json.prettyChars, Json.prettyMembers, Json.leafChars]
  -- Only the spelling of the constant parts is left.
  simp [Json.lineStart, Json.stringChars, Json.escapeChar, Json.integerChars, Nat.toDigits,
    Nat.toDigitsCore, List.replicate]

theorem prettyChars_report (report : Report) :
    String.ofList (Json.prettyChars 1 report.toJson) =
      reportData (toString report.sum.toInt) (Layout.json.text report.distance) := by
  rw [← Json.ofList_integerChars, ← String.toList_inj]
  unfold reportData Layout.text
  simp only [String.toList_append, String.toList_ofList, Report.toJson, Json.prettyChars,
    Json.prettyMembers, Json.leafChars]
  simp [Json.lineStart, Json.stringChars, Json.escapeChar, List.replicate]

theorem successText_report (report : Report) (now : String) :
    successText report.toJson now =
      envelope (reportData (toString report.sum.toInt) (Layout.json.text report.distance))
        (String.ofList (Json.stringChars now)) := by
  rw [successText_eq, prettyChars_report]

end Output

theorem Layout.json_text_infinite : Layout.json.text (.infinite false : Double) = "null" := by
  decide

namespace Point

/-- A distance and its texts in the two layouts. -/
theorem texts_of_distance {p q : Point} (hp : p.IsFinite) (hq : q.IsFinite) :
    Number.ofText? (Layout.exact.text (p.distance q)).toList = some (p.distance q) ∧
      ((p.distance q).isFinite = true ∧
          (∃ d, Json.decimal? (Layout.json.text (p.distance q)).toList = some d ∧
            d.toNumber double = p.distance q) ∨
        p.distance q = .infinite false ∧ Layout.json.text (p.distance q) = "null" ∧
          Layout.exact.text (p.distance q) = "inf") := by
  have hwidth : 2 ≤ double.width := by decide
  have hunsigned := Point.distance_isUnsigned hp hq
  rw [Layout.text, Layout.text, String.toList_ofList, String.toList_ofList]
  obtain hfar | ⟨size, hnear⟩ := Number.isUnsigned_cases hunsigned
  · rw [hfar]
    exact ⟨Layout.ofText?_chars_exact hwidth nofun,
      .inr ⟨rfl, Layout.json_text_infinite, by decide⟩⟩
  · rw [hnear]
    exact ⟨Layout.ofText?_chars_exact hwidth nofun, .inl ⟨rfl, Json.decimal?_chars hwidth rfl⟩⟩

end Point

namespace Inputs

/-- The least sum, and two points so close that the square of their distance vanishes. -/
def closeBy : Inputs where
  a := Int64.minValue
  b := 0
  source := ⟨Number.ofBits 1, Number.zero⟩
  target := Point.origin

/-- Two points on an axis, ten to the two hundredth apart. -/
def farApart : Inputs where
  a := 1
  b := 2
  source := ⟨Number.ofBits 0x6974e718d7d7625a, Number.zero⟩
  target := Point.origin

end Inputs

namespace Console

variable {W : Type} [Writer W]

/-- The JSON form of a report, in whatever style. -/
theorem report_json (out : Console W) (report : Report) (style : DistanceStyle) (now : String)
    (hformat : out.format = .json) :
    out.report report style now =
      .ok (out.writeResult (Output.envelope
        (Output.reportData (toString report.sum.toInt) (Layout.json.text report.distance))
        (String.ofList (Json.stringChars now)))) := by
  rw [Console.report, hformat, Output.reportText, Output.successText_report]
  rfl

theorem report_text (out : Console W) (report : Report) (now : String)
    (hformat : out.format = .text) :
    out.report report .shortest now = .ok (out.writeResult report.text) := by
  rw [Console.report, hformat, Output.reportText, Report.render_shortest]
  rfl

/-- The report of finite points with a sum in range is written in either format with the same sum
and, unless the distance is infinite, the same distance. -/
theorem report_forms_agree {inputs : Inputs} (hfinite : inputs.IsFinite)
    (hsum : IntegerKind.word.holds (inputs.a.toInt + inputs.b.toInt) = true) :
    ∃ report numeral shown, Report.compute inputs = .ok report ∧
      (∀ (out : Console W) (style : DistanceStyle) (now : String), out.format = .json →
        out.report report style now =
          .ok (out.writeResult (Output.envelope
            (Output.reportData (toString (inputs.a.toInt + inputs.b.toInt)) numeral)
            (String.ofList (Json.stringChars now))))) ∧
      (∀ (out : Console W) (now : String), out.format = .text →
        out.report report .shortest now =
          .ok (out.writeResult ("Sum: " ++ toString (inputs.a.toInt + inputs.b.toInt) ++
            "\nDistance: " ++ shown))) ∧
      Number.ofText? shown.toList = some report.distance ∧
      (report.distance.isFinite = true ∧
          (∃ d, Json.decimal? numeral.toList = some d ∧ d.toNumber double = report.distance) ∨
        report.distance = .infinite false ∧ numeral = "null" ∧ shown = "inf") := by
  have hcompute : Report.compute inputs = .ok (Report.ofInputs inputs) := by
    rw [Report.compute_eq, if_pos hsum]
  have htexts := Point.texts_of_distance hfinite.1 hfinite.2
  rw [← Report.sum_ofInputs hsum]
  exact ⟨Report.ofInputs inputs, _, _, hcompute,
    fun out style now hformat => out.report_json _ style now hformat,
    fun out now hformat => out.report_text _ now hformat, htexts⟩

theorem quoted_empty : String.ofList (Json.stringChars "") = "\"\"" := by
  decide

theorem closeBy_compute :
    Report.compute Inputs.closeBy = .ok ⟨Int64.minValue, Number.zero⟩ := by
  decide +kernel

theorem report_forms_agree_closeBy :
    Inputs.closeBy.IsFinite ∧
      IntegerKind.word.holds (Inputs.closeBy.a.toInt + Inputs.closeBy.b.toInt) = true ∧
      ∃ report numeral, Report.compute Inputs.closeBy = .ok report ∧
        (Output.fresh .json).report report .shortest "" =
          .ok ((Output.fresh .json).writeResult
            (Output.envelope (Output.reportData "-9223372036854775808" numeral) "\"\"")) ∧
        ∃ d, Json.decimal? numeral.toList = some d ∧ d.toNumber double = report.distance := by
  have hfinite : Inputs.closeBy.IsFinite := by decide
  have hsum : IntegerKind.word.holds
      (Inputs.closeBy.a.toInt + Inputs.closeBy.b.toInt) = true := by decide
  obtain ⟨report, numeral, shown, hcompute, hjson, -, -, hnumeral⟩ :=
    report_forms_agree (W := Sink) hfinite hsum
  have hleast : toString (Inputs.closeBy.a.toInt + Inputs.closeBy.b.toInt) =
      "-9223372036854775808" := by decide
  have hwritten := hjson (Output.fresh .json) .shortest "" rfl
  rw [hleast, quoted_empty] at hwritten
  refine ⟨hfinite, hsum, report, numeral, hcompute, hwritten, ?_⟩
  obtain ⟨-, hdecimal⟩ | ⟨hinfinite, -⟩ := hnumeral
  · exact hdecimal
  · rw [closeBy_compute] at hcompute
    cases hcompute
    exact absurd hinfinite (by decide)

theorem farApart_compute : Report.compute Inputs.farApart = .ok ⟨3, .infinite false⟩ := by
  decide +kernel

/-- Their report has no number for the distance. -/
theorem farApart_distance_is_null :
    Inputs.farApart.IsFinite ∧
      IntegerKind.word.holds (Inputs.farApart.a.toInt + Inputs.farApart.b.toInt) = true ∧
      ∃ report, Report.compute Inputs.farApart = .ok report ∧
        (Output.fresh .json).report report .shortest "" =
          .ok ((Output.fresh .json).writeResult
            (Output.envelope (Output.reportData "3" "null") "\"\"")) ∧
        Json.decimal? "null".toList = none := by
  refine ⟨by decide, by decide, _, farApart_compute, ?_, by decide⟩
  have hwritten := (Output.fresh .json).report_json ⟨3, .infinite false⟩ .shortest "" rfl
  rw [Layout.json_text_infinite, quoted_empty] at hwritten
  exact hwritten

end Console
end PlaneReport
