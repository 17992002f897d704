import PlaneReport.Proofs.Response.Envelope

/-!
# Success envelopes are read back

The compact text of a success, with or without suggestions, an origin and a time stamp, is decoded
as the response it was made of and printed as the same text again.  The payload is any value without
fractional numbers, in the order in which payloads are always kept.  There are two exceptions: one
that is nested too deep is refused, and `null` stands in the text but is read as no payload.  Main
statement: `ofText_compact_success`.
-/

namespace PlaneReport
namespace Response

/-- A success with whichever of the optional parts. -/
def successWith (data : Json) (suggestions : Option (List String))
    (origin : Option ResponseMeta) : Response :=
  { success data with suggestions := suggestions, origin := origin }

theorem asRead_successWith (data : Json) (suggestions : Option (List String))
    (origin : Option ResponseMeta) :
    (successWith data suggestions origin).asRead =
      { successWith data suggestions origin with data := data.present? } :=
  rfl

/-- A success is read back from its text, apart from a payload of `null`, if its payload nests less
than a whole text may.  A payload other than `null` is then printed as before. -/
theorem ofText_compact_success {data : Json} (hintegral : data.isIntegral = true)
    (hsorted : data.isSorted = true) (suggestions : Option (List String))
    (origin : Option ResponseMeta) :
    ofText (successWith data suggestions origin).toJson.compact =
        (if data.depth < Json.maxDepth then
          .ok { successWith data suggestions origin with data := data.present? }
        else .error .malformed) ∧
      (data.depth < Json.maxDepth → data ≠ .null →
        (ofText (successWith data suggestions origin).toJson.compact).map
            (fun read => read.toJson.compact) =
          .ok (successWith data suggestions origin).toJson.compact) := by
  have hdata : (successWith data suggestions origin).data.all Json.isIntegral = true := hintegral
  have hpayload := toOptional_payload hsorted
  have hread : ofText (successWith data suggestions origin).toJson.compact =
      if data.depth < Json.maxDepth then
        .ok { successWith data suggestions origin with data := data.present? }
      else .error .malformed := by
    rw [ofText_compact hdata]
    by_cases hdepth : data.depth < Json.maxDepth
    · rw [if_pos hdepth] at hpayload ⊢
      rw [← asRead_successWith]
      refine decode_toJson fun other hother => ?_
      cases hother
      exact hpayload
    · rw [if_neg hdepth] at hpayload ⊢
      exact decode_toJson_of_error rfl hpayload
  refine ⟨hread, fun hdepth hnull => ?_⟩
  rw [hread, if_pos hdepth, Json.present?_of_ne hnull]
  rfl

/-- Names and texts with characters that are escaped, the integers at both ends of 64 bits, and
containers without parts. -/
def entangled : Json :=
  .object [("", .null), ("a", .array [.integer (-2 ^ 63), .integer (2 ^ 64 - 1), .array [], .null]),
    ("a\"\\\n", .object [("\x01", .string "\x08é/\x7f")]), ("é", .object [])]

theorem ofText_compact_success_entangled :
    entangled.isIntegral = true ∧ entangled.isSorted = true ∧ entangled.depth < Json.maxDepth ∧
      entangled ≠ .null ∧
      (ofText (successWith entangled (some ["\"", ""]) (some ⟨"9.9", none⟩)).toJson.compact).map
          (fun read => read.toJson.compact) =
        .ok (successWith entangled (some ["\"", ""]) (some ⟨"9.9", none⟩)).toJson.compact := by
  have hintegral : entangled.isIntegral = true := by decide
  have hsorted : entangled.isSorted = true := by decide
  have hdepth : entangled.depth < Json.maxDepth := by decide
  exact ⟨hintegral, hsorted, hdepth, nofun,
    (ofText_compact_success hintegral hsorted _ _).2 hdepth nofun⟩

/-- A payload of `null` is printed, and is not there any more after reading. -/
theorem ofText_compact_success_null :
    Json.null.isIntegral = true ∧ Json.null.isSorted = true ∧ Json.null.depth < Json.maxDepth ∧
      (successWith .null none none).toJson.compact =
        "\x7b\"status\":\"success\",\"code\":\"OK\"," ++
          "\"message\":\"Operation completed successfully\",\"data\":null,\"exit_code\":0\x7d" ∧
      (ofText (successWith .null none none).toJson.compact).map
          (fun read => (read.data.isSome, read.toJson.compact)) =
        .ok (false, "\x7b\"status\":\"success\",\"code\":\"OK\"," ++
          "\"message\":\"Operation completed successfully\",\"exit_code\":0\x7d") :=
  ⟨rfl, rfl, by decide, by decide +kernel, by decide +kernel⟩

end Response
end PlaneReport
