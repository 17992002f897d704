import PlaneReport.Output
import PlaneReport.Proofs.Json.Payload
import PlaneReport.Proofs.Outline.Shape
import PlaneReport.Proofs.Sum

/-!
# Response envelopes are read back

What is written of a response in JSON denotes that response again, whatever characters are in its
texts and whichever of its optional parts are there, if its payload is read back; only a payload of
`null` is taken for none at all.  Main statements: `decode_toJson` and `ofText_of_toList`, with
`ofText_pretty_ofError` for what is written of an error.
-/

namespace PlaneReport

namespace Json

@[simp]
theorem areItemsIntegral_strings (texts : List String) :
    areItemsIntegral (texts.map Json.string) = true := by
  induction texts with
  | nil => rfl
  | cons text texts ih =>
    rw [List.map_cons, areItemsIntegral, ih]
    rfl

@[simp]
theorem outlinesOf_strings (texts : List String) :
    outlinesOf (texts.map Json.string) = texts.map Outline.string := by
  induction texts with
  | nil => rfl
  | cons text texts ih =>
    rw [List.map_cons, outlinesOf, ih]
    rfl

@[simp]
theorem areMembersIntegral_append (first second : List (String × Json)) :
    areMembersIntegral (first ++ second) =
      (areMembersIntegral first && areMembersIntegral second) := by
  induction first with
  | nil => rfl
  | cons member rest ih =>
    obtain ⟨key, value⟩ := member
    rw [List.cons_append, areMembersIntegral, areMembersIntegral, ih, Bool.and_assoc]

@[simp]
theorem memberOutlinesOf_append (first second : List (String × Json)) :
    memberOutlinesOf (first ++ second) = memberOutlinesOf first ++ memberOutlinesOf second := by
  induction first with
  | nil => rfl
  | cons member rest ih =>
    obtain ⟨key, value⟩ := member
    rw [List.cons_append, memberOutlinesOf, memberOutlinesOf, ih, List.cons_append]

@[simp]
theorem areMembersIntegral_optionalMember (key : String) (value? : Option Json) :
    areMembersIntegral (optionalMember key value?) = value?.all isIntegral := by
  cases value? with
  | none => rfl
  | some value => rw [optionalMember, areMembersIntegral, areMembersIntegral, Bool.and_true]; rfl

@[simp]
theorem memberOutlinesOf_optionalMember (key : String) (value? : Option Json) :
    memberOutlinesOf (optionalMember key value?) =
      Shape.optionalMember key (value?.map outlineOf) := by
  cases value? <;> rfl

end Json

@[simp]
theorem Outline.toList_strings (dialect : Dialect) (texts : List String) :
    (Outline.list (texts.map Outline.string) true).toList dialect (Outline.toText dialect) =
      .ok texts := by
  have hmap : (texts.map Outline.string).mapM (Outline.toText dialect) = .ok texts := by
    induction texts with
    | nil => rfl
    | cons text texts ih =>
      rw [List.map_cons, List.mapM_cons, ih]
      rfl
  rw [toList, hmap]
  rfl

namespace Response

variable {response : Response} {dialect : Dialect}

/-! ## Parts -/

def suggestionsJson (suggestions : List String) : Json :=
  .object [("suggestions", .array (suggestions.map Json.string))]

def originJson (origin : ResponseMeta) : Json :=
  .object (("version", Json.string origin.version) ::
    Json.optionalMember "timestamp" (origin.timestamp.map Json.string))

theorem toOptional_suggestions (suggestions : List String) :
    (suggestionsJson suggestions).outlineOf.toOptional ((suggestionsShape dialect).decode dialect) =
      .ok (some suggestions) := by
  have hfield : ((Outline.list (suggestions.map Outline.string) true).toList dialect
      (Outline.toText dialect)).map some = .ok (some suggestions) := by
    rw [Outline.toList_strings]
    rfl
  show ((suggestionsShape dialect).decode dialect
    (.table [(some "suggestions", .list (Json.outlinesOf _) true)] true)).map some = _
  rw [Json.outlinesOf_strings, Shape.decode_table, Shape.takeMembers_taken rfl rfl hfield]
  rfl

theorem toOptional_origin (origin : ResponseMeta) :
    (originJson origin).outlineOf.toOptional ((metaShape dialect).decode dialect) =
      .ok (some origin) := by
  obtain ⟨version, timestamp⟩ := origin
  cases timestamp <;> rfl

theorem isIntegral_suggestions (suggestions : List String) :
    (suggestionsJson suggestions).isIntegral = true := by
  simp [suggestionsJson, Json.isIntegral, Json.areMembersIntegral]

theorem isIntegral_origin (origin : ResponseMeta) : (originJson origin).isIntegral = true := by
  obtain ⟨version, timestamp⟩ := origin
  cases timestamp <;> rfl

/-! ## Whole responses -/

theorem toJson_eq (response : Response) :
    response.toJson = .object
      ([("status", Json.string response.status), ("code", .string response.code),
          ("message", .string response.message)] ++
        Json.optionalMember "data" response.data ++
        Json.optionalMember "error" (response.suggestions.map suggestionsJson) ++
        [("exit_code", .integer response.exitCode.toNat)] ++
        Json.optionalMember "meta" (response.origin.map originJson)) :=
  rfl

theorem isIntegral_toJson (h : response.data.all Json.isIntegral = true) :
    response.toJson.isIntegral = true := by
  have hcode := response.exitCode.toNat_lt
  have hsuggestions : (response.suggestions.map suggestionsJson).all Json.isIntegral = true := by
    cases response.suggestions with
    | none => rfl
    | some suggestions => exact isIntegral_suggestions suggestions
  have horigin : (response.origin.map originJson).all Json.isIntegral = true := by
    cases response.origin with
    | none => rfl
    | some origin => exact isIntegral_origin origin
  rw [toJson_eq]
  simp only [Json.isIntegral, Json.areMembersIntegral, Json.areMembersIntegral_append,
    Json.areMembersIntegral_optionalMember, h, hsuggestions, horigin, Bool.and_true,
    Bool.true_and, Bool.and_eq_true, decide_eq_true_eq]
  omega

/-- The members of a response in the order in which they are read. -/
theorem outlineOf_toJson (response : Response) :
    response.toJson.outlineOf = .table
      ((some "status", .string response.status) :: (some "code", .string response.code) ::
        (some "message", .string response.message) ::
        (Shape.optionalMember "data" (response.data.map Json.outlineOf) ++
          (Shape.optionalMember "error"
              (response.suggestions.map fun suggestions => (suggestionsJson suggestions).outlineOf) ++
            (some "exit_code", .integer response.exitCode.toNat) ::
              (Shape.optionalMember "meta"
                (response.origin.map fun origin => (originJson origin).outlineOf) ++ [])))) true := by
  rw [toJson_eq]
  simp [Json.outlineOf, Json.memberOutlinesOf, Function.comp_def]

/-- The response as its text is read, where a payload of `null` is none. -/
def asRead (response : Response) : Response :=
  { response with data := response.data.bind Json.present? }

/-- The texts of a response, which come first. -/
def texts (response : Response) : Draft where
  status := some response.status
  code := some response.code
  message := some response.message

theorem takeMembers_texts (response : Response) (rest : List (Option String × Outline)) :
    Shape.takeMembers dialect (shape dialect).fields [] (shape dialect).start
        ((some "status", .string response.status) :: (some "code", .string response.code) ::
          (some "message", .string response.message) :: rest) =
      Shape.takeMembers dialect (shape dialect).fields ["message", "code", "status"]
        response.texts rest := by
  rw [Shape.takeMembers_taken rfl rfl rfl, Shape.takeMembers_taken rfl rfl rfl,
    Shape.takeMembers_taken rfl rfl rfl]
  rfl

/-- A response comes back as it is read if its payload does. -/
theorem decode_toJson
    (h : ∀ data ∈ response.data, data.outlineOf.toOptional payload = .ok data.present?) :
    decode dialect response.toJson.outlineOf = .ok response.asRead := by
  have hcode : ∀ f : Int → Draft, ((Outline.integer response.exitCode.toNat).toInteger dialect
      byteKind "u8").map f = .ok (f response.exitCode.toNat) := by
    intro f
    have hholds : byteKind.holds response.exitCode.toNat = true :=
      IntegerKind.unsigned_holds response.exitCode.toNat_lt
    rw [Outline.toInteger_of_holds hholds]
    rfl
  -- No key was seen before, whichever of the optional members came.
  have herror : ((response.data.toList.map fun _ => "data") ++
      ["message", "code", "status"]).contains "error" = false := by
    cases response.data <;> rfl
  have hexit : ((response.suggestions.toList.map fun _ => "error") ++
      ((response.data.toList.map fun _ => "data") ++
        ["message", "code", "status"])).contains "exit_code" = false := by
    cases response.data <;> cases response.suggestions <;> rfl
  have hmeta : ("exit_code" :: ((response.suggestions.toList.map fun _ => "error") ++
      ((response.data.toList.map fun _ => "data") ++
        ["message", "code", "status"]))).contains "meta" = false := by
    cases response.data <;> cases response.suggestions <;> rfl
  rw [outlineOf_toJson]
  show (shape dialect).decode dialect _ = _
  rw [Shape.decode_table, takeMembers_texts,
    Shape.takeMembers_optional (fun data => { response.texts with data := data })
      rfl rfl (fun _ => rfl) ?_ h,
    Shape.takeMembers_optional (fun suggestions => { response.texts with
        data := response.asRead.data
        suggestions := suggestions })
      rfl herror (fun _ => rfl) ?_ fun suggestions _ => toOptional_suggestions suggestions,
    Option.bind_fun_some, Shape.takeMembers_taken rfl hexit (hcode _), Int.toNat_natCast,
    UInt8.ofNat_toNat,
    Shape.takeMembers_optional (fun origin => { response.texts with
        data := response.asRead.data
        suggestions := response.suggestions
        exitCode := some response.exitCode
        origin := origin })
      rfl hmeta (fun _ => rfl) ?_ fun origin _ => toOptional_origin origin,
    Option.bind_fun_some]
  -- The draft is complete, and each of the three parts was unset before.
  all_goals rfl

/-- It is refused if its payload is. -/
theorem decode_toJson_of_error {data : Json} (hdata : response.data = some data) {e : DecodeError}
    (h : data.outlineOf.toOptional payload = .error e) :
    decode dialect response.toJson.outlineOf = .error e := by
  have hfield : ∀ f : Option Json → Draft,
      (data.outlineOf.toOptional payload).map f = .error e := by
    intro f
    rw [h]
    rfl
  rw [outlineOf_toJson, hdata]
  show (shape dialect).decode dialect _ = _
  rw [Shape.decode_table, takeMembers_texts]
  show (Shape.takeMembers dialect _ _ _ ((some "data", data.outlineOf) :: _)).bind _ = _
  rw [Shape.takeMembers_failed rfl rfl (hfield _)]
  rfl

/-! ## Texts -/

/-- A text in which a response is printed, whatever the blanks, is decoded as its outline is. -/
theorem ofText_of_toList {text : String} {spacing : Json.Spacing} {blank : List Char}
    (htext : text.toList = spacing.chars 0 response.toJson ++ blank)
    (hblank : blank.all Json.isBlank = true) (hdata : response.data.all Json.isIntegral = true) :
    ofText text = decode Json.dialect response.toJson.outlineOf := by
  rw [ofText, Json.decodeText, htext, Json.outline_chars spacing (isIntegral_toJson hdata) hblank]
  show (decode Json.dialect response.toJson.outlineOf >>= fun value =>
    if true then pure value else throw .malformed) = _
  cases decode Json.dialect response.toJson.outlineOf <;> rfl

theorem ofText_compact (hdata : response.data.all Json.isIntegral = true) :
    ofText response.toJson.compact = decode Json.dialect response.toJson.outlineOf := by
  have htext : response.toJson.compact.toList =
      Json.Spacing.tight.chars 0 response.toJson ++ [] := by
    rw [Json.compact, String.toList_ofList, List.append_nil]
    exact Json.compactChars_prints.chars_eq 0 response.toJson
  exact ofText_of_toList htext rfl hdata

/-! ## Errors -/

theorem toNat_exitCode_ofError (e : Error) : (ofError e).exitCode.toNat = e.exitCode.value := by
  cases e <;> rfl

/-- A response tells all that there is to know of an error, and nothing else. -/
structure Reports (response : Response) (e : Error) : Prop where
  status : response.status = "error"
  code : response.code = e.statusCode
  message : response.message = e.message
  suggestions : response.suggestions = some e.suggestions
  data : response.data = none
  origin : response.origin = none
  exitCode : response.exitCode.toNat = e.exitCode.value

theorem ofError_reports (e : Error) : (ofError e).Reports e :=
  ⟨rfl, rfl, rfl, rfl, rfl, rfl, toNat_exitCode_ofError e⟩

/-- The JSON text of an error, with or without blanks after it, denotes its response. -/
theorem ofText_pretty_ofError (e : Error) {blank : String}
    (hblank : blank.toList.all Json.isBlank = true) :
    ofText ((ofError e).toJson.pretty ++ blank) = .ok (ofError e) := by
  have htext : ((ofError e).toJson.pretty ++ blank).toList =
      Json.Spacing.lines.chars 0 (ofError e).toJson ++ blank.toList := by
    rw [String.toList_append, Json.pretty, String.toList_ofList,
      Json.prettyChars_prints.chars_eq]
  have hnone : ∀ data ∈ (ofError e).data,
      data.outlineOf.toOptional payload = .ok data.present? := by
    intro data hdata
    cases hdata
  rw [ofText_of_toList htext hblank rfl, decode_toJson hnone]
  rfl

end Response
end PlaneReport
