import PlaneReport.Error
import PlaneReport.Json.Value
import PlaneReport.Report

/-!
# Response envelopes

The JSON form of every answer: a status, a code, a message and an exit code, around the payload of
a success or the suggestions of an error.
-/

namespace PlaneReport

/-- Where an answer comes from. -/
structure ResponseMeta where
  version : String
  timestamp : Option String
deriving DecidableEq

structure Response where
  status : String
  code : String
  message : String
  /-- The payload, of a success. -/
  data : Option Json
  /-- The suggestions, of an error. -/
  suggestions : Option (List String)
  exitCode : UInt8
  origin : Option ResponseMeta

namespace Response

def success (data : Json) : Response where
  status := "success"
  code := "OK"
  message := "Operation completed successfully"
  data := some data
  suggestions := none
  exitCode := 0
  origin := none

def ofError (error : Error) : Response where
  status := "error"
  code := error.statusCode
  message := error.message
  data := none
  suggestions := some error.suggestions
  exitCode := UInt8.ofNat error.exitCode.value
  origin := none

/-- Absent parts are left out; the order of the members is fixed. -/
def toJson (response : Response) : Json :=
  .object <|
    [("status", Json.string response.status), ("code", .string response.code),
      ("message", .string response.message)] ++
    Json.optionalMember "data" response.data ++
    Json.optionalMember "error" (response.suggestions.map fun suggestions =>
      .object [("suggestions", .array (suggestions.map Json.string))]) ++
    [("exit_code", .integer response.exitCode.toNat)] ++
    Json.optionalMember "meta" (response.origin.map fun origin =>
      .object (("version", Json.string origin.version) ::
        Json.optionalMember "timestamp" (origin.timestamp.map Json.string)))

end Response

def Point.toJson (p : Point) : Json :=
  .object [("x", .number p.x), ("y", .number p.y)]

def Report.toJson (report : Report) : Json :=
  .object [("sum", .integer report.sum.toInt), ("distance", .number report.distance)]

end PlaneReport
