import PlaneReport.Point

/-!
# Problems with decoded values

What makes a well-formed value unsuitable for the place where it stands.
-/

namespace PlaneReport

inductive Problem where
  /-- A value of another kind; both texts describe a kind. -/
  | wrongType (found expected : String)
  /-- A value of the right kind which the place cannot hold. -/
  | wrongValue (found expected : String)
  | missingField (name : String)
  | duplicateField (name : String)
  /-- A list that ends before all elements are there. -/
  | wrongLength (count : Nat) (expected : String)
  | coordinate (cause : NonFiniteCoordinate)
deriving DecidableEq

def Problem.message : Problem → String
  | .wrongType found expected => "invalid type: " ++ found ++ ", expected " ++ expected
  | .wrongValue found expected => "invalid value: " ++ found ++ ", expected " ++ expected
  | .missingField name => "missing field `" ++ name ++ "`"
  | .duplicateField name => "duplicate field `" ++ name ++ "`"
  | .wrongLength count expected =>
    "invalid length " ++ toString count ++ ", expected " ++ expected
  | .coordinate cause => cause.message

end PlaneReport
