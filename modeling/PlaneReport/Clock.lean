import PlaneReport.Text.Blank

/-!
# Clock

The date and the time of day of a moment, as answers are stamped with it.
-/

namespace PlaneReport
namespace Clock

/-- A day of the calendar. -/
structure Day where
  year : Nat
  month : Nat
  day : Nat
deriving DecidableEq, Repr

/-- The day that is `n` days after the first of January 1970.  Years are taken to start in March, so
that the leap day ends one; an era is the 400 years after which the calendar repeats itself. -/
def Day.after (n : Nat) : Day :=
  let days := n + 719468
  let era := days / 146097
  let dayOfEra := days % 146097
  let yearOfEra := (dayOfEra - dayOfEra / 1460 + dayOfEra / 36524 - dayOfEra / 146096) / 365
  let dayOfYear := dayOfEra - (365 * yearOfEra + yearOfEra / 4 - yearOfEra / 100)
  let monthOfYear := (5 * dayOfYear + 2) / 153
  let day := dayOfYear - (153 * monthOfYear + 2) / 5 + 1
  let month := if monthOfYear < 10 then monthOfYear + 3 else monthOfYear - 9
  let year := yearOfEra + era * 400 + (if month ≤ 2 then 1 else 0)
  ⟨year, month, day⟩

/-- A number with at least `width` digits. -/
def padded (width n : Nat) : String :=
  let digits := Nat.toDigits 10 n
  String.ofList (List.replicate (width - digits.length) '0' ++ digits)

/-- The stamp of the moment that is some seconds after the start of 1970. -/
def stamp (seconds : Nat) : String :=
  let date := Day.after (seconds / 86400)
  let time := seconds % 86400
  padded 4 date.year ++ "-" ++ padded 2 date.month ++ "-" ++ padded 2 date.day ++ " " ++
    padded 2 (time / 3600) ++ ":" ++ padded 2 (time / 60 % 60) ++ ":" ++ padded 2 (time % 60) ++
    " UTC"

example : stamp 0 = "1970-01-01 00:00:00 UTC" := by decide +kernel

example : stamp 951827696 = "2000-02-29 12:34:56 UTC" := by decide +kernel

end Clock
end PlaneReport
