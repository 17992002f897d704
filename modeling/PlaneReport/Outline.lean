import PlaneReport.Decimal.Layout

/-!
# Outlines of texts

An outline is what a reader made out of a structured text, in the order of the text.  Reading goes
on while decoding does, so an outline may stop short: a list or table that is not `closed` breaks
off after its last element, `broken` stands where no value could be read, `unreadable` for a value
that is well formed but can only be passed over, and `overflow` for a fractional number beyond the
finite ones.
-/

namespace PlaneReport

open Binary

inductive Outline where
  | null
  | bool (value : Bool)
  | integer (value : Int)
  | number (value : Double)
  | string (value : String)
  | unreadable
  | overflow (negative : Bool)
  | broken
  | list (items : List Outline) (closed : Bool)
  /-- A key is absent when it cannot be read as a text. -/
  | table (members : List (Option String × Outline)) (closed : Bool)
deriving Inhabited

/-- What formats of texts differ in when their outlines are decoded. -/
structure Dialect where
  /-- How messages set a fractional number. -/
  layout : Layout
  /-- Whether a list may have more elements than a record has fields. -/
  allowsSurplus : Bool
  /-- Whether unreadable values may be passed over. -/
  skipsUnreadable : Bool

end PlaneReport
