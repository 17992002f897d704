import PlaneReport.Proofs.Json.Error
import PlaneReport.Proofs.Json.Printed
import PlaneReport.Proofs.Settings.Finite

/-!
# Points in JSON texts

A finite point is set as an object of its two coordinates in shortest digits.  The text is always
decoded as a finite point, but its digits are read with a rounding for each factor, so that the
coordinates come back as they were only if the digits are few: `decode_compact_toJson`.
-/

namespace PlaneReport
namespace Json

open Binary Numeral

/-! ## Numbers in texts -/

theorem exists_cons_numberChars {x : Double} (hx : x.isFinite = true) :
    ∃ c more, Layout.json.chars x = c :: more ∧ startsInteger c = true := by
  cases x with
  | nan => cases hx
  | infinite negative => cases hx
  | finite negative size =>
    cases negative with
    | true => exact ⟨'-', _, rfl, rfl⟩
    | false =>
      have hmark : Layout.json.integralMark = ".0".toList := rfl
      obtain ⟨c, more, htext, hc⟩ := Layout.exists_cons_magnitude hmark (by decide) size
      exact ⟨c, more, htext, by rw [startsInteger, hc, Bool.or_true]⟩

/-- A number that is printed is read as a value, whatever follows that does not carry it on. -/
theorem exists_readValue_numberChars {x : Double} (hx : x.isFinite = true) :
    ∃ d y, IsReadBack x d y ∧ ∀ fuel rest, Text.StopsAt carriesOn rest →
      readValue (fuel + 1) (Layout.json.chars x ++ rest) = (.number y, some rest) := by
  obtain ⟨d, y, hy, hread⟩ := exists_isReadBack hx
  refine ⟨d, y, hy, fun fuel rest hrest => ?_⟩
  have hnumeral := hread rest hrest
  obtain ⟨c, more, hcons, hc⟩ := exists_cons_numberChars hx
  rw [hcons, List.cons_append] at hnumeral ⊢
  exact readValue_of_startsInteger hc hnumeral

/-- Two members on one line are read in their order. -/
theorem outline_pair {first second : List Char} {x y : Outline}
    (hfirst : ∀ fuel rest, Text.StopsAt carriesOn rest →
      readValue (fuel + 1) (first ++ rest) = (x, some rest))
    (hsecond : ∀ fuel rest, Text.StopsAt carriesOn rest →
      readValue (fuel + 1) (second ++ rest) = (y, some rest)) (key key' : String) :
    outline ('\x7b' :: (stringChars key ++ ':' :: (first ++
      ',' :: (stringChars key' ++ ':' :: (second ++ ['\x7d']))))) =
        (.table [(some key, x), (some key', y)] true, true) := by
  have hnone : ([] : List Char).all isBlank = true := rfl
  have hopen (fuel : Nat) (key : String) (text : List Char) :
      readMembers (fuel + 1) true (stringChars key ++ text) =
        membersFrom fuel (stringChars key ++ text) := readMembers_first hnone key text
  have hcomma (fuel : Nat) (key : String) (text : List Char) :
      readMembers (fuel + 1) false (',' :: (stringChars key ++ text)) =
        membersFrom fuel (stringChars key ++ text) := readMembers_comma hnone key text
  have hend (fuel : Nat) : readMembers (fuel + 1) false ['\x7d'] = ([], some []) :=
    readMembers_end hnone false
  have hmembers (fuel : Nat) : readMembers (fuel + 3) true (stringChars key ++ ':' :: (first ++
      ',' :: (stringChars key' ++ ':' :: (second ++ ['\x7d'])))) =
      ([(some key, x), (some key', y)], some []) := by
    rw [hopen, membersFrom_of_readValue key (hfirst _ _ (Text.stopsAt_cons rfl _)), hcomma,
      membersFrom_of_readValue key' (hsecond _ _ (Text.stopsAt_cons rfl _)), hend]
  rw [outline, List.length_cons, Nat.mul_add, readValue_of_readMembers (hmembers _)]
  rfl

end Json

namespace Point

open Binary Json Json.Numeral

theorem compactChars_toJson (p : Point) : p.toJson.compactChars =
    '\x7b' :: (stringChars "x" ++ ':' :: (Layout.json.chars p.x ++
      ',' :: (stringChars "y" ++ ':' :: (Layout.json.chars p.y ++ ['\x7d'])))) := by
  simp only [toJson, compactChars, compactMembers, leafChars]

/-- A finite point comes back from its JSON text as a finite one whose coordinates are what their
digits are read as. -/
theorem decode_compact_toJson {p : Point} (hp : p.IsFinite) :
    ∃ (q : Point) (dx dy : Decimal),
      TextFormat.decode .json Outline.toPoint p.toJson.compact = .ok q ∧ q.IsFinite ∧
        IsReadBack p.x dx q.x ∧ IsReadBack p.y dy q.y := by
  obtain ⟨dx, x, hx, hreadx⟩ := exists_readValue_numberChars hp.1
  obtain ⟨dy, y, hy, hready⟩ := exists_readValue_numberChars hp.2
  refine ⟨⟨x, y⟩, dx, dy, ?_, ⟨hx.finite, hy.finite⟩, hx, hy⟩
  have htext : p.toJson.compact.toList = p.toJson.compactChars := String.toList_ofList
  have hreads : TextFormat.Reads .json p.toJson.compact
      (.table [(some "x", .number x), (some "y", .number y)] true) := by
    show Json.outline _ = _
    rw [htext, compactChars_toJson, outline_pair hreadx hready]
  have hclear : Outline.IsClear TextFormat.json.dialect
      (.table [(some "x", .number x), (some "y", .number y)] true) :=
    Outline.isClear_table rfl (by simp)
  have hgives : Outline.GivesCoordinates (.number x) (.number y)
      (.table [(some "x", .number x), (some "y", .number y)] true) := .table (List.Perm.refl _)
  have hchecked : Point.checked x y = .ok ⟨x, y⟩ :=
    Point.checked_eq_ok_iff.mpr ⟨rfl, hx.finite, hy.finite⟩
  rw [TextFormat.decode_of_reads hreads,
    Outline.toPoint_of_givesCoordinates hgives hclear rfl rfl, hchecked]

/-- The largest number and the least one below zero. -/
def extreme : Point :=
  ⟨.ofBits 0x7fefffffffffffff, .ofBits 0x8000000000000001⟩

theorem decode_compact_toJson_extreme :
    extreme.IsFinite ∧ ∃ (q : Point) (dx dy : Decimal),
      TextFormat.decode .json Outline.toPoint extreme.toJson.compact = .ok q ∧ q.IsFinite ∧
        IsReadBack extreme.x dx q.x ∧ IsReadBack extreme.y dy q.y :=
  ⟨by decide, decode_compact_toJson (by decide)⟩

/-- The point `(3e23, 0.0)`. -/
def threeE23 : Point :=
  ⟨.ofInt (3 * 10 ^ 23), .zero⟩

/-- One digit with a power of ten beyond the 22nd is not read as the number it was printed for. -/
theorem decode_compact_toJson_unequal :
    threeE23.IsFinite ∧ threeE23.toJson.compact = "\x7b\"x\":3e+23,\"y\":0.0\x7d" ∧
      ∃ q, TextFormat.decode .json Outline.toPoint threeE23.toJson.compact = .ok q ∧
        q.equals threeE23 = false := by
  refine ⟨by decide +kernel, by decide +kernel, ⟨.ofInt (29999999999999997 * 10 ^ 7), .zero⟩,
    by decide +kernel, by decide +kernel⟩

end Point
end PlaneReport
