import PlaneReport.Json.Value
import PlaneReport.Proofs.Decimal.Layout

/-!
# Exact values of JSON numerals

`Json.Numeral.read` reads a numeral with few roundings and not with one.  Here a numeral has its
exact value, which can be rounded once: the number that was printed is the one nearest to it.
-/

namespace PlaneReport
namespace Json

open Binary

/-- Whether an unsigned decimal is spelled as JSON asks for: digits come first, of which the first
is zero only if it is the only one, and a digit follows the point if there is one. -/
def isStrict (text : List Char) : Bool :=
  let (whole, rest) := text.span Decimal.isDigit
  !whole.isEmpty && (whole.head? != some '0' || whole.length == 1) &&
    match rest with
    | '.' :: rest => rest.head?.any Decimal.isDigit
    | _ => true

/-- The exact value of a JSON numeral without its sign. -/
def unsignedDecimal? (negative : Bool) (text : List Char) : Option Decimal :=
  if isStrict text then Decimal.unsignedOfText? negative text else none

/-- The exact value of a JSON numeral. -/
def decimal? (text : List Char) : Option Decimal :=
  match text with
  | '-' :: rest => unsignedDecimal? true rest
  | rest => unsignedDecimal? false rest

example : decimal? "-12.50e+3".toList = some ⟨true, 1250, 1⟩ := by decide

example : ["01", ".5", "1.", "1e", "+1", "null", "inf"].map (decimal? ·.toList) =
    List.replicate 7 none := by decide

theorem isStrict_pointed {whole fraction : List Char} (h : Layout.IsPointed whole fraction) :
    isStrict (whole ++ '.' :: fraction) = true := by
  have hspan : (whole ++ '.' :: fraction).span Decimal.isDigit = (whole, '.' :: fraction) :=
    Text.span_append h.whole_all (Text.stopsAt_cons (by decide) _)
  obtain ⟨c, rest, rfl⟩ := List.exists_cons_of_ne_nil h.fraction_ne_nil
  have hc : Decimal.isDigit c = true := List.all_eq_true.mp h.fraction_all c List.mem_cons_self
  have hlead : whole.head? ≠ some '0' ∨ whole.length = 1 := by
    by_cases hzero : whole.head? = some '0'
    · have hshort := h.whole_lead hzero
      have hpos := List.length_pos_iff.mpr h.whole_ne_nil
      exact .inr (by omega)
    · exact .inl hzero
  unfold isStrict
  rw [hspan]
  simp [h.whole_ne_nil, hlead, hc]

theorem isStrict_scientific {first : Char} {fraction : List Char}
    (hfirst : Decimal.isDigit first = true) (hfraction : fraction.all Decimal.isDigit = true)
    (plusSign : Bool) (exponent : Int) :
    isStrict (Layout.scientific plusSign (first :: fraction) exponent) = true := by
  have hrun : [first].all Decimal.isDigit = true := by rw [List.all_cons, hfirst]; rfl
  cases fraction with
  | nil =>
    have hspan : ∀ tail, ([first] ++ 'e' :: tail).span Decimal.isDigit = ([first], 'e' :: tail) :=
      fun tail => Text.span_append hrun (Text.stopsAt_cons (by decide) _)
    show isStrict ([first] ++ 'e' :: _) = true
    unfold isStrict
    rw [hspan]
    simp
  | cons second rest =>
    have hspan : ∀ tail, ([first] ++ '.' :: tail).span Decimal.isDigit = ([first], '.' :: tail) :=
      fun tail => Text.span_append hrun (Text.stopsAt_cons (by decide) _)
    rw [List.all_cons, Bool.and_eq_true] at hfraction
    show isStrict ([first] ++ '.' :: (second :: rest ++ _)) = true
    unfold isStrict
    rw [hspan]
    simp [hfraction.1]

theorem isStrict_magnitude {layout : Layout} {f : Format}
    (hmark : layout.integralMark = ".0".toList) (hf : 2 ≤ f.width) (x : Magnitude f) :
    isStrict (layout.magnitude x) = true := by
  obtain ⟨whole, fraction, htext, hsetting⟩ | ⟨first, fraction, hdigits, htext⟩ :=
    Layout.magnitude_cases hmark hf x
  · rw [htext]
    exact isStrict_pointed hsetting.isPointed
  · have hall := Layout.all_isDigit_digitsOf layout.tie x
    rw [hdigits, List.all_cons, Bool.and_eq_true] at hall
    rw [htext]
    exact isStrict_scientific hall.1 hall.2 _ _

theorem decimal?_of_isDigit {c : Char} (hc : Decimal.isDigit c = true) (rest : List Char) :
    decimal? (c :: rest) = unsignedDecimal? false (c :: rest) := by
  unfold decimal?
  split
  · next heq =>
    cases heq
    exact absurd hc (by decide)
  · rfl

/-- A finite number is printed as a JSON numeral, with its sign in front. -/
theorem decimal?_finite {f : Format} (hf : 2 ≤ f.width) (negative : Bool) (size : Magnitude f) :
    decimal? (Layout.json.chars (.finite negative size)) =
      Decimal.unsignedOfText? negative (Layout.json.magnitude size) := by
  have hmark : Layout.json.integralMark = ".0".toList := rfl
  have hunsigned : unsignedDecimal? negative (Layout.json.magnitude size) =
      Decimal.unsignedOfText? negative (Layout.json.magnitude size) :=
    if_pos (isStrict_magnitude hmark hf size)
  cases negative with
  | true => exact hunsigned
  | false =>
    obtain ⟨c, rest, htext, hc⟩ := Layout.exists_cons_magnitude hmark hf size
    show decimal? (Layout.json.magnitude size) = _
    rw [htext] at hunsigned ⊢
    rw [decimal?_of_isDigit hc, hunsigned]

/-- It is the number nearest to the value of that numeral. -/
theorem decimal?_chars {f : Format} (hf : 2 ≤ f.width) {x : Number f} (hx : x.isFinite = true) :
    ∃ d, decimal? (Layout.json.chars x) = some d ∧ d.toNumber f = x := by
  cases x with
  | nan => cases hx
  | infinite negative => cases hx
  | finite negative size =>
    have hmark : Layout.json.integralMark = ".0".toList := rfl
    obtain ⟨d, hd, hvalue⟩ := Layout.exists_unsignedOfText?_magnitude hmark hf size negative
    exact ⟨d, (decimal?_finite hf negative size).trans hd, hvalue⟩

/-- The integers of JSON texts are set as everywhere else. -/
theorem ofList_integerChars (n : Int) : String.ofList (integerChars n) = toString n := by
  cases n with
  | ofNat n =>
    have hn : ¬ Int.ofNat n < 0 := by
      simp only [Int.ofNat_eq_natCast]
      omega
    unfold integerChars
    rw [if_neg hn]
    rfl
  | negSucc n =>
    have hn : Int.negSucc n < 0 := Int.negSucc_lt_zero n
    unfold integerChars
    rw [if_pos hn, String.ofList_append]
    rfl

end Json
end PlaneReport
