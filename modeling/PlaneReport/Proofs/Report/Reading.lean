import PlaneReport.Environment.Value
import PlaneReport.Proofs.Decimal.Fewest
import PlaneReport.Proofs.Decimal.Layout
import PlaneReport.Proofs.Json.Numeral
import PlaneReport.Proofs.Level
import PlaneReport.Proofs.Sum
import PlaneReport.Report

/-!
# Reports read back

The shortest rendering of a report has two lines.  What stands behind their labels is read as the
sum and the distance, so no other report is rendered so, and no decimal with fewer significant
digits would do for the distance.
-/

namespace PlaneReport

open Binary

/-! ## Integers -/

theorem Level.numberOfText?_toDigits (n : ℕ) :
    Level.numberOfText? (Nat.toDigits 10 n) = some n := by
  have h := Level.numberOfText?_of_isDigit Nat.toDigits_ne_nil (Decimal.all_isDigit_toDigits n)
  rw [Decimal.digitsValue_toDigits] at h
  exact h

/-- The numeral of an integer of 64 bits is read as the integer. -/
theorem Environment.integerOfText?_integerChars {n : ℤ} (hn : IntegerKind.word.holds n = true) :
    Environment.integerOfText? (Json.integerChars n) = some n := by
  have hread := Level.numberOfText?_toDigits n.natAbs
  obtain ⟨c, rest, hdigits, hc, -⟩ := Decimal.exists_cons_toDigits n.natAbs
  have hsign : ∀ sign, Decimal.isDigit sign = false → c ≠ sign := by
    rintro sign hsign rfl
    exact absurd (hc.symm.trans hsign) (by decide)
  unfold Json.integerChars
  rw [hdigits] at hread ⊢
  by_cases hneg : n < 0
  · have hplus : ¬ ((c :: rest).head? == some '+') = true := by
      rw [List.head?_cons, beq_iff_eq, Option.some.injEq]
      exact hsign '+' (by decide)
    rw [if_pos hneg, List.singleton_append]
    show Option.filter _ (if ((c :: rest).head? == some '+') = true then none
      else Option.map (fun m : ℤ => -m) (do return ((← Level.numberOfText? (c :: rest)) : ℤ))) = _
    rw [if_neg hplus, hread]
    show Option.filter _ (some (-(n.natAbs : ℤ))) = some n
    rw [show -(n.natAbs : ℤ) = n by omega, Option.filter_some, if_pos hn]
  · rw [if_neg hneg, List.nil_append]
    unfold Environment.integerOfText?
    dsimp only
    split
    · next heq =>
      cases heq
      exact absurd rfl (hsign '-' (by decide))
    · rw [hread]
      show Option.filter _ (some (n.natAbs : ℤ)) = some n
      rw [show (n.natAbs : ℤ) = n by omega, Option.filter_some, if_pos hn]

/-! ## Lines -/

theorem not_mem_of_all_isDigit {c : Char} {digits : List Char}
    (hall : digits.all Decimal.isDigit = true) (hc : Decimal.isDigit c = false) : c ∉ digits := by
  intro hmem
  have hdigit := List.all_eq_true.mp hall c hmem
  rw [hc] at hdigit
  cases hdigit

theorem feed_not_mem_integerChars (n : ℤ) : '\n' ∉ Json.integerChars n := by
  have hdigits := not_mem_of_all_isDigit (Decimal.all_isDigit_toDigits n.natAbs)
    (c := '\n') (by decide)
  unfold Json.integerChars
  by_cases hneg : n < 0
  · rw [if_pos hneg]
    simpa using hdigits
  · rw [if_neg hneg]
    simpa using hdigits

namespace Layout

theorem feed_not_mem_scientific {digits : List Char} (hall : digits.all Decimal.isDigit = true)
    (plusSign : Bool) (exponent : ℤ) : '\n' ∉ scientific plusSign digits exponent := by
  have hpower := not_mem_of_all_isDigit (Decimal.all_isDigit_toDigits exponent.natAbs)
    (c := '\n') (by decide)
  have hmantissa := not_mem_of_all_isDigit hall (c := '\n') (by decide)
  have hfirst : '\n' ∉ digits.take 1 := fun h => hmantissa (List.mem_of_mem_take h)
  have hfraction : '\n' ∉ digits.drop 1 := fun h => hmantissa (List.mem_of_mem_drop h)
  have hsign : '\n' ∉ exponentSign plusSign exponent := by
    unfold exponentSign
    split
    · decide
    · split <;> decide
  show '\n' ∉ digits.take 1 ++ (if (digits.drop 1).isEmpty then [] else '.' :: digits.drop 1) ++
    'e' :: (exponentSign plusSign exponent ++ Nat.toDigits 10 exponent.natAbs)
  split
  · simp [hfirst, hsign, hpower]
  · simp only [List.mem_append, List.mem_cons, hfirst, hfraction, hsign, hpower]
    decide

theorem feed_not_mem_chars_exact {f : Format} (hf : 2 ≤ f.width) (x : Number f) :
    '\n' ∉ exact.chars x := by
  cases x with
  | nan =>
    show '\n' ∉ "NaN".toList
    decide
  | infinite negative =>
    show '\n' ∉ if negative = true then "-inf".toList else "inf".toList
    split <;> decide
  | finite negative size =>
    have hmark : exact.integralMark = ".0".toList := rfl
    have hmagnitude : '\n' ∉ exact.magnitude size := by
      obtain ⟨whole, fraction, htext, hsetting⟩ | ⟨first, fraction, hdigits, htext⟩ :=
        magnitude_cases hmark hf size
      · have hwhole := not_mem_of_all_isDigit hsetting.isPointed.whole_all (c := '\n') (by decide)
        have hfraction :=
          not_mem_of_all_isDigit hsetting.isPointed.fraction_all (c := '\n') (by decide)
        rw [htext]
        simp [hwhole, hfraction]
      · rw [htext, ← hdigits]
        exact feed_not_mem_scientific (all_isDigit_digitsOf _ _) _ _
    unfold chars
    cases negative <;> simpa using hmagnitude

end Layout

/-! ## Reading -/

/-- What a text spells exactly, perhaps with a minus sign. -/
def Decimal.ofText? (text : List Char) : Option Decimal :=
  match text with
  | '-' :: rest => unsignedOfText? true rest
  | rest => unsignedOfText? false rest

theorem Decimal.ofText?_of_isDigit {c : Char} (hc : isDigit c = true) (rest : List Char) :
    ofText? (c :: rest) = unsignedOfText? false (c :: rest) := by
  unfold ofText?
  split
  · next heq =>
    cases heq
    exact absurd hc (by decide)
  · rfl

namespace Layout

/-- The text of a finite number spells its shortest decimal. -/
theorem exists_ofText?_chars_exact {f : Format} (hf : 2 ≤ f.width) {size : Magnitude f}
    (hsize : size.significand ≠ 0) (negative : Bool) :
    ∃ d, Decimal.ofText? (exact.chars (.finite negative size)) = some d ∧
      Decimal.scaled d.coefficient d.exponent =
        Decimal.scaled (Decimal.shortest .up size).1 (Decimal.shortest .up size).2 := by
  have hmark : exact.integralMark = ".0".toList := rfl
  obtain ⟨d, hd, -, hvalue⟩ := exists_unsignedOfText?_scaled hmark hf size negative
  refine ⟨d, ?_, hvalue.trans (scaled_digitsOf .up hsize)⟩
  cases negative with
  | true => exact hd
  | false =>
    obtain ⟨c, rest, htext, hc⟩ := exists_cons_magnitude hmark hf size
    show Decimal.ofText? (exact.magnitude size) = some d
    rw [htext] at hd ⊢
    rw [Decimal.ofText?_of_isDigit hc, hd]

/-- What is not a number is read as that. -/
theorem ofText?_chars (x : Double) : Number.ofText? (exact.chars x) = some x := by
  by_cases hx : x = .nan
  · rw [hx]
    decide
  · exact ofText?_chars_exact (by decide) hx

end Layout

namespace Report

/-- The two lines of a report, each a label and a value. -/
theorem splitOn_text (report : Report) :
    report.text.toList.splitOn '\n' =
      ["Sum: ".toList ++ Json.integerChars report.sum.toInt,
        "Distance: ".toList ++ Layout.exact.chars report.distance] := by
  have hsum := feed_not_mem_integerChars report.sum.toInt
  have hdistance := Layout.feed_not_mem_chars_exact (by decide) report.distance
  have htext : report.text.toList =
      ['\n'].intercalate ["Sum: ".toList ++ Json.integerChars report.sum.toInt,
        "Distance: ".toList ++ Layout.exact.chars report.distance] := by
    unfold text Layout.text
    rw [← Json.ofList_integerChars]
    simp [List.intercalate]
  rw [htext]
  refine List.splitOn_intercalate _ ?_ (by simp)
  simp [hsum, hdistance]

/-- Reports that are rendered alike are the same. -/
theorem eq_of_text_eq {report other : Report} (h : report.text = other.text) : report = other := by
  have hlines := congrArg (fun text : String => text.toList.splitOn '\n') h
  rw [splitOn_text, splitOn_text, List.cons.injEq, List.cons.injEq] at hlines
  obtain ⟨hfirst, hsecond, -⟩ := hlines
  have hsum : report.sum = other.sum := by
    have hread := Environment.integerOfText?_integerChars (IntegerKind.word_holds report.sum)
    rw [List.append_cancel_left hfirst,
      Environment.integerOfText?_integerChars (IntegerKind.word_holds other.sum)] at hread
    exact Int64.toInt_inj.mp (Option.some.inj hread).symm
  have hdistance : report.distance = other.distance := by
    have hread := Layout.ofText?_chars report.distance
    rw [List.append_cancel_left hsecond, Layout.ofText?_chars other.distance] at hread
    exact (Option.some.inj hread).symm
  cases report
  cases other
  cases hsum
  cases hdistance
  rfl

/-- The shortest rendering of a report with a distance that is a number has two lines that are read
as the sum and the distance.  No other report is rendered so, and every decimal with fewer
significant digits than the printed one rounds to another distance. -/
theorem render_shortest_reads_back {report : Report} (h : report.distance ≠ .nan) :
    ∃ text sum distance, report.render .shortest = .ok text ∧
      text.toList.splitOn '\n' = ["Sum: ".toList ++ sum, "Distance: ".toList ++ distance] ∧
      Environment.integerOfText? sum = some report.sum.toInt ∧
      Number.ofText? distance = some report.distance ∧
      (∀ other : Report, other.render .shortest = .ok text → other = report) ∧
      (report.distance.isFinite = true → report.distance.isZero = false →
        ∃ d, Decimal.ofText? distance = some d ∧
          ∀ e : Decimal, Decimal.significantDigits e.coefficient <
            Decimal.significantDigits d.coefficient → e.toNumber double ≠ report.distance) := by
  have hwidth : 2 ≤ double.width := by decide
  refine ⟨report.text, _, _, report.render_shortest, report.splitOn_text,
    Environment.integerOfText?_integerChars (IntegerKind.word_holds _),
    Layout.ofText?_chars_exact hwidth h, fun other hother => ?_, fun hfinite hzero => ?_⟩
  · rw [render_shortest] at hother
    exact eq_of_text_eq (Except.ok.inj hother)
  · obtain ⟨sum, distance⟩ := report
    cases distance with
    | nan => cases hfinite
    | infinite negative => cases hfinite
    | finite negative size =>
      have hsize : size.significand ≠ 0 := by simpa [Number.isZero] using hzero
      obtain ⟨d, hd, hvalue⟩ := Layout.exists_ofText?_chars_exact hwidth hsize negative
      refine ⟨d, hd, fun e hfewer heq => ?_⟩
      obtain ⟨hpos, hcontains⟩ := Decimal.contains_of_toNumber hwidth hsize heq
      have hleast := Decimal.significantDigits_shortest_le .up hwidth hsize hpos hcontains
      rw [Decimal.significantDigits_eq_of_scaled_eq (Decimal.shortest_ne_zero hwidth hsize)
        hvalue.symm] at hleast
      omega

/-- The least number whose significand has all its bits, where the grid below is not finer. -/
def leastNormal : Report := ⟨Int64.minValue, Number.ofBits 0x0010000000000000⟩

theorem leastNormal_text : leastNormal.text =
    "Sum: -9223372036854775808\nDistance: 2.2250738585072014e-308" := by
  decide +kernel

theorem render_shortest_reads_back_leastNormal :
    leastNormal.distance ≠ .nan ∧
      leastNormal.render .shortest =
        .ok "Sum: -9223372036854775808\nDistance: 2.2250738585072014e-308" ∧
      Number.ofText? "2.2250738585072014e-308".toList = some leastNormal.distance ∧
      ∃ d, Decimal.ofText? "2.2250738585072014e-308".toList = some d ∧
        Decimal.significantDigits d.coefficient = 17 ∧
        ∀ e : Decimal, Decimal.significantDigits e.coefficient < 17 →
          e.toNumber double ≠ leastNormal.distance := by
  have hnumber : leastNormal.distance ≠ .nan := by decide
  have hrender := leastNormal.render_shortest
  rw [leastNormal_text] at hrender
  obtain ⟨text, sum, distance, htext, hlines, -, hread, -, hfewest⟩ :=
    render_shortest_reads_back hnumber
  cases hrender.symm.trans htext
  have hdistance : distance = "2.2250738585072014e-308".toList := by
    have hsplit : "Sum: -9223372036854775808\nDistance: 2.2250738585072014e-308".toList.splitOn '\n' =
        ["Sum: -9223372036854775808".toList,
          "Distance: ".toList ++ "2.2250738585072014e-308".toList] := by decide +kernel
    rw [hsplit, List.cons.injEq, List.cons.injEq] at hlines
    exact (List.append_cancel_left hlines.2.1).symm
  rw [hdistance] at hread hfewest
  obtain ⟨d, hd, hleast⟩ := hfewest (by decide) (by decide)
  have hdigits : Decimal.significantDigits d.coefficient = 17 := by
    have hspelled : Decimal.ofText? "2.2250738585072014e-308".toList =
        some ⟨false, 22250738585072014, -324⟩ := by decide
    cases hd.symm.trans hspelled
    decide
  rw [hdigits] at hleast
  exact ⟨hnumber, hrender, hread, d, hd, hdigits, hleast⟩

end Report
end PlaneReport
