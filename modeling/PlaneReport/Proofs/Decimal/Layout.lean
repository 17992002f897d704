import PlaneReport.Decimal.Layout
import PlaneReport.Proofs.Decimal.Shortest
import PlaneReport.Proofs.Text.Span

/-!
# Layouts read back

A layout sets the shortest digits of a magnitude with all their places, or with a power of ten.
Both are spellings of a decimal with the value of the digits, so reading them gives the magnitude.
The main statements are `positional_eq` and `toNumber_digitsOf`, and for the layouts that mark an
integral value `exists_unsignedOfText?_magnitude` and `ofText?_chars_exact`.
-/

namespace PlaneReport
namespace Layout

open Binary Decimal

/-! ## Digits around a point -/

/-- Digits of which the first is zero only if it is the only one. -/
def HasNoLeadingZero (digits : List Char) : Prop :=
  digits.head? = some '0' → digits.length ≤ 1

/-- Digits around a point, as numbers are printed. -/
structure IsPointed (whole fraction : List Char) : Prop where
  whole_ne_nil : whole ≠ []
  fraction_ne_nil : fraction ≠ []
  whole_all : whole.all isDigit = true
  fraction_all : fraction.all isDigit = true
  whole_lead : HasNoLeadingZero whole

namespace IsPointed

variable {whole fraction : List Char} (h : IsPointed whole fraction)
include h

theorem exists_cons : ∃ c rest, whole = c :: rest ∧ isDigit c = true ∧ rest.all isDigit = true := by
  have hall := h.whole_all
  cases hw : whole with
  | nil => exact absurd hw h.whole_ne_nil
  | cons c rest =>
    rw [hw, List.all_cons, Bool.and_eq_true] at hall
    exact ⟨c, rest, rfl, hall⟩

end IsPointed

/-- Digits around a point that denote what `digits` do with the point after the `point`-th. -/
structure IsSetting (digits : List Char) (point : Int) (whole fraction : List Char) : Prop where
  isPointed : IsPointed whole fraction
  value_eq : scaled (digitsValue (whole ++ fraction)) (-(fraction.length : Int)) =
    scaled (digitsValue digits) (point - digits.length)

section Setting

variable {digits : List Char} {point : Int} (hne : digits ≠ []) (hall : digits.all isDigit = true)
  (hlead : digits.head? = some '0' → digits.length ≤ 1 ∧ point ≤ 1)

include hne hall in
theorem isSetting_zeros_before (hpoint : point ≤ 0) :
    IsSetting digits point ['0'] (List.replicate (-point).toNat '0' ++ digits) := by
  refine ⟨⟨by simp, by simp [hne], by decide, ?_, fun _ => by simp⟩, ?_⟩
  · simp [hall]
  · simp only [digitsValue_append, digitsValue_zeros, digitsValue_zero, Nat.zero_mul, Nat.zero_add,
      List.length_append, List.length_replicate]
    congr 1
    omega

include hne hall hlead in
theorem isSetting_zeros_after (hpoint : 0 < point) (hle : digits.length ≤ point.toNat) :
    IsSetting digits point (digits ++ List.replicate (point.toNat - digits.length) '0') ['0'] := by
  refine ⟨⟨by simp [hne], by simp, ?_, by decide, ?_⟩, ?_⟩
  · simp [hall]
  · intro hhead
    have hdigits : digits.head? = some '0' := by
      obtain ⟨c, rest, rfl⟩ := List.exists_cons_of_ne_nil hne
      exact hhead
    have := hlead hdigits
    rw [List.length_append, List.length_replicate]
    omega
  · have hplace : point - (digits.length : Int) =
        ((point.toNat - digits.length : Nat) : Int) := by omega
    rw [digitsValue_append, digitsValue_append, digitsValue_zeros, digitsValue_zero,
      List.length_replicate]
    unfold scaled
    rw [hplace, zpow_natCast]
    push_cast
    simp [zpow_neg]

include hall hlead in
theorem isSetting_point_within (hpoint : 0 < point) (hlt : point.toNat < digits.length) :
    IsSetting digits point (digits.take point.toNat) (digits.drop point.toNat) := by
  rw [List.all_eq_true] at hall
  refine ⟨⟨?_, ?_, ?_, ?_, ?_⟩, ?_⟩
  · rw [← List.length_pos_iff, List.length_take]
    omega
  · rw [← List.length_pos_iff, List.length_drop]
    omega
  · rw [List.all_eq_true]
    exact fun c hc => hall c (List.mem_of_mem_take hc)
  · rw [List.all_eq_true]
    exact fun c hc => hall c (List.mem_of_mem_drop hc)
  · intro hhead
    rw [List.head?_take, if_neg (by omega)] at hhead
    have := hlead hhead
    omega
  · rw [List.take_append_drop, List.length_drop]
    congr 1
    omega

include hne hall hlead in
/-- All places written out are digits around a point, and denote what the digits do.  They are the
digits themselves, or they are followed by the mark of an integral value. -/
theorem positional_spells :
    ∃ whole fraction, positional ".0".toList digits point = whole ++ '.' :: fraction ∧
      IsSetting digits point whole fraction ∧
      (digitsValue (whole ++ fraction) = digitsValue digits ∧
          -(fraction.length : Int) = point - digits.length ∨
        fraction.length = 1 ∧ digitsValue (whole ++ fraction) < 10 ^ (point.toNat + 1)) := by
  unfold positional
  split
  · next hpoint =>
    refine ⟨_, _, rfl, isSetting_zeros_before hne hall hpoint, .inl ⟨?_, ?_⟩⟩
    · simp
    · rw [List.length_append, List.length_replicate]
      omega
  · next hpoint =>
    split
    · next hle =>
      have hsetting := isSetting_zeros_after hne hall hlead (Int.not_le.mp hpoint) hle
      refine ⟨_, _, rfl, hsetting, .inr ⟨rfl, ?_⟩⟩
      have hdigits : (digits ++ List.replicate (point.toNat - digits.length) '0' ++ ['0']).all
          isDigit = true := by
        rw [List.all_append, hsetting.isPointed.whole_all]
        rfl
      refine (digitsValue_lt hdigits).trans_eq ?_
      rw [List.length_append, List.length_append, List.length_replicate, List.length_singleton]
      congr 1
      omega
    · next hlt =>
      refine ⟨_, _, rfl,
        isSetting_point_within hall hlead (Int.not_le.mp hpoint) (Nat.not_le.mp hlt), .inl ⟨?_, ?_⟩⟩
      · rw [List.take_append_drop]
      · rw [List.length_drop]
        omega

include hne hall hlead in
theorem positional_eq :
    ∃ whole fraction, positional ".0".toList digits point = whole ++ '.' :: fraction ∧
      IsSetting digits point whole fraction := by
  obtain ⟨whole, fraction, htext, hsetting, -⟩ := positional_spells hne hall hlead
  exact ⟨whole, fraction, htext, hsetting⟩

end Setting

theorem digitsOf_eq {f : Format} (tie : Tie) {x : Magnitude f} (hx : x.significand ≠ 0) :
    digitsOf tie x = (Nat.toDigits 10 (shortest tie x).1,
      (digitCount (shortest tie x).1 : Int) + (shortest tie x).2) :=
  if_neg hx

/-- The digits of a nonzero magnitude are its shortest decimal. -/
theorem scaled_digitsOf {f : Format} (tie : Tie) {x : Magnitude f} (hx : x.significand ≠ 0) :
    scaled (digitsValue (digitsOf tie x).1)
        ((digitsOf tie x).2 - (digitsOf tie x).1.length) =
      scaled (shortest tie x).1 (shortest tie x).2 := by
  rw [digitsOf_eq tie hx, digitsValue_toDigits]
  unfold digitCount
  dsimp only
  rw [add_sub_cancel_left]

/-- Reading digits that `digitsOf` chose gives the magnitude they were chosen for. -/
theorem toNumber_digitsOf {f : Format} (hf : 2 ≤ f.width) (tie : Tie) (x : Magnitude f)
    (d : Decimal)
    (hd : scaled d.coefficient d.exponent =
      scaled (digitsValue (digitsOf tie x).1)
        ((digitsOf tie x).2 - (digitsOf tie x).1.length)) :
    d.toNumber f = .finite d.negative x := by
  by_cases hx : x.significand = 0
  · have hsmall : scaled d.coefficient d.exponent = 0 := by
      rw [hd]
      unfold digitsOf
      rw [if_pos hx]
      show ((0 : Nat) : ℚ) * _ = 0
      simp
    have hzero := Magnitude.eq_zero_of_significand hx
    subst hzero
    refine toNumber_of_contains d ?_
    unfold quartersOf
    rw [hsmall, zero_mul]
    refine ⟨?_, ?_, fun h => absurd rfl h⟩
    · simp [Magnitude.quarters, Magnitude.units_zero]
    · positivity
  · exact toNumber_shortest tie hf hx d (hd.trans (scaled_digitsOf tie hx))

theorem digitsOf_ne_nil {f : Format} (tie : Tie) (x : Magnitude f) :
    (digitsOf tie x).1 ≠ [] := by
  unfold digitsOf
  split
  · simp
  · exact Nat.toDigits_ne_nil

theorem all_isDigit_digitsOf {f : Format} (tie : Tie) (x : Magnitude f) :
    (digitsOf tie x).1.all isDigit = true := by
  unfold digitsOf
  split
  · decide
  · exact all_isDigit_toDigits _

theorem head?_digitsOf {f : Format} (hf : 2 ≤ f.width) (tie : Tie) (x : Magnitude f)
    (h : (digitsOf tie x).1.head? = some '0') :
    (digitsOf tie x).1.length ≤ 1 ∧ (digitsOf tie x).2 ≤ 1 := by
  unfold digitsOf at h ⊢
  split at h
  · next hzero =>
    rw [if_pos hzero]
    decide
  · next hx => exact absurd h (head?_toDigits_ne_zero (shortest_ne_zero hf hx))

/-! ## Reading a setting -/

/-- The sign of an exponent. -/
def exponentSign (plusSign : Bool) (exponent : Int) : List Char :=
  if exponent < 0 then ['-'] else if plusSign then ['+'] else []

section Exponent

variable {digits : List Char} (hne : digits ≠ []) (hall : digits.all isDigit = true)
include hne hall

theorem exponentOfText?_minus :
    exponentOfText? ('-' :: digits) = some (-(digitsValue digits : Int)) := by
  show (if (digits.isEmpty || !digits.all isDigit) = true then none
    else some (-(digitsValue digits : Int))) = _
  refine if_neg ?_
  simp [hall, hne]

theorem exponentOfText?_plus :
    exponentOfText? ('+' :: digits) = some (digitsValue digits : Int) := by
  show (if (digits.isEmpty || !digits.all isDigit) = true then none
    else some (digitsValue digits : Int)) = _
  refine if_neg ?_
  simp [hall, hne]

/-- Without a sign, as the first character is a digit. -/
theorem exponentOfText?_digits : exponentOfText? digits = some (digitsValue digits : Int) := by
  have hplus := exponentOfText?_plus hne hall
  obtain ⟨c, rest, rfl⟩ := List.exists_cons_of_ne_nil hne
  have hc : isDigit c = true := List.all_eq_true.mp hall c List.mem_cons_self
  unfold exponentOfText?
  split
  next below digits hsign =>
    split at hsign
    · next heq =>
      cases heq
      exact absurd hc (by decide)
    · next heq =>
      cases heq
      exact absurd hc (by decide)
    · cases hsign
      exact hplus

end Exponent

theorem exponentOfText?_toDigits (plusSign : Bool) (exponent : Int) :
    exponentOfText? (exponentSign plusSign exponent ++ Nat.toDigits 10 exponent.natAbs) =
      some exponent := by
  have hne : Nat.toDigits 10 exponent.natAbs ≠ [] := Nat.toDigits_ne_nil
  have hall := all_isDigit_toDigits exponent.natAbs
  have hvalue := digitsValue_toDigits exponent.natAbs
  unfold exponentSign
  by_cases hbelow : exponent < 0
  · have hexponent : -(exponent.natAbs : Int) = exponent := by omega
    rw [if_pos hbelow, List.singleton_append, exponentOfText?_minus hne hall, hvalue, hexponent]
  · have hexponent : (exponent.natAbs : Int) = exponent := by omega
    rw [if_neg hbelow]
    cases plusSign with
    | true => exact (exponentOfText?_plus hne hall).trans (by rw [hvalue, hexponent])
    | false => exact (exponentOfText?_digits hne hall).trans (by rw [hvalue, hexponent])

theorem unsignedOfText?_pointed {whole fraction : List Char} (h : IsPointed whole fraction)
    (negative : Bool) :
    Decimal.unsignedOfText? negative (whole ++ '.' :: fraction) =
      some ⟨negative, digitsValue (whole ++ fraction), -(fraction.length : Int)⟩ := by
  have hspan : (whole ++ '.' :: fraction).span isDigit = (whole, '.' :: fraction) :=
    Text.span_append h.whole_all (Text.stopsAt_cons (by decide) _)
  have hend : fraction.span isDigit = (fraction, []) := Text.span_all h.fraction_all
  unfold Decimal.unsignedOfText?
  rw [hspan]
  simp only [hend]
  rw [if_neg (by simp [h.whole_ne_nil])]

theorem unsignedOfText?_scientific {first : Char} {fraction : List Char}
    (hfirst : isDigit first = true) (hfraction : fraction.all isDigit = true)
    (negative plusSign : Bool) (exponent : Int) :
    Decimal.unsignedOfText? negative (scientific plusSign (first :: fraction) exponent) =
      some ⟨negative, digitsValue (first :: fraction), exponent - fraction.length⟩ := by
  have hexponent := exponentOfText?_toDigits plusSign exponent
  have hrun : [first].all isDigit = true := by rw [List.all_cons, hfirst]; rfl
  show Decimal.unsignedOfText? negative
    ([first] ++ (if fraction.isEmpty then [] else '.' :: fraction) ++
      'e' :: (exponentSign plusSign exponent ++ Nat.toDigits 10 exponent.natAbs)) = _
  generalize exponentSign plusSign exponent ++ Nat.toDigits 10 exponent.natAbs = tail at hexponent
  cases fraction with
  | nil =>
    have hspan : ([first] ++ 'e' :: tail).span isDigit = ([first], 'e' :: tail) :=
      Text.span_append hrun (Text.stopsAt_cons (by decide) _)
    show Decimal.unsignedOfText? negative ([first] ++ 'e' :: tail) = _
    unfold Decimal.unsignedOfText?
    rw [hspan]
    simp [hexponent]
  | cons second rest =>
    have hspan : ([first] ++ '.' :: (second :: rest ++ 'e' :: tail)).span isDigit =
        ([first], '.' :: (second :: rest ++ 'e' :: tail)) :=
      Text.span_append hrun (Text.stopsAt_cons (by decide) _)
    have hend : (second :: rest ++ 'e' :: tail).span isDigit = (second :: rest, 'e' :: tail) :=
      Text.span_append hfraction (Text.stopsAt_cons (by decide) _)
    show Decimal.unsignedOfText? negative ([first] ++ '.' :: (second :: rest ++ 'e' :: tail)) = _
    unfold Decimal.unsignedOfText?
    rw [hspan]
    simp only [hend]
    simp [hexponent]

/-! ## Reading a magnitude -/

section Magnitude

variable {layout : Layout} {f : Format}

/-- All places are written if the first digit stands within the decades of the layout. -/
theorem magnitude_eq {least greatest : Int} (hdecades : layout.decades = some (least, greatest))
    {x : Magnitude f} (hx : x.significand ≠ 0) :
    layout.magnitude x =
      if least ≤ (digitsOf layout.tie x).2 - 1 ∧ (digitsOf layout.tie x).2 - 1 ≤ greatest then
        positional layout.integralMark (digitsOf layout.tie x).1 (digitsOf layout.tie x).2
      else scientific layout.plusSign (digitsOf layout.tie x).1 ((digitsOf layout.tie x).2 - 1) := by
  unfold magnitude
  simp only [hdecades, hx, decide_false, Bool.false_or, Bool.and_eq_true, decide_eq_true_eq]

/-- A layout writes out all places of a magnitude, or the first digit and a power of ten. -/
theorem magnitude_cases (hmark : layout.integralMark = ".0".toList) (hf : 2 ≤ f.width)
    (x : Magnitude f) :
    (∃ whole fraction, layout.magnitude x = whole ++ '.' :: fraction ∧
        IsSetting (digitsOf layout.tie x).1 (digitsOf layout.tie x).2 whole fraction) ∨
      ∃ first fraction, (digitsOf layout.tie x).1 = first :: fraction ∧
        layout.magnitude x =
          scientific layout.plusSign (first :: fraction) ((digitsOf layout.tie x).2 - 1) := by
  have hcases : layout.magnitude x =
        positional layout.integralMark (digitsOf layout.tie x).1 (digitsOf layout.tie x).2 ∨
      layout.magnitude x = scientific layout.plusSign (digitsOf layout.tie x).1
        ((digitsOf layout.tie x).2 - 1) := by
    unfold magnitude
    exact ite_eq_or_eq _ _ _
  obtain hall | hpower := hcases
  · rw [hall, hmark]
    exact .inl (positional_eq (digitsOf_ne_nil _ x) (all_isDigit_digitsOf _ x)
      (head?_digitsOf hf _ x))
  · obtain ⟨first, fraction, hdigits⟩ := List.exists_cons_of_ne_nil (digitsOf_ne_nil layout.tie x)
    rw [hdigits] at hpower
    exact .inr ⟨first, fraction, hdigits, hpower⟩

/-- The characters of a magnitude spell a decimal with the value of its digits. -/
theorem exists_unsignedOfText?_scaled (hmark : layout.integralMark = ".0".toList)
    (hf : 2 ≤ f.width) (x : Magnitude f) (negative : Bool) :
    ∃ d, Decimal.unsignedOfText? negative (layout.magnitude x) = some d ∧ d.negative = negative ∧
      scaled d.coefficient d.exponent = scaled (digitsValue (digitsOf layout.tie x).1)
        ((digitsOf layout.tie x).2 - (digitsOf layout.tie x).1.length) := by
  obtain ⟨whole, fraction, htext, hsetting⟩ | ⟨first, fraction, hdigits, htext⟩ :=
    magnitude_cases hmark hf x
  · rw [htext]
    exact ⟨_, unsignedOfText?_pointed hsetting.isPointed negative, rfl, hsetting.value_eq⟩
  · have hall := all_isDigit_digitsOf layout.tie x
    rw [hdigits, List.all_cons, Bool.and_eq_true] at hall
    rw [htext]
    refine ⟨_, unsignedOfText?_scientific hall.1 hall.2 negative _ _, rfl, ?_⟩
    dsimp only
    rw [hdigits, List.length_cons]
    congr 1
    push_cast
    ring

/-- The characters of a magnitude spell a decimal that rounds to it. -/
theorem exists_unsignedOfText?_magnitude (hmark : layout.integralMark = ".0".toList)
    (hf : 2 ≤ f.width) (x : Magnitude f) (negative : Bool) :
    ∃ d, Decimal.unsignedOfText? negative (layout.magnitude x) = some d ∧
      d.toNumber f = .finite negative x := by
  obtain ⟨d, hd, rfl, hvalue⟩ := exists_unsignedOfText?_scaled hmark hf x negative
  exact ⟨d, hd, toNumber_digitsOf hf layout.tie x d hvalue⟩

theorem exists_cons_magnitude (hmark : layout.integralMark = ".0".toList) (hf : 2 ≤ f.width)
    (x : Magnitude f) : ∃ c rest, layout.magnitude x = c :: rest ∧ isDigit c = true := by
  obtain ⟨whole, fraction, htext, hsetting⟩ | ⟨first, fraction, hdigits, htext⟩ :=
    magnitude_cases hmark hf x
  · obtain ⟨c, rest, hwhole, hc, -⟩ := hsetting.isPointed.exists_cons
    rw [htext, hwhole]
    exact ⟨c, _, rfl, hc⟩
  · have hall := all_isDigit_digitsOf layout.tie x
    rw [hdigits, List.all_cons, Bool.and_eq_true] at hall
    rw [htext]
    exact ⟨first, _, rfl, hall.1⟩

end Magnitude

/-! ## Reading a number -/

theorem toLower_of_isDigit {c : Char} (h : isDigit c = true) : c.toLower = c := by
  unfold isDigit at h
  rw [Bool.and_eq_true, decide_eq_true_eq, decide_eq_true_eq] at h
  have hnine : c.val ≤ '9'.val := h.2
  unfold Char.toLower
  refine dif_neg ?_
  rintro ⟨hlow, -⟩
  exact absurd (UInt32.le_trans hlow hnine) (by decide)

theorem unsignedOfText?_magnitude {layout : Layout} {f : Format}
    (hmark : layout.integralMark = ".0".toList) (hf : 2 ≤ f.width) (x : Magnitude f)
    (negative : Bool) :
    Number.unsignedOfText? negative (layout.magnitude x) = some (.finite negative x) := by
  obtain ⟨d, hd, hvalue⟩ := exists_unsignedOfText?_magnitude hmark hf x negative
  obtain ⟨c, rest, htext, hc⟩ := exists_cons_magnitude hmark hf x
  rw [htext] at hd ⊢
  have hword : ∀ word : List Char, word.head? = some 'i' ∨ word.head? = some 'n' →
      (c :: rest).map Char.toLower ≠ word := by
    rintro word hword rfl
    rw [List.map_cons, List.head?_cons, toLower_of_isDigit hc] at hword
    obtain hi | hn := hword
    · cases hi
      exact absurd hc (by decide)
    · cases hn
      exact absurd hc (by decide)
  unfold Number.unsignedOfText?
  rw [if_neg, if_neg (hword _ (.inr rfl)), hd, Option.map_some, hvalue]
  rw [Bool.or_eq_true, decide_eq_true_eq, decide_eq_true_eq]
  rintro (heq | heq)
  · exact hword _ (.inl rfl) heq
  · exact hword _ (.inl rfl) heq

theorem ofText?_of_isDigit {f : Format} {c : Char} (hc : isDigit c = true) (rest : List Char) :
    (Number.ofText? (c :: rest) : Option (Number f)) =
      Number.unsignedOfText? false (c :: rest) := by
  unfold Number.ofText?
  split
  · next heq =>
    cases heq
    exact absurd hc (by decide)
  · next heq =>
    cases heq
    exact absurd hc (by decide)
  · rfl

/-- The text of a number is read as the number. -/
theorem ofText?_chars_exact {f : Format} (hf : 2 ≤ f.width) {x : Number f} (hx : x ≠ .nan) :
    Number.ofText? (exact.chars x) = some x := by
  cases x with
  | nan => exact absurd rfl hx
  | infinite negative => cases negative <;> rfl
  | finite negative size =>
    have hmark : exact.integralMark = ".0".toList := rfl
    have hread := unsignedOfText?_magnitude hmark hf size negative
    cases negative with
    | true => exact hread
    | false =>
      obtain ⟨c, rest, htext, hc⟩ := exists_cons_magnitude hmark hf size
      show Number.ofText? (exact.magnitude size) = _
      rw [htext] at hread ⊢
      rw [ofText?_of_isDigit hc, hread]

end Layout
end PlaneReport
