import Mathlib.Algebra.Group.Int.Defs
import PlaneReport.Json.Reader
import PlaneReport.Proofs.Decimal.Digits
import PlaneReport.Proofs.Text.Span

/-!
# Strings and integers of JSON texts

A string is read back as the text that it was written for, whatever characters are in it, and so is
an integer that fits 64 bits.  Each is read up to its end and no further, whatever follows a string
and unless what follows an integer carries it on.  Main statements: `readString_escaped` and
`Numeral.read_integerChars`.
-/

namespace PlaneReport
namespace Json

/-! ## Strings -/

/-- Whether a character is named by its code point in a string. -/
def IsCoded (c : Char) : Prop :=
  c.toNat < 32 ∧ c.toNat ≠ 8 ∧ c.toNat ≠ 12 ∧ c ≠ '\n' ∧ c ≠ '\r' ∧ c ≠ '\t'

instance (c : Char) : Decidable (IsCoded c) :=
  inferInstanceAs (Decidable (_ ∧ _))

/-- The piece as which a character is read back. -/
def Piece.ofChar (c : Char) : Piece :=
  if IsCoded c then .unit c.toNat else .char c

/-- The last two digits of the code of a control character. -/
theorem hexUnit?_hexadecimal : ∀ n < 32,
    (if n < 16 then ['0'] else []) ++ Text.hexadecimal n =
        [Nat.digitChar (n / 16), Nat.digitChar (n % 16)] ∧
      hexUnit? '0' '0' (Nat.digitChar (n / 16)) (Nat.digitChar (n % 16)) = some n := by
  decide

theorem escapeChar_of_isCoded {c : Char} (h : IsCoded c) :
    escapeChar c =
      ['\\', 'u', '0', '0', Nat.digitChar (c.toNat / 16), Nat.digitChar (c.toNat % 16)] := by
  obtain ⟨hlow, hback, hfeed, hline, hreturn, htab⟩ := h
  have hquote : c ≠ '"' := by
    rintro rfl
    exact absurd hlow (by decide)
  have hslash : c ≠ '\\' := by
    rintro rfl
    exact absurd hlow (by decide)
  simp only [escapeChar, hquote, hslash, hback, hfeed, hline, hreturn, htab, hlow, if_false,
    if_true, List.append_assoc, (hexUnit?_hexadecimal c.toNat hlow).1]
  rfl

/-- A character is named by its code, or by a sign after a backslash, or stands for itself. -/
theorem escapeChar_cases (c : Char) :
    IsCoded c ∨
      (¬ IsCoded c ∧ ∃ sign, sign ≠ 'u' ∧ simpleEscape? sign = some c ∧
        escapeChar c = ['\\', sign]) ∨
      (¬ IsCoded c ∧ c ≠ '"' ∧ c ≠ '\\' ∧ 32 ≤ c.toNat ∧ escapeChar c = [c]) := by
  have hback : c.toNat = 8 → c = '\x08' := fun h => Char.toNat_inj.mp h
  have hfeed : c.toNat = 12 → c = '\x0c' := fun h => Char.toNat_inj.mp h
  by_cases hcoded : IsCoded c
  · exact .inl hcoded
  by_cases hnamed : c ∈ ['"', '\\', '\x08', '\x0c', '\n', '\r', '\t']
  · refine .inr (.inl ⟨hcoded, ?_⟩)
    simp only [List.mem_cons, List.not_mem_nil, or_false] at hnamed
    obtain rfl | rfl | rfl | rfl | rfl | rfl | rfl := hnamed
    · exact ⟨'"', by decide, by decide, by decide⟩
    · exact ⟨'\\', by decide, by decide, by decide⟩
    · exact ⟨'b', by decide, by decide, by decide⟩
    · exact ⟨'f', by decide, by decide, by decide⟩
    · exact ⟨'n', by decide, by decide, by decide⟩
    · exact ⟨'r', by decide, by decide, by decide⟩
    · exact ⟨'t', by decide, by decide, by decide⟩
  · simp only [List.mem_cons, List.not_mem_nil, or_false, not_or] at hnamed
    obtain ⟨hquote, hslash, hback', hfeed', hline, hreturn, htab⟩ := hnamed
    have hhigh : 32 ≤ c.toNat := Nat.not_lt.mp fun hlow =>
      hcoded ⟨hlow, fun h => hback' (hback h), fun h => hfeed' (hfeed h), hline, hreturn, htab⟩
    have hescape : escapeChar c = [c] := by
      have h8 : c.toNat ≠ 8 := by omega
      have h12 : c.toNat ≠ 12 := by omega
      have hlow : ¬ c.toNat < 32 := by omega
      simp [escapeChar, hquote, hslash, h8, h12, hline, hreturn, htab, hlow]
    exact .inr (.inr ⟨hcoded, hquote, hslash, hhigh, hescape⟩)

theorem readPieces_sign {sign c : Char} (hsign : sign ≠ 'u') (hsimple : simpleEscape? sign = some c)
    (text : List Char) :
    readPieces ('\\' :: sign :: text) =
      (readPieces text).map fun (pieces, rest) => (.char c :: pieces, rest) := by
  rw [readPieces.eq_4 _ _ fun _ _ _ _ _ h _ => hsign h, hsimple]
  cases readPieces text <;> rfl

theorem readPieces_plain {c : Char} (hquote : c ≠ '"') (hslash : c ≠ '\\') (hhigh : 32 ≤ c.toNat)
    (text : List Char) :
    readPieces (c :: text) =
      (readPieces text).map fun (pieces, rest) => (.char c :: pieces, rest) := by
  rw [readPieces.eq_5 _ _ hquote (fun _ _ _ _ _ h _ => hslash h) (fun _ _ h _ => hslash h),
    if_neg (Nat.not_lt.mpr hhigh)]
  cases readPieces text <;> rfl

/-- One character is read back as one piece. -/
theorem readPieces_escapeChar (c : Char) (text : List Char) :
    readPieces (escapeChar c ++ text) =
      (readPieces text).map fun (pieces, rest) => (Piece.ofChar c :: pieces, rest) := by
  obtain hcoded | ⟨hcoded, sign, hsign, hsimple, hescape⟩ |
      ⟨hcoded, hquote, hslash, hhigh, hescape⟩ := escapeChar_cases c
  · rw [escapeChar_of_isCoded hcoded, Piece.ofChar, if_pos hcoded]
    simp only [List.cons_append, List.nil_append, readPieces,
      (hexUnit?_hexadecimal c.toNat hcoded.1).2]
    cases readPieces text <;> rfl
  · rw [hescape, Piece.ofChar, if_neg hcoded]
    exact readPieces_sign hsign hsimple text
  · rw [hescape, Piece.ofChar, if_neg hcoded]
    exact readPieces_plain hquote hslash hhigh text

theorem readPieces_escaped (chars rest : List Char) :
    readPieces (chars.flatMap escapeChar ++ '"' :: rest) =
      some (chars.map Piece.ofChar, rest) := by
  induction chars with
  | nil => rfl
  | cons c chars ih =>
    rw [List.flatMap_cons, List.append_assoc, readPieces_escapeChar, ih]
    rfl

/-- A unit below the halves of pairs is a character by itself, whatever follows it. -/
theorem charsOfPieces?_unit {value : Nat} (h : value < 0xd800) (rest : List Piece) :
    charsOfPieces? (.unit value :: rest) =
      (charsOfPieces? rest).map (Char.ofNat value :: ·) := by
  have hhigh : ¬ 0xd800 ≤ value := by omega
  have hlow : ¬ 0xdc00 ≤ value := by omega
  cases rest with
  | nil => simp [charsOfPieces?, hhigh]
  | cons piece rest => cases piece <;> simp [charsOfPieces?, hhigh, hlow]

theorem charsOfPieces?_ofChar (chars : List Char) :
    charsOfPieces? (chars.map Piece.ofChar) = some chars := by
  induction chars with
  | nil => rfl
  | cons c chars ih =>
    rw [List.map_cons, Piece.ofChar]
    split
    · next hcoded =>
      have hlow := hcoded.1
      rw [charsOfPieces?_unit (by omega), ih, Option.map_some, Char.ofNat_toNat]
    · rw [charsOfPieces?, ih]
      rfl

theorem readString_escaped (s : String) (rest : List Char) :
    readString (s.toList.flatMap escapeChar ++ '"' :: rest) = some (some s, rest) := by
  rw [readString, readPieces_escaped]
  show some ((charsOfPieces? (s.toList.map Piece.ofChar)).map String.ofList, rest) = _
  rw [charsOfPieces?_ofChar, Option.map_some, String.ofList_toList]

/-! ## Integers -/

namespace Numeral

/-- Whether a character that follows an integer would carry its numeral on. -/
def carriesOn (c : Char) : Bool :=
  Decimal.isDigit c || c == '.' || c == 'e' || c == 'E'

variable {digits rest : List Char} {significand : Nat}

/-- Digits are taken as long as what they denote fits 64 bits. -/
theorem takeDigits_append (hdigits : digits.all Decimal.isDigit = true)
    (hbound : Nat.ofDigitChars 10 digits significand < significandBound)
    (hrest : Text.StopsAt Decimal.isDigit rest) :
    takeDigits significand (digits ++ rest) =
      (Nat.ofDigitChars 10 digits significand, digits.length, rest) := by
  induction digits generalizing significand with
  | nil =>
    cases rest with
    | nil => rfl
    | cons c rest =>
      have hc : Decimal.isDigit c = false := hrest c rfl
      simp [takeDigits, hc, Nat.ofDigitChars]
  | cons c digits ih =>
    rw [List.all_cons, Bool.and_eq_true] at hdigits
    have hvalue : Nat.ofDigitChars 10 (c :: digits) significand =
        Nat.ofDigitChars 10 digits (10 * significand + Decimal.digitValue c) := rfl
    rw [hvalue] at hbound ⊢
    have hstep : 10 * significand + Decimal.digitValue c < significandBound := by
      rw [Nat.ofDigitChars_eq_ofDigitChars_zero] at hbound
      have hpos : 0 < 10 ^ digits.length := Nat.pow_pos (by decide)
      have hle := Nat.le_mul_of_pos_left (10 * significand + Decimal.digitValue c) hpos
      omega
    rw [List.cons_append, takeDigits, hdigits.1, ih hdigits.2 hbound]
    simp [hstep]

theorem readUnsigned_toDigits (negative : Bool) {n : Nat} (hn : n < significandBound)
    (hrest : Text.StopsAt carriesOn rest) :
    readUnsigned negative (Nat.toDigits 10 n ++ rest) = some (ofSignificand negative n, rest) := by
  have hstop : ∀ c, rest.head? = some c →
      Decimal.isDigit c = false ∧ c ≠ '.' ∧ c ≠ 'e' ∧ c ≠ 'E' := by
    intro c hc
    simpa [carriesOn, and_assoc] using hrest c hc
  have hdigits := Decimal.all_isDigit_toDigits n
  have hvalue : Nat.ofDigitChars 10 (Nat.toDigits 10 n) 0 = n := Nat.ofDigitChars_ten_toDigits
  have htake : takeDigits 0 (Nat.toDigits 10 n ++ rest) =
      (n, (Nat.toDigits 10 n).length, rest) := by
    rw [takeDigits_append hdigits (by rw [hvalue]; exact hn) fun c hc => (hstop c hc).1, hvalue]
  have hspan : ([] ++ rest).span Decimal.isDigit = ([], rest) :=
    Text.span_append rfl fun c hc => (hstop c hc).1
  rw [List.nil_append] at hspan
  have hlead := @Decimal.length_le_of_head?_toDigits n
  obtain ⟨first, more, hcons⟩ := List.exists_cons_of_ne_nil (@Nat.toDigits_ne_nil n 10)
  rw [hcons] at htake hdigits hlead ⊢
  have hfirst : Decimal.isDigit first = true := by
    rw [List.all_cons, Bool.and_eq_true] at hdigits
    exact hdigits.1
  have hsingle : (first = '0' && decide (1 < (first :: more).length)) = false := by
    rw [Bool.and_eq_false_iff, decide_eq_false_iff_not, decide_eq_false_iff_not]
    by_cases hzero : first = '0'
    · exact .inr (by have := hlead (congrArg some hzero); omega)
    · exact .inl hzero
  rw [List.cons_append] at htake ⊢
  unfold readUnsigned
  simp only [hfirst, htake, hspan, hsingle, Bool.not_true, Bool.false_eq_true, if_false,
    List.isEmpty_nil, Bool.or_false]
  cases rest with
  | nil => rfl
  | cons c rest =>
    obtain ⟨-, hpoint, hlower, hupper⟩ := hstop c rfl
    split
    · next h => exact absurd (List.cons.inj h).1 hpoint
    · simp [hlower, hupper]

/-- An integer that fits 64 bits is read back. -/
theorem read_integerChars {n : Int} (hlow : -(2 ^ 63 : Int) ≤ n) (hhigh : n < 2 ^ 64)
    (hrest : Text.StopsAt carriesOn rest) :
    read (integerChars n ++ rest) = some (.integer n, rest) := by
  have hbound : n.natAbs < significandBound := by
    show n.natAbs < 2 ^ 64
    omega
  unfold integerChars
  by_cases hnegative : n < 0
  · have hsmall : n.natAbs ≠ 0 ∧ ¬ 2 ^ 63 < n.natAbs := by omega
    rw [if_pos hnegative, List.append_assoc]
    show readUnsigned true (Nat.toDigits 10 n.natAbs ++ rest) = _
    rw [readUnsigned_toDigits true hbound hrest, ofSignificand]
    have hnumber : ¬ (n.natAbs = 0 ∨ 2 ^ 63 < n.natAbs) := by omega
    have hvalue : -(n.natAbs : Int) = n := by omega
    simp only [Bool.not_true, Bool.false_eq_true, if_false, Bool.or_eq_true, decide_eq_true_eq,
      hnumber, hvalue]
  · obtain ⟨first, more, hcons⟩ := List.exists_cons_of_ne_nil (@Nat.toDigits_ne_nil n.natAbs 10)
    have hdigits := Decimal.all_isDigit_toDigits n.natAbs
    have hread := readUnsigned_toDigits false hbound hrest
    rw [hcons] at hdigits hread
    rw [if_neg hnegative, List.nil_append, hcons]
    have hunsigned : read (first :: more ++ rest) = readUnsigned false (first :: more ++ rest) := by
      rw [List.cons_append, read]
      rintro rest' h
      rw [(List.cons.inj h).1] at hdigits
      exact absurd hdigits (by simp [Decimal.isDigit])
    have hvalue : (n.natAbs : Int) = n := by omega
    rw [hunsigned, hread, ofSignificand, hvalue]
    rfl

end Numeral
end Json
end PlaneReport
