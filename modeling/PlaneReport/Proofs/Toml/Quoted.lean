import PlaneReport.Proofs.Text.Span
import PlaneReport.Toml.Printer
import PlaneReport.Toml.Scalar

/-!
# Strings of TOML read back

A string is printed in one of four forms.  The main statement is `readString_stringChars`: whichever
form was chosen, the reader gives back the text and stops right behind it.

Between double quotes every text can be written, because what the form cannot hold is escaped, so
those forms need no condition.  The forms between single quotes have no escapes and rest on what
`formOf` found out about the text.
-/

namespace PlaneReport
namespace Toml

variable {edition : Edition}

/-! ## Escapes -/

theorem fourDigits_spec :
    ∀ n < 128, (fourDigits n).length = 4 ∧ (fourDigits n).all isHexDigit = true ∧
      valueInBase 16 (fourDigits n) = n := by
  decide

theorem readEscape_unicode {n : Nat} (hn : n < 128) (rest : List Char) :
    readEscape edition ('u' :: (fourDigits n ++ rest)) = some (Char.ofNat n, rest) := by
  obtain ⟨hlength, hall, hvalue⟩ := fourDigits_spec n hn
  have htake : (fourDigits n ++ rest).take 4 = fourDigits n := by
    rw [← hlength, List.take_left]
  have hdrop : (fourDigits n ++ rest).drop 4 = rest := by
    rw [← hlength, List.drop_left]
  have hvalid : n.isValidChar := Or.inl (by omega)
  unfold readEscape
  simp only [htake, hdrop, hlength, hall, hvalue, hvalid, decide_true, Bool.and_self, if_true]

/-- What stands after a backslash and names a character.  It does not look like the end of a line,
which a backslash would join to the next. -/
structure IsEscapeOf (edition : Edition) (c letter : Char) (tail : List Char) : Prop where
  not_blank : isBlank letter = false
  not_feed : letter ≠ '\n'
  not_return : letter ≠ '\r'
  reads : ∀ rest, readEscape edition (letter :: (tail ++ rest)) = some (c, rest)

theorem exists_isEscapeOf {c : Char} {escaped : List Char} (h : escape? c = some escaped) :
    ∃ letter tail, escaped = '\\' :: letter :: tail ∧ IsEscapeOf edition c letter tail := by
  unfold escape? at h
  split at h
  · next hc =>
    cases h
    refine ⟨'b', [], rfl, by decide, by decide, by decide, fun rest => ?_⟩
    rw [← Char.ofNat_toNat c, hc]
    rfl
  · split at h
    · next hc =>
      cases h
      exact ⟨'t', [], rfl, by decide, by decide, by decide, fun rest => by rw [hc]; rfl⟩
    · split at h
      · next hc =>
        cases h
        refine ⟨'f', [], rfl, by decide, by decide, by decide, fun rest => ?_⟩
        rw [← Char.ofNat_toNat c, hc]
        rfl
      · split at h
        · next hc =>
          cases h
          exact ⟨'r', [], rfl, by decide, by decide, by decide, fun rest => by rw [hc]; rfl⟩
        · split at h
          · next hc =>
            cases h
            exact ⟨'\\', [], rfl, by decide, by decide, by decide, fun rest => by rw [hc]; rfl⟩
          · split at h
            · next hc =>
              cases h
              have hlt : c.toNat < 128 := by
                unfold needsEscape at hc
                simp only [Bool.or_eq_true, Bool.and_eq_true, decide_eq_true_eq, beq_iff_eq] at hc
                omega
              refine ⟨'u', _, rfl, by decide, by decide, by decide, fun rest => ?_⟩
              rw [readEscape_unicode hlt, Char.ofNat_toNat]
            · cases h

theorem exists_cons_of_escape? {c : Char} {escaped : List Char} (h : escape? c = some escaped) :
    ∃ letter tail, escaped = '\\' :: letter :: tail := by
  obtain ⟨letter, tail, heq, -⟩ := @exists_isEscapeOf .v1_1 c escaped h
  exact ⟨letter, tail, heq⟩

theorem isEscapeOf_quote : IsEscapeOf edition '"' '"' [] :=
  ⟨by decide, by decide, by decide, fun _ => rfl⟩

theorem isEscapeOf_feed : IsEscapeOf edition '\n' 'n' [] :=
  ⟨by decide, by decide, by decide, fun _ => rfl⟩

theorem not_isControl {c : Char} (h : needsEscape c = false) (hfeed : c ≠ '\n') :
    Text.isControl c = false := by
  unfold needsEscape at h
  unfold Text.isControl
  simp only [Bool.or_eq_false_iff, Bool.and_eq_false_imp, decide_eq_true_eq, bne_eq_false_iff_eq,
    Bool.and_eq_true, bne_iff_ne, beq_eq_false_iff_ne] at h ⊢
  refine ⟨fun hlt => ?_, h.2⟩
  by_contra htab
  exact hfeed (h.1 ⟨hlt, htab⟩)

/-- A character without an escape stands for itself between double quotes. -/
theorem of_escape?_eq_none {c : Char} (h : escape? c = none) (hfeed : c ≠ '\n') :
    c ≠ '\\' ∧ c ≠ '\r' ∧ Text.isControl c = false := by
  unfold escape? at h
  split at h
  · cases h
  · split at h
    · cases h
    · split at h
      · cases h
      · split at h
        · cases h
        · next hreturn =>
          split at h
          · cases h
          · next hslash =>
            split at h
            · cases h
            · next hcontrol =>
              exact ⟨hslash, hreturn, not_isControl (Bool.eq_false_iff.mpr hcontrol) hfeed⟩

/-! ## Between two double quotes -/

section Basic

variable {c letter : Char} {tail text chars rest : List Char} {fuel : Nat}

theorem readBasic_escape (h : IsEscapeOf edition c letter tail)
    (hrec : readBasic edition fuel text = some (chars, rest)) :
    readBasic edition (fuel + 1) ('\\' :: letter :: (tail ++ text)) = some (c :: chars, rest) := by
  rw [readBasic, h.reads text]
  dsimp only [Option.bind_eq_bind, Option.bind_some]
  rw [hrec]
  rfl

theorem readBasic_char (hquote : c ≠ '"') (hslash : c ≠ '\\')
    (hcontrol : Text.isControl c = false)
    (hrec : readBasic edition fuel text = some (chars, rest)) :
    readBasic edition (fuel + 1) (c :: text) = some (c :: chars, rest) := by
  rw [readBasic]
  · rw [if_neg (by rw [hcontrol]; exact Bool.false_ne_true), hrec]
    rfl
  · exact hquote
  · exact hslash

end Basic

theorem readBasic_content (text rest : List Char) (fuel : Nat) (hfuel : text.length < fuel) :
    readBasic edition fuel (basicContent 0 0 text ++ '"' :: rest) = some (text, rest) := by
  induction text generalizing fuel with
  | nil =>
    obtain ⟨fuel, rfl⟩ := Nat.exists_eq_succ_of_ne_zero (by omega : fuel ≠ 0)
    rfl
  | cons c text ih =>
    rw [List.length_cons] at hfuel
    obtain ⟨fuel, rfl⟩ := Nat.exists_eq_succ_of_ne_zero (by omega : fuel ≠ 0)
    have hrec := ih fuel (by omega)
    unfold basicContent
    split
    · next hquote =>
      rw [if_neg (Nat.lt_irrefl 0), hquote]
      have hread := readBasic_escape isEscapeOf_quote hrec
      exact hread
    · next hquote =>
      split
      · next hfeed =>
        simp only [decide_true, Bool.and_true, decide_eq_true_eq] at hfeed
        rw [hfeed]
        have hread := readBasic_escape isEscapeOf_feed hrec
        exact hread
      · next hfeed =>
        simp only [decide_true, Bool.and_true, decide_eq_true_eq] at hfeed
        split
        · next escaped hescape =>
          obtain ⟨letter, tail, rfl, hreads⟩ := exists_isEscapeOf hescape
          rw [List.append_assoc]
          exact readBasic_escape hreads hrec
        · next hescape =>
          obtain ⟨hslash, -, hcontrol⟩ := of_escape?_eq_none hescape hfeed
          exact readBasic_char hquote hslash hcontrol hrec

theorem length_le_basicContent (room quotes : Nat) (text : List Char) :
    text.length ≤ (basicContent room quotes text).length := by
  induction text generalizing quotes with
  | nil => exact Nat.zero_le _
  | cons c text ih =>
    have hzero := ih 0
    have hnext := ih (quotes + 1)
    unfold basicContent
    split
    · split
      · simp only [List.length_cons]
        omega
      · simp only [List.length_cons]
        omega
    · split
      · simp only [List.length_cons]
        omega
      · split
        · next escaped hescape =>
          obtain ⟨letter, tail, rfl⟩ := exists_cons_of_escape? hescape
          simp only [List.length_append, List.length_cons]
          omega
        · simp only [List.length_cons]
          omega

/-! ## Runs of quotes -/

section Runs

variable {quote : Char} {rest : List Char}

theorem takeWhile_replicate_append (n : Nat) (h : Text.StopsAt (· == quote) rest) :
    (List.replicate n quote ++ rest).takeWhile (· == quote) = List.replicate n quote := by
  have hall : ∀ c ∈ List.replicate n quote, (c == quote) = true := by
    intro c hc
    rw [List.eq_of_mem_replicate hc]
    exact beq_self_eq_true quote
  rw [List.takeWhile_append_of_pos hall, Text.takeWhile_of_stopsAt h, List.append_nil]

/-- One or two quotes in front of the closing ones belong to the text. -/
theorem closing?_replicate {n : Nat} (hn : n ≤ 2) (h : Text.StopsAt (· == quote) rest) :
    closing? quote (List.replicate n quote ++ (List.replicate 3 quote ++ rest)) =
      some (List.replicate n quote, rest) := by
  have hcount : ((List.replicate n quote ++ (List.replicate 3 quote ++ rest)).takeWhile
      (· == quote)).length = n + 3 := by
    rw [← List.append_assoc, List.replicate_append_replicate, takeWhile_replicate_append _ h,
      List.length_replicate]
  have hdrop : (List.replicate n quote ++ (List.replicate 3 quote ++ rest)).drop (n + 3) =
      rest := by
    rw [← List.append_assoc, List.replicate_append_replicate]
    exact List.drop_left' List.length_replicate
  have hinner : min (n + 3 - 3) 2 = n := by omega
  unfold closing?
  dsimp only
  rw [hcount, if_neg (by omega), hinner, hdrop]

theorem closing?_eq_none {text : List Char}
    (h : (text.takeWhile (· == quote)).length ≤ 2) : closing? quote text = none := by
  unfold closing?
  dsimp only
  rw [if_pos (by omega)]

theorem length_takeWhile_cons (text : List Char) :
    ((quote :: text).takeWhile (· == quote)).length =
      (text.takeWhile (· == quote)).length + 1 := by
  rw [List.takeWhile_cons, beq_self_eq_true, if_pos rfl, List.length_cons]

theorem length_takeWhile_of_ne {c : Char} (h : c ≠ quote) (text : List Char) :
    ((c :: text).takeWhile (· == quote)).length = 0 := by
  rw [List.takeWhile_cons, beq_false_of_ne h, if_neg Bool.false_ne_true, List.length_nil]

theorem takeWhile_eq_of_all (text tail : List Char) :
    (∃ n, text = List.replicate n quote) ∨
      (text ++ tail).takeWhile (· == quote) = text.takeWhile (· == quote) := by
  induction text with
  | nil => exact Or.inl ⟨0, rfl⟩
  | cons c text ih =>
    by_cases hc : c = quote
    · rw [hc]
      rcases ih with ⟨n, hn⟩ | hrun
      · exact Or.inl ⟨n + 1, by rw [hn]; rfl⟩
      · refine Or.inr ?_
        rw [List.cons_append, List.takeWhile_cons, List.takeWhile_cons, hrun]
    · refine Or.inr ?_
      rw [List.cons_append, List.takeWhile_cons, List.takeWhile_cons, beq_false_of_ne hc]
      rfl

end Runs

theorem le_longestRun (quote : Char) (current : Nat) (text : List Char) :
    current + (text.takeWhile (· == quote)).length ≤ longestRun quote current text := by
  induction text generalizing current with
  | nil => exact Nat.le_refl current
  | cons c text ih =>
    unfold longestRun
    split
    · next hc =>
      have hnext := ih (current + 1)
      rw [← hc, length_takeWhile_cons]
      omega
    · next hc =>
      rw [length_takeWhile_of_ne (Ne.symm hc)]
      omega

theorem longestRun_mono (quote : Char) (text : List Char) {m n : Nat} (h : m ≤ n) :
    longestRun quote m text ≤ longestRun quote n text := by
  induction text generalizing m n with
  | nil => exact h
  | cons c text ih =>
    unfold longestRun
    split
    · exact ih (by omega)
    · omega

theorem longestRun_tail (quote c : Char) (text : List Char) :
    longestRun quote 0 text ≤ longestRun quote 0 (c :: text) := by
  rw [longestRun]
  split
  · exact longestRun_mono quote text (by omega)
  · omega

theorem readNewline?_eq_none {c : Char} {rest : List Char} (hfeed : c ≠ '\n')
    (hreturn : c ≠ '\r') : readNewline? edition (c :: rest) = none := by
  unfold readNewline?
  split
  · next heq =>
    injection heq with heq
    exact absurd heq hfeed
  · next heq =>
    injection heq with heq
    exact absurd heq hreturn
  · rfl

theorem afterNewline?_eq_none {c : Char} {rest : List Char} (hfeed : c ≠ '\n')
    (hreturn : c ≠ '\r') : afterNewline? (c :: rest) = none := by
  unfold afterNewline?
  split
  · next heq =>
    injection heq with heq
    exact absurd heq hfeed
  · next heq =>
    injection heq with heq
    exact absurd heq hreturn
  · rfl

/-! ## Between three double quotes -/

section BasicLines

variable {c letter : Char} {tail text chars rest : List Char} {fuel : Nat}

theorem readBasicLines_closing {closed : List Char × List Char}
    (h : closing? '"' text = some closed) :
    readBasicLines edition (fuel + 1) text = some closed := by
  rw [readBasicLines.eq_def]
  dsimp only
  rw [h]

theorem readBasicLines_escape (h : IsEscapeOf edition c letter tail)
    (hrec : readBasicLines edition fuel text = some (chars, rest)) :
    readBasicLines edition (fuel + 1) ('\\' :: letter :: (tail ++ text)) =
      some (c :: chars, rest) := by
  have hblanks : skipBlanks (letter :: (tail ++ text)) = letter :: (tail ++ text) :=
    Text.dropWhile_of_stopsAt (Text.stopsAt_cons h.not_blank _)
  have hline : afterNewline? (letter :: (tail ++ text)) = none :=
    afterNewline?_eq_none h.not_feed h.not_return
  have hnone : closing? '"' ('\\' :: letter :: (tail ++ text)) = none := by
    apply closing?_eq_none
    rw [length_takeWhile_of_ne (by decide)]
    omega
  rw [readBasicLines, hnone]
  dsimp only [readNewline?]
  rw [hblanks, hline, h.reads text]
  dsimp only [Option.bind_eq_bind, Option.bind_some]
  rw [hrec]
  rfl

theorem readBasicLines_char (hnone : closing? '"' (c :: text) = none) (hslash : c ≠ '\\')
    (hreturn : c ≠ '\r') (hcontrol : c = '\n' ∨ Text.isControl c = false)
    (hrec : readBasicLines edition fuel text = some (chars, rest)) :
    readBasicLines edition (fuel + 1) (c :: text) = some (c :: chars, rest) := by
  rw [readBasicLines.eq_4 _ _ _ _ hslash, hnone]
  dsimp only
  by_cases hfeed : c = '\n'
  · rw [hfeed]
    have hline : readNewline? edition ('\n' :: text) = some (['\n'], text) := rfl
    rw [hline]
    dsimp only
    rw [hrec]
    rfl
  · rw [readNewline?_eq_none hfeed hreturn]
    dsimp only
    rw [if_neg (by rw [hcontrol.resolve_left hfeed]; exact Bool.false_ne_true), hrec]
    rfl

end BasicLines

/-- Behind `quotes` quotes, unescaped quotes go on up to the end of the text, or there are so few of
them that three never stand in a row. -/
theorem basicContent_quotes (text tail : List Char) {quotes : Nat} (hquotes : quotes ≤ 2) :
    (∃ n, text = List.replicate n '"' ∧ quotes + n ≤ 2 ∧
        basicContent 2 quotes text = List.replicate n '"') ∨
      quotes + ((basicContent 2 quotes text ++ tail).takeWhile (· == '"')).length ≤ 2 := by
  induction text generalizing quotes with
  | nil => exact Or.inl ⟨0, rfl, hquotes, rfl⟩
  | cons c text ih =>
    have hstop : ∀ (d : Char) (rest : List Char), d ≠ '"' →
        quotes + ((d :: rest).takeWhile (· == '"')).length ≤ 2 := by
      intro d rest hd
      rw [length_takeWhile_of_ne hd]
      exact hquotes
    unfold basicContent
    split
    · next hc =>
      split
      · next hroom =>
        rcases ih (by omega : quotes + 1 ≤ 2) with ⟨n, htext, hn, hcontent⟩ | hfew
        · refine Or.inl ⟨n + 1, ?_, by omega, ?_⟩
          · rw [hc, htext]
            rfl
          · rw [hcontent]
            rfl
        · refine Or.inr ?_
          rw [List.cons_append, length_takeWhile_cons]
          omega
      · exact Or.inr (hstop _ _ (by decide))
    · next hc =>
      refine Or.inr ?_
      split
      · exact hstop _ _ (by decide)
      · split
        · next escaped hescape =>
          obtain ⟨letter, tail, rfl⟩ := exists_cons_of_escape? hescape
          exact hstop _ _ (by decide)
        · exact hstop _ _ hc

theorem readBasicLines_content (text : List Char) {rest : List Char}
    (hrest : Text.StopsAt (· == '"') rest) {quotes fuel : Nat} (hquotes : quotes ≤ 2)
    (hfuel : text.length < fuel) :
    readBasicLines edition fuel (basicContent 2 quotes text ++ (List.replicate 3 '"' ++ rest)) =
      some (text, rest) := by
  induction text generalizing quotes fuel with
  | nil =>
    obtain ⟨fuel, rfl⟩ := Nat.exists_eq_succ_of_ne_zero (by omega : fuel ≠ 0)
    have hclosing := closing?_replicate (Nat.zero_le 2) hrest
    exact readBasicLines_closing hclosing
  | cons c text ih =>
    rw [List.length_cons] at hfuel
    obtain ⟨fuel, rfl⟩ := Nat.exists_eq_succ_of_ne_zero (by omega : fuel ≠ 0)
    rcases basicContent_quotes (c :: text) (List.replicate 3 '"' ++ rest) hquotes with
      ⟨n, htext, hn, hcontent⟩ | hfew
    · rw [hcontent, htext]
      exact readBasicLines_closing (closing?_replicate (by omega) hrest)
    · have hnone := closing?_eq_none (Nat.le_trans (Nat.le_add_left _ _) hfew)
      have hrec := ih (Nat.zero_le 2) (by omega : text.length < fuel)
      unfold basicContent at hnone ⊢
      split
      · next hc =>
        rw [if_pos hc] at hnone
        split
        · next hroom =>
          rw [if_pos hroom] at hnone
          rw [hc]
          exact readBasicLines_char hnone (by decide) (by decide) (Or.inr (by decide))
            (ih (by omega) (by omega))
        · rw [hc]
          have hread := readBasicLines_escape isEscapeOf_quote hrec
          exact hread
      · next hc =>
        rw [if_neg (by simp)]
        split
        · next escaped hescape =>
          obtain ⟨letter, tail, rfl, hreads⟩ := exists_isEscapeOf hescape
          rw [List.append_assoc]
          exact readBasicLines_escape hreads hrec
        · next hescape =>
          have hchar : c ≠ '\\' ∧ c ≠ '\r' ∧ (c = '\n' ∨ Text.isControl c = false) := by
            by_cases hfeed : c = '\n'
            · rw [hfeed]
              decide
            · obtain ⟨hslash, hreturn, hcontrol⟩ := of_escape?_eq_none hescape hfeed
              exact ⟨hslash, hreturn, Or.inr hcontrol⟩
          have hnone : closing? '"' (c :: (basicContent 2 0 text ++
              (List.replicate 3 '"' ++ rest))) = none := by
            apply closing?_eq_none
            rw [length_takeWhile_of_ne hc]
            omega
          exact readBasicLines_char hnone hchar.1 hchar.2.1 hchar.2.2 hrec

/-! ## Between single quotes -/

theorem readLiteral_content {text : List Char} (rest : List Char)
    (htext : ∀ c ∈ text, c ≠ '\'' ∧ Text.isControl c = false) :
    readLiteral (text ++ '\'' :: rest) = some (text, rest) := by
  induction text with
  | nil => rfl
  | cons c text ih =>
    obtain ⟨hquote, hcontrol⟩ := htext c List.mem_cons_self
    have hrec := ih fun d hd => htext d (List.mem_cons_of_mem c hd)
    rw [List.cons_append, readLiteral.eq_3 _ _ hquote, hrec,
      if_neg (by rw [hcontrol]; exact Bool.false_ne_true)]
    rfl

section LiteralLines

variable {c : Char} {text chars rest : List Char} {fuel : Nat}

theorem readLiteralLines_closing {closed : List Char × List Char}
    (h : closing? '\'' text = some closed) :
    readLiteralLines edition (fuel + 1) text = some closed := by
  rw [readLiteralLines.eq_def]
  dsimp only
  rw [h]

theorem readLiteralLines_char (hnone : closing? '\'' (c :: text) = none) (hreturn : c ≠ '\r')
    (hcontrol : c = '\n' ∨ Text.isControl c = false)
    (hrec : readLiteralLines edition fuel text = some (chars, rest)) :
    readLiteralLines edition (fuel + 1) (c :: text) = some (c :: chars, rest) := by
  rw [readLiteralLines.eq_def]
  dsimp only
  rw [hnone]
  dsimp only
  by_cases hfeed : c = '\n'
  · rw [hfeed]
    have hline : readNewline? edition ('\n' :: text) = some (['\n'], text) := rfl
    rw [hline]
    dsimp only
    rw [hrec]
    rfl
  · rw [readNewline?_eq_none hfeed hreturn]
    dsimp only
    rw [if_neg (by rw [hcontrol.resolve_left hfeed]; exact Bool.false_ne_true), hrec]
    rfl

end LiteralLines

theorem readLiteralLines_content {text rest : List Char}
    (hrest : Text.StopsAt (· == '\'') rest) (hruns : longestRun '\'' 0 text ≤ 2)
    (htext : ∀ c ∈ text, c ≠ '\r' ∧ (c = '\n' ∨ Text.isControl c = false)) {fuel : Nat}
    (hfuel : text.length < fuel) :
    readLiteralLines edition fuel (text ++ (List.replicate 3 '\'' ++ rest)) =
      some (text, rest) := by
  induction text generalizing fuel with
  | nil =>
    obtain ⟨fuel, rfl⟩ := Nat.exists_eq_succ_of_ne_zero (by omega : fuel ≠ 0)
    have hclosing := closing?_replicate (Nat.zero_le 2) hrest
    exact readLiteralLines_closing hclosing
  | cons c text ih =>
    rw [List.length_cons] at hfuel
    obtain ⟨fuel, rfl⟩ := Nat.exists_eq_succ_of_ne_zero (by omega : fuel ≠ 0)
    have hrun := le_longestRun '\'' 0 (c :: text)
    rcases takeWhile_eq_of_all (c :: text) (List.replicate 3 '\'' ++ rest) with ⟨n, hn⟩ | hsame
    · have hlength : ((c :: text).takeWhile (· == '\'')).length = n := by
        have h := takeWhile_replicate_append n (Text.stopsAt_nil (· == '\''))
        rw [List.append_nil] at h
        rw [hn, h, List.length_replicate]
      rw [hn]
      exact readLiteralLines_closing (closing?_replicate (by omega) hrest)
    · have hnone : closing? '\'' (c :: text ++ (List.replicate 3 '\'' ++ rest)) = none := by
        apply closing?_eq_none
        rw [hsame]
        omega
      obtain ⟨hreturn, hcontrol⟩ := htext c List.mem_cons_self
      have htail := longestRun_tail '\'' c text
      have hrec := ih (by omega) (fun d hd => htext d (List.mem_cons_of_mem c hd))
        (by omega : text.length < fuel)
      exact readLiteralLines_char hnone hreturn hcontrol hrec

/-! ## The form of a text -/

theorem of_formOf_literal {text : List Char} (h : formOf text = .literal) :
    ∀ c ∈ text, needsEscape c = false ∧ c ≠ '\'' ∧ c ≠ '\n' := by
  unfold formOf at h
  dsimp only at h
  split at h
  · cases h
  · split at h
    · cases h
    · split at h
      · next hform =>
        simp only [Bool.and_eq_true, Bool.not_eq_true', List.any_eq_false, Bool.not_eq_true,
          List.contains_eq_mem, decide_eq_false_iff_not] at hform
        obtain ⟨⟨hescape, hquote⟩, hfeed⟩ := hform
        exact fun c hc => ⟨hescape c hc, ne_of_mem_of_not_mem hc hquote,
          ne_of_mem_of_not_mem hc hfeed⟩
      · split at h
        · cases h
        · split at h
          · cases h
          · split at h <;> cases h

theorem of_formOf_literalLines {text : List Char} (h : formOf text = .literalLines) :
    longestRun '\'' 0 text ≤ 2 ∧ ∀ c ∈ text, needsEscape c = false := by
  unfold formOf at h
  dsimp only at h
  split at h
  · cases h
  · split at h
    · cases h
    · split at h
      · cases h
      · split at h
        · cases h
        · split at h
          · next hform =>
            simp only [Bool.and_eq_true, Bool.not_eq_true', List.any_eq_false, Bool.not_eq_true,
              decide_eq_true_eq] at hform
            exact ⟨hform.2, hform.1⟩
          · split at h <;> cases h

theorem not_return_of_needsEscape {c : Char} (h : needsEscape c = false) :
    c ≠ '\r' ∧ (c = '\n' ∨ Text.isControl c = false) := by
  refine ⟨?_, ?_⟩
  · rintro rfl
    exact absurd h (by decide)
  · by_cases hfeed : c = '\n'
    · exact Or.inl hfeed
    · exact Or.inr (not_isControl h hfeed)

/-! ## Reading a printed string -/

theorem readString_basic {body : List Char} (h : ∀ rest, body ≠ '"' :: '"' :: rest) :
    readString edition ('"' :: body) = readBasic edition (body.length + 1) body := by
  unfold readString
  split
  · next heq =>
    injection heq with _ hbody
    exact absurd hbody (h _)
  · next heq =>
    injection heq with hquote
    exact absurd hquote (by decide)
  · rfl

theorem readString_literal {body : List Char} (h : ∀ rest, body ≠ '\'' :: '\'' :: rest) :
    readString edition ('\'' :: body) = readLiteral body := by
  unfold readString
  split
  · next heq =>
    injection heq with hquote
    exact absurd hquote (by decide)
  · next heq =>
    injection heq with _ hbody
    exact absurd hbody (h _)
  · rfl

theorem readString_basicLines (body : List Char) :
    readString edition ("\"\"\"".toList ++ body) =
      readBasicLines edition (body.length + 1) (dropNewline body) :=
  rfl

theorem readString_literalLines (body : List Char) :
    readString edition ("'''".toList ++ body) =
      readLiteralLines edition (body.length + 1) (dropNewline body) :=
  rfl

theorem head?_basicContent_ne_quote (quotes : Nat) (text : List Char) :
    (basicContent 0 quotes text).head? ≠ some '"' := by
  cases text with
  | nil => exact fun h => by cases h
  | cons c text =>
    unfold basicContent
    split
    · exact fun h => by cases h
    · next hc =>
      split
      · exact fun h => by cases h
      · split
        · next escaped hescape =>
          obtain ⟨letter, tail, rfl⟩ := exists_cons_of_escape? hescape
          exact fun h => by cases h
        · intro h
          injection h with h
          exact hc h

theorem dropNewline_of_none {text : List Char} (h : afterNewline? text = none) :
    dropNewline text = text := by
  unfold dropNewline
  rw [h]
  rfl

/-- The line end that starts a string of several lines is there to be dropped. -/
theorem dropNewline_start {text content : List Char}
    (h : '\n' ∉ text → afterNewline? content = none) :
    dropNewline ((if text.contains '\n' then ['\n'] else []) ++ content) = content := by
  by_cases hfeed : '\n' ∈ text
  · rw [if_pos (List.contains_iff_mem.mpr hfeed)]
    rfl
  · rw [if_neg (by rwa [List.contains_iff_mem]), List.nil_append]
    exact dropNewline_of_none (h hfeed)

theorem afterNewline?_basicContent {text : List Char} (hfeed : '\n' ∉ text) (rest : List Char) :
    afterNewline? (basicContent 2 0 text ++ (List.replicate 3 '"' ++ rest)) = none := by
  cases text with
  | nil => rfl
  | cons c text =>
    have hc : c ≠ '\n' := fun h => hfeed (h ▸ List.mem_cons_self)
    unfold basicContent
    split
    · rfl
    · rw [if_neg (by simp)]
      split
      · next escaped hescape =>
        obtain ⟨letter, tail, rfl⟩ := exists_cons_of_escape? hescape
        rfl
      · next hescape => exact afterNewline?_eq_none hc (of_escape?_eq_none hescape hc).2.1

theorem readString_stringChars (text rest : List Char) :
    readString edition (stringChars text ++ '\n' :: rest) = some (text, '\n' :: rest) := by
  unfold stringChars
  cases hform : formOf text with
  | basic =>
    dsimp only
    rw [List.cons_append, List.append_assoc, readString_basic ?_]
    · refine readBasic_content text ('\n' :: rest) _ ?_
      have hlength := length_le_basicContent 0 0 text
      rw [List.length_append]
      omega
    · intro more hmore
      cases hcontent : basicContent 0 0 text with
      | nil =>
        rw [hcontent] at hmore
        cases hmore
      | cons c content =>
        have hhead := head?_basicContent_ne_quote 0 text
        rw [hcontent] at hmore hhead
        injection hmore with hc
        exact hhead (congrArg some hc)
  | literal =>
    dsimp only
    have hchars := of_formOf_literal hform
    rw [List.cons_append, List.append_assoc, readString_literal ?_]
    · exact readLiteral_content _ fun c hc =>
        ⟨(hchars c hc).2.1, not_isControl (hchars c hc).1 (hchars c hc).2.2⟩
    · intro more hmore
      cases text with
      | nil => cases hmore
      | cons c text =>
        injection hmore with hc
        exact (hchars c List.mem_cons_self).2.1 hc
  | basicLines =>
    dsimp only
    rw [List.append_assoc, List.append_assoc, List.append_assoc]
    have hquotes : "\"\"\"".toList = List.replicate 3 '"' := rfl
    rw [readString_basicLines, hquotes,
      dropNewline_start fun hfeed => afterNewline?_basicContent hfeed _]
    refine readBasicLines_content text (Text.stopsAt_cons (by decide) rest) (Nat.zero_le 2) ?_
    have hlength := length_le_basicContent 2 0 text
    rw [List.length_append, List.length_append]
    omega
  | literalLines =>
    dsimp only
    obtain ⟨hruns, hchars⟩ := of_formOf_literalLines hform
    rw [List.append_assoc, List.append_assoc, List.append_assoc]
    have hquotes : "'''".toList = List.replicate 3 '\'' := rfl
    rw [readString_literalLines, hquotes, dropNewline_start fun hfeed => ?_]
    · refine readLiteralLines_content (Text.stopsAt_cons (by decide) rest) hruns
        (fun c hc => not_return_of_needsEscape (hchars c hc)) ?_
      rw [List.length_append, List.length_append]
      omega
    · cases text with
      | nil => rfl
      | cons c text =>
        have hc : c ≠ '\n' := fun h => hfeed (h ▸ List.mem_cons_self)
        exact afterNewline?_eq_none hc (not_return_of_needsEscape (hchars c List.mem_cons_self)).1

end Toml
end PlaneReport
