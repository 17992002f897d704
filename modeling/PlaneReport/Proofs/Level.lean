import PlaneReport.Proofs.Decimal.Digits
import PlaneReport.Proofs.Result
import PlaneReport.Proofs.Text.Trim
import PlaneReport.Settings

/-!
# The texts that name a level

A text names a level if the word in it does: no word at all, a number from 0 to 5, or the name of
the level.  Every other text is refused, and the error quotes it as it stands.  Main statement:
`parse_language`.
-/

namespace PlaneReport
namespace Level

/-- The words for a level.  None stands for errors; a number may have a plus sign and any zeros in
front; a name may be in any case. -/
inductive IsNamedBy : Level → List Char → Prop
  | nothing : IsNamedBy .error []
  | number (level : Level) (sign : List Char) (hsign : sign = [] ∨ sign = ['+']) (zeros : Nat) :
    IsNamedBy level (sign ++ (List.replicate zeros '0' ++ Nat.toDigits 10 level.rank))
  | name (level : Level) (word : List Char) (h : word.map Char.toLower = level.name.toList) :
    IsNamedBy level word

variable {level : Level} {word digits : List Char}

theorem mem_all (level : Level) : level ∈ all := by
  cases level <;> decide

/-- Searching for the only level of a kind finds it. -/
theorem find?_all_eq_some_iff {p : Level → Bool}
    (honly : ∀ a b, p a = true → p b = true → a = b) :
    all.find? p = some level ↔ p level = true := by
  constructor
  · intro h
    exact List.find?_some h
  · intro h
    cases hfind : all.find? p with
    | none => exact absurd h (List.find?_eq_none.mp hfind level (mem_all level))
    | some other => rw [honly other level (List.find?_some hfind) h]

/-! ## Numbers -/

theorem numberOfText?_of_isDigit (hne : digits ≠ []) (hall : digits.all Decimal.isDigit = true) :
    numberOfText? digits = some (Decimal.digitsValue digits) := by
  cases digits with
  | nil => exact absurd rfl hne
  | cons c rest =>
    unfold numberOfText?
    split
    · next heq =>
      cases heq
      rw [List.all_cons] at hall
      exact absurd hall (by simp [Decimal.isDigit])
    · simp [hall]

theorem numberOfText?_plus (hne : digits ≠ []) (hall : digits.all Decimal.isDigit = true) :
    numberOfText? ('+' :: digits) = some (Decimal.digitsValue digits) := by
  simp [numberOfText?, hne, hall]

theorem numberOfText?_of_sign {sign : List Char} (hsign : sign = [] ∨ sign = ['+'])
    (hne : digits ≠ []) (hall : digits.all Decimal.isDigit = true) :
    numberOfText? (sign ++ digits) = some (Decimal.digitsValue digits) := by
  rcases hsign with rfl | rfl
  · exact numberOfText?_of_isDigit hne hall
  · exact numberOfText?_plus hne hall

theorem of_numberOfText? {n : Nat} (h : numberOfText? word = some n) :
    ∃ sign digits, word = sign ++ digits ∧ (sign = [] ∨ sign = ['+']) ∧ digits ≠ [] ∧
      digits.all Decimal.isDigit = true ∧ Decimal.digitsValue digits = n := by
  have hdigits : ∀ digits : List Char,
      (if digits.isEmpty || !digits.all Decimal.isDigit then none
        else some (Decimal.digitsValue digits)) = some n →
      digits ≠ [] ∧ digits.all Decimal.isDigit = true ∧ Decimal.digitsValue digits = n := by
    intro digits hread
    split at hread
    · cases hread
    · next hcheck => simp_all
  unfold numberOfText? at h
  split at h
  · next rest => exact ⟨['+'], rest, rfl, Or.inr rfl, hdigits rest h⟩
  · exact ⟨[], word, rfl, Or.inl rfl, hdigits word h⟩

/-- Digits after an optional plus sign. -/
def IsNumeral (word : List Char) : Prop :=
  ∃ sign digits, word = sign ++ digits ∧ (sign = [] ∨ sign = ['+']) ∧ digits ≠ [] ∧
    digits.all Decimal.isDigit = true

theorem isNumeral_iff : IsNumeral word ↔ (numberOfText? word).isSome = true := by
  rw [Option.isSome_iff_exists]
  constructor
  · rintro ⟨sign, digits, rfl, hsign, hne, hall⟩
    exact ⟨_, numberOfText?_of_sign hsign hne hall⟩
  · rintro ⟨n, hn⟩
    obtain ⟨sign, digits, hword, hsign, hne, hall, -⟩ := of_numberOfText? hn
    exact ⟨sign, digits, hword, hsign, hne, hall⟩

instance (word : List Char) : Decidable (IsNumeral word) :=
  decidable_of_iff _ isNumeral_iff.symm

/-- Numbers up to nine are zeros and one digit. -/
theorem eq_zeros_append {n : Nat} (hn : n < 10) (hne : digits ≠ [])
    (hall : digits.all Decimal.isDigit = true) (hvalue : Decimal.digitsValue digits = n) :
    ∃ zeros, digits = List.replicate zeros '0' ++ Nat.toDigits 10 n := by
  have hlength : 1 ≤ digits.length := List.length_pos_iff.mpr hne
  have hone : (Nat.toDigits 10 n).length = 1 := by
    rw [Nat.toDigits_of_lt_base hn]
    rfl
  refine ⟨digits.length - 1, Decimal.eq_of_digitsValue_eq hall ?_ ?_ ?_⟩
  · simp
  · rw [List.length_append, List.length_replicate, hone]
    omega
  · simp [hvalue]

theorem rank_lt (level : Level) : level.rank < 10 := by
  cases level <;> decide

/-! ## Names -/

theorem lowerAscii_eq_toLower (c : Char) : Text.lowerAscii c = c.toLower := by
  unfold Text.lowerAscii Char.toLower
  have hbounds : ('A' ≤ c ∧ c ≤ 'Z') ↔ (c.val ≥ 'A'.val ∧ c.val ≤ 'Z'.val) := Iff.rfl
  by_cases h : 'A' ≤ c ∧ c ≤ 'Z'
  · rw [if_pos h, dif_pos (hbounds.mp h)]
    apply Char.ext
    have hlow : 65 ≤ c.val.toNat := UInt32.le_iff_toNat_le.mp h.1
    have hhigh : c.val.toNat ≤ 90 := UInt32.le_iff_toNat_le.mp h.2
    apply UInt32.toNat_inj.mp
    have hvalid : (c.toNat + 32).isValidChar := Or.inl (by show c.val.toNat + 32 < _; omega)
    have hcode : (Char.ofNat (c.toNat + 32)).toNat = c.toNat + 32 := by
      unfold Char.ofNat
      rw [dif_pos hvalid]
      rfl
    calc (Char.ofNat (c.toNat + 32)).val.toNat = c.val.toNat + 32 := hcode
      _ = (c.val.toNat + 32) % 2 ^ 32 := by omega
      _ = (c.val + ('a'.val - 'A'.val)).toNat := (UInt32.toNat_add c.val 32).symm
  · rw [if_neg h, dif_neg (fun hc => h (hbounds.mpr hc))]

theorem map_toLower_name (level : Level) :
    level.name.toList.map Char.toLower = level.name.toList := by
  cases level <;> decide

/-- Digits have no case, and no name has one. -/
theorem toLower_not_mem_name {c : Char} (hc : Decimal.isDigit c = true) :
    c.toLower ∉ level.name.toList := by
  have hlow : c.toLower = c := by
    rw [← lowerAscii_eq_toLower]
    refine if_neg fun hupper => ?_
    rw [Decimal.isDigit, Bool.and_eq_true, decide_eq_true_eq, decide_eq_true_eq] at hc
    have hdigit : c.val.toNat ≤ 57 := UInt32.le_iff_toNat_le.mp hc.2
    have hletter : 65 ≤ c.val.toNat := UInt32.le_iff_toNat_le.mp hupper.1
    omega
  have hname : level.name.toList.any Decimal.isDigit = false := by
    cases level <;> decide
  rw [hlow]
  exact fun hmem => List.any_eq_false.mp hname c hmem hc

theorem eq_of_name_eq {a b : Level} (h : a.name.toList = b.name.toList) : a = b := by
  revert h
  cases a <;> cases b <;> decide

theorem sameWord_name_iff :
    Text.sameWord word level.name.toList = true ↔
      word.map Char.toLower = level.name.toList := by
  have hlower : Text.lowerAscii = Char.toLower := funext lowerAscii_eq_toLower
  rw [Text.sameWord, beq_iff_eq, hlower, map_toLower_name]

theorem ofName?_eq_some_iff :
    ofName? word = some level ↔ word.map Char.toLower = level.name.toList := by
  unfold ofName?
  rw [find?_all_eq_some_iff, sameWord_name_iff]
  intro a b ha hb
  exact eq_of_name_eq ((sameWord_name_iff.mp ha).symm.trans (sameWord_name_iff.mp hb))

/-- A name has no digits in it. -/
theorem ofName?_eq_none_of_digit {sign : List Char} (hne : digits ≠ [])
    (hall : digits.all Decimal.isDigit = true) : ofName? (sign ++ digits) = none := by
  obtain ⟨c, rest, rfl⟩ := List.exists_cons_of_ne_nil hne
  rw [List.all_cons, Bool.and_eq_true] at hall
  cases hname : ofName? (sign ++ c :: rest) with
  | none => rfl
  | some level =>
    rw [ofName?_eq_some_iff] at hname
    have hmem : c.toLower ∈ level.name.toList := by
      rw [← hname]
      exact List.mem_map_of_mem (by simp)
    exact absurd hmem (toLower_not_mem_name hall.1)

/-! ## Words -/

theorem eq_of_rank_eq {a b : Level} (h : a.rank = b.rank) : a = b := by
  revert h
  cases a <;> cases b <;> decide

theorem find?_rank_eq_some_iff {n : Nat} :
    (all.find? fun level => level.rank == n) = some level ↔ level.rank = n := by
  rw [find?_all_eq_some_iff, beq_iff_eq]
  intro a b ha hb
  exact eq_of_rank_eq ((beq_iff_eq.mp ha).trans (beq_iff_eq.mp hb).symm)

/-- Whatever word is read as a level names it. -/
theorem isNamedBy_of_ofWord? (h : ofWord? word = some level) : level.IsNamedBy word := by
  unfold ofWord? at h
  split at h
  · next n hnumber =>
    obtain ⟨sign, digits, rfl, hsign, hne, hall, hvalue⟩ := of_numberOfText? hnumber
    split at h
    · next found hfound =>
      cases h
      rw [find?_rank_eq_some_iff] at hfound
      rw [← hfound] at hvalue
      obtain ⟨zeros, rfl⟩ := eq_zeros_append (rank_lt level) hne hall hvalue
      exact .number level sign hsign zeros
    · exact .name level _ (ofName?_eq_some_iff.mp h)
  · split at h
    · next hempty =>
      cases h
      rw [List.isEmpty_iff.mp hempty]
      exact .nothing
    · exact .name level word (ofName?_eq_some_iff.mp h)

theorem numberOfText?_rank {sign : List Char} (hsign : sign = [] ∨ sign = ['+']) (zeros : Nat)
    (level : Level) :
    numberOfText? (sign ++ (List.replicate zeros '0' ++ Nat.toDigits 10 level.rank)) =
      some level.rank := by
  have hdigits : (List.replicate zeros '0' ++ Nat.toDigits 10 level.rank) ≠ [] := by
    simp [Nat.toDigits_ne_nil]
  simpa using numberOfText?_of_sign hsign hdigits (by simp)

/-- The name of a level is no number. -/
theorem numberOfText?_of_ofName? (h : ofName? word = some level) : numberOfText? word = none := by
  rw [Option.eq_none_iff_forall_ne_some]
  intro n hn
  obtain ⟨sign, digits, rfl, -, hne, hall, -⟩ := of_numberOfText? hn
  rw [ofName?_eq_none_of_digit hne hall] at h
  cases h

theorem ofWord?_eq_some_iff : ofWord? word = some level ↔ level.IsNamedBy word := by
  constructor
  · exact isNamedBy_of_ofWord?
  · intro h
    cases h with
    | nothing => rfl
    | number _ sign hsign zeros =>
      unfold ofWord?
      rw [numberOfText?_rank hsign]
      dsimp only
      rw [find?_rank_eq_some_iff.mpr rfl]
    | name _ _ hname =>
      have hfound := ofName?_eq_some_iff.mpr hname
      have hword : word.isEmpty = false := by
        cases word with
        | nil => exact absurd hname (by cases level <;> decide)
        | cons c rest => rfl
      unfold ofWord?
      rw [numberOfText?_of_ofName? hfound, hword]
      exact hfound

/-- A number that names a level is the rank of the level. -/
theorem IsNamedBy.numberOfText? (h : level.IsNamedBy word) (hnumeral : IsNumeral word) :
    numberOfText? word = some level.rank := by
  obtain ⟨sign, digits, rfl, hsign, hne, hall⟩ := hnumeral
  have hnumber := numberOfText?_of_sign hsign hne hall
  rw [← ofWord?_eq_some_iff] at h
  unfold ofWord? at h
  rw [hnumber] at h ⊢
  dsimp only at h
  split at h
  · next found hfound =>
    cases h
    rw [find?_rank_eq_some_iff] at hfound
    rw [hfound]
  · rw [ofName?_eq_none_of_digit hne hall] at h
    cases h

/-- A text is accepted if the word in it names a level, and its level is that one. -/
theorem parse_eq_ok_iff {text : String} :
    parse text = .ok level ↔ level.IsNamedBy (Text.trim text.toList) := by
  rw [← ofWord?_eq_some_iff]
  show parse text = .ok level ↔ ofText? text = some level
  unfold parse
  cases ofText? text <;> simp

/-- What is refused is refused with an error that quotes the whole text. -/
theorem parse_eq_error_iff {text : String} {e : Error} :
    parse text = .error e ↔
      e = .config ("invalid log level '" ++ text ++ "': " ++ expectation) ∧
        ∀ level, parse text ≠ .ok level := by
  unfold parse
  cases ofText? text with
  | none => simp [eq_comm]
  | some level => simp

/-- A text is accepted exactly if the word in it names a level, and then that is its level.  Every
other text is refused with an error that quotes it, untrimmed.  Settings are valid exactly if the
text of their level is accepted, and else have the same error. -/
theorem parse_language (text : String) :
    ∃ word, Text.IsTrimmed text.toList word ∧
      (∀ level, parse text = .ok level ↔ level.IsNamedBy word) ∧
      ((∀ level : Level, ¬ level.IsNamedBy word) ↔
        parse text = .error (.config ("invalid log level '" ++ text ++ "': " ++ expectation))) ∧
      ∀ s : Settings,
        (({ s with level := text }).validate = .ok () ↔ ∃ level, parse text = .ok level) ∧
          ∀ e, ({ s with level := text }).validate = .error e ↔ parse text = .error e := by
  refine ⟨Text.trim text.toList, Text.isTrimmed_trim _, fun level => parse_eq_ok_iff, ?_, ?_⟩
  · rw [parse_eq_error_iff]
    constructor
    · intro h
      exact ⟨rfl, fun level hok => h level (parse_eq_ok_iff.mp hok)⟩
    · rintro ⟨-, h⟩ level hnamed
      exact h level (parse_eq_ok_iff.mpr hnamed)
  · intro s
    show ((parse text).map (fun _ => ()) = .ok () ↔ _) ∧
      ∀ e, (parse text).map (fun _ => ()) = .error e ↔ _
    cases parse text <;> simp

/-- A sign that is no plus, and a digit that is none of ASCII, name no level. -/
example : parse "-0" = .error (.config ("invalid log level '-0': " ++ expectation)) ∧
    parse "٣" = .error (.config ("invalid log level '٣': " ++ expectation)) ∧
    parse " +0003	" = .ok .info := by
  decide

end Level
end PlaneReport
