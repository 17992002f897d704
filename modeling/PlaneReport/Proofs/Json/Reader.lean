import Mathlib.Algebra.Group.Int.Defs
import Mathlib.Algebra.Group.Nat.Defs
import PlaneReport.Json.Reader

/-!
# Integers of JSON texts

A numeral is read as an integer only if it fits 64 bits.  Hence the values at the top of an outline
of a JSON text, and those in its lists and tables, are within the range in which an integer can be
decoded as a number.
-/

namespace PlaneReport

/-- A value that is an integer only if 64 bits hold it, with or without a sign. -/
def Outline.IsNarrow (outline : Outline) : Prop :=
  ∀ n, outline = .integer n → -(2 ^ 63 : Int) ≤ n ∧ n < 2 ^ 64

namespace Json

/-! ## Numerals -/

namespace Numeral

/-- A numeral that is an integer only if 64 bits hold it. -/
def IsNarrow (numeral : Numeral) : Prop :=
  ∀ n, numeral = .integer n → -(2 ^ 63 : Int) ≤ n ∧ n < 2 ^ 64

variable {negative : Bool} {significand : Nat} {shift : Int} {text rest : List Char}
  {numeral : Numeral}

theorem isNarrow_number (x : Binary.Double) : (Numeral.number x).IsNarrow :=
  fun _ h => nomatch h

theorem isNarrow_tooLarge : Numeral.tooLarge.IsNarrow :=
  fun _ h => nomatch h

theorem takeDigits_lt (h : significand < significandBound) (text : List Char) :
    (takeDigits significand text).1 < significandBound := by
  induction text generalizing significand with
  | nil => exact h
  | cons c rest ih =>
    unfold takeDigits
    split
    · next hdigit =>
      rw [Bool.and_eq_true, decide_eq_true_eq] at hdigit
      exact ih hdigit.2
    · exact h

theorem ofParts_isNarrow (exponent : Int) : (ofParts negative significand exponent).IsNarrow := by
  unfold ofParts
  dsimp only
  split
  · split
    · split
      · exact isNarrow_number _
      · exact isNarrow_tooLarge
    · split
      · exact isNarrow_number _
      · exact isNarrow_tooLarge
  · exact isNarrow_number _

theorem ofSignificand_isNarrow (h : significand < significandBound) :
    (ofSignificand negative significand).IsNarrow := by
  have hbound : significand < 2 ^ 64 := h
  intro n hn
  unfold ofSignificand at hn
  split at hn
  · cases hn
    omega
  · split at hn
    · cases hn
    · next hsmall =>
      rw [Bool.or_eq_true, decide_eq_true_eq, decide_eq_true_eq] at hsmall
      cases hn
      omega

theorem readExponent_isNarrow
    (h : readExponent negative significand shift text = some (numeral, rest)) :
    numeral.IsNarrow := by
  unfold readExponent at h
  dsimp only at h
  -- The sign leaves three cases, in which the rest is the same.
  split at h
  all_goals
    split at h
    · cases h
    · split at h
      · cases h
        exact ofParts_isNarrow _
      · split at h
        · cases h
          exact isNarrow_tooLarge
        · cases h
          exact isNarrow_number _

theorem readScale_isNarrow
    (h : readScale negative significand shift text = some (numeral, rest)) :
    numeral.IsNarrow := by
  unfold readScale at h
  split at h
  · exact readExponent_isNarrow h
  · exact readExponent_isNarrow h
  · cases h
    exact ofParts_isNarrow _

theorem readUnsigned_isNarrow (h : readUnsigned negative text = some (numeral, rest)) :
    numeral.IsNarrow := by
  unfold readUnsigned at h
  split at h
  · cases h
  · split at h
    · cases h
    · dsimp only at h
      split at h
      · cases h
      · split at h
        · unfold readFraction at h
          dsimp only at h
          split at h
          · cases h
          · exact readScale_isNarrow h
        · split at h
          · exact readScale_isNarrow h
          · cases h
            exact ofSignificand_isNarrow (takeDigits_lt (by decide) _)

theorem read_isNarrow (h : read text = some (numeral, rest)) : numeral.IsNarrow := by
  unfold read at h
  split at h <;> exact readUnsigned_isNarrow h

end Numeral

/-! ## Values -/

theorem isNarrow_of_ne {outline : Outline} (h : ∀ n, outline ≠ .integer n) : outline.IsNarrow :=
  fun n hn => absurd hn (h n)

theorem readLeaf_isNarrow (text : List Char) : (readLeaf text).1.IsNarrow := by
  unfold readLeaf
  split
  · split <;> exact isNarrow_of_ne nofun
  · split <;> exact isNarrow_of_ne nofun
  · split <;> exact isNarrow_of_ne nofun
  · split <;> exact isNarrow_of_ne nofun
  · split
    · next value rest hread =>
      intro n hn
      injection hn with hn
      exact Numeral.read_isNarrow hread n (congrArg Numeral.integer hn)
    · exact isNarrow_of_ne nofun
    · exact isNarrow_of_ne nofun
    · exact isNarrow_of_ne nofun

theorem readLeaf_hasNoParts (text : List Char) :
    (∀ items closed, (readLeaf text).1 ≠ .list items closed) ∧
      ∀ members closed, (readLeaf text).1 ≠ .table members closed := by
  unfold readLeaf
  split
  · split <;> exact ⟨nofun, nofun⟩
  · split <;> exact ⟨nofun, nofun⟩
  · split <;> exact ⟨nofun, nofun⟩
  · split <;> exact ⟨nofun, nofun⟩
  · split <;> exact ⟨nofun, nofun⟩

theorem readValue_isNarrow (fuel : Nat) (text : List Char) : (readValue fuel text).1.IsNarrow := by
  cases fuel with
  | zero =>
    rw [readValue]
    exact isNarrow_of_ne nofun
  | succ fuel =>
    rw [readValue]
    split
    · exact isNarrow_of_ne nofun
    · exact isNarrow_of_ne nofun
    · exact readLeaf_isNarrow _

/-- What a list goes on with where an item must stand. -/
def itemsFrom (fuel : Nat) (text : List Char) : List Outline × Option (List Char) :=
  match readValue fuel text with
  | (value, some rest) =>
    let (items, rest) := readItems fuel false rest
    (value :: items, rest)
  | (value, none) => ([value], none)

theorem itemsFrom_isNarrow {fuel : Nat}
    (ih : ∀ text, ∀ item ∈ (readItems fuel false text).1, item.IsNarrow) (text : List Char) :
    ∀ item ∈ (itemsFrom fuel text).1, item.IsNarrow := by
  have hvalue := readValue_isNarrow fuel text
  intro item hitem
  unfold itemsFrom at hitem
  split at hitem
  · next value rest hread =>
    rw [hread] at hvalue
    rcases List.mem_cons.mp hitem with hitem | hitem
    · rw [hitem]
      exact hvalue
    · exact ih rest item hitem
  · next value hread =>
    rw [hread] at hvalue
    rw [List.mem_singleton] at hitem
    rw [hitem]
    exact hvalue

theorem readItems_isNarrow (fuel : Nat) (first : Bool) (text : List Char) :
    ∀ item ∈ (readItems fuel first text).1, item.IsNarrow := by
  induction fuel generalizing first text with
  | zero =>
    rw [readItems]
    exact List.forall_mem_nil _
  | succ fuel ih =>
    rw [readItems.eq_def]
    dsimp only
    split
    · exact List.forall_mem_nil _
    · exact List.forall_mem_nil _
    · split
      · exact itemsFrom_isNarrow (ih false) _
      · split
        · split
          · exact List.forall_mem_nil _
          · exact List.forall_mem_nil _
          · exact itemsFrom_isNarrow (ih false) _
        · exact List.forall_mem_nil _

/-- What a table goes on with where a member must stand. -/
def membersFrom (fuel : Nat) (text : List Char) :
    List (Option String × Outline) × Option (List Char) :=
  match text with
  | '"' :: rest =>
    match readString rest with
    | none => ([], none)
    | some (key, rest) =>
      match skipBlanks rest with
      | ':' :: rest =>
        match readValue fuel rest with
        | (value, some rest) =>
          let (members, rest) := readMembers fuel false rest
          ((key, value) :: members, rest)
        | (value, none) => ([(key, value)], none)
      | _ => ([(key, .broken)], none)
  | _ => ([], none)

theorem membersFrom_isNarrow {fuel : Nat}
    (ih : ∀ text, ∀ member ∈ (readMembers fuel false text).1, member.2.IsNarrow)
    (text : List Char) : ∀ member ∈ (membersFrom fuel text).1, member.2.IsNarrow := by
  unfold membersFrom
  split
  · split
    · exact List.forall_mem_nil _
    · split
      · next rest hcolon =>
        have hvalue := readValue_isNarrow fuel rest
        intro member hmember
        split at hmember
        · next value afterValue hread =>
          rw [hread] at hvalue
          rcases List.mem_cons.mp hmember with hmember | hmember
          · rw [hmember]
            exact hvalue
          · exact ih afterValue member hmember
        · next value hread =>
          rw [hread] at hvalue
          rw [List.mem_singleton] at hmember
          rw [hmember]
          exact hvalue
      · intro member hmember
        rw [List.mem_singleton] at hmember
        rw [hmember]
        exact isNarrow_of_ne nofun
  · exact List.forall_mem_nil _

theorem readMembers_isNarrow (fuel : Nat) (first : Bool) (text : List Char) :
    ∀ member ∈ (readMembers fuel first text).1, member.2.IsNarrow := by
  induction fuel generalizing first text with
  | zero =>
    rw [readMembers]
    exact List.forall_mem_nil _
  | succ fuel ih =>
    rw [readMembers.eq_def]
    dsimp only
    split
    · exact List.forall_mem_nil _
    · exact List.forall_mem_nil _
    · split
      · exact membersFrom_isNarrow (ih false) _
      · split
        · exact membersFrom_isNarrow (ih false) _
        · exact List.forall_mem_nil _

/-- The values right below the top of an outline. -/
theorem outline_parts_areNarrow {text : List Char} {top : Outline} {clean : Bool}
    (h : outline text = (top, clean)) :
    (∀ items closed, top = .list items closed → ∀ item ∈ items, item.IsNarrow) ∧
      ∀ members closed, top = .table members closed → ∀ member ∈ members, member.2.IsNarrow := by
  have htop : top = (readValue (2 * text.length + 1 + 1) text).1 := by
    have hfirst : (outline text).1 = top := congrArg Prod.fst h
    rw [← hfirst]
    unfold outline
    split
    · next heq => rw [heq]
    · next heq => rw [heq]
  rw [readValue.eq_def] at htop
  dsimp only at htop
  split at htop
  · refine ⟨fun items closed heq => ?_, fun members closed heq => ?_⟩
    · rw [heq] at htop
      cases htop
      exact readItems_isNarrow _ _ _
    · rw [heq] at htop
      cases htop
  · refine ⟨fun items closed heq => ?_, fun members closed heq => ?_⟩
    · rw [heq] at htop
      cases htop
    · rw [heq] at htop
      cases htop
      exact readMembers_isNarrow _ _ _
  · obtain ⟨hlist, htable⟩ := readLeaf_hasNoParts (skipBlanks text)
    exact ⟨fun items closed heq => absurd (htop.symm.trans heq) (hlist items closed),
      fun members closed heq => absurd (htop.symm.trans heq) (htable members closed)⟩

/-! ## What is read to its end -/

theorem readLeaf_canSkip {text rest : List Char} {value : Outline}
    (h : readLeaf text = (value, some rest)) : value.canSkip dialect = true := by
  unfold readLeaf at h
  split at h
  · split at h <;> cases h
    rfl
  · split at h <;> cases h
    rfl
  · split at h <;> cases h
    rfl
  · split at h <;> cases h <;> rfl
  · split at h <;> cases h <;> rfl

/-- With some fuel, what is followed by a rest of the text can be passed over. -/
structure ReadsWhole (fuel : Nat) : Prop where
  value : ∀ {text rest : List Char} {value : Outline},
    readValue fuel text = (value, some rest) → value.canSkip dialect = true
  items : ∀ {first : Bool} {text rest : List Char} {items : List Outline},
    readItems fuel first text = (items, some rest) → Outline.canSkipItems dialect items = true
  members : ∀ {first : Bool} {text rest : List Char} {members : List (Option String × Outline)},
    readMembers fuel first text = (members, some rest) →
      Outline.canSkipMembers dialect members = true

theorem ReadsWhole.itemsFrom {fuel : Nat} {text rest : List Char} {items : List Outline}
    (ih : ReadsWhole fuel) (h : itemsFrom fuel text = (items, some rest)) :
    Outline.canSkipItems dialect items = true := by
  unfold Json.itemsFrom at h
  split at h
  · next value afterValue hvalue =>
    rcases hitems : readItems fuel false afterValue with ⟨more, afterItems⟩
    rw [hitems] at h
    cases h
    rw [Outline.canSkipItems, ih.value hvalue, ih.items hitems]
    rfl
  · cases h

theorem ReadsWhole.membersFrom {fuel : Nat} {text rest : List Char}
    {members : List (Option String × Outline)} (ih : ReadsWhole fuel)
    (h : membersFrom fuel text = (members, some rest)) :
    Outline.canSkipMembers dialect members = true := by
  unfold Json.membersFrom at h
  split at h
  · split at h
    · cases h
    · split at h
      · split at h
        · next value afterValue hvalue =>
          rcases hmembers : readMembers fuel false afterValue with ⟨more, afterMembers⟩
          rw [hmembers] at h
          cases h
          rw [Outline.canSkipMembers, ih.value hvalue, ih.members hmembers]
          rfl
        · cases h
      · cases h
  · cases h

theorem readsWhole (fuel : Nat) : ReadsWhole fuel := by
  induction fuel with
  | zero =>
    constructor
    · intro text rest value h
      rw [readValue] at h
      cases h
    · intro first text rest items h
      rw [readItems] at h
      cases h
    · intro first text rest members h
      rw [readMembers] at h
      cases h
  | succ fuel ih =>
    constructor
    · intro text rest value h
      rw [readValue] at h
      split at h
      · next rest' _ =>
        rcases hitems : readItems fuel true rest' with ⟨items, after⟩
        rw [hitems] at h
        cases h
        rw [Outline.canSkip, ih.items hitems]
        rfl
      · next rest' _ =>
        rcases hmembers : readMembers fuel true rest' with ⟨members, after⟩
        rw [hmembers] at h
        cases h
        rw [Outline.canSkip, ih.members hmembers]
        rfl
      · exact readLeaf_canSkip h
    · intro first text rest items h
      rw [readItems.eq_def] at h
      dsimp only at h
      split at h
      · cases h
      · cases h
        rfl
      · split at h
        · exact ih.itemsFrom h
        · split at h
          · split at h
            · cases h
            · cases h
            · exact ih.itemsFrom h
          · cases h
    · intro first text rest members h
      rw [readMembers.eq_def] at h
      dsimp only at h
      split at h
      · cases h
      · cases h
        rfl
      · split at h
        · exact ih.membersFrom h
        · split at h
          · exact ih.membersFrom h
          · cases h

/-- What a clean text holds can be passed over. -/
theorem canSkip_of_clean {text : List Char} {value : Outline} (h : outline text = (value, true)) :
    value.canSkip dialect = true := by
  unfold outline at h
  split at h
  · next read rest hread =>
    obtain ⟨rfl, -⟩ := Prod.mk.inj h
    exact (readsWhole _).value hread
  · cases h

end Json
end PlaneReport
