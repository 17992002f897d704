import Mathlib.Algebra.Group.Nat.Defs
import PlaneReport.Decimal.Basic

/-!
# Digits and what they denote

The numeral of a natural number consists of digits, denotes that number, and starts with a zero only
if it is the numeral of zero.  No other digits do all of that, which is `toDigits_digitsValue`.
-/

namespace PlaneReport
namespace Decimal

theorem isDigit_eq (c : Char) : isDigit c = c.isDigit := rfl

@[simp]
theorem isDigit_zero : isDigit '0' = true := rfl

theorem digitsValue_eq (digits : List Char) :
    digitsValue digits = Nat.ofDigitChars 10 digits 0 := rfl

@[simp]
theorem digitsValue_toDigits (n : Nat) : digitsValue (Nat.toDigits 10 n) = n := by
  rw [digitsValue_eq, Nat.ofDigitChars_ten_toDigits]

@[simp]
theorem digitsValue_append (a b : List Char) :
    digitsValue (a ++ b) = digitsValue a * 10 ^ b.length + digitsValue b := by
  simp only [digitsValue_eq]
  rw [Nat.ofDigitChars_append, Nat.ofDigitChars_eq_ofDigitChars_zero, Nat.mul_comm]

@[simp]
theorem digitsValue_zeros (n : Nat) : digitsValue (List.replicate n '0') = 0 := by
  rw [digitsValue_eq, Nat.ofDigitChars_replicate_zero, Nat.mul_zero]

@[simp]
theorem digitsValue_zero_cons (rest : List Char) :
    digitsValue ('0' :: rest) = digitsValue rest :=
  rfl

@[simp]
theorem digitsValue_zero : digitsValue ['0'] = 0 := rfl

@[simp]
theorem all_isDigit_toDigits (n : Nat) : (Nat.toDigits 10 n).all isDigit = true := by
  rw [List.all_eq_true]
  intro c hc
  rw [isDigit_eq]
  exact Nat.isDigit_of_mem_toDigits (by decide) (by decide) hc

theorem exists_cons_toDigits (n : Nat) :
    ∃ c rest, Nat.toDigits 10 n = c :: rest ∧ isDigit c = true ∧ rest.all isDigit = true := by
  have hall := all_isDigit_toDigits n
  cases h : Nat.toDigits 10 n with
  | nil => exact absurd h Nat.toDigits_ne_nil
  | cons c rest =>
    rw [h, List.all_cons, Bool.and_eq_true] at hall
    exact ⟨c, rest, rfl, hall⟩

theorem all_isDigit_zeros (n : Nat) : (List.replicate n '0').all isDigit = true := by simp

theorem head?_toDigits_ne_zero {n : Nat} (hn : n ≠ 0) :
    (Nat.toDigits 10 n).head? ≠ some '0' := by
  induction n using Nat.strongRecOn with
  | ind n ih =>
    rw [Nat.toDigits_eq_if (by decide)]
    split
    · simpa using hn
    · next hge =>
      have hrec := ih (n / 10) (by omega) (by omega)
      rw [List.head?_append]
      cases hhead : (Nat.toDigits 10 (n / 10)).head? with
      | none => exact absurd (List.head?_eq_none_iff.mp hhead) Nat.toDigits_ne_nil
      | some c =>
        rw [hhead] at hrec
        exact hrec

/-- The numeral of zero is the only one with a leading zero. -/
theorem length_le_of_head?_toDigits {n : Nat} (h : (Nat.toDigits 10 n).head? = some '0') :
    (Nat.toDigits 10 n).length ≤ 1 := by
  by_cases hn : n = 0
  · subst hn
    decide
  · exact absurd h (head?_toDigits_ne_zero hn)

theorem lt_pow_digitCount (n : Nat) : n < 10 ^ digitCount n := by
  have hpos : 0 < digitCount n := Nat.length_toDigits_pos
  exact (Nat.length_toDigits_le_iff (by decide) hpos).mp (Nat.le_refl _)

theorem pow_digitCount_le {n : Nat} (hn : n ≠ 0) : 10 ^ (digitCount n - 1) ≤ n := by
  refine Nat.not_lt.mp fun hlt => ?_
  have hpos : 0 < digitCount n := Nat.length_toDigits_pos
  rcases Nat.eq_zero_or_pos (digitCount n - 1) with hz | hz
  · rw [hz, Nat.pow_zero] at hlt
    omega
  · have hle : digitCount n ≤ digitCount n - 1 :=
      (Nat.length_toDigits_le_iff (by decide) hz).mpr hlt
    omega

theorem digitCount_eq {n k : Nat} (hlow : 10 ^ k ≤ n) (hhigh : n < 10 ^ (k + 1)) :
    digitCount n = k + 1 := by
  have hn : n ≠ 0 := by
    rintro rfl
    exact absurd hlow (Nat.not_le_of_lt (Nat.pow_pos (by decide)))
  have hmore : k < digitCount n :=
    (Nat.pow_lt_pow_iff_right (by decide)).mp (Nat.lt_of_le_of_lt hlow (lt_pow_digitCount n))
  have hless : digitCount n - 1 < k + 1 :=
    (Nat.pow_lt_pow_iff_right (by decide)).mp (Nat.lt_of_le_of_lt (pow_digitCount_le hn) hhigh)
  omega

/-! ## Digits from what they denote -/

theorem digitValue_lt {c : Char} (h : isDigit c = true) : digitValue c < 10 := by
  rw [isDigit_eq, Char.isDigit_iff_toNat] at h
  have hzero : '0'.toNat = 48 := rfl
  have hnine : '9'.toNat = 57 := rfl
  unfold digitValue
  omega

theorem eq_of_digitValue_eq {c d : Char} (hc : isDigit c = true) (hd : isDigit d = true)
    (h : digitValue c = digitValue d) : c = d := by
  rw [isDigit_eq, Char.isDigit_iff_toNat] at hc hd
  unfold digitValue at h
  apply Char.toNat_inj.mp
  omega

@[simp]
theorem digitsValue_singleton (c : Char) : digitsValue [c] = digitValue c := by
  show 10 * 0 + digitValue c = digitValue c
  omega

theorem digitsValue_cons (c : Char) (rest : List Char) :
    digitsValue (c :: rest) = digitValue c * 10 ^ rest.length + digitsValue rest := by
  rw [← List.singleton_append, digitsValue_append, digitsValue_singleton]

theorem digitsValue_lt {digits : List Char} (hall : digits.all isDigit = true) :
    digitsValue digits < 10 ^ digits.length := by
  induction digits with
  | nil => decide
  | cons c rest ih =>
    rw [List.all_cons, Bool.and_eq_true] at hall
    have hrest := ih hall.2
    have hfirst : (digitValue c + 1) * 10 ^ rest.length ≤ 10 * 10 ^ rest.length :=
      Nat.mul_le_mul_right _ (digitValue_lt hall.1)
    rw [Nat.add_mul, Nat.one_mul] at hfirst
    rw [digitsValue_cons, List.length_cons, Nat.pow_succ, Nat.mul_comm _ 10]
    omega

theorem eq_of_digitsValue_append_eq {a b c d : List Char} (hb : b.all isDigit = true)
    (hd : d.all isDigit = true) (hlength : b.length = d.length)
    (h : digitsValue (a ++ b) = digitsValue (c ++ d)) :
    digitsValue a = digitsValue c ∧ digitsValue b = digitsValue d := by
  have hb' := digitsValue_lt hb
  have hd' := digitsValue_lt hd
  rw [digitsValue_append, digitsValue_append, ← hlength] at h
  rw [← hlength] at hd'
  have hsplit : ∀ q r, r < 10 ^ b.length →
      (q * 10 ^ b.length + r) / 10 ^ b.length = q ∧ (q * 10 ^ b.length + r) % 10 ^ b.length = r := by
    intro q r hr
    refine (Nat.div_mod_unique (Nat.zero_lt_of_lt hr)).mpr ⟨?_, hr⟩
    rw [Nat.mul_comm, Nat.add_comm]
  obtain ⟨hdiv, hmod⟩ := hsplit (digitsValue a) (digitsValue b) hb'
  obtain ⟨hdiv', hmod'⟩ := hsplit (digitsValue c) (digitsValue d) hd'
  rw [h] at hdiv hmod
  exact ⟨hdiv.symm.trans hdiv', hmod.symm.trans hmod'⟩

/-- Digits of one count that denote the same are the same. -/
theorem eq_of_digitsValue_eq {a b : List Char} (ha : a.all isDigit = true)
    (hb : b.all isDigit = true) (hlength : a.length = b.length)
    (h : digitsValue a = digitsValue b) : a = b := by
  induction a generalizing b with
  | nil => exact (List.eq_nil_of_length_eq_zero hlength.symm).symm
  | cons c rest ih =>
    cases b with
    | nil => cases hlength
    | cons d rest' =>
      rw [List.all_cons, Bool.and_eq_true] at ha hb
      have hlength' : rest.length = rest'.length := Nat.succ.inj hlength
      obtain ⟨hfirst, hrest⟩ := eq_of_digitsValue_append_eq (a := [c]) (c := [d]) ha.2 hb.2
        hlength' h
      rw [digitsValue_singleton, digitsValue_singleton] at hfirst
      rw [eq_of_digitValue_eq ha.1 hb.1 hfirst, ih ha.2 hb.2 hlength' hrest]

/-- Digits of which the first is zero only if it is the only one are the numeral of what they
denote. -/
theorem toDigits_digitsValue {digits : List Char} (hne : digits ≠ [])
    (hall : digits.all isDigit = true) (hlead : digits.head? = some '0' → digits.length ≤ 1) :
    Nat.toDigits 10 (digitsValue digits) = digits := by
  obtain ⟨c, rest, rfl⟩ := List.exists_cons_of_ne_nil hne
  have hlt := digitsValue_lt hall
  have hcount : digitCount (digitsValue (c :: rest)) = rest.length + 1 := by
    by_cases hc : c = '0'
    · have hshort := hlead (by rw [hc, List.head?_cons])
      have hrest : rest = [] := List.eq_nil_of_length_eq_zero (by
        rw [List.length_cons] at hshort
        omega)
      rw [hc, hrest]
      decide
    · rw [List.all_cons, Bool.and_eq_true] at hall
      have hpos : digitValue c ≠ 0 := fun hzero => hc (eq_of_digitValue_eq hall.1 (by decide) hzero)
      refine digitCount_eq ?_ hlt
      rw [digitsValue_cons]
      calc 10 ^ rest.length = 1 * 10 ^ rest.length := (Nat.one_mul _).symm
        _ ≤ digitValue c * 10 ^ rest.length := Nat.mul_le_mul_right _ (by omega)
        _ ≤ digitValue c * 10 ^ rest.length + digitsValue rest := Nat.le_add_right _ _
  exact eq_of_digitsValue_eq (all_isDigit_toDigits _) hall hcount (digitsValue_toDigits _)

theorem mod_two_digitsValue_concat (digits : List Char) (c : Char) :
    digitsValue (digits ++ [c]) % 2 = digitValue c % 2 := by
  rw [digitsValue_append, digitsValue_singleton, List.length_singleton, Nat.pow_one]
  omega

end Decimal
end PlaneReport
