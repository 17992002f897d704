import Mathlib.Algebra.Group.Int.Defs
import Mathlib.Algebra.Group.Nat.Defs
import PlaneReport.Sum

/-!
# What kinds of integers hold
-/

namespace PlaneReport
namespace IntegerKind

theorem holds_iff {kind : IntegerKind} {n : Int} :
    kind.holds n = true ↔ kind.least ≤ n ∧ n ≤ kind.greatest := by
  unfold holds
  rw [Bool.and_eq_true, decide_eq_true_eq, decide_eq_true_eq]

theorem word_holds_iff {n : Int} : word.holds n = true ↔ -(2 ^ 63 : Int) ≤ n ∧ n < 2 ^ 63 := by
  rw [holds_iff]
  show -(2 ^ 63 : Int) ≤ n ∧ n ≤ 2 ^ 63 - 1 ↔ _
  omega

theorem word_holds (n : Int64) : word.holds n.toInt = true :=
  word_holds_iff.mpr ⟨n.le_toInt, n.toInt_lt⟩

theorem unsigned_holds {bits n : Nat} (hn : n < 2 ^ bits) :
    (⟨bits, false⟩ : IntegerKind).holds n = true := by
  rw [holds_iff]
  show (0 : Int) ≤ n ∧ (n : Int) ≤ (2 ^ bits : Nat) - 1
  omega

theorem unsigned_bounds {bits : Nat} {n : Int}
    (h : (⟨bits, false⟩ : IntegerKind).holds n = true) : 0 ≤ n ∧ n.toNat < 2 ^ bits := by
  obtain ⟨hlow, hhigh⟩ := holds_iff.mp h
  have hlow : 0 ≤ n := hlow
  have hhigh : n ≤ (2 ^ bits : Nat) - 1 := hhigh
  exact ⟨hlow, by omega⟩

theorem toInt_ofInt_of_holds {n : Int} (h : word.holds n = true) : (Int64.ofInt n).toInt = n := by
  obtain ⟨hlow, hhigh⟩ := word_holds_iff.mp h
  exact Int64.toInt_ofInt_of_le hlow hhigh

theorem toNat_ofNat32_of_holds {n : Int} (h : (⟨32, false⟩ : IntegerKind).holds n = true) :
    ((UInt32.ofNat n.toNat).toNat : Int) = n := by
  obtain ⟨hlow, hhigh⟩ := unsigned_bounds h
  rw [UInt32.toNat_ofNat_of_lt' hhigh]
  exact Int.toNat_of_nonneg hlow

theorem toNat_ofNat64_of_holds {n : Int} (h : (⟨64, false⟩ : IntegerKind).holds n = true) :
    ((UInt64.ofNat n.toNat).toNat : Int) = n := by
  obtain ⟨hlow, hhigh⟩ := unsigned_bounds h
  rw [UInt64.toNat_ofNat_of_lt' hhigh]
  exact Int.toNat_of_nonneg hlow

end IntegerKind
end PlaneReport
