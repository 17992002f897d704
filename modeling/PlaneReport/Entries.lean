/-!
# Entries

Names with values, in an order of their own.  Of several entries with one name the first counts.
-/

namespace PlaneReport
namespace Entries

variable {α : Type}

/-- Gives a name a value.  A name that is there keeps its place. -/
def assign (name : String) (value : α) : List (String × α) → List (String × α)
  | [] => [(name, value)]
  | (n, old) :: rest =>
    if n = name then (n, value) :: rest else (n, old) :: assign name value rest

@[simp]
theorem lookup_assign (name other : String) (value : α) (entries : List (String × α)) :
    (assign name value entries).lookup other =
      if other = name then some value else entries.lookup other := by
  induction entries with
  | nil =>
    by_cases h : other = name
    · simp [assign, h]
    · simp [assign, List.lookup_cons, h, beq_false_of_ne h]
  | cons entry rest ih =>
    obtain ⟨n, old⟩ := entry
    unfold assign
    by_cases hn : n = name
    · subst hn
      by_cases h : other = n
      · simp [h]
      · simp [List.lookup_cons, h, beq_false_of_ne h]
    · rw [if_neg hn]
      by_cases h : other = n
      · subst h
        simp [hn]
      · simp [List.lookup_cons, beq_false_of_ne h, ih]

end Entries
end PlaneReport
