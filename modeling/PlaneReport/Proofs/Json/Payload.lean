import PlaneReport.Proofs.Json.Printed
import PlaneReport.Proofs.Outline.Shape
import PlaneReport.Response.Decode

/-!
# Payloads are read back

A payload is kept with the members of its objects in ascending order of their keys, and with no more
containers inside one another than a payload may have.  A value that is like this comes back from
its outline as it is, and one with more containers is refused (`payload_outlineOf`); but `null`
stands for the absence of a payload, so that it is never kept.
-/

namespace PlaneReport
namespace Json

/-! ## Order and nesting -/

/-- Members in ascending order of their keys, each of which is there once. -/
abbrev Ascending (members : List (String × Json)) : Prop :=
  members.Pairwise fun first second => first.1 < second.1

mutual

/-- Whether the members of all objects in a value are in ascending order of their keys. -/
def isSorted : Json → Bool
  | .array items => areItemsSorted items
  | .object members => decide (Ascending members) && areMembersSorted members
  | _ => true

def areItemsSorted : List Json → Bool
  | [] => true
  | item :: rest => isSorted item && areItemsSorted rest

def areMembersSorted : List (String × Json) → Bool
  | [] => true
  | (_, value) :: rest => isSorted value && areMembersSorted rest

end

mutual

/-- The greatest number of containers that stand inside one another. -/
def depth : Json → Nat
  | .array items => itemsDepth items + 1
  | .object members => membersDepth members + 1
  | _ => 0

def itemsDepth : List Json → Nat
  | [] => 0
  | item :: rest => max (depth item) (itemsDepth rest)

def membersDepth : List (String × Json) → Nat
  | [] => 0
  | (_, value) :: rest => max (depth value) (membersDepth rest)

end

/-- A member whose key comes after all others is added at the end. -/
theorem insertMember_of_forall_lt {key : String} {members : List (String × Json)}
    (h : ∀ member ∈ members, member.1 < key) (value : Json) :
    insertMember key value members = members ++ [(key, value)] := by
  induction members with
  | nil => rfl
  | cons member rest ih =>
    obtain ⟨other, _⟩ := member
    have hlt : other < key := h _ List.mem_cons_self
    rw [insertMember, if_neg (String.ne_of_lt hlt).symm, if_neg (String.lt_asymm hlt),
      ih fun member hmember => h member (List.mem_cons_of_mem _ hmember)]
    rfl

/-! ## Outlines -/

/-- A container takes one of the levels that are left, and its parts have the rest. -/
theorem container_eq {α : Type} (limit nesting : Nat) (parts : α) (container : α → Json) :
    (if true && decide (0 < limit) then
      (if nesting ≤ limit - 1 then some parts else none).map container else none) =
      if nesting + 1 ≤ limit then some (container parts) else none := by
  by_cases hopen : 0 < limit
  · by_cases hparts : nesting ≤ limit - 1
    · rw [if_pos (by simpa using hopen), if_pos hparts, if_pos (by omega)]
      rfl
    · rw [if_pos (by simpa using hopen), if_neg hparts, if_neg (by omega)]
      rfl
  · rw [if_neg (by simpa using hopen), if_neg (by omega)]

mutual

/-- A sorted value comes back if it is not nested too deep, and only then. -/
theorem ofOutline?_outlineOf (limit : Nat) {value : Json} (h : value.isSorted = true) :
    ofOutline? limit value.outlineOf = if value.depth ≤ limit then some value else none := by
  match value with
  | .null => rfl
  | .bool _ => rfl
  | .integer _ => rfl
  | .number _ => rfl
  | .string _ => rfl
  | .array items =>
    rw [isSorted] at h
    rw [outlineOf, ofOutline?, ofItems?_outlinesOf (limit - 1) h, depth]
    exact container_eq limit _ items Json.array
  | .object members =>
    rw [isSorted, Bool.and_eq_true, decide_eq_true_eq] at h
    rw [outlineOf, ofOutline?, depth,
      @ofMembers?_memberOutlinesOf (limit - 1) [] members h.1 h.2]
    exact container_eq limit _ members Json.object

theorem ofItems?_outlinesOf (limit : Nat) {items : List Json} (h : areItemsSorted items = true) :
    ofItems? limit (outlinesOf items) = if itemsDepth items ≤ limit then some items else none := by
  match items with
  | [] => rfl
  | item :: rest =>
    rw [areItemsSorted, Bool.and_eq_true] at h
    rw [outlinesOf, ofItems?, ofOutline?_outlineOf limit h.1, ofItems?_outlinesOf limit h.2,
      itemsDepth]
    simp only [Nat.max_le]
    by_cases hitem : item.depth ≤ limit
    · by_cases hrest : itemsDepth rest ≤ limit
      · simp only [hitem, hrest, if_true, and_self]
      · simp only [hitem, hrest, if_true, if_false, and_false]
    · simp only [hitem, if_false, false_and]

/-- The members that were taken before come first. -/
theorem ofMembers?_memberOutlinesOf (limit : Nat) {sorted members : List (String × Json)}
    (hkeys : Ascending (sorted ++ members))
    (h : areMembersSorted members = true) :
    ofMembers? limit sorted (memberOutlinesOf members) =
      if membersDepth members ≤ limit then some (sorted ++ members) else none := by
  match members with
  | [] =>
    rw [List.append_nil]
    rfl
  | (key, value) :: rest =>
    rw [areMembersSorted, Bool.and_eq_true] at h
    have hlast : insertMember key value sorted = sorted ++ [(key, value)] :=
      insertMember_of_forall_lt (fun member hmember =>
        (List.pairwise_append.mp hkeys).2.2 member hmember _ List.mem_cons_self) value
    rw [List.append_cons] at hkeys ⊢
    have hrest := ofMembers?_memberOutlinesOf limit hkeys h.2
    rw [memberOutlinesOf, ofMembers?, ofOutline?_outlineOf limit h.1, membersDepth]
    simp only [Nat.max_le]
    by_cases hvalue : value.depth ≤ limit
    · simp only [hvalue, if_true, hlast, hrest, true_and]
    · simp only [hvalue, if_false, false_and]

end

/-! ## Payloads -/

/-- What is kept of a value that may be absent: `null` stands for its absence. -/
def present? : Json → Option Json
  | .null => none
  | value => some value

theorem present?_of_ne {value : Json} (h : value ≠ .null) : value.present? = some value := by
  cases value with
  | null => exact absurd rfl h
  | _ => rfl

end Json

namespace Response

/-- A payload has a level less than a whole text, as the response around it is a container. -/
theorem payload_outlineOf {value : Json} (h : value.isSorted = true) :
    payload value.outlineOf =
      if value.depth < Json.maxDepth then .ok value else .error .malformed := by
  have hlimit : value.depth ≤ Json.maxDepth - 1 ↔ value.depth < Json.maxDepth := by
    unfold Json.maxDepth
    omega
  rw [payload, Json.ofOutline?_outlineOf _ h]
  by_cases hdepth : value.depth < Json.maxDepth
  · simp only [hlimit, hdepth, if_true]
  · simp only [hlimit, hdepth, if_false]

theorem toOptional_payload {value : Json} (h : value.isSorted = true) :
    value.outlineOf.toOptional payload =
      if value.depth < Json.maxDepth then .ok value.present? else .error .malformed := by
  by_cases hnull : value = .null
  · rw [hnull]
    rfl
  · have houtline : value.outlineOf ≠ .null := by
      cases value with
      | null => exact absurd rfl hnull
      | _ => nofun
    rw [Outline.toOptional_of_ne_null houtline, payload_outlineOf h, Json.present?_of_ne hnull]
    split <;> rfl

end Response
end PlaneReport
