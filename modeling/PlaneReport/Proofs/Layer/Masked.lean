import PlaneReport.Level
import PlaneReport.Proofs.Result
import PlaneReport.Workspace.Load

/-!
# Settings with their log levels masked

Which of the texts that name a log level stands in a settings file matters to the log level alone.
`masked` puts one text in the place of all that name a level, wherever they stand.  It goes through
each step of loading: the layer of a masked outline, the merging of masked layers and the decoding of
a masked layer are those without the mask, masked.  Main statement: `ofLayers_masked`.
-/

namespace PlaneReport

/-- The level of the standard settings in the place of any text that names a level. -/
def Level.masked (text : String) : String :=
  if (ofText? text).isSome then Settings.standard.level else text

theorem Level.isSome_ofText?_standard : (ofText? Settings.standard.level).isSome = true := by
  decide

theorem Level.masked_standard : masked Settings.standard.level = Settings.standard.level :=
  if_pos isSome_ofText?_standard

theorem Level.masked_getD (level? : Option String) :
    masked (level?.getD Settings.standard.level) =
      (level?.map masked).getD Settings.standard.level := by
  cases level? with
  | none => exact masked_standard
  | some level => rfl

theorem Level.isSome_ofText?_masked (text : String) :
    (ofText? (masked text)).isSome = (ofText? text).isSome := by
  unfold masked
  split
  · next h => rw [isSome_ofText?_standard, h]
  · rfl

namespace Outline

mutual

/-- An outline with its log levels masked. -/
def masked : Outline → Outline
  | .string s => .string (Level.masked s)
  | .list items closed => .list (maskedItems items) closed
  | .table members closed => .table (maskedMembers members) closed
  | outline => outline

def maskedItems : List Outline → List Outline
  | [] => []
  | item :: rest => item.masked :: maskedItems rest

def maskedMembers : List (Option String × Outline) → List (Option String × Outline)
  | [] => []
  | (key, item) :: rest => (key, item.masked) :: maskedMembers rest

end

end Outline

namespace Layer

namespace Value

mutual

/-- A value with its log levels masked. -/
def masked : Value → Value
  | .string source s => .string source (Level.masked s)
  | .list source items => .list source (maskedItems items)
  | .table source members => .table source (maskedMembers members)
  | value => value

def maskedItems : List Value → List Value
  | [] => []
  | item :: rest => item.masked :: maskedItems rest

def maskedMembers : List (String × Value) → List (String × Value)
  | [] => []
  | (key, value) :: rest => (key, value.masked) :: maskedMembers rest

end

end Value

/-! ## Layers of files -/

open Value

mutual

/-- The layer of a masked outline is the masked layer. -/
theorem ofOutline?_masked (source : Source) (outline : Outline) :
    ofOutline? source outline.masked = (ofOutline? source outline).map masked := by
  cases outline with
  | list items closed =>
    have hitems := itemsOfOutlines?_masked source items
    cases closed <;> simp [Outline.masked, ofOutline?, hitems, masked, Function.comp_def]
  | table members closed =>
    have hmembers := membersOfOutlines?_masked source members
    cases closed <;> simp [Outline.masked, ofOutline?, hmembers, masked, Function.comp_def]
  | integer n =>
    simp only [Outline.masked, ofOutline?]
    split <;> simp [masked]
  | overflow negative => cases negative <;> simp [Outline.masked, ofOutline?, masked]
  | _ => simp [Outline.masked, ofOutline?, masked]

theorem itemsOfOutlines?_masked (source : Source) (items : List Outline) :
    itemsOfOutlines? source (Outline.maskedItems items) =
      (itemsOfOutlines? source items).map maskedItems := by
  cases items with
  | nil => rfl
  | cons item rest =>
    have hitem := ofOutline?_masked source item
    have hrest := itemsOfOutlines?_masked source rest
    rw [Outline.maskedItems, itemsOfOutlines?, itemsOfOutlines?, hitem, hrest]
    cases ofOutline? source item <;> cases itemsOfOutlines? source rest <;> rfl

theorem membersOfOutlines?_masked (source : Source) (members : List (Option String × Outline)) :
    membersOfOutlines? source (Outline.maskedMembers members) =
      (membersOfOutlines? source members).map maskedMembers := by
  cases members with
  | nil => rfl
  | cons member rest =>
    obtain ⟨key?, item⟩ := member
    have hitem := ofOutline?_masked source item
    have hrest := membersOfOutlines?_masked source rest
    cases key? with
    | none => rfl
    | some key =>
      rw [Outline.maskedMembers, membersOfOutlines?, membersOfOutlines?, hitem, hrest]
      cases ofOutline? source item <;> cases membersOfOutlines? source rest <;> rfl

end

/-! ## Merging -/

namespace Value

theorem lookup_maskedMembers (key : String) (members : List (String × Value)) :
    (maskedMembers members).lookup key = (members.lookup key).map masked := by
  induction members with
  | nil => rfl
  | cons member rest ih =>
    obtain ⟨name, value⟩ := member
    rw [maskedMembers, List.lookup_cons, List.lookup_cons, ih]
    cases key == name <;> rfl

theorem assign_maskedMembers (key : String) (value : Value) (members : List (String × Value)) :
    Entries.assign key value.masked (maskedMembers members) =
      maskedMembers (Entries.assign key value members) := by
  induction members with
  | nil => rfl
  | cons member rest ih =>
    obtain ⟨name, old⟩ := member
    rw [maskedMembers, Entries.assign, Entries.assign]
    split
    · rfl
    · rw [ih]
      rfl

mutual

theorem merge_masked (earlier later : Value) :
    merge earlier.masked later.masked = (merge earlier later).masked := by
  cases later with
  | table source members =>
    cases earlier with
    | table source' old =>
      have hmembers := mergeMembers_masked old members
      simp only [masked, merge, hmembers]
    | _ => simp only [masked, merge]
  | _ => simp [masked, merge]

theorem mergeMembers_masked (old members : List (String × Value)) :
    mergeMembers (maskedMembers old) (maskedMembers members) =
      maskedMembers (mergeMembers old members) := by
  cases members with
  | nil => rfl
  | cons member rest =>
    obtain ⟨key, value⟩ := member
    rw [maskedMembers, mergeMembers, mergeMembers, lookup_maskedMembers]
    cases old.lookup key with
    | none =>
      have hrest := mergeMembers_masked (Entries.assign key value old) rest
      rw [← assign_maskedMembers] at hrest
      exact hrest
    | some earlier =>
      have hvalue := merge_masked earlier value
      have hrest := mergeMembers_masked (Entries.assign key (merge earlier value) old) rest
      rw [← assign_maskedMembers, ← hvalue] at hrest
      exact hrest

end

/-! ## Decoding -/

/-- Masking the value masks what is decoded, if it can be decoded. -/
def Masks {α : Type} (decode : List String → Value → Except Defect α) (mask : α → α) : Prop :=
  ∀ path value, (decode path value.masked).toOption = (decode path value).toOption.map mask

variable {α : Type}

theorem toInteger_masks (kind : IntegerKind) (expected : String) :
    Masks (toInteger kind expected) id := by
  intro path value
  cases value with
  | string | list | table => rfl
  | _ => simp only [masked, Option.map_id, id]

theorem toNumber_masks : Masks toNumber id := by
  intro path value
  cases value with
  | string | list | table => rfl
  | _ => simp only [masked, Option.map_id, id]

theorem toText_masks : Masks toText Level.masked := by
  intro path value
  cases value <;> rfl

theorem getElem?_maskedItems (items : List Value) (i : Nat) :
    (maskedItems items)[i]? = items[i]?.map masked := by
  induction items generalizing i with
  | nil => rfl
  | cons item rest ih =>
    cases i with
    | zero => rfl
    | succ i => simpa [maskedItems] using ih i

theorem part?_masked (record : Value) (fields : List String) (field : String) :
    record.masked.part? fields field =
      (record.part? fields field).map fun part => (part.1, part.2.masked) := by
  cases record with
  | list source items =>
    simp [masked, part?, getElem?_maskedItems, Function.comp_def]
  | table source members =>
    simp [masked, part?, lookup_maskedMembers, Function.comp_def]
  | _ => rfl

theorem field?_masked {decode : List String → Value → Except Defect α} {mask : α → α}
    (h : Masks decode mask) (record : Value) (fields path : List String) (field : String) :
    (record.masked.field? fields path field decode).toOption =
      (record.field? fields path field decode).toOption.map (Option.map mask) := by
  rw [field?, field?, part?_masked]
  cases record.part? fields field with
  | none => rfl
  | some part =>
    have hpart := h (path ++ [part.1]) part.2
    have hmap : ∀ x : Except Defect α, (x.map some).toOption = x.toOption.map some := by
      intro x
      cases x <;> rfl
    simp only [Option.map_some, hmap, hpart, Option.map_map, Function.comp_def]

@[simp]
theorem checkRecord_masked (expected : String) (path : List String) (value : Value) :
    (checkRecord expected path value.masked).toOption =
      (checkRecord expected path value).toOption := by
  cases value <;> simp only [masked, checkRecord, Except.toOption]

/-- The coordinates are no texts; what a failure says of the record is of no concern. -/
theorem toPoint_masks : Masks toPoint id := by
  intro path record
  unfold toPoint
  simp only [toOption_bind, checkRecord_masked, field?_masked toNumber_masks, Option.map_id, id]
  refine congrArg _ (funext fun _ => congrArg _ (funext fun x => congrArg _ (funext fun y => ?_)))
  cases x with
  | none => simp
  | some x =>
    cases y with
    | none => simp
    | some y =>
      dsimp only
      cases Point.checked x y <;> simp

theorem toInputs_masks : Masks toInputs id := by
  intro path record
  unfold toInputs
  simp [field?_masked (toInteger_masks _ _), field?_masked toPoint_masks]

theorem toPrecision_masks : Masks toPrecision id := by
  intro path record
  unfold toPrecision
  simp [field?_masked (toInteger_masks _ _)]

theorem toLevel_masks : Masks toLevel Level.masked := by
  intro path record
  unfold toLevel
  simp [field?_masked toText_masks, Option.map_bind, Option.bind_map, Function.comp_def,
    Level.masked_getD]

end Value
end Layer

namespace Settings

open Layer.Value hiding masked

/-- Settings with their log level masked. -/
def masked (s : Settings) : Settings :=
  { s with level := Level.masked s.level }

/-- Masking a layer masks the settings that it amounts to, if it amounts to any. -/
theorem toSettings_masked (value : Layer.Value) :
    value.masked.toSettings.toOption = value.toSettings.toOption.map masked := by
  unfold toSettings
  simp [field?_masked (toInteger_masks _ _), field?_masked toInputs_masks,
    field?_masked toLevel_masks, field?_masked toPrecision_masks, Option.map_bind, Option.bind_map,
    Function.comp_def, masked, Level.masked_getD]

/-- So do layers that are merged, and settings that all their layers give. -/
theorem ofLayers_masked (file environment : Layer.Value) :
    (ofLayers file environment).toOption.map masked =
      (((standard.layer.masked.merge file.masked).merge environment.masked).toSettings).toOption := by
  rw [merge_masked, merge_masked, toSettings_masked, ofLayers]
  cases ((standard.layer.merge file).merge environment).toSettings <;> rfl

end Settings
end PlaneReport
