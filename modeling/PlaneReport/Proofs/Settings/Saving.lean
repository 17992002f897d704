import PlaneReport.Proofs.FileTree
import PlaneReport.Proofs.Settings.Finite
import PlaneReport.Proofs.Settings.Layering
import PlaneReport.Proofs.Settings.RoundTrip

/-!
# Loading what was saved

Saved settings are loaded again as they were, as long as the reader of layers takes the integers of
their text: it takes those of 64 bits with a sign, and a count of places may be larger.
-/

namespace PlaneReport

open Layer (Source Value)

namespace Settings

variable {s : Settings} {source : Source}

/-! ## The layer of a saved text -/

def pointMembers (source : Source) (p : Point) : List (String × Value) :=
  [("x", .number source p.x), ("y", .number source p.y)]

def precisionMembers (source : Source) : Option UInt64 → List (String × Value)
  | none => []
  | some places => [("precision", .integer source true places.toNat)]

/-- The members that a reader of layers finds in a saved text. -/
def savedMembers (source : Source) (s : Settings) : List (String × Value) :=
  [("version", .integer source true s.version.toNat),
    ("inputs", .table source
      [("a", .integer source true s.inputs.a.toInt), ("b", .integer source true s.inputs.b.toInt),
        ("from", .table source (pointMembers source s.inputs.source)),
        ("to", .table source (pointMembers source s.inputs.target))]),
    ("output", .table source (precisionMembers source s.precision)),
    ("logging", .table source [("level", .string source s.level)])]

/-- The places, if there are any, are an integer that a file can give. -/
def IsSigned (precision : Option UInt64) : Prop :=
  ∀ places, precision = some places → places.toNat < 2 ^ 63

theorem ofOutline?_integer {n : Int} (hlow : -(2 ^ 63 : Int) ≤ n) (hhigh : n < 2 ^ 63) :
    Value.ofOutline? source (.integer n) = some (.integer source true n) := by
  rw [Value.ofOutline?]
  exact if_pos ⟨hlow, hhigh⟩

theorem ofOutline?_table {members : List (Option String × Outline)}
    {values : List (String × Value)} (h : Layer.membersOfOutlines? source members = some values) :
    Value.ofOutline? source (.table members true) = some (.table source values) := by
  rw [Value.ofOutline?, h]
  rfl

@[simp]
theorem membersOfOutlines?_nil (source : Source) :
    Layer.membersOfOutlines? source [] = some [] := by
  rw [Layer.membersOfOutlines?]

theorem membersOfOutlines?_cons (key : String) {item : Outline} {value : Value}
    {rest : List (Option String × Outline)} {values : List (String × Value)}
    (h : Value.ofOutline? source item = some value)
    (hrest : Layer.membersOfOutlines? source rest = some values) :
    Layer.membersOfOutlines? source ((some key, item) :: rest) = some ((key, value) :: values) := by
  rw [Layer.membersOfOutlines?, h, hrest]

theorem ofOutline?_point (source : Source) (p : Point) :
    Value.ofOutline? source (.table (Toml.Members.outlines (plainMembers (pointReads p))) true) =
      some (.table source (pointMembers source p)) :=
  ofOutline?_table <| membersOfOutlines?_cons "x" rfl <| membersOfOutlines?_cons "y" rfl rfl

theorem ofOutline?_precision {precision : Option UInt64} (h : IsSigned precision) :
    Value.ofOutline? source
        (.table (Toml.Members.outlines (plainMembers (precisionReads precision))) true) =
      some (.table source (precisionMembers source precision)) := by
  cases precision with
  | none => rfl
  | some places =>
    have hplaces := h places rfl
    exact ofOutline?_table <|
      membersOfOutlines?_cons "precision" (ofOutline?_integer (by omega) (by omega)) rfl

theorem ofOutline?_saved (h : IsSigned s.precision) :
    Value.ofOutline? source (.table (Toml.Members.outlines s.members) true) =
      some (.table source (s.savedMembers source)) := by
  have hversion := s.version.toNat_lt
  have hword : ∀ n : Int64, Value.ofOutline? source (.integer n.toInt) =
      some (.integer source true n.toInt) := fun n => ofOutline?_integer n.le_toInt n.toInt_lt
  have hinputs := ofOutline?_table <|
    membersOfOutlines?_cons "a" (hword s.inputs.a) <|
    membersOfOutlines?_cons "b" (hword s.inputs.b) <|
    membersOfOutlines?_cons "from" (ofOutline?_point source s.inputs.source) <|
    membersOfOutlines?_cons "to" (ofOutline?_point source s.inputs.target)
      (membersOfOutlines?_nil source)
  have hlevel : Value.ofOutline? source (.table [(some "level", .string s.level)] true) =
      some (.table source [("level", .string source s.level)]) := rfl
  exact ofOutline?_table <|
    membersOfOutlines?_cons "version" (ofOutline?_integer (by omega) (by omega)) <|
    membersOfOutlines?_cons "inputs" hinputs <|
    membersOfOutlines?_cons "output" (ofOutline?_precision h) <|
    membersOfOutlines?_cons "logging" hlevel (membersOfOutlines?_nil source)

theorem membersOfOutlines?_eq_none {key? : Option String} {item : Outline}
    {members : List (Option String × Outline)} (hmem : (key?, item) ∈ members)
    (h : Value.ofOutline? source item = none) :
    Layer.membersOfOutlines? source members = none := by
  induction members with
  | nil => cases hmem
  | cons first rest ih =>
    obtain ⟨key?', item'⟩ := first
    cases key?' with
    | none => rw [Layer.membersOfOutlines?]
    | some key =>
      rw [Layer.membersOfOutlines?]
      obtain hfirst | hrest := List.mem_cons.mp hmem
      · cases hfirst
        rw [h]
      · rw [ih hrest]
        cases Value.ofOutline? source item' <;> rfl

theorem ofOutline?_table_eq_none {members : List (Option String × Outline)}
    (h : Layer.membersOfOutlines? source members = none) :
    Value.ofOutline? source (.table members true) = none := by
  rw [Value.ofOutline?, h]
  rfl

theorem ofOutline?_saved_eq_none (h : ¬ IsSigned s.precision) :
    Value.ofOutline? source (.table (Toml.Members.outlines s.members) true) = none := by
  unfold IsSigned at h
  push Not at h
  obtain ⟨places, hprecision, hplaces⟩ := h
  have hinteger : Value.ofOutline? source (.integer places.toNat) = none := by
    rw [Value.ofOutline?]
    exact if_neg (by omega)
  have hoption : (some "precision", Outline.integer places.toNat) ∈
      Toml.Members.outlines (plainMembers (precisionReads s.precision)) := by
    rw [hprecision]
    exact List.mem_cons_self
  have houtput : (some "output",
      Outline.table (Toml.Members.outlines (plainMembers (precisionReads s.precision))) true) ∈
        Toml.Members.outlines s.members :=
    List.mem_cons_of_mem _ (List.mem_cons_of_mem _ List.mem_cons_self)
  exact ofOutline?_table_eq_none <| membersOfOutlines?_eq_none houtput <|
    ofOutline?_table_eq_none <| membersOfOutlines?_eq_none hoption hinteger

/-! ## Merging -/

/-- The saved members cover the standard ones. -/
theorem merge_savedMembers (source : Source) (s : Settings) :
    standard.layer.merge (.table source (s.savedMembers source)) =
      .table source (s.savedMembers source) := by
  have hpoint : ∀ p q : Point, Value.mergeMembers
      [("x", .number .standard p.x), ("y", .number .standard p.y)] (pointMembers source q) =
        pointMembers source q := by
    intro p q
    simp [pointMembers, Value.laid, Value.merge, Entries.assign, List.lookup]
  have hprecision : Value.mergeMembers [] (precisionMembers source s.precision) =
      precisionMembers source s.precision := by
    cases s.precision with
    | none => exact Value.mergeMembers_nil []
    | some places =>
      rw [precisionMembers, Value.mergeMembers_cons, Value.mergeMembers_nil]
      rfl
  unfold layer savedMembers
  simp [standard, Value.laid, Value.merge, Entries.assign, List.lookup, hpoint, hprecision]

/-! ## Decoding -/

theorem field?_of_lookup {α : Type} {members : List (String × Value)} {fields path : List String}
    {field : String} {decode : List String → Value → Except Layer.Defect α} {value : Value}
    {result : α} (hlookup : members.lookup field = some value)
    (hread : decode (path ++ [field]) value = .ok result) :
    (Value.table source members).field? fields path field decode = .ok (some result) := by
  rw [Value.field?_of_lookup_some hlookup, hread]
  rfl

theorem toInteger_of_holds {kind : IntegerKind} {expected : String} {path : List String}
    {signed : Bool} {n : Int} (h : kind.holds n = true) :
    Value.toInteger kind expected path (.integer source signed n) = .ok n := by
  rw [Value.toInteger, if_pos h]

theorem toPoint_pointMembers {p : Point} (hp : p.IsFinite) (path : List String) :
    Value.toPoint path (.table source (pointMembers source p)) = .ok p := by
  have hchecked : Point.checked p.x p.y = .ok p := Point.checked_eq_ok_iff.mpr ⟨rfl, hp⟩
  refine bind_eq_ok.mpr ⟨(), rfl, ?_⟩
  refine bind_eq_ok.mpr ⟨some p.x, rfl, ?_⟩
  refine bind_eq_ok.mpr ⟨some p.y, rfl, ?_⟩
  dsimp only
  rw [hchecked]
  rfl

theorem toPrecision_precisionMembers (precision : Option UInt64) (path : List String) :
    Value.toPrecision path (.table source (precisionMembers source precision)) =
      .ok precision := by
  cases precision with
  | none => rfl
  | some places =>
    have hholds : (⟨64, false⟩ : IntegerKind).holds places.toNat = true :=
      IntegerKind.unsigned_holds places.toNat_lt
    refine bind_eq_ok.mpr ⟨(), rfl, bind_eq_ok.mpr ⟨some (places.toNat : Int),
      field?_of_lookup rfl (toInteger_of_holds hholds), ?_⟩⟩
    exact congrArg (fun n => Except.ok (some n)) UInt64.ofNat_toNat

theorem toInputs_savedMembers {i : Inputs} (hsource : i.source.IsFinite)
    (htarget : i.target.IsFinite) (path : List String) :
    Value.toInputs path (.table source
      [("a", .integer source true i.a.toInt), ("b", .integer source true i.b.toInt),
        ("from", .table source (pointMembers source i.source)),
        ("to", .table source (pointMembers source i.target))]) = .ok i := by
  have ha := IntegerKind.word_holds i.a
  have hb := IntegerKind.word_holds i.b
  refine bind_eq_ok.mpr ⟨(), rfl, ?_⟩
  refine bind_eq_ok.mpr ⟨_, field?_of_lookup rfl (toInteger_of_holds ha), ?_⟩
  refine bind_eq_ok.mpr ⟨_, field?_of_lookup rfl (toInteger_of_holds hb), ?_⟩
  refine bind_eq_ok.mpr ⟨_, field?_of_lookup rfl (toPoint_pointMembers hsource _), ?_⟩
  refine bind_eq_ok.mpr ⟨_, field?_of_lookup rfl (toPoint_pointMembers htarget _), ?_⟩
  show Except.ok (⟨Int64.ofInt i.a.toInt, Int64.ofInt i.b.toInt, i.source, i.target⟩ : Inputs) = _
  rw [Int64.ofInt_toInt, Int64.ofInt_toInt]

/-- The saved members are decoded as the settings, whatever layer the whole of them is from. -/
theorem toSettings_savedMembers (hs : s.IsFinite) (outer : Source) :
    (Value.table outer (s.savedMembers source)).toSettings = .ok s := by
  have hversion : (⟨32, false⟩ : IntegerKind).holds s.version.toNat = true :=
    IntegerKind.unsigned_holds s.version.toNat_lt
  refine bind_eq_ok.mpr ⟨(), rfl, ?_⟩
  refine bind_eq_ok.mpr ⟨_, field?_of_lookup rfl (toInputs_savedMembers hs.1 hs.2 _), ?_⟩
  refine bind_eq_ok.mpr ⟨some s.level, rfl, ?_⟩
  refine bind_eq_ok.mpr ⟨_, field?_of_lookup rfl (toPrecision_precisionMembers s.precision _), ?_⟩
  refine bind_eq_ok.mpr ⟨_, field?_of_lookup rfl (toInteger_of_holds hversion), ?_⟩
  show Except.ok { s with version := UInt32.ofNat s.version.toNat } = _
  rw [UInt32.ofNat_toNat]

end Settings

/-! ## Saving and loading -/

/-- No variable sets anything. -/
def Environment.IsSilent (environment : Environment) : Prop :=
  ∀ entry ∈ environment, Environment.path? entry.1 = none

theorem Environment.filterMap_of_isSilent {environment : Environment} (h : environment.IsSilent) :
    environment.filterMap setting? = [] := by
  rw [List.filterMap_eq_nil_iff]
  intro entry hentry
  exact setting?_eq_none (h entry hentry)

theorem Environment.layer_of_isSilent {environment : Environment} (h : environment.IsSilent) :
    environment.layer = .table .environment [] := by
  rw [layer, filterMap_of_isSilent h]
  rfl

namespace Settings

section Save

variable {s : Settings} {tree tree' : FileTree} {path : String} {environment : Environment}
  {source : Source}

/-- A file that says all of some settings gives those, if the environment does not interfere. -/
theorem ofLayers_savedMembers (hs : s.IsFinite) (hsilent : environment.IsSilent) :
    ofLayers (.table source (s.savedMembers source)) environment.layer = .ok s := by
  rw [ofLayers, merge_savedMembers, Environment.layer_of_isSilent hsilent, Value.merge_table]
  dsimp only
  rw [Value.mergeMembers_nil, toSettings_savedMembers hs]
  rfl

/-- The file that is loaded is the one that was saved. -/
theorem fileLayer_of_save (htree : tree.IsRooted) (hpath : Path.isAbsolute path = true)
    (hsave : s.save tree path = (.ok (), tree')) :
    tree'.fileLayer path =
      Layer.ofContent (Path.shown tree'.currentPath? path) s.tomlText.toUTF8 := by
  obtain ⟨below, hbelow, hwrite⟩ := FileTree.writeBelow_eq_ok htree hsave
  obtain ⟨hfound, hread⟩ := FileTree.read?_lookUp?_write hbelow hpath hwrite
  unfold FileTree.fileLayer
  rw [hfound]
  dsimp only
  rw [hread]

theorem loadFrom_of_isSigned (hs : s.IsFinite) (htree : tree.IsRooted)
    (hpath : Path.isAbsolute path = true) (hsave : s.save tree path = (.ok (), tree'))
    (hsilent : environment.IsSilent) (hsigned : IsSigned s.precision) :
    loadFrom tree' environment path = .ok s := by
  have hlayer := fileLayer_of_save htree hpath hsave
  rw [ofContent_toUTF8, outline?_tomlText hs rfl rfl, Option.bind_some,
    ofOutline?_saved hsigned] at hlayer
  unfold loadFrom
  rw [hlayer]
  exact ofLayers_savedMembers hs hsilent

theorem loadFrom_of_not_isSigned (hs : s.IsFinite) (htree : tree.IsRooted)
    (hpath : Path.isAbsolute path = true) (hsave : s.save tree path = (.ok (), tree'))
    (hsigned : ¬ IsSigned s.precision) :
    loadFrom tree' environment path =
      .error (.malformed (Path.shown tree'.currentPath? path) s.tomlText) := by
  have hlayer := fileLayer_of_save htree hpath hsave
  rw [ofContent_toUTF8, outline?_tomlText hs rfl rfl, Option.bind_some,
    ofOutline?_saved_eq_none hsigned] at hlayer
  unfold loadFrom
  rw [hlayer]
  rfl

/-- Saved settings are loaded as they were if their places are an integer that a file can give, and
else their file is refused. -/
theorem loadFrom_save (hs : s.IsFinite) (htree : tree.IsRooted)
    (hpath : Path.isAbsolute path = true) (hsave : s.save tree path = (.ok (), tree'))
    (hsilent : environment.IsSilent) :
    (IsSigned s.precision →
        ∃ s', loadFrom tree' environment path = .ok s' ∧ s' = s ∧ s'.equals s = true) ∧
      (¬ IsSigned s.precision → loadFrom tree' environment path =
        .error (.malformed (Path.shown tree'.currentPath? path) s.tomlText)) :=
  ⟨fun hsigned => ⟨s, loadFrom_of_isSigned hs htree hpath hsave hsilent hsigned, rfl,
      equals_of_isFinite hs⟩,
    loadFrom_of_not_isSigned hs htree hpath hsave⟩

end Save

/-- A tree with nothing in it. -/
def bareTree : FileTree where
  root := .directory []
  current := []

theorem bareTree_isRooted : bareTree.IsRooted := ⟨[], rfl⟩

/-- The standard settings with a count of places. -/
def withPlaces (places : UInt64) : Settings :=
  { standard with precision := some places }

/-- The most places that are read back. -/
def mostPlaces : UInt64 := 9223372036854775807

theorem loadFrom_save_mostPlaces :
    ∃ tree', (withPlaces mostPlaces).save bareTree "/a/c.toml" = (.ok (), tree') ∧
      IsSigned (withPlaces mostPlaces).precision ∧
      ∃ s', loadFrom tree' [("HOME", "/a")] "/a/c.toml" = .ok s' ∧ s' = withPlaces mostPlaces ∧
        s'.equals (withPlaces mostPlaces) = true := by
  have hfinite : (withPlaces mostPlaces).IsFinite := standard_isFinite
  have hsave : ∃ tree', (withPlaces mostPlaces).save bareTree "/a/c.toml" = (.ok (), tree') :=
    ⟨_, rfl⟩
  obtain ⟨tree', hsave⟩ := hsave
  have hsilent : Environment.IsSilent [("HOME", "/a")] := by
    intro entry hentry
    rw [List.mem_singleton] at hentry
    subst hentry
    decide
  have hsigned : IsSigned (withPlaces mostPlaces).precision := by
    intro places hplaces
    cases hplaces
    decide
  obtain ⟨hloaded, -⟩ := loadFrom_save hfinite bareTree_isRooted rfl hsave hsilent
  exact ⟨tree', hsave, hsigned, hloaded hsigned⟩

/-- One more is saved and not read back. -/
theorem save_not_loaded :
    (withPlaces (mostPlaces + 1)).IsFinite ∧ bareTree.IsRooted ∧
      ∃ tree', (withPlaces (mostPlaces + 1)).save bareTree "/c.toml" = (.ok (), tree') ∧
        ∀ s', loadFrom tree' [] "/c.toml" ≠ .ok s' := by
  have hfinite : (withPlaces (mostPlaces + 1)).IsFinite := standard_isFinite
  have hsave : ∃ tree', (withPlaces (mostPlaces + 1)).save bareTree "/c.toml" = (.ok (), tree') :=
    ⟨_, rfl⟩
  obtain ⟨tree', hsave⟩ := hsave
  have hsigned : ¬ IsSigned (withPlaces (mostPlaces + 1)).precision := by
    intro h
    exact absurd (h _ rfl) (by decide)
  refine ⟨hfinite, bareTree_isRooted, tree', hsave, fun s' hloaded => ?_⟩
  rw [loadFrom_of_not_isSigned hfinite bareTree_isRooted rfl hsave hsigned] at hloaded
  cases hloaded

end Settings
end PlaneReport
