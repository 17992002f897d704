import Mathlib
import PlaneReport.Proofs.Layer.Leaf
import PlaneReport.Proofs.Outline.Same
import PlaneReport.Proofs.Toml.Distinct
import PlaneReport.Workspace.Load

/-!
# Settings leaf by leaf

Loaded settings are three layers merged and then decoded.  Seen from a leaf there are no layers:
it has the value of the last variable that names it, else the value that the file gives it, else
its standard.  The main statement is `loadFrom_leaf`.
-/

namespace PlaneReport

open Layer (Value)

/-! ## Layers that are open towards leaves -/

namespace Layer
namespace Value

variable {value inner : Value} {key : String} {before path : List String} {source : Source}

theorem isTable_of_isOpen (h : IsOpen (before ++ key :: path) value)
    (hinner : at? before value = some inner) : inner.IsTable := by
  induction before generalizing value with
  | nil =>
    cases hinner
    obtain ⟨source, members, rfl, -⟩ := isOpen_cons h
    trivial
  | cons first before ih =>
    obtain ⟨source, members, rfl, -, hopen⟩ := isOpen_cons h
    replace hinner : (members.lookup first).bind (at? before) = some inner := hinner
    obtain ⟨next, hnext, hinner⟩ := Option.bind_eq_some_iff.mp hinner
    exact ih (hopen next hnext) hinner

/-- A value that is open towards all leaves has tables in their place. -/
theorem hasTables_of_isOpen (h : ∀ leaf : Leaf, IsOpen leaf.path value) : Leaf.HasTables value := by
  intro branch hbranch inner hinner
  simp only [Leaf.branches, List.mem_cons, List.not_mem_nil, or_false] at hbranch
  rcases hbranch with rfl | rfl | rfl | rfl | rfl | rfl
  · exact isTable_of_isOpen (h .version) hinner
  · exact isTable_of_isOpen (h .a : IsOpen (["inputs"] ++ "a" :: []) value) hinner
  · exact isTable_of_isOpen (h .sourceX : IsOpen (["inputs", "from"] ++ "x" :: []) value) hinner
  · exact isTable_of_isOpen (h .targetX : IsOpen (["inputs", "to"] ++ "x" :: []) value) hinner
  · exact isTable_of_isOpen (h .precision : IsOpen (["output"] ++ "precision" :: []) value) hinner
  · exact isTable_of_isOpen (h .level : IsOpen (["logging"] ++ "level" :: []) value) hinner

/-! ### The file -/

theorem map_fst_membersOfOutlines? {members : List (Option String × Outline)}
    {values : List (String × Value)} (h : membersOfOutlines? source members = some values) :
    members.map Prod.fst = (values.map Prod.fst).map some := by
  induction members generalizing values with
  | nil =>
    rw [membersOfOutlines?] at h
    cases h
    rfl
  | cons member rest ih =>
    obtain ⟨key, item⟩ := member
    cases key with
    | none =>
      rw [membersOfOutlines?] at h
      cases h
    | some key =>
      rw [membersOfOutlines?] at h
      split at h
      · next value others _ hothers =>
        cases h
        rw [List.map_cons, List.map_cons, List.map_cons, ih hothers]
      · cases h

theorem mem_of_lookup_membersOfOutlines? {members : List (Option String × Outline)}
    {values : List (String × Value)} (h : membersOfOutlines? source members = some values)
    (hlookup : values.lookup key = some value) :
    ∃ member ∈ members, ofOutline? source member.2 = some value := by
  induction members generalizing values with
  | nil =>
    rw [membersOfOutlines?] at h
    cases h
    cases hlookup
  | cons member rest ih =>
    obtain ⟨name, item⟩ := member
    cases name with
    | none =>
      rw [membersOfOutlines?] at h
      cases h
    | some name =>
      rw [membersOfOutlines?] at h
      split at h
      · next first others hfirst hothers =>
        cases h
        rw [List.lookup_cons] at hlookup
        by_cases hname : key = name
        · rw [hname, beq_self_eq_true] at hlookup
          cases hlookup
          exact ⟨_, List.mem_cons_self, hfirst⟩
        · rw [beq_false_of_ne hname] at hlookup
          obtain ⟨member, hmember, hvalue⟩ := ih hothers hlookup
          exact ⟨member, List.mem_cons_of_mem _ hmember, hvalue⟩
      · cases h

theorem exists_outlines {outline : Outline} (h : ofOutline? source outline = some value)
    (htable : value.IsTable) :
    ∃ members values, outline = .table members true ∧ value = .table source values ∧
      membersOfOutlines? source members = some values := by
  rw [ofOutline?.eq_def] at h
  split at h
  · cases h
    exact absurd htable id
  · split at h
    · cases h
      exact absurd htable id
    · cases h
  · cases h
    exact absurd htable id
  · cases h
    exact absurd htable id
  · cases h
    exact absurd htable id
  · obtain ⟨items, -, h⟩ := Option.map_eq_some_iff.mp h
    cases h
    exact absurd htable id
  · next members =>
    obtain ⟨values, hvalues, h⟩ := Option.map_eq_some_iff.mp h
    exact ⟨members, values, rfl, h.symm, hvalues⟩
  · cases h

/-- Along a path on which a file has tables only, it is open: its tables have no key twice. -/
theorem isOpen_ofOutline {outline : Outline} (hproper : outline.Proper)
    (h : ofOutline? source outline = some value)
    (htables : ∀ before key after, path = before ++ key :: after →
      ∀ inner, at? before value = some inner → inner.IsTable) : IsOpen path value := by
  induction path generalizing outline value with
  | nil => trivial
  | cons key path ih =>
    have htable := htables [] key path rfl value rfl
    obtain ⟨members, values, rfl, rfl, hvalues⟩ := exists_outlines h htable
    cases hproper with
    | plain hplain => exact absurd hplain id
    | table hkeys _ hmembers =>
      rw [map_fst_membersOfOutlines? hvalues] at hkeys
      refine ⟨hkeys.of_map some, fun inner hlookup => ?_⟩
      obtain ⟨member, hmember, hinner⟩ := mem_of_lookup_membersOfOutlines? hvalues hlookup
      refine ih (hmembers member hmember) hinner fun before next after hpath deep hdeep => ?_
      refine htables (key :: before) next after (congrArg (key :: ·) hpath) deep ?_
      show (values.lookup key).bind (at? before) = _
      rw [hlookup]
      exact hdeep

/-! ### Single variables -/

theorem isOpen_nest {keys : List String} (h : keys = path ∨ ¬ keys <+: path) :
    IsOpen path (nest source value keys) := by
  induction keys generalizing path with
  | nil =>
    rcases h with rfl | h
    · trivial
    · exact absurd List.nil_prefix h
  | cons key keys ih =>
    cases path with
    | nil => trivial
    | cons first path =>
      refine ⟨List.nodup_singleton key, fun inner hlookup => ?_⟩
      by_cases hkey : first = key
      · have hinner : some (nest source value keys) = some inner := by
          rw [← hlookup, List.lookup_cons, hkey, beq_self_eq_true]
        cases hinner
        refine ih ?_
        rcases h with h | h
        · cases h
          exact Or.inl rfl
        · rw [hkey, List.prefix_cons_inj] at h
          exact Or.inr h
      · rw [List.lookup_cons, beq_false_of_ne hkey] at hlookup
        cases hlookup

@[simp]
theorem at?_nest_self (keys : List String) : at? keys (nest source value keys) = some value := by
  induction keys with
  | nil => rfl
  | cons key keys ih =>
    show (List.lookup key [(key, nest source value keys)]).bind (at? keys) = _
    rw [List.lookup_cons, beq_self_eq_true]
    exact ih

theorem at?_nest_other {keys : List String} (h : ¬ keys <+: path) (h' : ¬ path <+: keys) :
    at? path (nest source value keys) = none := by
  induction keys generalizing path with
  | nil => exact absurd List.nil_prefix h
  | cons key keys ih =>
    cases path with
    | nil => exact absurd List.nil_prefix h'
    | cons first path =>
      show (List.lookup first [(key, nest source value keys)]).bind (at? path) = _
      by_cases hkey : first = key
      · rw [hkey, List.prefix_cons_inj] at h h'
        rw [List.lookup_cons, hkey, beq_self_eq_true]
        exact ih h h'
      · rw [List.lookup_cons, beq_false_of_ne hkey]
        rfl

end Value
end Layer

namespace Leaf

theorem take_path_mem_branches (leaf : Leaf) :
    ∀ n < leaf.path.length, leaf.path.take n ∈ branches := by
  cases leaf <;> decide

theorem mem_branches_of_path_eq {leaf : Leaf} {before after : List String} {key : String}
    (h : leaf.path = before ++ key :: after) : before ∈ branches := by
  have hmem := take_path_mem_branches leaf before.length
  rw [h, List.take_left, List.length_append, List.length_cons] at hmem
  exact hmem (by omega)

/-- No leaf stands inside another. -/
theorem not_prefix_of_ne {leaf other : Leaf} (h : leaf ≠ other) : ¬ leaf.path <+: other.path := by
  cases leaf <;> cases other <;> first | exact absurd rfl h | decide

end Leaf

/-! ## The layer of the environment -/

namespace Environment

/-- The value of the last variable whose name leads to a path. -/
def lastValue? (environment : Environment) (keys : List String) : Option Value :=
  (environment.filter fun entry => path? entry.1 == some keys).getLast?.map fun entry =>
    valueOfText entry.2

/-- Whether the variables that count name leaves, or what is neither inside nor around a leaf. -/
def NamesLeaves (environment : Environment) : Prop :=
  ∀ entry ∈ environment, ∀ keys ∈ path? entry.1,
    (∃ leaf : Leaf, keys = leaf.path) ∨
      ∀ leaf : Leaf, ¬ keys <+: leaf.path ∧ ¬ leaf.path <+: keys

instance (environment : Environment) : Decidable environment.NamesLeaves :=
  inferInstanceAs (Decidable (∀ entry ∈ environment, ∀ keys ∈ path? entry.1,
    (∃ leaf : Leaf, keys = leaf.path) ∨
      ∀ leaf : Leaf, ¬ keys <+: leaf.path ∧ ¬ leaf.path <+: keys))

variable {environment : Environment} {entry : String × String} {keys : List String} {leaf : Leaf}

theorem setting?_eq_none (h : path? entry.1 = none) : setting? entry = none := by
  unfold setting?
  rw [h]
  rfl

theorem setting?_eq_some (h : path? entry.1 = some keys) :
    setting? entry = some (.nest .environment (valueOfText entry.2) keys) := by
  unfold setting?
  rw [h]
  rfl

theorem layer_append_none (h : path? entry.1 = none) :
    layer (environment ++ [entry]) = layer environment := by
  unfold layer
  rw [List.filterMap_append, List.filterMap_cons_none (setting?_eq_none h), List.filterMap_nil,
    List.append_nil]

theorem layer_append_some (h : path? entry.1 = some keys) :
    layer (environment ++ [entry]) =
      (layer environment).merge (.nest .environment (valueOfText entry.2) keys) := by
  unfold layer
  rw [List.filterMap_append, List.filterMap_cons_some (setting?_eq_some h), List.filterMap_nil,
    List.foldl_append]
  rfl

theorem lastValue?_append_same (h : path? entry.1 = some keys) :
    lastValue? (environment ++ [entry]) keys = some (valueOfText entry.2) := by
  unfold lastValue?
  rw [List.filter_append, List.filter_cons_of_pos (by rw [h]; exact beq_self_eq_true _),
    List.filter_nil, List.getLast?_concat]
  rfl

theorem lastValue?_append_other (h : path? entry.1 ≠ some keys) :
    lastValue? (environment ++ [entry]) keys = lastValue? environment keys := by
  unfold lastValue?
  rw [List.filter_append, List.filter_cons_of_neg (by rw [beq_iff_eq]; exact h), List.filter_nil,
    List.append_nil]

/-- A variable that counts is open towards every leaf, and leads to a leaf only if it names it. -/
theorem nest_leaf (value : Value)
    (h : (∃ leaf : Leaf, keys = leaf.path) ∨
      ∀ leaf : Leaf, ¬ keys <+: leaf.path ∧ ¬ leaf.path <+: keys) (leaf : Leaf) :
    Value.IsOpen leaf.path (.nest .environment value keys) ∧
      (keys ≠ leaf.path → Value.at? leaf.path (.nest .environment value keys) = none) := by
  rcases h with ⟨named, rfl⟩ | h
  · by_cases hleaf : named = leaf
    · rw [hleaf]
      exact ⟨Value.isOpen_nest (Or.inl rfl), fun hne => absurd rfl hne⟩
    · have hnot := Leaf.not_prefix_of_ne hleaf
      exact ⟨Value.isOpen_nest (Or.inr hnot), fun _ =>
        Value.at?_nest_other hnot (Leaf.not_prefix_of_ne (Ne.symm hleaf))⟩
  · exact ⟨Value.isOpen_nest (Or.inr (h leaf).1),
        fun _ => Value.at?_nest_other (h leaf).1 (h leaf).2⟩

/-- What a layer has at a path: nothing, or what a value settles to. -/
def Shows (result : Option Value) : Option Value → Prop
  | none => result = none
  | some value => ∃ shown, result = some shown ∧ value.Settles shown

/-- Variable by variable, the layer shows at a leaf what the last one says that names it. -/
theorem layer_leaf (h : environment.NamesLeaves) (leaf : Leaf) :
    Value.IsOpen leaf.path environment.layer ∧
      Shows (environment.layer.at? leaf.path) (environment.lastValue? leaf.path) := by
  induction environment using List.reverseRecOn with
  | nil => cases leaf <;> exact ⟨⟨List.nodup_nil, fun _ hlookup => nomatch hlookup⟩, rfl⟩
  | append_singleton environment entry ih =>
    obtain ⟨hopen, hshows⟩ := ih fun other hother => h other (List.mem_append_left _ hother)
    cases hpath : path? entry.1 with
    | none =>
      rw [layer_append_none hpath, lastValue?_append_other (by rw [hpath]; exact nofun)]
      exact ⟨hopen, hshows⟩
    | some keys =>
      have hkeys := h entry (List.mem_append_right _ (List.mem_singleton_self entry)) keys hpath
      obtain ⟨hnest, hother⟩ := nest_leaf (valueOfText entry.2) hkeys leaf
      rw [layer_append_some hpath]
      refine ⟨Value.isOpen_merge hopen hnest, ?_⟩
      by_cases hsame : keys = leaf.path
      · rw [hsame] at hpath hnest ⊢
        rw [lastValue?_append_same hpath]
        exact Value.at?_merge_of_some hnest (Value.at?_nest_self _)
      · rw [lastValue?_append_other (by rw [hpath]; exact fun heq => hsame (Option.some.inj heq)),
          Value.at?_merge_of_none hnest (hother hsame)]
        exact hshows

end Environment

/-! ## The standard and the file -/

namespace Layer
namespace Value

variable {value inner : Value} {key : String} {path : List String} {source : Source}
  {members : List (String × Value)}

theorem isOpen_of_lookup (hkeys : (members.map Prod.fst).Nodup)
    (h : members.lookup key = some inner) (hinner : IsOpen path inner) :
    IsOpen (key :: path) (.table source members) := by
  refine ⟨hkeys, fun other hother => ?_⟩
  rw [h] at hother
  cases hother
  exact hinner

theorem isOpen_of_absent (hkeys : (members.map Prod.fst).Nodup) (h : members.lookup key = none) :
    IsOpen (key :: path) (.table source members) := by
  refine ⟨hkeys, fun other hother => ?_⟩
  rw [h] at hother
  cases hother

theorem isOpen_standard (leaf : Leaf) : IsOpen leaf.path Settings.standard.layer := by
  cases leaf with
  | version => exact isOpen_of_lookup (by decide) rfl trivial
  | a | b | level =>
    exact isOpen_of_lookup (by decide) rfl (isOpen_of_lookup (by decide) rfl trivial)
  | precision =>
    exact isOpen_of_lookup (by decide) rfl (isOpen_of_absent (by decide) rfl)
  | sourceX | sourceY | targetX | targetY =>
    exact isOpen_of_lookup (by decide) rfl
      (isOpen_of_lookup (by decide) rfl (isOpen_of_lookup (by decide) rfl trivial))

theorem holds_standard (leaf : Leaf) :
    leaf.Holds Settings.standard (Settings.standard.layer.at? leaf.path) := by
  cases leaf <;> rfl

theorem isOpen_empty (source : Source) (path : List String) : IsOpen path (Layer.empty source) := by
  cases path with
  | nil => trivial
  | cons key path => exact isOpen_of_absent List.nodup_nil rfl

end Value

theorem isOpen_ofContent {shown : String} {content : ByteArray} {file : Value}
    (h : ofContent shown content = .ok file) (htables : Leaf.HasTables file) (leaf : Leaf) :
    Value.IsOpen leaf.path file := by
  unfold ofContent at h
  split at h
  · cases h
  · split at h
    · cases h
    · next text value hvalue =>
      cases h
      obtain ⟨outline, houtline, hvalue⟩ := Option.bind_eq_some_iff.mp hvalue
      refine Value.isOpen_ofOutline (Toml.outline?_proper houtline) hvalue ?_
      intro before key after hpath inner hinner
      exact htables before (Leaf.mem_branches_of_path_eq hpath) inner hinner

end Layer

theorem FileTree.isOpen_fileLayer {tree : FileTree} {path : String} {file : Value}
    (h : tree.fileLayer path = .ok file) (htables : Leaf.HasTables file) (leaf : Leaf) :
    Value.IsOpen leaf.path file := by
  unfold fileLayer at h
  split at h
  · cases h
    exact Value.isOpen_empty _ _
  · split at h
    · cases h
      exact Value.isOpen_empty _ _
    · exact Layer.isOpen_ofContent h htables leaf

/-! ## Loading -/

namespace Leaf

variable {leaf : Leaf} {s : Settings} {value shown : Value}

theorem not_isTable_of_read {kind : ContentKind} {content : Content}
    (h : kind.read value = some content) : ¬ value.IsTable := by
  cases value with
  | table source members => cases kind <;> cases h
  | bool | integer | number | string | list => exact id

/-- What decodes as a leaf is the very value that it settles from. -/
theorem holds_of_settles (hshown : leaf.Holds s (some shown)) (h : value.Settles shown) :
    leaf.Holds s (some value) := by
  rcases h with heq | ⟨-, htable⟩
  · rw [heq] at hshown
    exact hshown
  · exact absurd htable (not_isTable_of_read hshown)

theorem content_eq_standard {result : Option Value} (h : leaf.Holds s result)
    (h' : leaf.Holds Settings.standard result) :
    leaf.content s = leaf.content Settings.standard := by
  cases result with
  | none => exact h
  | some value => exact Option.some.inj (h.symm.trans h')

end Leaf

namespace Settings

/-- A leaf of loaded settings has the value of the last variable that names it, else the value that
the file gives it, else its standard. -/
theorem loadFrom_leaf {tree : FileTree} {environment : Environment} {path : String} {file : Value}
    {s : Settings} (hfile : tree.fileLayer path = .ok file) (htables : Leaf.HasTables file)
    (hnames : environment.NamesLeaves) (hload : loadFrom tree environment path = .ok s)
    (leaf : Leaf) :
    leaf.Holds s ((environment.lastValue? leaf.path).or (file.at? leaf.path)) := by
  have hdecoded : ((standard.layer.merge file).merge environment.layer).toSettings = .ok s := by
    unfold loadFrom at hload
    rw [hfile] at hload
    exact mapError_eq_ok.mp hload
  have hfileOpen := FileTree.isOpen_fileLayer hfile htables
  have hopen : ∀ leaf : Leaf, Value.IsOpen leaf.path
      ((standard.layer.merge file).merge environment.layer) := fun leaf =>
    Value.isOpen_merge (Value.isOpen_merge (Value.isOpen_standard leaf) (hfileOpen leaf))
      (Environment.layer_leaf hnames leaf).1
  have hholds := Value.toSettings_leaf hdecoded (Value.hasTables_of_isOpen hopen) leaf
  obtain ⟨hlayer, hshows⟩ := Environment.layer_leaf hnames leaf
  cases hlast : environment.lastValue? leaf.path with
  | some value =>
    rw [hlast] at hshows
    obtain ⟨shown, hshown, hsettles⟩ := hshows
    obtain ⟨result, hresult, hfinal⟩ := Value.at?_merge_of_some hlayer hshown
    rw [hresult] at hholds
    exact Leaf.holds_of_settles hholds (hsettles.trans hfinal)
  | none =>
    rw [hlast] at hshows
    rw [Value.at?_merge_of_none hlayer hshows] at hholds
    rw [Option.none_or]
    cases hgiven : file.at? leaf.path with
    | some value =>
      obtain ⟨result, hresult, hfinal⟩ := Value.at?_merge_of_some (hfileOpen leaf) hgiven
      rw [hresult] at hholds
      exact Leaf.holds_of_settles hholds hfinal
    | none =>
      rw [Value.at?_merge_of_none (hfileOpen leaf) hgiven] at hholds
      exact Leaf.content_eq_standard hholds (Value.holds_standard leaf)

/-! ### A file and variables that each set a part -/

theorem fromUTF8?_toUTF8 (text : String) : String.fromUTF8? text.toUTF8 = some text := by
  unfold String.fromUTF8?
  rw [String.toUTF8_eq_toByteArray]
  exact dif_pos text.isValidUTF8

theorem ofContent_toUTF8 (shown text : String) :
    Layer.ofContent shown text.toUTF8 =
      match (Toml.outline? .v1_0 text).bind (Value.ofOutline? (.file shown)) with
      | none => .error (.malformed shown text)
      | some value => .ok value := by
  have hread := fromUTF8?_toUTF8 text
  unfold Layer.ofContent
  generalize String.fromUTF8? text.toUTF8 = read at hread ⊢
  subst hread
  rfl

/-- A file that sets one operand and one coordinate. -/
def partialText : String := "[inputs]\nb = 7\nfrom.x = 5\n"

def partialTree : FileTree where
  root := .directory [("c.toml", .file partialText.toUTF8)]
  current := []

def partialFile : Value :=
  let table := Value.table (.file "c.toml")
  table [("inputs", table
    [("b", .integer (.file "c.toml") true 7),
      ("from", table [("x", .integer (.file "c.toml") true 5)])])]

/-- Variables that set the other coordinate, the version twice, and nothing else. -/
def partialEnvironment : Environment :=
  [("PLANAR_VERSION", "3"), ("PLANAR_FROM", "9"), ("planar_inputs__from__y", "12"),
    (" Planar_Version", "4"), ("PLANAR_INPUTS__C", "{a = [1]}")]

def partialSettings : Settings where
  version := 4
  inputs := { Inputs.standard with b := 7, source := ⟨.ofInt 5, .ofInt 12⟩ }
  precision := none
  level := "warn"

theorem fileLayer_partial : partialTree.fileLayer "c.toml" = .ok partialFile := by
  have hfound : partialTree.lookUp? "c.toml" = some "/c.toml" := by decide
  have hshown : Path.shown partialTree.currentPath? "/c.toml" = "c.toml" := by decide
  have hread : partialTree.read? "/c.toml" = some partialText.toUTF8 := by decide
  have houtline : Toml.outline? .v1_0 partialText =
      some (.table [(some "inputs", .table
        [(some "b", .integer 7), (some "from", .table [(some "x", .integer 5)] true)] true)] true) :=
    Outline.eq_some_of_same (by decide +kernel)
  unfold FileTree.fileLayer
  rw [hfound]
  dsimp only
  rw [hread]
  dsimp only
  rw [hshown, ofContent_toUTF8, houtline]
  rfl

theorem loadFrom_partial {environment : Environment} {s : Settings}
    (h : ofLayers partialFile environment.layer = .ok s) :
    loadFrom partialTree environment "c.toml" = .ok s := by
  unfold loadFrom
  rw [fileLayer_partial]
  exact h

theorem loadFrom_leaf_partial :
    partialTree.fileLayer "c.toml" = .ok partialFile ∧ Leaf.HasTables partialFile ∧
      partialEnvironment.NamesLeaves ∧
      loadFrom partialTree partialEnvironment "c.toml" = .ok partialSettings ∧
      ∀ leaf : Leaf, leaf.Holds partialSettings
        ((partialEnvironment.lastValue? leaf.path).or (partialFile.at? leaf.path)) := by
  have htables : Leaf.HasTables partialFile := by decide
  have hnames : partialEnvironment.NamesLeaves := by decide
  have hload : loadFrom partialTree partialEnvironment "c.toml" = .ok partialSettings :=
    loadFrom_partial (by decide +kernel)
  exact ⟨fileLayer_partial, htables, hnames, hload,
    loadFrom_leaf fileLayer_partial htables hnames hload⟩

/-- The path of keys in a name if the blanks behind its start were kept. -/
def untrimmedPath? (name : String) : Option (List String) :=
  let name := Text.trim name.toList
  if Text.sameWord (name.take Environment.nameStart.length) Environment.nameStart then
    let rest := (name.drop Environment.nameStart.length).map Text.lowerAscii
    some ((Text.splitAt '.' (Environment.pointed rest)).map String.ofList)
  else none

/-- A blank behind the start of a name is cut off, so a variable can set a leaf that its name, taken
with the blank, does not lead to. -/
theorem loadFrom_blank_in_name :
    untrimmedPath? "PLANAR_ INPUTS__A" = some [" inputs", "a"] ∧
      (∀ leaf : Leaf, ¬ [" inputs", "a"] <+: leaf.path ∧ ¬ leaf.path <+: [" inputs", "a"]) ∧
      partialTree.fileLayer "c.toml" = .ok partialFile ∧ Leaf.HasTables partialFile ∧
      partialFile.at? Leaf.a.path = none ∧
      ∃ s, loadFrom partialTree [("PLANAR_ INPUTS__A", "31")] "c.toml" = .ok s ∧
        Leaf.a.content s ≠ Leaf.a.content standard := by
  have hload : loadFrom partialTree [("PLANAR_ INPUTS__A", "31")] "c.toml" =
      .ok { standard with inputs :=
        ⟨31, 7, ⟨.ofInt 5, Binary.Number.zero⟩, Inputs.standard.target⟩ } :=
    loadFrom_partial (by decide +kernel)
  refine ⟨by decide, by decide, fileLayer_partial, by decide, rfl, _, hload, ?_⟩
  decide

end Settings
end PlaneReport
