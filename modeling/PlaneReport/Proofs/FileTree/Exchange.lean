import Mathlib.Data.Option.Basic
import PlaneReport.Proofs.FileTree.Frame
import PlaneReport.Proofs.Workspace.Search

/-!
# Trees that differ in the content of one file

Where paths lead and what can be created or written does not depend on what is in the files.  So if
the content of one file is exchanged, the same is done in both trees, and the trees go on to differ
in that content alone, until the file is written.  Main statement: `initialise_sameBut`.
-/

namespace PlaneReport

namespace Entries

variable {α : Type} {name other : String} {value value' : α} {entries : List (String × α)}

@[simp]
theorem assign_assign (name : String) (value value' : α) (entries : List (String × α)) :
    assign name value (assign name value' entries) = assign name value entries := by
  induction entries with
  | nil => simp [assign]
  | cons entry rest ih =>
    obtain ⟨n, old⟩ := entry
    by_cases hn : n = name <;> simp [assign, hn, ih]

/-- The order of two values does not matter if one of the names is there already. -/
theorem assign_comm (hne : other ≠ name) {old : α} (h : entries.lookup name = some old) :
    assign other value' (assign name value entries) =
      assign name value (assign other value' entries) := by
  induction entries with
  | nil => cases h
  | cons entry rest ih =>
    obtain ⟨n, first⟩ := entry
    by_cases hn : n = name
    · simp [assign, hn, Ne.symm hne]
    · have hrest : rest.lookup name = some old := by
        rwa [List.lookup_cons, beq_false_of_ne (Ne.symm hn)] at h
      by_cases ho : n = other
      · simp [assign, ho, hne]
      · simp [assign, hn, ho, ih hrest]

end Entries

namespace Node

variable {root root' node : Node} {location place : Location} {old new : ByteArray}

theorem put_put (node node' : Node) (location : Location) (root : Node) :
    put node location (put node' location root) = put node location root := by
  induction location generalizing root with
  | nil => rfl
  | cons name rest ih =>
    cases root with
    | file content => rfl
    | link target => rfl
    | directory entries =>
      rw [put]
      cases hlookup : entries.lookup name with
      | some inner =>
        dsimp only
        simp [put, hlookup, ih]
      | none =>
        dsimp only
        split
        · next hrest =>
          subst hrest
          simp [put, hlookup]
        · rfl

/-- A file and what is put elsewhere, but not above it, do not get in each other's way. -/
theorem put_comm (hplace : root.get? place = some (.file old)) (hne : location ≠ place)
    (hlocation : ¬ root.HasDirectory location) :
    put node location (put (.file new) place root) =
      put (.file new) place (put node location root) := by
  induction place generalizing location root with
  | nil =>
    cases hplace
    obtain ⟨name, rest, rfl⟩ := List.exists_cons_of_ne_nil hne
    rfl
  | cons first place ih =>
    cases root with
    | file content => cases hplace
    | link target => cases hplace
    | directory entries =>
      obtain ⟨inner, hinner, hrest⟩ := exists_member hplace
      cases location with
      | nil => exact absurd ⟨entries, rfl⟩ hlocation
      | cons name rest =>
        by_cases hname : name = first
        · subst hname
          have hbelow : ¬ inner.HasDirectory rest := by
            rintro ⟨members, hget⟩
            refine hlocation ⟨members, ?_⟩
            rw [get?, hinner]
            exact hget
          simp [put, hinner, ih hrest (fun h => hne (by rw [h])) hbelow]
        · cases hlookup : entries.lookup name with
          | some other =>
            simp [put, hinner, hlookup, hname, Ne.symm hname, Entries.assign_comm hname hinner]
          | none =>
            by_cases hend : rest = []
            · simp [put, hinner, hlookup, hname, Ne.symm hname, hend,
                Entries.assign_comm hname hinner]
            · simp [put, hinner, hlookup, hname, hend]

/-- Nodes that differ in the content of a file at most.  What is in a directory is looked at
apart. -/
inductive Exchanged (old new : ByteArray) : Node → Node → Prop
  | same (node : Node) : Exchanged old new node node
  | file : Exchanged old new (.file old) (.file new)
  | directory (entries entries' : List (String × Node)) :
    Exchanged old new (.directory entries) (.directory entries')

/-- At each location there are nodes that differ in the content of a file at most. -/
def Corresponds (old new : ByteArray) (root root' : Node) : Prop :=
  ∀ location, Option.Rel (Exchanged old new) (root.get? location) (root'.get? location)

theorem rel_refl (node? : Option Node) : Option.Rel (Exchanged old new) node? node? := by
  cases node? with
  | none => exact .none
  | some node => exact .some (.same node)

theorem corresponds_put (new : ByteArray) (h : root.get? place = some (.file old)) :
    Corresponds old new root (put (.file new) place root) := by
  intro location
  obtain hsame | ⟨below, rfl, hget⟩ | ⟨entries, entries', hdirectory, hdirectory'⟩ :=
    get?_put_cases (.file new) place location root
  · rw [hsame]
    exact rel_refl _
  · rw [hget, get?_append, h]
    cases below with
    | nil => exact .some .file
    | cons name rest => exact .none
  · rw [hdirectory, hdirectory']
    exact .some (.directory entries entries')

/-- A walk does not look into files. -/
theorem walkWith_of_corresponds (h : Corresponds old new root root') (last : Bool)
    (enter : Location → List String → Except IoError Spot) (here : Location)
    (pieces : List String) :
    root'.walkWith last enter here pieces = root.walkWith last enter here pieces := by
  induction pieces generalizing here with
  | nil => rw [walkWith, walkWith]
  | cons piece rest ih =>
    rw [walkWith, walkWith]
    simp only [ih]
    have hnext := h (here ++ [piece])
    generalize root.get? (here ++ [piece]) = node? at hnext
    generalize root'.get? (here ++ [piece]) = node?' at hnext
    cases hnext with
    | none => rfl
    | some hnode => cases hnode <;> rfl

theorem walk_of_corresponds (h : Corresponds old new root root') (last : Bool) (fuel : Nat) :
    root'.walk last fuel = root.walk last fuel := by
  induction fuel with
  | zero =>
    funext here pieces
    exact walkWith_of_corresponds h last _ here pieces
  | succ fuel ih =>
    funext here pieces
    rw [walk, walk, ih]
    exact walkWith_of_corresponds h last _ here pieces

end Node

namespace FileTree

variable {tree : FileTree} {place : Location} {old : ByteArray}

/-- The tree with a content in the file at a location. -/
def withFile (tree : FileTree) (place : Location) (content : ByteArray) : FileTree :=
  { tree with root := Node.put (.file content) place tree.root }

/-- The second tree is the first, or it has a new content in the place of an old one. -/
def SameBut (tree : FileTree) (place : Location) (old new : ByteArray) (tree' : FileTree) : Prop :=
  tree' = tree ∨ tree.root.get? place = some (.file old) ∧ tree' = tree.withFile place new

section Exchange

variable (hplace : tree.root.get? place = some (.file old)) (new : ByteArray)

include hplace

theorem resolve_withFile (last : Bool) (path : String) :
    (tree.withFile place new).resolve last path = tree.resolve last path := by
  have hwalk := Node.walk_of_corresponds (Node.corresponds_put new hplace) last mostLinks
  unfold resolve withFile
  dsimp only
  rw [hwalk]

/-- A path leads to the same in both trees, apart from what is exchanged. -/
theorem find_withFile (path : String) :
    (∃ e, tree.find path = .error e ∧ (tree.withFile place new).find path = .error e) ∨
      ∃ node node', tree.find path = .ok node ∧ (tree.withFile place new).find path = .ok node' ∧
        Node.Exchanged old new node node' := by
  unfold find
  rw [resolve_withFile hplace new]
  cases tree.resolve true path with
  | error e => exact .inl ⟨e, rfl, rfl⟩
  | ok spot =>
    cases spot with
    | removed depth => exact .inr ⟨_, _, rfl, rfl, .same _⟩
    | entry location slash =>
      have hnode := Node.corresponds_put new hplace location
      dsimp only [bind, Except.bind, withFile]
      generalize tree.root.get? location = node? at hnode ⊢
      generalize Node.get? location (Node.put (.file new) place tree.root) = node?' at hnode ⊢
      cases hnode with
      | none => exact .inl ⟨_, rfl, rfl⟩
      | @some node node' hnode =>
        have hdirectory : node'.isDirectory = node.isDirectory := by cases hnode <;> rfl
        dsimp only
        rw [hdirectory]
        split
        · exact .inl ⟨_, rfl, rfl⟩
        · exact .inr ⟨_, _, rfl, rfl, hnode⟩

theorem exists?_withFile (path : String) :
    (tree.withFile place new).exists? path = tree.exists? path := by
  unfold exists?
  obtain ⟨e, hfind, hfind'⟩ | ⟨node, node', hfind, hfind', -⟩ := find_withFile hplace new path
  · rw [hfind, hfind']
  · rw [hfind, hfind']
    rfl

theorem isFile_withFile (path : String) :
    (tree.withFile place new).isFile path = tree.isFile path := by
  unfold isFile
  obtain ⟨e, hfind, hfind'⟩ | ⟨node, node', hfind, hfind', hnode⟩ := find_withFile hplace new path
  · rw [hfind, hfind']
  · rw [hfind, hfind']
    cases hnode <;> rfl

theorem isDirectory_withFile (path : String) :
    (tree.withFile place new).isDirectory path = tree.isDirectory path := by
  unfold isDirectory
  obtain ⟨e, hfind, hfind'⟩ | ⟨node, node', hfind, hfind', hnode⟩ := find_withFile hplace new path
  · rw [hfind, hfind']
  · rw [hfind, hfind']
    cases hnode <;> rfl

/-- What is read is the same, or it is what was exchanged. -/
theorem read?_withFile (path : String) :
    (tree.withFile place new).read? path = tree.read? path ∨
      tree.read? path = some old ∧ (tree.withFile place new).read? path = some new := by
  unfold read?
  obtain ⟨e, hfind, hfind'⟩ | ⟨node, node', hfind, hfind', hnode⟩ := find_withFile hplace new path
  · rw [hfind, hfind']
    exact .inl rfl
  · rw [hfind, hfind']
    cases hnode with
    | same => exact .inl rfl
    | file => exact .inr ⟨rfl, rfl⟩
    | directory => exact .inl rfl

/-! ## Creating and writing -/

theorem createDirectory_withFile (path : String) :
    (tree.withFile place new).createDirectory path =
      (tree.createDirectory path).map fun tree => tree.withFile place new := by
  unfold createDirectory create
  rw [resolve_withFile hplace new]
  cases tree.resolve false path with
  | error e => rfl
  | ok spot =>
    cases spot with
    | removed depth => rfl
    | entry location slash =>
      have hnode := Node.corresponds_put new hplace location
      dsimp only [bind, Except.bind, withFile]
      cases hget : tree.root.get? location with
      | none =>
        rw [hget] at hnode
        generalize Node.get? location (Node.put (.file new) place tree.root) = node?' at hnode ⊢
        cases hnode
        have hne : location ≠ place := by
          rintro rfl
          cases hget.symm.trans hplace
        have hcomm : Node.put (.directory []) location (Node.put (.file new) place tree.root) = _ :=
          Node.put_comm hplace hne fun ⟨entries, hdirectory⟩ => nomatch hget.symm.trans hdirectory
        dsimp only
        rw [hcomm]
        split <;> rfl
      | some node =>
        rw [hget] at hnode
        generalize Node.get? location (Node.put (.file new) place tree.root) = node?' at hnode ⊢
        cases hnode
        rfl

theorem get?_createFirst (paths : List String) :
    (tree.createFirst paths).2.root.get? place = some (.file old) := by
  refine createFirst_induction (motive := fun tree => tree.root.get? place = some (.file old)) ?_
    hplace
  intro below below' path _ hbelow hcreate
  exact ((spares_createDirectory hcreate).root.files place old nofun).mpr hbelow

theorem createFirst_withFile (paths : List String) :
    (tree.withFile place new).createFirst paths =
      ((tree.createFirst paths).1, (tree.createFirst paths).2.withFile place new) := by
  induction paths with
  | nil => rfl
  | cons path above ih =>
    have habove := get?_createFirst hplace above
    rw [createFirst, createFirst]
    split
    · rfl
    · rw [createDirectory_withFile hplace new]
      cases tree.createDirectory path with
      | ok created => rfl
      | error e =>
        dsimp only [Except.map]
        split
        · rw [ih]
          generalize tree.createFirst above = created at habove
          obtain ⟨result, below⟩ := created
          cases result with
          | error e => rfl
          | ok =>
            dsimp only
            rw [createDirectory_withFile habove new]
            cases below.createDirectory path with
            | ok created => rfl
            | error e =>
              dsimp only [Except.map]
              rw [isDirectory_withFile habove new]
        · rw [isDirectory_withFile hplace new]

/-- A file is put in the place of the exchanged one, or it has nothing to do with that. -/
theorem withFile_sameBut {location : Location} (hfree : tree.root.IsFree location)
    (content : ByteArray) :
    (tree.withFile location content).SameBut place old new
      ((tree.withFile place new).withFile location content) := by
  unfold SameBut withFile
  dsimp only
  by_cases hsame : location = place
  · subst hsame
    rw [Node.put_put]
    exact .inl rfl
  · right
    constructor
    · exact ((Node.spares_put_file content hfree).files place old (by simpa using Ne.symm hsame)).mpr
        hplace
    · rw [Node.put_comm hplace hsame]
      rintro ⟨entries, hget⟩
      obtain ⟨content, hcontent⟩ := hfree _ hget
      cases hcontent

theorem write_withFile (htree : tree.IsRooted) {path : String} (hpath : Path.isAbsolute path = true)
    (content : ByteArray) :
    (∃ e, tree.write path content = .error e ∧
        (tree.withFile place new).write path content = .error e) ∨
      ∃ tree' tree'', tree.write path content = .ok tree' ∧
        (tree.withFile place new).write path content = .ok tree'' ∧
        tree'.SameBut place old new tree'' := by
  unfold write
  rw [resolve_withFile hplace new]
  cases hspot : tree.resolve true path with
  | error e => exact .inl ⟨e, rfl, rfl⟩
  | ok spot =>
    cases spot with
    | removed depth => exact .inl ⟨_, rfl, rfl⟩
    | entry location slash =>
      have hnode := Node.corresponds_put new hplace location
      have hroot : (tree.withFile place new).root = Node.put (.file new) place tree.root := rfl
      dsimp only [bind, Except.bind]
      rw [hroot]
      obtain ⟨entries, hget⟩ | ⟨hfree, -⟩ :=
        ((resolve_eq_ok_iff hpath).mp hspot).2.isEnd htree htree
      · rw [hget] at hnode ⊢
        generalize Node.get? location (Node.put (.file new) place tree.root) = node?' at hnode ⊢
        cases hnode with
        | some hnode => cases hnode <;> exact .inl ⟨_, rfl, rfl⟩
      · have hput := withFile_sameBut hplace new hfree content
        have hfile : ∀ node, tree.root.get? location = some node →
            ∃ content, node = .file content := hfree
        generalize tree.root.get? location = node? at hnode hfile ⊢
        generalize Node.get? location (Node.put (.file new) place tree.root) = node?' at hnode ⊢
        cases hnode with
        | none =>
          cases slash with
          | true => exact .inl ⟨_, rfl, rfl⟩
          | false => exact .inr ⟨_, _, rfl, rfl, hput⟩
        | some hnode =>
          obtain ⟨content, rfl⟩ := hfile _ rfl
          cases slash with
          | true => cases hnode <;> exact .inl ⟨_, rfl, rfl⟩
          | false => cases hnode <;> exact .inr ⟨_, _, rfl, rfl, hput⟩

theorem writeBelow_withFile (htree : tree.IsRooted) {path : String}
    (hpath : Path.isAbsolute path = true) (directory text : String) :
    ((tree.withFile place new).writeBelow (some directory) path text).1 =
        (tree.writeBelow (some directory) path text).1 ∧
      (tree.writeBelow (some directory) path text).2.SameBut place old new
        ((tree.withFile place new).writeBelow (some directory) path text).2 := by
  have hcreated : (tree.withFile place new).createDirectories directory =
      ((tree.createDirectories directory).1,
        (tree.createDirectories directory).2.withFile place new) :=
    createFirst_withFile hplace new _
  have hbelow : (tree.createDirectories directory).2.root.get? place = some (.file old) :=
    get?_createFirst hplace _
  have hrooted : (tree.createDirectories directory).2.IsRooted := isRooted_createFirst htree _
  unfold writeBelow
  dsimp only
  rw [hcreated]
  generalize tree.createDirectories directory = created at hbelow hrooted
  obtain ⟨result, below⟩ := created
  cases result with
  | error e => exact ⟨rfl, .inr ⟨hbelow, rfl⟩⟩
  | ok =>
    dsimp only [Except.mapError]
    obtain ⟨e, hwrite, hwrite'⟩ | ⟨tree', tree'', hwrite, hwrite', hdiffer⟩ :=
      write_withFile hbelow new hrooted hpath text.toUTF8
    · rw [hwrite, hwrite']
      exact ⟨rfl, .inr ⟨hbelow, rfl⟩⟩
    · rw [hwrite, hwrite']
      exact ⟨rfl, hdiffer⟩

end Exchange

end FileTree

namespace Settings

variable {tree tree' : FileTree} {place : Location} {old new : ByteArray}

/-- A settings file is started in the same way in both trees. -/
theorem initialise_sameBut (htrees : tree.SameBut place old new tree') (htree : tree.IsRooted)
    {directory : String} (hdirectory : Path.isAbsolute directory = true) (force : Bool) :
    (initialise tree' directory force).1 = (initialise tree directory force).1 ∧
      (initialise tree directory force).2.SameBut place old new
        (initialise tree' directory force).2 := by
  obtain rfl | ⟨hplace, rfl⟩ := htrees
  · exact ⟨rfl, .inl rfl⟩
  · unfold initialise
    dsimp only
    rw [FileTree.exists?_withFile hplace new]
    split
    · exact ⟨rfl, .inr ⟨hplace, rfl⟩⟩
    · obtain ⟨hresult, hdiffer⟩ := FileTree.writeBelow_withFile hplace new htree
        (FileTree.isAbsolute_settingsPath hdirectory)
        (Path.join directory FileTree.settingsDirectory) template
      exact ⟨congrArg (Except.map fun _ => FileTree.settingsPath directory) hresult, hdiffer⟩

theorem initialiseHere_sameBut (htrees : tree.SameBut place old new tree') (htree : tree.IsRooted)
    (force : Bool) :
    (initialiseHere tree' force).1 = (initialiseHere tree force).1 ∧
      (initialiseHere tree force).2.SameBut place old new (initialiseHere tree' force).2 := by
  have hcurrent : tree'.currentPath? = tree.currentPath? := by
    obtain rfl | ⟨-, rfl⟩ := htrees <;> rfl
  unfold initialiseHere
  rw [hcurrent]
  cases hpath : tree.currentPath? with
  | none => exact ⟨rfl, htrees⟩
  | some current =>
    exact initialise_sameBut htrees htree (FileTree.isAbsolute_of_currentPath? hpath) force

end Settings
end PlaneReport
