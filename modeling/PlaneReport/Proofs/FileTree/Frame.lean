import PlaneReport.Proofs.FileTree

/-!
# What stays of a file tree

Creating directories and writing a file leave all directories, links and other files in place, and
add nothing but the file and directories on the way.  Main statement: `writeBelow_grows`.
-/

namespace PlaneReport

namespace Node

variable {root root' root'' new : Node} {location other : Location} {place : Option Location}

/-- Directories and links stay what they are, and so do files, but for the one at a place if there
is such a place.  No other file is added. -/
structure Spares (root : Node) (place : Option Location) (root' : Node) : Prop
    extends Keeps root root' where
  files (location : Location) (content : ByteArray) : some location ≠ place →
    (root'.get? location = some (.file content) ↔ root.get? location = some (.file content))

theorem Spares.refl (root : Node) (place : Option Location) : root.Spares place root :=
  ⟨.refl root, fun _ _ _ => .rfl⟩

theorem Keeps.trans (h : root.Keeps root') (h' : root'.Keeps root'') : root.Keeps root'' :=
  ⟨fun location hget => h'.directories location (h.directories location hget),
    fun location target hget => h'.links location target (h.links location target hget)⟩

theorem Spares.trans (h : root.Spares none root') (h' : root'.Spares place root'') :
    root.Spares place root'' :=
  ⟨h.toKeeps.trans h'.toKeeps, fun location content hother =>
    (h'.files location content hother).trans (h.files location content nofun)⟩

/-- Where neither a directory nor a link was, no file is covered and none comes to light, apart from
what was there and what is put there. -/
theorem get?_put_file_iff {content : ByteArray} (hfree : root.IsFree location)
    (hnew : ∀ below, other = location ++ below → new.get? below ≠ some (.file content))
    (hold : other = location → root.get? other ≠ some (.file content)) :
    (put new location root).get? other = some (.file content) ↔
      root.get? other = some (.file content) := by
  obtain hsame | ⟨below, rfl, hget⟩ | ⟨entries, entries', hdirectory, hdirectory'⟩ :=
    get?_put_cases new location other root
  · rw [hsame]
  · refine iff_of_false (hget ▸ hnew below rfl) fun hfile => ?_
    obtain ⟨rfl, -⟩ := hfree.of_get?_append hfile
    exact hold (List.append_nil location) hfile
  · refine iff_of_false (fun h => ?_) fun h => ?_
    · cases hdirectory'.symm.trans h
    · cases hdirectory.symm.trans h

/-- What comes to be where nothing was is part of what is put. -/
theorem of_get?_put {node : Node} (hnone : root.get? other = none)
    (h : (put new location root).get? other = some node) :
    ∃ below, other = location ++ below ∧ new.get? below = some node := by
  obtain hsame | ⟨below, rfl, hget⟩ | ⟨entries, -, hdirectory, -⟩ :=
    get?_put_cases new location other root
  · cases hnone.symm.trans (hsame.symm.trans h)
  · exact ⟨below, rfl, hget.symm.trans h⟩
  · cases hnone.symm.trans hdirectory

/-- Nothing is removed if there is something at the place that may have changed. -/
theorem Spares.kept (h : root.Spares place root')
    (hplace : ∀ location, place = some location → root'.get? location ≠ none)
    (hthere : root.get? location ≠ none) : root'.get? location ≠ none := by
  cases hget : root.get? location with
  | none => exact absurd hget hthere
  | some node =>
    cases node with
    | directory entries =>
      obtain ⟨entries', hget'⟩ := h.directories location ⟨entries, hget⟩
      exact Option.ne_none_iff_exists'.mpr ⟨_, hget'⟩
    | link target => exact Option.ne_none_iff_exists'.mpr ⟨_, h.links location target hget⟩
    | file content =>
      by_cases hsame : some location = place
      · exact hplace location hsame.symm
      · exact Option.ne_none_iff_exists'.mpr ⟨_, (h.files location content hsame).mpr hget⟩

/-- A file is the only one that changes when it is written. -/
theorem spares_put_file (content : ByteArray) (hfree : root.IsFree location) :
    root.Spares (some location) (put (.file content) location root) := by
  refine ⟨keeps_put hfree, fun other content hother => get?_put_file_iff hfree ?_ ?_⟩
  · intro below h
    have hbelow : below ≠ [] := by
      rintro rfl
      simp [h] at hother
    obtain ⟨name, rest, rfl⟩ := List.exists_cons_of_ne_nil hbelow
    nofun
  · rintro rfl
    exact absurd rfl hother

/-- An empty directory takes no place but one where nothing was. -/
theorem spares_put_directory (h : root.get? location = none) :
    root.Spares none (put (.directory []) location root) := by
  have hfree : root.IsFree location := fun node hnode => nomatch h.symm.trans hnode
  refine ⟨keeps_put hfree, fun other content _ => get?_put_file_iff hfree ?_ ?_⟩
  · rintro (_ | ⟨name, rest⟩) - <;> nofun
  · rintro rfl
    rw [h]
    nofun

end Node

namespace FileTree

variable {tree tree' tree'' : FileTree} {path directory text : String} {place : Option Location}

/-- The program stays where it stands, in a tree that has kept all but the file at a place. -/
structure Spares (tree : FileTree) (place : Option Location) (tree' : FileTree) : Prop where
  root : tree.root.Spares place tree'.root
  current : tree'.current = tree.current
  lost : tree'.lost = tree.lost

theorem Spares.refl (tree : FileTree) (place : Option Location) : tree.Spares place tree :=
  ⟨.refl _ _, rfl, rfl⟩

theorem Spares.trans (h : tree.Spares none tree') (h' : tree'.Spares place tree'') :
    tree.Spares place tree'' :=
  ⟨h.root.trans h'.root, h'.current.trans h.current, h'.lost.trans h.lost⟩

theorem Spares.currentPath?_eq (h : tree.Spares place tree') :
    tree'.currentPath? = tree.currentPath? := by
  rw [currentPath?, currentPath?, h.lost, h.current]

/-- A path that leads to the one file that may have changed led to it before, if to any file. -/
theorem Spares.resolve_of_isFile {location : Location} (h : tree.Spares (some location) tree')
    (hspot : tree'.resolve true path = .ok (.entry location false))
    (hfile : tree.isFile path = true) : tree.resolve true path = .ok (.entry location false) := by
  obtain ⟨old, content, hold, hget⟩ := FileTree.resolve_of_isFile hfile
  by_cases hsame : old = location
  · rwa [← hsame]
  · have hget' : tree'.root.get? old = some (.file content) :=
      (h.root.files old content (by simpa using hsame)).mpr hget
    obtain ⟨hfit, here, pieces, hstart, hleads⟩ := resolve_eq_entry_iff.mp hold
    rw [← start?_congr h.current h.lost] at hstart
    have hspot' := resolve_eq_entry_iff.mpr
      ⟨hfit, here, pieces, hstart, hleads.keeps h.root.toKeeps hget'⟩
    cases hspot.symm.trans hspot'
    exact absurd rfl hsame

/-- A path leads on to where a directory has come to be. -/
theorem Spares.resolve_of_hasDirectory {location : Location} {slash : Bool}
    (h : tree.Spares place tree') (hspot : tree.resolve true path = .ok (.entry location slash))
    (hthere : tree'.root.HasDirectory location) :
    tree'.resolve true path = .ok (.entry location false) := by
  obtain ⟨hfit, here, pieces, hstart, hleads⟩ := resolve_eq_entry_iff.mp hspot
  rw [← start?_congr h.current h.lost] at hstart
  exact resolve_eq_entry_iff.mpr ⟨hfit, here, pieces, hstart, hleads.arrives h.root.toKeeps hthere⟩

theorem Spares.startsInside (h : tree.Spares place tree') (hstart : tree.StartsInside path) :
    tree'.StartsInside path := by
  intro here pieces hpieces
  rw [start?_congr h.current h.lost] at hpieces
  exact h.root.directories here (hstart here pieces hpieces)

theorem spares_createDirectory (h : tree.createDirectory path = .ok tree') :
    tree.Spares none tree' := by
  obtain ⟨location, slash, -, hnone, rfl⟩ := createDirectory_eq_ok h
  exact ⟨Node.spares_put_directory hnone, rfl, rfl⟩

/-! ## What is added -/

/-- Nothing is removed, and only the file at the place may have changed.  What is new is that file,
or a directory that one of the paths leads to. -/
structure Grows (tree : FileTree) (place : Option Location) (paths : List String)
    (tree' : FileTree) : Prop extends Spares tree place tree' where
  kept (location : Location) : tree.root.get? location ≠ none → tree'.root.get? location ≠ none
  added (location : Location) (node : Node) : tree.root.get? location = none →
    tree'.root.get? location = some node → some location = place ∨
      node.isDirectory = true ∧
        ∃ path ∈ paths, tree'.resolve true path = .ok (.entry location false)

theorem Grows.refl (tree : FileTree) (paths : List String) : tree.Grows none paths tree :=
  ⟨.refl tree none, fun _ h => h, fun _ _ hnone h => nomatch hnone.symm.trans h⟩

theorem Grows.trans {paths paths' : List String} (h : tree.Grows none paths tree')
    (h' : tree'.Grows place paths' tree'') (hpaths : paths' ⊆ paths) :
    tree.Grows place paths tree'' := by
  refine ⟨h.toSpares.trans h'.toSpares, fun location => h'.kept location ∘ h.kept location, ?_⟩
  intro location node hnone hnode
  cases hbetween : tree'.root.get? location with
  | none =>
    obtain hplace | ⟨hdirectory, path, hpath, hspot⟩ := h'.added location node hbetween hnode
    · exact .inl hplace
    · exact .inr ⟨hdirectory, path, hpaths hpath, hspot⟩
  | some first =>
    -- A directory of the tree between is one at the end, and its path still leads there.
    obtain hplace | ⟨hdirectory, path, hpath, hspot⟩ := h.added location first hnone hbetween
    · cases hplace
    · cases first with
      | file content => cases hdirectory
      | link target => cases hdirectory
      | directory entries =>
        obtain ⟨entries', hthere⟩ := h'.root.directories location ⟨entries, hbetween⟩
        cases hthere.symm.trans hnode
        exact .inr ⟨rfl, path, hpath,
          h'.toSpares.resolve_of_hasDirectory hspot ⟨entries', hthere⟩⟩

theorem grows_createDirectory (h : tree.createDirectory path = .ok tree') :
    tree.Grows none [path] tree' := by
  have hspares := spares_createDirectory h
  obtain ⟨location, slash, hspot, hnone, rfl⟩ := createDirectory_eq_ok h
  refine ⟨hspares, fun _ => hspares.root.kept nofun, fun other node hother hnode => .inr ?_⟩
  obtain ⟨below, rfl, hbelow⟩ := Node.of_get?_put hother hnode
  cases below with
  | cons name rest => cases hbelow
  | nil =>
    rw [List.append_nil] at hnode ⊢
    cases hbelow
    obtain ⟨hfit, here, pieces, hpieces, hleads⟩ := resolve_eq_entry_iff.mp hspot
    have hfollowed := resolve_eq_entry_iff.mpr
      ⟨hfit, here, pieces, hpieces, hleads.followed hnone⟩
    exact ⟨rfl, path, List.mem_singleton.mpr rfl,
      hspares.resolve_of_hasDirectory hfollowed ⟨[], hnode⟩⟩

theorem grows_createDirectories (tree : FileTree) (path : String) :
    tree.Grows none (Path.ancestors path) (tree.createDirectories path).2 := by
  refine createFirst_induction ?_ (.refl tree (Path.ancestors path))
  intro below below' other hother hbelow h
  exact hbelow.trans (grows_createDirectory h) (by simpa using hother)

theorem grows_write {content : ByteArray} (paths : List String) (hstart : tree.StartsInside path)
    (h : tree.write path content = .ok tree') :
    ∃ location, tree'.resolve true path = .ok (.entry location false) ∧
      tree.Grows (some location) paths tree' := by
  obtain ⟨location, -, hspot, hthere, hfree, rfl⟩ := resolve_write hstart h
  have hspares := Node.spares_put_file content hfree
  refine ⟨location, hspot, ⟨hspares, rfl, rfl⟩, fun other => hspares.kept ?_, ?_⟩
  · intro place hplace
    cases hplace
    exact Option.ne_none_iff_exists'.mpr ⟨_, hthere⟩
  · intro other node hnone hnode
    obtain ⟨below, rfl, hbelow⟩ := Node.of_get?_put hnone hnode
    cases below with
    | nil => exact .inl (by rw [List.append_nil])
    | cons name rest => cases hbelow

theorem writeBelow_none_grows (text : String) (paths : List String)
    (hstart : tree.StartsInside path) :
    (∃ cause, tree.writeBelow none path text = (.error (.fileWrite path cause), tree)) ∨
      ∃ location tree', tree.writeBelow none path text = (.ok (), tree') ∧
        tree'.find path = .ok (.file text.toUTF8) ∧
        tree'.resolve true path = .ok (.entry location false) ∧
        tree.Grows (some location) paths tree' := by
  unfold writeBelow
  dsimp only
  cases hwrite : tree.write path text.toUTF8 with
  | error cause => exact .inl ⟨cause, rfl⟩
  | ok tree' =>
    obtain ⟨location, hspot, hgrows⟩ := grows_write paths hstart hwrite
    exact .inr ⟨location, tree', rfl, find_write hstart hwrite, hspot, hgrows⟩

theorem writeBelow_some (tree : FileTree) (directory path text : String) :
    tree.writeBelow (some directory) path text =
      match tree.createDirectories directory with
      | (.error cause, below) => (.error (.fileWrite directory cause), below)
      | (.ok (), below) => below.writeBelow none path text := by
  unfold writeBelow
  dsimp only
  obtain ⟨result, below⟩ := tree.createDirectories directory
  cases result <;> rfl

/-- Writing a text below a directory changes no file but the one that its path leads to then, and
none if it fails.  It adds directories only on the way to that directory. -/
theorem writeBelow_grows (directory? : Option String) (text : String)
    (hstart : tree.StartsInside path) :
    ∃ tree', (∃ place cause, tree.writeBelow directory? path text =
          (.error (.fileWrite place cause), tree') ∧ (place = path ∨ directory? = some place) ∧
          tree.Grows none (directory?.elim [] Path.ancestors) tree') ∨
      ∃ location, tree.writeBelow directory? path text = (.ok (), tree') ∧
        tree'.find path = .ok (.file text.toUTF8) ∧
        tree'.resolve true path = .ok (.entry location false) ∧
        tree.Grows (some location) (directory?.elim [] Path.ancestors) tree' := by
  cases directory? with
  | none =>
    obtain ⟨cause, hfailed⟩ | ⟨location, tree', hwritten⟩ :=
      writeBelow_none_grows text [] hstart
    · exact ⟨tree, .inl ⟨path, cause, hfailed, .inl rfl, .refl tree []⟩⟩
    · exact ⟨tree', .inr ⟨location, hwritten⟩⟩
  | some directory =>
    have hcreated := grows_createDirectories tree directory
    rw [writeBelow_some]
    generalize tree.createDirectories directory = created at hcreated ⊢
    obtain ⟨result, below⟩ := created
    cases result with
    | error cause => exact ⟨below, .inl ⟨directory, cause, rfl, .inr rfl, hcreated⟩⟩
    | ok =>
      obtain ⟨cause, hfailed⟩ | ⟨location, tree', hwritten, hfind, hspot, hgrows⟩ :=
        writeBelow_none_grows text (Path.ancestors directory) (hcreated.startsInside hstart)
      · exact ⟨below, .inl ⟨path, cause, hfailed, .inl rfl, hcreated⟩⟩
      · exact ⟨tree', .inr ⟨location, hwritten, hfind, hspot,
          hcreated.trans hgrows (List.Subset.refl _)⟩⟩

end FileTree
end PlaneReport
