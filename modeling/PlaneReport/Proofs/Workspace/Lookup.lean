import PlaneReport.Proofs.FileTree.Exchange

/-!
# The file that a path names

Settings are loaded with the file that a path names.  The path is looked for in the current
directory, and if it leads to no file there, in the directories above it.  As long as it need not be
looked for so far up, what is loaded is the layering of the standard settings, of the named file and
of the environment, and no other file has a part in it.  Main statement: `loadFrom_of_isLocal`.
-/

namespace PlaneReport

/-- What is put in the place of a node is there. -/
theorem Node.get?_put_of_some {root old : Node} {place : Location} (h : root.get? place = some old)
    (new : Node) : (put new place root).get? place = some new := by
  induction place generalizing root with
  | nil => rfl
  | cons first place ih =>
    cases root with
    | file content => cases h
    | link target => cases h
    | directory entries =>
      obtain ⟨inner, hinner, hrest⟩ := exists_member h
      rw [put, hinner]
      dsimp only
      rw [get?_assign, if_pos rfl]
      exact ih hrest

namespace FileTree

variable {tree : FileTree} {current path : String}

/-- Whether a path, seen from the current directory, is not looked for in vain there and found
further up. -/
def IsLocal (tree : FileTree) (current path : String) : Prop :=
  Path.isAbsolute path = true ∨ tree.isFile (Path.join current path) = true ∨
    ∀ directory ∈ (Path.ancestors current).tail, tree.isFile (Path.join directory path) = false

instance (tree : FileTree) (current path : String) : Decidable (tree.IsLocal current path) :=
  inferInstanceAs (Decidable (_ ∨ _ ∨ _))

/-- The file that a path leads to in the nearest directory above the current one, after it has been
looked for in vain in those that are nearer. -/
structure FoundAbove (tree : FileTree) (current path found : String) : Prop where
  isRelative : Path.isAbsolute path = false
  isFile : tree.isFile found = true
  exists_split : ∃ nearer directory further,
    Path.ancestors current = current :: (nearer ++ directory :: further) ∧
      found = Path.join directory path ∧
      ∀ other ∈ current :: nearer, tree.isFile (Path.join other path) = false

theorem lookUp?_of_isAbsolute (h : Path.isAbsolute path = true) :
    tree.lookUp? path = if tree.isFile path then some path else none := by
  rw [lookUp?, if_pos h, List.find?_singleton]

theorem lookUp?_of_not_isAbsolute (hcurrent : tree.currentPath? = some current)
    (h : Path.isAbsolute path = false) :
    tree.lookUp? path =
      ((Path.ancestors current).map fun directory => Path.join directory path).find?
        tree.isFile := by
  simp only [lookUp?, h, hcurrent, Bool.false_eq_true, if_false]

/-- A local path leads to the file that it names, or nowhere. -/
theorem lookUp?_of_isLocal (hcurrent : tree.currentPath? = some current)
    (h : tree.IsLocal current path) :
    tree.lookUp? path =
      if tree.isFile (Path.join current path) then some (Path.join current path) else none := by
  cases habsolute : Path.isAbsolute path with
  | true =>
    have hsame : Path.join current path = path := by rw [Path.join, habsolute]; rfl
    rw [lookUp?_of_isAbsolute habsolute, hsame]
  | false =>
    rw [lookUp?_of_not_isAbsolute hcurrent habsolute]
    have hsplit : Path.ancestors current = current :: (Path.ancestors current).tail := rfl
    rw [hsplit, List.map_cons, List.find?_cons]
    cases hnamed : tree.isFile (Path.join current path) with
    | true => rfl
    | false =>
      obtain h | h | h := h
      · cases habsolute.symm.trans h
      · cases hnamed.symm.trans h
      · rw [if_neg Bool.false_ne_true, List.find?_map, Option.map_eq_none_iff]
        simpa using h

/-- A path that is not local leads to a file further up. -/
theorem exists_foundAbove (h : ¬ tree.IsLocal current path) :
    ∃ found, tree.FoundAbove current path found := by
  simp only [IsLocal, not_or, Bool.not_eq_true, not_forall, Bool.not_eq_false] at h
  obtain ⟨hrelative, hnamed, directory, hdirectory, hfile⟩ := h
  have hsome : (((Path.ancestors current).tail).find? fun directory =>
      tree.isFile (Path.join directory path)).isSome = true :=
    List.find?_isSome.mpr ⟨directory, hdirectory, hfile⟩
  obtain ⟨nearest, hnearest⟩ := Option.isSome_iff_exists.mp hsome
  obtain ⟨hfound, nearer, further, hsplit, hnone⟩ := List.find?_eq_some_iff_append.mp hnearest
  refine ⟨Path.join nearest path, hrelative, hfound, nearer, nearest, further, ?_, rfl, ?_⟩
  · rw [← hsplit]
    rfl
  · intro other hother
    obtain rfl | hother := List.mem_cons.mp hother
    · exact hnamed
    · simpa using hnone other hother

namespace FoundAbove

variable {found : String}

theorem lookUp?_eq (h : tree.FoundAbove current path found)
    (hcurrent : tree.currentPath? = some current) : tree.lookUp? path = some found := by
  obtain ⟨nearer, directory, further, hsplit, rfl, hnone⟩ := h.exists_split
  rw [lookUp?_of_not_isAbsolute hcurrent h.isRelative, List.find?_map, Option.map_eq_some_iff]
  refine ⟨directory, List.find?_eq_some_iff_append.mpr
    ⟨h.isFile, current :: nearer, further, hsplit, fun other hother => ?_⟩, rfl⟩
  simp [hnone other hother]

theorem isFile_named (h : tree.FoundAbove current path found) :
    tree.isFile (Path.join current path) = false := by
  obtain ⟨nearer, directory, further, -, -, hnone⟩ := h.exists_split
  exact hnone current List.mem_cons_self

/-- The file further up can be given any content, and is still the one that the path leads to. -/
theorem exists_withContent (h : tree.FoundAbove current path found)
    (hcurrent : tree.currentPath? = some current) (content : ByteArray) :
    ∃ tree' : FileTree, tree'.currentPath? = some current ∧ tree'.FoundAbove current path found ∧
      tree'.read? found = some content ∧
      tree'.read? (Path.join current path) = tree.read? (Path.join current path) := by
  obtain ⟨place, old, hspot, hplace⟩ := resolve_of_isFile h.isFile
  have hisFile : (tree.withFile place content).isFile = tree.isFile :=
    funext (isFile_withFile hplace content)
  refine ⟨tree.withFile place content, hcurrent, ?_, ?_, ?_⟩
  · refine ⟨h.isRelative, by rw [hisFile]; exact h.isFile, ?_⟩
    rw [hisFile]
    exact h.exists_split
  · unfold read? find
    rw [resolve_withFile hplace content, hspot]
    dsimp only [bind, Except.bind, withFile]
    rw [Node.get?_put_of_some hplace]
    rfl
  · have hnamed := h.isFile_named
    obtain hread | ⟨hread, -⟩ := read?_withFile hplace content (Path.join current path)
    · exact hread
    · rw [isFile_eq_isSome_read?, hread] at hnamed
      cases hnamed

end FoundAbove
end FileTree

namespace Settings

variable {tree : FileTree} {environment : Environment} {current path found : String}

/-- The standard settings, overlaid with the content of a file, if there is one, and then with the
environment.  Messages name the file as it is shown. -/
def layering (environment : Environment) (shown : String) :
    Option ByteArray → Except LoadError Settings
  | none => ((standard.layer.merge environment.layer).toSettings).mapError .unsuitable
  | some content => Layer.ofContent shown content >>= fun file => ofLayers file environment.layer

theorem loadFrom_of_lookUp?_eq_none (h : tree.lookUp? path = none) (environment : Environment)
    (shown : String) : loadFrom tree environment path = layering environment shown none := by
  have hlayer : tree.fileLayer path = .ok (Layer.empty (.file path)) := by
    simp [FileTree.fileLayer, h]
  rw [loadFrom, hlayer]
  exact ofLayers_empty _ environment

theorem loadFrom_of_lookUp? (hcurrent : tree.currentPath? = some current)
    (h : tree.lookUp? path = some found) (hfile : tree.isFile found = true)
    (environment : Environment) :
    loadFrom tree environment path =
      layering environment (Path.shown (some current) found) (tree.read? found) := by
  rw [FileTree.isFile_eq_isSome_read?] at hfile
  obtain ⟨content, hread⟩ := Option.isSome_iff_exists.mp hfile
  simp only [loadFrom, FileTree.fileLayer, h, hread, hcurrent, layering]

/-- With a local path the named file is loaded, or none if it is no file. -/
theorem loadFrom_of_isLocal (hcurrent : tree.currentPath? = some current)
    (h : tree.IsLocal current path) (environment : Environment) :
    loadFrom tree environment path =
      layering environment (Path.shown (some current) (Path.join current path))
        (tree.read? (Path.join current path)) := by
  have hfound := FileTree.lookUp?_of_isLocal hcurrent h
  cases hfile : tree.isFile (Path.join current path) with
  | true =>
    rw [hfile, if_pos rfl] at hfound
    exact loadFrom_of_lookUp? hcurrent hfound hfile environment
  | false =>
    rw [hfile, if_neg Bool.false_ne_true] at hfound
    rw [FileTree.isFile_eq_isSome_read?, Option.isSome_eq_false_iff, Option.isNone_iff_eq_none]
      at hfile
    rw [hfile]
    exact loadFrom_of_lookUp?_eq_none hfound environment _

theorem loadFrom_of_foundAbove (hcurrent : tree.currentPath? = some current)
    (h : tree.FoundAbove current path found) (environment : Environment) :
    loadFrom tree environment path =
      layering environment (Path.shown (some current) found) (tree.read? found) :=
  loadFrom_of_lookUp? hcurrent (h.lookUp?_eq hcurrent) h.isFile environment

/-- A content that is no text is refused as such. -/
theorem layering_notText (environment : Environment) (shown : String) :
    layering environment shown (some ⟨#[0xff]⟩) = .error (.notText shown) := by
  have htext : String.fromUTF8? ⟨#[0xff]⟩ = none := by decide
  simp only [layering, Layer.ofContent, htext]
  rfl

/-- A text that is not well formed is refused for another reason. -/
theorem layering_malformed (environment : Environment) (shown : String) :
    layering environment shown (some "=".toUTF8) = .error (.malformed shown "=") := by
  have htext : Toml.outline? .v1_0 "=" = none := by decide +kernel
  simp only [layering, Layer.ofContent, fromUTF8?_toUTF8, htext]
  rfl

/-- No result is the one that every content of a file leads to. -/
theorem exists_layering_ne (environment : Environment) (shown : String)
    (result : Except LoadError Settings) :
    ∃ content, layering environment shown (some content) ≠ result := by
  by_cases h : result = .error (.notText shown)
  · refine ⟨"=".toUTF8, ?_⟩
    rw [layering_malformed, h]
    nofun
  · refine ⟨⟨#[0xff]⟩, ?_⟩
    rw [layering_notText]
    exact Ne.symm h

/-- Loading with a path reads the file that the path names and no other one, exactly as long as the
path is local.  One that names no file in the current directory is looked for in those above it, and
then the file that is found there is loaded in place of the named one. -/
theorem loadFrom_named {tree : FileTree} {current : String}
    (hcurrent : tree.currentPath? = some current) (path : String) (environment : Environment) :
    let named := Path.join current path
    (tree.IsLocal current path → loadFrom tree environment path =
      layering environment (Path.shown (some current) named) (tree.read? named)) ∧
    (Path.isAbsolute path = true ∨ tree.isFile named = true → ∀ tree' : FileTree,
      tree'.currentPath? = some current → tree'.read? named = tree.read? named →
      loadFrom tree' environment path = loadFrom tree environment path) ∧
    (¬ tree.IsLocal current path → ∃ found, tree.FoundAbove current path found ∧
      loadFrom tree environment path =
        layering environment (Path.shown (some current) found) (tree.read? found) ∧
      ∃ tree' : FileTree, tree'.currentPath? = some current ∧
        tree'.read? named = tree.read? named ∧
        loadFrom tree' environment path ≠ loadFrom tree environment path) := by
  intro named
  refine ⟨fun hlocal => loadFrom_of_isLocal hcurrent hlocal environment, ?_, ?_⟩
  · intro hthere tree' hcurrent' hread
    have hlocal : tree.IsLocal current path := by
      obtain habsolute | hfile := hthere
      · exact .inl habsolute
      · exact .inr (.inl hfile)
    have hlocal' : tree'.IsLocal current path := by
      obtain habsolute | hfile := hthere
      · exact .inl habsolute
      · refine .inr (.inl ?_)
        rw [FileTree.isFile_eq_isSome_read?] at hfile ⊢
        rw [hread]
        exact hfile
    rw [loadFrom_of_isLocal hcurrent hlocal, loadFrom_of_isLocal hcurrent' hlocal', hread]
  · intro hlocal
    obtain ⟨found, hfound⟩ := FileTree.exists_foundAbove hlocal
    obtain ⟨content, hne⟩ := exists_layering_ne environment (Path.shown (some current) found)
      (loadFrom tree environment path)
    obtain ⟨tree', hcurrent', hfound', hread, hnamed⟩ := hfound.exists_withContent hcurrent content
    refine ⟨found, hfound, loadFrom_of_foundAbove hcurrent hfound environment, tree', hcurrent',
      hnamed, ?_⟩
    rw [loadFrom_of_foundAbove hcurrent' hfound' environment, hread]
    exact hne

/-- A directory without a file, below one with a settings file. -/
def outerTree : FileTree where
  root := .directory
    [("settings.toml", .file "version = 2\n".toUTF8), ("inner", .directory [])]
  current := ["inner"]

theorem loadFrom_named_outer :
    outerTree.currentPath? = some "/inner" ∧ outerTree.IsLocal "/inner" "/settings.toml" ∧
      ¬ outerTree.IsLocal "/inner" "settings.toml" ∧ ∀ environment,
        loadFrom outerTree environment "/settings.toml" =
          layering environment "/settings.toml" (some "version = 2\n".toUTF8) ∧
        ∃ tree' : FileTree, tree'.read? "/inner/settings.toml" = none ∧
          loadFrom tree' environment "settings.toml" ≠
            loadFrom outerTree environment "settings.toml" := by
  have hcurrent : outerTree.currentPath? = some "/inner" := by decide
  have hlocal : outerTree.IsLocal "/inner" "/settings.toml" := by decide
  have habove : ¬ outerTree.IsLocal "/inner" "settings.toml" := by decide
  have hshown : Path.shown (some "/inner") (Path.join "/inner" "/settings.toml") =
      "/settings.toml" := by decide
  have hread : outerTree.read? (Path.join "/inner" "/settings.toml") =
      some "version = 2\n".toUTF8 := by decide
  have hjoin : Path.join "/inner" "settings.toml" = "/inner/settings.toml" := by decide
  have hnone : outerTree.read? "/inner/settings.toml" = none := by decide
  refine ⟨hcurrent, hlocal, habove, fun environment => ?_⟩
  have hnamed := (loadFrom_named hcurrent "/settings.toml" environment).1 hlocal
  obtain ⟨found, -, -, tree', -, hread', hne⟩ :=
    (loadFrom_named hcurrent "settings.toml" environment).2.2 habove
  rw [hshown, hread] at hnamed
  rw [hjoin, hnone] at hread'
  exact ⟨hnamed, tree', hread', hne⟩

/-- A relative path that names no file still gives the version of a file further up. -/
theorem loadFrom_outer_ne_layering :
    outerTree.currentPath? = some "/inner" ∧
      loadFrom outerTree [] "settings.toml" = .ok { standard with version := 2 } ∧
      layering [] "settings.toml" (outerTree.read? (Path.join "/inner" "settings.toml")) =
        .ok standard := by
  decide +kernel

end Settings
end PlaneReport
