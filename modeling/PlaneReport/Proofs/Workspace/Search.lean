import PlaneReport.Proofs.Path
import PlaneReport.Proofs.Settings.Layering

/-!
# The nearest settings file

A workspace is searched from the current directory upwards, once for its settings file and, if there
is none, once more for the file that a relative path names.  Both searches look at the same paths, so
the second one finds nothing that the first one has missed.  Main statement: `load_of_nearest`.
-/

namespace PlaneReport

namespace FileTree

variable {tree tree' : FileTree} {start path directory current : String}

theorem isFile_eq_isSome_read? (tree : FileTree) (path : String) :
    tree.isFile path = (tree.read? path).isSome := by
  unfold isFile read?
  cases tree.find path with
  | error e => rfl
  | ok node => cases node <;> rfl

/-- The settings file of a directory is what the path `.planar/settings.toml` names there. -/
theorem settingsPath_eq_join (h : directory ≠ "") :
    settingsPath directory = Path.join directory (settingsPath "") := by
  have hdirectory : directory.isEmpty = false := by simpa using h
  have hplanar : Path.isAbsolute ".planar" = false := by decide
  have hsettings : Path.isAbsolute "settings.toml" = false := by decide
  have hboth : settingsPath "" = ".planar/settings.toml" := by decide
  have hrelative : Path.isAbsolute ".planar/settings.toml" = false := by decide
  rw [hboth]
  unfold settingsPath settingsDirectory Path.join
  apply String.toList_inj.mp
  by_cases hslash : directory.toList.getLast? = some '/' <;>
    simp [hdirectory, hplanar, hsettings, hrelative, hslash]

theorem isAbsolute_settingsPath (h : Path.isAbsolute directory = true) :
    Path.isAbsolute (settingsPath directory) = true := by
  rw [settingsPath_eq_join (Path.ne_empty_of_isAbsolute h)]
  exact Path.isAbsolute_join h _

theorem isAbsolute_of_currentPath? (h : tree.currentPath? = some current) :
    Path.isAbsolute current = true := by
  unfold currentPath? at h
  split at h
  · rw [← Option.some.inj h]
    exact Path.isAbsolute_slash _
  · cases h

/-- A relative settings path is looked for just where the workspace has been searched. -/
theorem lookUp?_settingsPath (hcurrent : tree.currentPath? = some current) :
    tree.lookUp? (settingsPath "") = tree.findSettings? current := by
  have habsolute : Path.isAbsolute current = true := isAbsolute_of_currentPath? hcurrent
  have hrelative : Path.isAbsolute (settingsPath "") = false := by decide
  have hsame : (Path.ancestors current).map (fun directory => Path.join directory (settingsPath "")) =
      (Path.ancestors current).map settingsPath := by
    apply List.map_congr_left
    intro directory hdirectory
    have hne := Path.ne_empty_of_isAbsolute (Path.isAbsolute_of_mem_ancestors habsolute hdirectory)
    exact (settingsPath_eq_join hne).symm
  simp [lookUp?, findSettings?, hrelative, hcurrent, hsame]

/-- The nearest settings file is the first one on the way up. -/
theorem findSettings?_eq_some_iff : tree.findSettings? start = some path ↔
    ∃ nearer directory further, Path.ancestors start = nearer ++ directory :: further ∧
      path = settingsPath directory ∧ tree.isFile path = true ∧
      ∀ other ∈ nearer, tree.isFile (settingsPath other) = false := by
  unfold findSettings?
  rw [List.find?_map, Option.map_eq_some_iff]
  simp only [List.find?_eq_some_iff_append, Function.comp_apply, Bool.not_eq_true']
  constructor
  · rintro ⟨directory, ⟨hfile, nearer, further, hsplit, hnone⟩, rfl⟩
    exact ⟨nearer, directory, further, hsplit, rfl, hfile, hnone⟩
  · rintro ⟨nearer, directory, further, hsplit, rfl, hfile, hnone⟩
    exact ⟨directory, ⟨hfile, nearer, further, hsplit, hnone⟩, rfl⟩

/-- The settings file that is found can be read. -/
theorem exists_content_of_findSettings? (h : tree.findSettings? start = some path) :
    ∃ content, tree.read? path = some content := by
  obtain ⟨nearer, directory, further, -, -, hfile, -⟩ := findSettings?_eq_some_iff.mp h
  rw [isFile_eq_isSome_read?] at hfile
  exact Option.isSome_iff_exists.mp hfile

theorem findSettings?_eq_none_iff : tree.findSettings? start = none ↔
    ∀ directory ∈ Path.ancestors start, tree.isFile (settingsPath directory) = false := by
  simp [findSettings?]

end FileTree

/-! ## Layers -/

namespace Environment

theorem path?_ne_nil {name : String} {keys : List String} (h : path? name = some keys) :
    keys ≠ [] := by
  simp only [path?] at h
  split at h
  · split at h
    · cases h
    · rw [← Option.some.inj h]
      simpa using Text.splitAt_ne_nil _ _
  · cases h

/-- The layer of the environment is a table. -/
theorem exists_layer (environment : Environment) :
    ∃ members, environment.layer = .table .environment members := by
  induction environment using List.reverseRecOn with
  | nil => exact ⟨[], rfl⟩
  | append_singleton environment entry ih =>
    obtain ⟨members, hlayer⟩ := ih
    cases hpath : path? entry.1 with
    | none => exact ⟨members, by rw [layer_append_none hpath, hlayer]⟩
    | some keys =>
      obtain ⟨key, rest, rfl⟩ := List.exists_cons_of_ne_nil (path?_ne_nil hpath)
      rw [layer_append_some hpath, hlayer]
      exact ⟨_, Layer.Value.merge_table _ _ _⟩

end Environment

namespace Settings

variable {tree : FileTree} {environment : Environment} {current path : String}
  {content : ByteArray}

/-- An empty file leaves its mark on the outer table alone, and there the environment covers it. -/
theorem ofLayers_empty (source : Layer.Source) (environment : Environment) :
    ofLayers (Layer.empty source) environment.layer =
      ((standard.layer.merge environment.layer).toSettings).mapError .unsuitable := by
  obtain ⟨members, hlayer⟩ := environment.exists_layer
  obtain ⟨old, hold⟩ : ∃ old, standard.layer = .table .standard old := ⟨_, rfl⟩
  have hmerged : (standard.layer.merge (Layer.empty source)).merge environment.layer =
      standard.layer.merge environment.layer := by
    simp [hlayer, hold, Layer.empty, Layer.Value.merge_table, Layer.Value.mergeMembers]
  rw [ofLayers, hmerged]

/-- What is loaded is the content of the nearest settings file below the environment. -/
theorem load_of_findSettings? (hcurrent : tree.currentPath? = some current)
    (hfind : tree.findSettings? current = some path) (hread : tree.read? path = some content) :
    load tree environment =
      (Layer.ofContent (Path.shown (some current) path) content >>= fun file =>
        ofLayers file environment.layer) := by
  obtain ⟨nearer, directory, further, hsplit, rfl, hfile, -⟩ :=
    FileTree.findSettings?_eq_some_iff.mp hfind
  have habsolute : Path.isAbsolute (FileTree.settingsPath directory) = true :=
    FileTree.isAbsolute_settingsPath (Path.isAbsolute_of_mem_ancestors
      (FileTree.isAbsolute_of_currentPath? hcurrent) (by simp [hsplit]))
  have hworkspace : tree.workspaceSettings? = some (FileTree.settingsPath directory) := by
    simp [FileTree.workspaceSettings?, hcurrent, hfind]
  have hfound : tree.lookUp? (FileTree.settingsPath directory) =
      some (FileTree.settingsPath directory) := by
    simp [FileTree.lookUp?, habsolute, hfile]
  simp [load, loadFrom, FileTree.fileLayer, hworkspace, hfound, hread, hcurrent]

/-- Without a settings file only the environment is laid over the standard settings. -/
theorem load_of_findSettings?_eq_none (hcurrent : tree.currentPath? = some current)
    (hfind : tree.findSettings? current = none) :
    load tree environment =
      ((standard.layer.merge environment.layer).toSettings).mapError .unsuitable := by
  have hworkspace : tree.workspaceSettings? = none := by
    simp [FileTree.workspaceSettings?, hcurrent, hfind]
  have hfound : tree.lookUp? (FileTree.settingsPath "") = none := by
    rw [FileTree.lookUp?_settingsPath hcurrent, hfind]
  have hlayer : tree.fileLayer (FileTree.settingsPath "") =
      .ok (Layer.empty (.file (FileTree.settingsPath ""))) := by
    simp [FileTree.fileLayer, hfound]
  simp only [load, loadFrom, hworkspace, Option.getD_none, hlayer]
  exact ofLayers_empty _ environment

/-- The search for a settings file ends at the nearest directory on the way to the root that has
one.  What is loaded there is the content of that file below the environment, so that it depends on
no other file; and where there is none, it is the environment alone. -/
theorem load_of_nearest {start : String} (habsolute : Path.isAbsolute start = true) :
    (Path.ancestors start).map Path.components = (Path.components start).inits.tail.reverse ∧
    ∀ tree : FileTree,
      (∀ path, tree.findSettings? start = some path ↔
        ∃ nearer directory further, Path.ancestors start = nearer ++ directory :: further ∧
          path = FileTree.settingsPath directory ∧ tree.isFile path = true ∧
          ∀ other ∈ nearer, tree.isFile (FileTree.settingsPath other) = false) ∧
      (tree.findSettings? start = none ↔ ∀ directory ∈ Path.ancestors start,
        tree.isFile (FileTree.settingsPath directory) = false) ∧
      (tree.currentPath? = some start →
        (∀ path, tree.findSettings? start = some path → ∃ content, tree.read? path = some content ∧
          (∀ environment, load tree environment =
            (Layer.ofContent (Path.shown (some start) path) content >>= fun file =>
              ofLayers file environment.layer)) ∧
          ∀ tree' : FileTree, tree'.currentPath? = some start →
            tree'.findSettings? start = some path → tree'.read? path = some content →
            ∀ environment, load tree' environment = load tree environment) ∧
        (tree.findSettings? start = none → ∀ environment, load tree environment =
          ((standard.layer.merge environment.layer).toSettings).mapError .unsuitable)) := by
  refine ⟨Path.components_ancestors habsolute, fun tree =>
    ⟨fun path => FileTree.findSettings?_eq_some_iff, FileTree.findSettings?_eq_none_iff,
      fun hcurrent => ⟨?_, ?_⟩⟩⟩
  · intro path hfind
    obtain ⟨content, hread⟩ := FileTree.exists_content_of_findSettings? hfind
    refine ⟨content, hread, fun environment => load_of_findSettings? hcurrent hfind hread, ?_⟩
    intro tree' hcurrent' hfind' hread' environment
    rw [load_of_findSettings? hcurrent hfind hread, load_of_findSettings? hcurrent' hfind' hread']
  · intro hfind environment
    exact load_of_findSettings?_eq_none hcurrent hfind

/-- A workspace in which the nearer directories have no settings file: a directory with nothing in
it, one with a directory of that name, and one with a link that leads nowhere.  The next one is a
link to where there is a file, and one above it is not reached. -/
def deepTree : FileTree where
  root := .directory
    [("shared", .directory [("settings.toml", .file "[inputs]\na = 10\n".toUTF8)]),
      (".planar", .directory [("settings.toml", .file "version = 2\n".toUTF8)]),
      ("a", .directory
        [(".planar", .link "../shared"),
          ("b", .directory
            [(".planar", .directory [("settings.toml", .link "gone")]),
              ("c", .directory
                [(".planar", .directory [("settings.toml", .directory [])]),
                  ("d", .directory [(".planar", .directory [])])])])])]
  current := ["a", "b", "c", "d"]

/-- A workspace with the same nearest settings file and nothing else. -/
def plainTree : FileTree where
  root := .directory
    [("a", .directory
      [(".planar", .directory [("settings.toml", .file "[inputs]\na = 10\n".toUTF8)]),
        ("b", .directory [("c", .directory [("d", .directory [])])])])]
  current := ["a", "b", "c", "d"]

theorem load_of_nearest_linked :
    Path.isAbsolute "/a/b/c/d" = true ∧ deepTree.currentPath? = some "/a/b/c/d" ∧
      deepTree.findSettings? "/a/b/c/d" = some "/a/.planar/settings.toml" ∧
      ∀ environment, load plainTree environment = load deepTree environment := by
  have habsolute : Path.isAbsolute "/a/b/c/d" = true := by decide
  have hdeep : deepTree.currentPath? = some "/a/b/c/d" := by decide +kernel
  have hplain : plainTree.currentPath? = some "/a/b/c/d" := by decide
  have hsplit : Path.ancestors "/a/b/c/d" = ["/a/b/c/d", "/a/b/c", "/a/b"] ++ "/a" :: ["/"] := by
    decide
  obtain ⟨hdeepFind, -, hload⟩ := (load_of_nearest habsolute).2 deepTree
  have hfind : deepTree.findSettings? "/a/b/c/d" = some "/a/.planar/settings.toml" :=
    (hdeepFind _).mpr
      ⟨_, _, _, hsplit, by decide, by decide +kernel, by decide +kernel⟩
  have hfind' : plainTree.findSettings? "/a/b/c/d" = some "/a/.planar/settings.toml" :=
    (((load_of_nearest habsolute).2 plainTree).1 _).mpr
      ⟨_, _, _, hsplit, by decide, by decide, by decide⟩
  obtain ⟨content, hread, -, hsame⟩ := (hload hdeep).1 _ hfind
  have hread' : plainTree.read? "/a/.planar/settings.toml" = some content := by
    rw [← hread]
    decide +kernel
  exact ⟨habsolute, hdeep, hfind, hsame plainTree hplain hfind' hread'⟩

end Settings
end PlaneReport
