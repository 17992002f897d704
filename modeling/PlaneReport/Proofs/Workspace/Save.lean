import PlaneReport.Proofs.FileTree.Frame

/-!
# What saving changes

Settings are saved in the file that a path leads to.  Whatever the tree is and wherever the program
stands in it, no other file changes, nothing is removed, and what else is new are directories that
a path above leads to.  A save that fails may have created some of those, and names the path at
which it failed.
-/

namespace PlaneReport
namespace Settings

/-- Saving changes the file that the path leads to and no other, and adds directories on the way to
its parent.  If it fails, it names the path or its parent and has changed no file. -/
theorem save_grows (settings : Settings) {tree : FileTree}
    (htree : tree.root.HasDirectory tree.current) (path : String) :
    ∃ tree', (settings.save tree path = (.ok (), tree') ∧
        tree'.read? path = some settings.tomlText.toUTF8 ∧
        ∃ location, tree'.resolve true path = .ok (.entry location false) ∧
          (tree.isFile path = true → tree.resolve true path = .ok (.entry location false)) ∧
          tree.Grows (some location) ((Path.parent? path).elim [] Path.ancestors) tree') ∨
      ∃ place cause, settings.save tree path = (.error (.fileWrite place cause), tree') ∧
        (place = path ∨ Path.parent? path = some place) ∧
        tree.Grows none ((Path.parent? path).elim [] Path.ancestors) tree' := by
  obtain ⟨tree', ⟨place, cause, hfailed⟩ | ⟨location, hsaved, hfind, hspot, hgrows⟩⟩ :=
    FileTree.writeBelow_grows (Path.parent? path) settings.tomlText (.of_hasDirectory htree)
  · exact ⟨tree', .inr ⟨place, cause, hfailed⟩⟩
  · refine ⟨tree', .inl ⟨hsaved, ?_, location, hspot, hgrows.resolve_of_isFile hspot, hgrows⟩⟩
    rw [FileTree.read?, hfind]

/-- The program stands beside a link that leads up and on to an empty directory. -/
def linkedTree : FileTree where
  root := .directory
    [("data", .directory []), ("home", .directory [("shelf", .link "../data"), ("a", .file ⟨#[]⟩)])]
  current := ["home"]

theorem save_grows_linked :
    linkedTree.root.HasDirectory linkedTree.current ∧
      ∃ tree', standard.save linkedTree "shelf/b/../b/c.toml" = (.ok (), tree') ∧
        tree'.read? "shelf/b/../b/c.toml" = some standard.tomlText.toUTF8 ∧
        linkedTree.Grows (some ["data", "b", "c.toml"])
          ["shelf/b/../b", "shelf/b/..", "shelf/b", "shelf", ""] tree' := by
  have htree : linkedTree.root.HasDirectory linkedTree.current := ⟨_, rfl⟩
  have hsave : (standard.save linkedTree "shelf/b/../b/c.toml").1.toBool = true := by
    decide +kernel
  have hplace : (standard.save linkedTree "shelf/b/../b/c.toml").2.resolve true
      "shelf/b/../b/c.toml" = .ok (.entry ["data", "b", "c.toml"] false) := by
    decide +kernel
  have habove : (Path.parent? "shelf/b/../b/c.toml").elim [] Path.ancestors =
      ["shelf/b/../b", "shelf/b/..", "shelf/b", "shelf", ""] := by decide
  obtain ⟨tree', ⟨hsaved, hread, location, hspot, -, hgrows⟩ | ⟨place, cause, hfailed, -⟩⟩ :=
    standard.save_grows htree "shelf/b/../b/c.toml"
  · rw [hsaved] at hplace
    cases hspot.symm.trans hplace
    rw [habove] at hgrows
    exact ⟨htree, tree', hsaved, hread, hgrows⟩
  · rw [hfailed] at hsave
    cases hsave

end Settings
end PlaneReport
