import PlaneReport.Proofs.Outline.Same
import PlaneReport.Proofs.Settings.Saving
import PlaneReport.Proofs.Workspace.Search

/-!
# The template of a settings file

The template explains itself, and apart from that it says what the standard settings say.  The theorem
this file exists for is `load_template`: where it is the nearest settings file, the standard settings
are loaded.
-/

namespace PlaneReport

theorem Text.toList_ofLines (lines : List String) :
    (Text.ofLines lines).toList = lines.flatMap fun line => line.toList ++ ['\n'] := by
  induction lines with
  | nil => rfl
  | cons line rest ih =>
    rw [Text.ofLines] at ih ⊢
    rw [List.map_cons, String.join_cons, String.toList_append, ih, String.toList_append,
      List.flatMap_cons]
    rfl

namespace Settings

theorem outline?_template :
    Toml.outline? .v1_0 template = some (.table (Toml.Members.outlines standard.members) true) := by
  apply Outline.eq_some_of_same
  rw [Toml.outline?, template, Text.toList_ofLines]
  decide +kernel

theorem ofContent_template (shown : String) :
    Layer.ofContent shown template.toUTF8 =
      .ok (.table (.file shown) (standard.savedMembers (.file shown))) := by
  have hsigned : IsSigned standard.precision := by
    intro places hplaces
    cases hplaces
  rw [ofContent_toUTF8, outline?_template, Option.bind_some, ofOutline?_saved hsigned]

/-- Where the template is the nearest settings file, the standard settings are loaded. -/
theorem load_template {tree : FileTree} {environment : Environment} {current path : String}
    (hcurrent : tree.currentPath? = some current) (hfind : tree.findSettings? current = some path)
    (hread : tree.read? path = some template.toUTF8) (hsilent : environment.IsSilent) :
    load tree environment = .ok standard := by
  rw [load_of_findSettings? hcurrent hfind hread, ofContent_template]
  exact ofLayers_savedMembers standard_isFinite hsilent

end Settings
end PlaneReport
