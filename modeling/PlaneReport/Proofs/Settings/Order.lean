import PlaneReport.Proofs.Environment.Order
import PlaneReport.Proofs.Settings.Saving

/-!
# Loading with variables in any order

The settings that are loaded, or the error, do not depend on the order of variables that are apart,
nor on variables with names of another start.  Main statement: `loadFrom_order`.
-/

namespace PlaneReport

open Layer (Value)

namespace Environment

variable {name : String} {before after : Environment} {entry : String × String}

/-- Whether a name is one of the program's own: it starts as those do, in any case and after any
blanks. -/
def IsOwnName (name : String) : Prop :=
  nameStart.map Text.lowerAscii <+: (Text.trim name.toList).map Text.lowerAscii

instance (name : String) : Decidable (IsOwnName name) :=
  inferInstanceAs (Decidable (_ <+: _))

theorem path?_of_not_isOwnName (h : ¬ IsOwnName name) : path? name = none := by
  unfold path?
  dsimp only
  rw [if_neg]
  intro hstart
  apply h
  rw [Text.sameWord, beq_iff_eq, List.map_take] at hstart
  unfold IsOwnName
  rw [← hstart]
  exact List.take_prefix _ _

theorem layer_insert (h : path? entry.1 = none) :
    layer (before ++ entry :: after) = layer (before ++ after) := by
  unfold layer
  rw [List.filterMap_append, List.filterMap_cons_none (setting?_eq_none h), List.filterMap_append]

end Environment

namespace Settings

variable {environment environment' : Environment}

/-- What is loaded depends on what the layer of the environment looks like. -/
theorem ofLayers_congr (h : environment.layer.look = environment'.layer.look) (file : Value) :
    ofLayers file environment.layer = ofLayers file environment'.layer := by
  have hlook := Value.look_merge_congr environment.distinct_layer environment'.distinct_layer h
    (standard.layer.merge file)
  unfold ofLayers
  rw [Value.toSettings_congr hlook]

theorem loadFrom_congr (h : environment.layer.look = environment'.layer.look) (tree : FileTree)
    (path : String) : loadFrom tree environment path = loadFrom tree environment' path := by
  unfold loadFrom
  exact congrArg _ (funext fun file => ofLayers_congr h file)

/-- Whatever file a path names, variables that are apart give the same settings, or the same error,
in every order; and a variable whose name is not of the program's own changes nothing. -/
theorem loadFrom_order (tree : FileTree) (path : String) :
    (∀ environment environment' : Environment, environment.Perm environment' →
      environment.Pairwise Environment.Apart →
        loadFrom tree environment path = loadFrom tree environment' path) ∧
      ∀ (before after : Environment) (entry : String × String),
        ¬ Environment.IsOwnName entry.1 →
          loadFrom tree (before ++ entry :: after) path = loadFrom tree (before ++ after) path := by
  constructor
  · intro environment environment' hperm hapart
    exact loadFrom_congr (Environment.look_layer_perm hperm hapart) tree path
  · intro before after entry hentry
    apply loadFrom_congr
    rw [Environment.layer_insert (Environment.path?_of_not_isOwnName hentry)]

/-- Variables for two sections, for a part of a third, and for a key that is not there. -/
def mixedEnvironment : Environment :=
  [("PLANAR_OUTPUT", "{precision = 3}"), ("PLANAR_INPUTS__TO", "{y = 2, x = [1]}"),
    (" planar_Inputs__A ", "1"), ("PLANAR_INPUTS__C", "\"1\"")]

theorem loadFrom_order_partial :
    mixedEnvironment.Perm mixedEnvironment.reverse ∧
      mixedEnvironment.Pairwise Environment.Apart ∧ ¬ Environment.IsOwnName "PLANAR" ∧
      loadFrom partialTree (("PLANAR", "\x7b") :: mixedEnvironment) "c.toml" =
        loadFrom partialTree mixedEnvironment.reverse "c.toml" := by
  have hperm : mixedEnvironment.Perm mixedEnvironment.reverse := (List.reverse_perm _).symm
  have hapart : mixedEnvironment.Pairwise Environment.Apart := by decide
  have hname : ¬ Environment.IsOwnName "PLANAR" := by decide
  obtain ⟨horder, hother⟩ := loadFrom_order partialTree "c.toml"
  exact ⟨hperm, hapart, hname,
    (hother [] mixedEnvironment ("PLANAR", "\x7b") hname).trans (horder _ _ hperm hapart)⟩

/-- Names that differ in a blank behind their start lead to one path, and then the order counts. -/
theorem loadFrom_order_of_blank_in_name :
    untrimmedPath? "PLANAR_INPUTS__A" = some ["inputs", "a"] ∧
      untrimmedPath? "PLANAR_ INPUTS__A" = some [" inputs", "a"] ∧
      ¬ ["inputs", "a"] <+: [" inputs", "a"] ∧ ¬ [" inputs", "a"] <+: ["inputs", "a"] ∧
      loadFrom bareTree [("PLANAR_INPUTS__A", "10"), ("PLANAR_ INPUTS__A", "20")] "none.toml" ≠
        loadFrom bareTree [("PLANAR_ INPUTS__A", "20"), ("PLANAR_INPUTS__A", "10")]
          "none.toml" := by
  refine ⟨by decide, by decide, by decide, by decide, ?_⟩
  decide +kernel

end Settings
end PlaneReport
