import PlaneReport.Proofs.Environment.Word
import PlaneReport.Proofs.Settings.Saving

/-!
# The variable for the log level

One variable sets the level of whatever a file gives.  Its word is decoded before anything asks for
a level, and a number is then no text: a level can be set by its name in any case and by a blank
text, but not by its rank.  Main statement: `loadFrom_levelVariable`.
-/

namespace PlaneReport

open Layer (Source Value)

/-! ## Layers of files and of single variables -/

namespace FileTree

/-- What a file gives is a table. -/
theorem isTable_fileLayer {tree : FileTree} {path : String} {file : Value}
    (h : tree.fileLayer path = .ok file) : file.IsTable := by
  unfold fileLayer at h
  split at h
  · cases h
    trivial
  · split at h
    · cases h
      trivial
    · unfold Layer.ofContent at h
      split at h
      · cases h
      · split at h
        · cases h
        · next text value hvalue =>
          cases h
          obtain ⟨outline, houtline, hvalue⟩ := Option.bind_eq_some_iff.mp hvalue
          unfold Toml.outline? at houtline
          obtain ⟨members, -, rfl⟩ := Option.map_eq_some_iff.mp houtline
          rw [Value.ofOutline?] at hvalue
          obtain ⟨values, -, rfl⟩ := Option.map_eq_some_iff.mp hvalue
          trivial

end FileTree

namespace Environment

variable {before after : Environment} {name text : String} {keys : List String}

theorem IsSilent.append (hbefore : before.IsSilent) (hafter : after.IsSilent) :
    (before ++ after).IsSilent := by
  intro entry hentry
  rcases List.mem_append.mp hentry with hentry | hentry
  · exact hbefore entry hentry
  · exact hafter entry hentry

/-- Among variables that set nothing the layer is that of the one which sets something. -/
theorem layer_single (hbefore : before.IsSilent) (hafter : after.IsSilent)
    (hname : path? name = some keys) :
    layer (before ++ (name, text) :: after) =
      Value.merge (.table .environment []) (.nest .environment (valueOfText text) keys) := by
  have hsetting : setting? (name, text) = _ := setting?_eq_some hname
  unfold layer
  rw [List.filterMap_append, filterMap_of_isSilent hbefore, List.nil_append,
    List.filterMap_cons_some hsetting, filterMap_of_isSilent hafter]
  rfl

end Environment

/-! ## Decoding with one section changed -/

namespace Layer
namespace Value

variable {source source' inner : Source} {members members' inside : List (String × Value)}
  {value : Value} {s : Settings}

/-- Of a table only the member of a field's name matters to the field. -/
theorem field?_of_lookup_eq {α : Type} {fields path : List String} {field : String}
    {decode : List String → Value → Except Defect α} (source' : Source)
    (h : members'.lookup field = members.lookup field) :
    (table source' members').field? fields path field decode =
      (table source members).field? fields path field decode := by
  unfold field? part?
  dsimp only
  rw [h]

theorem toLevel_of_lookup {path : List String} (h : members.lookup "level" = some value) :
    toLevel path (table source members) = value.toText (path ++ ["level"]) := by
  unfold toLevel checkRecord
  rw [field?_of_lookup_some h]
  cases value.toText (path ++ ["level"]) <;> rfl

/-- A section with one member, which is no table, lays that member over whatever was there. -/
theorem exists_laid_section (source : Source) (key : String) (h : ¬ value.IsTable)
    (before : Option Value) :
    ∃ inner inside, laid before (table source [(key, value)]) = table inner inside ∧
      inside.lookup key = some value := by
  have hkeys : ([(key, value)].map Prod.fst).Nodup := List.nodup_singleton key
  have hlookup : [(key, value)].lookup key = some value := List.lookup_cons_self
  cases before with
  | none => exact ⟨_, _, rfl, hlookup⟩
  | some old =>
    show ∃ inner inside, old.merge (table source [(key, value)]) = table inner inside ∧ _
    rw [merge_table]
    cases old with
    | table source old =>
      refine ⟨_, _, rfl, ?_⟩
      rw [lookup_mergeMembers_of_some hkeys hlookup]
      cases old.lookup key with
      | none => rfl
      | some before => exact congrArg some (merge_of_not_isTable h)
    | bool | integer | number | string | list => exact ⟨_, _, rfl, hlookup⟩

/-- If settings are decoded from a table, then with another logging section only the level can make
a difference, and the text for it decides. -/
theorem toSettings_of_section (hsettings : (table source members).toSettings = .ok s)
    (hother : ∀ key, key ≠ "logging" → members'.lookup key = members.lookup key)
    (hsection : members'.lookup "logging" = some (table inner inside))
    (hlevel : inside.lookup "level" = some value) :
    (table source' members').toSettings =
      (value.toText ["logging", "level"]).map fun level => { s with level := level } := by
  unfold toSettings at hsettings
  obtain ⟨-, -, hsettings⟩ := bind_eq_ok.mp hsettings
  obtain ⟨inputs, hinputs, hsettings⟩ := bind_eq_ok.mp hsettings
  obtain ⟨level, -, hsettings⟩ := bind_eq_ok.mp hsettings
  obtain ⟨precision, hprecision, hsettings⟩ := bind_eq_ok.mp hsettings
  obtain ⟨version, hversion, hsettings⟩ := bind_eq_ok.mp hsettings
  cases hsettings
  rw [← field?_of_lookup_eq source' (hother "inputs" (by decide))] at hinputs
  rw [← field?_of_lookup_eq source' (hother "output" (by decide))] at hprecision
  rw [← field?_of_lookup_eq source' (hother "version" (by decide))] at hversion
  have hlogging : (table source' members').field? settingsFields [] "logging" toLevel =
      (value.toText ["logging", "level"]).map some := by
    rw [field?_of_lookup_some hsection, toLevel_of_lookup hlevel]
    rfl
  unfold toSettings
  rw [hinputs, hprecision, hversion, hlogging]
  cases value.toText ["logging", "level"] <;> rfl

end Value
end Layer

namespace Settings

variable {file value : Value} {s : Settings}

/-- What a layer with nothing but a level makes of settings. -/
theorem ofLayers_level (hfile : file.IsTable) (hvalue : ¬ value.IsTable)
    (hload : ofLayers file (.table .environment []) = .ok s) :
    ofLayers file (.table .environment [("logging", .table .environment [("level", value)])]) =
      ((value.toText ["logging", "level"]).map fun level =>
        { s with level := level }).mapError .unsuitable := by
  have htable : (standard.layer.merge file).IsTable := Value.merge_isTable hfile
  obtain ⟨source, members, hmembers⟩ := Value.exists_table htable
  unfold ofLayers at hload ⊢
  rw [hmembers, Value.merge_table] at hload ⊢
  dsimp only at hload ⊢
  rw [Value.mergeMembers_nil] at hload
  rw [Value.mergeMembers_cons, Value.mergeMembers_nil]
  congr 1
  obtain ⟨inner, inside, hlaid, hlevel⟩ :=
    Value.exists_laid_section .environment "level" hvalue (members.lookup "logging")
  rw [hlaid]
  apply Value.toSettings_of_section (mapError_eq_ok.mp hload)
  · intro key hkey
    simp [hkey]
  · rw [Entries.lookup_assign, if_pos rfl]
  · exact hlevel

/-! ## Loading -/

/-- The name of the variable for the level. -/
def levelVariable : String := "PLANAR_LOGGING__LEVEL"

variable {tree : FileTree} {before after : Environment} {path text : String} {level : Level}

/-- Loading with the variable comes to decoding its word as the text of the level. -/
theorem loadFrom_levelVariable_eq (hbefore : before.IsSilent) (hafter : after.IsSilent)
    (hload : loadFrom tree (before ++ after) path = .ok s)
    (hnamed : level.IsNamedBy (Text.trim text.toList)) :
    loadFrom tree (before ++ (levelVariable, text) :: after) path =
      (((Environment.word (Text.trim text.toList)).toText ["logging", "level"]).map fun level =>
        { s with level := level }).mapError .unsuitable := by
  have hname : Environment.path? levelVariable = some ["logging", "level"] := by decide
  have hword : ¬ (Environment.word (Text.trim text.toList)).IsTable := by
    by_cases hnumeral : Level.IsNumeral (Text.trim text.toList)
    · rw [Environment.word_of_isNumeral hnamed hnumeral]
      exact id
    · rw [Environment.word_of_not_isNumeral hnamed hnumeral]
      exact id
  unfold loadFrom at hload ⊢
  obtain ⟨file, hfile, hlayers⟩ := bind_eq_ok.mp hload
  rw [Environment.layer_of_isSilent (hbefore.append hafter)] at hlayers
  rw [hfile, Environment.layer_single hbefore hafter hname,
    Environment.valueOfText_of_isNamedBy hnamed]
  have hnest : Value.merge (.table .environment []) (Value.nest .environment
      (Environment.word (Text.trim text.toList)) ["logging", "level"]) =
        .table .environment [("logging", .table .environment
          [("level", Environment.word (Text.trim text.toList))])] := by
    unfold Value.nest
    rw [Value.merge_table]
    dsimp only
    rw [Value.mergeMembers_cons, Value.mergeMembers_nil]
    rfl
  rw [hnest]
  exact ofLayers_level (FileTree.isTable_fileLayer hfile) hword hlayers

/-- Whatever settings a file gives by itself, a variable with an accepted text for the level, other
than a number, gives the same with that text, trimmed, for a level: they are valid, and their level
is the one that the variable names.  A number in its place is read as one, and refused for it. -/
theorem loadFrom_levelVariable (hbefore : before.IsSilent) (hafter : after.IsSilent)
    (hload : loadFrom tree (before ++ after) path = .ok s)
    (hparse : Level.parse text = .ok level) :
    (¬ Level.IsNumeral (Text.trim text.toList) →
      ∃ s', loadFrom tree (before ++ (levelVariable, text) :: after) path = .ok s' ∧
        s' = { s with level := String.ofList (Text.trim text.toList) } ∧
        s'.validate = .ok () ∧ Level.parse s'.level = .ok level) ∧
      (Level.IsNumeral (Text.trim text.toList) →
        loadFrom tree (before ++ (levelVariable, text) :: after) path =
          .error (.unsuitable ⟨.wrongType ("unsigned int `" ++ toString level.rank ++ "`")
            "a string", ["logging", "level"], .environment⟩)) := by
  have hnamed := Level.parse_eq_ok_iff.mp hparse
  rw [loadFrom_levelVariable_eq hbefore hafter hload hnamed]
  constructor
  · intro hnumeral
    rw [Environment.word_of_not_isNumeral hnamed hnumeral]
    have hlevel : Level.parse (String.ofList (Text.trim text.toList)) = .ok level := by
      rw [Level.parse_eq_ok_iff, String.toList_ofList, Text.trim_trim]
      exact hnamed
    refine ⟨_, rfl, rfl, ?_, hlevel⟩
    unfold validate
    rw [hlevel]
    rfl
  · intro hnumeral
    rw [Environment.word_of_isNumeral hnamed hnumeral]
    rfl

theorem loadFrom_levelVariable_partial :
    Environment.IsSilent [("HOME", "/")] ∧ Environment.IsSilent [] ∧
      loadFrom partialTree ([("HOME", "/")] ++ []) "c.toml" = .ok
        { standard with inputs := ⟨1, 7, ⟨.ofInt 5, Binary.Number.zero⟩, Inputs.standard.target⟩ } ∧
      Level.parse "\tDeBug " = .ok .debug ∧ ¬ Level.IsNumeral (Text.trim "\tDeBug ".toList) ∧
      ∃ s', loadFrom partialTree ([("HOME", "/")] ++ (levelVariable, "\tDeBug ") :: []) "c.toml" =
          .ok s' ∧ s'.level = "DeBug" := by
  have hbefore : Environment.IsSilent [("HOME", "/")] := by
    intro entry hentry
    rw [List.mem_singleton] at hentry
    subst hentry
    decide
  have hafter : Environment.IsSilent [] := by
    intro entry hentry
    cases hentry
  have hload : loadFrom partialTree ([("HOME", "/")] ++ []) "c.toml" = .ok
      { standard with inputs := ⟨1, 7, ⟨.ofInt 5, Binary.Number.zero⟩, Inputs.standard.target⟩ } :=
    loadFrom_partial (by decide +kernel)
  have hparse : Level.parse "\tDeBug " = .ok .debug := by decide
  have hnumeral : ¬ Level.IsNumeral (Text.trim "\tDeBug ".toList) := by decide
  refine ⟨hbefore, hafter, hload, hparse, hnumeral, ?_⟩
  obtain ⟨s', hs', rfl, -, -⟩ := (loadFrom_levelVariable hbefore hafter hload hparse).1 hnumeral
  exact ⟨_, hs', by decide⟩

/-- A number from 0 to 5 names a level, and no settings are loaded with it. -/
theorem levelVariable_rank :
    loadFrom bareTree [] "none.toml" = .ok standard ∧ Level.parse "3" = .ok .info ∧
      ∀ s', loadFrom bareTree [(levelVariable, "3")] "none.toml" ≠ .ok s' := by
  have hload : loadFrom bareTree [(levelVariable, "3")] "none.toml" =
      .error (.unsuitable ⟨.wrongType "unsigned int `3`" "a string", ["logging", "level"],
        .environment⟩) := by
    decide +kernel
  refine ⟨by decide +kernel, by decide, ?_⟩
  intro s' hloaded
  rw [hload] at hloaded
  cases hloaded

end Settings
end PlaneReport
