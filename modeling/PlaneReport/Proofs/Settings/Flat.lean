import PlaneReport.Proofs.Layer.Leaf
import PlaneReport.Proofs.Outline.Path

/-!
# Settings as one record

Settings are decoded section by section.  Seen from the top they are one record: every value is
looked up at its path, and what is not there has its standard.  A section that is not there is the
same as one with nothing in it, but a point is there or not, and one that is needs both coordinates.
Main statement: `toSettings_eq_settingsOf`.
-/

namespace PlaneReport
namespace Outline

open Binary

variable {dialect : Dialect} {members : List (Option String × Outline)} {outline : Outline}

/-! ## Fields in any order -/

theorem rawPoint_independent (dialect : Dialect) :
    Shape.Independent (RawPoint.shape dialect).fields := by
  constructor
  · show ["x", "y"].Nodup
    decide
  · intro first hfirst second hsecond hne value value' record
    simp only [RawPoint.shape, List.mem_cons, List.not_mem_nil, or_false] at hfirst hsecond
    rcases hfirst with rfl | rfl <;> rcases hsecond with rfl | rfl <;>
      first
        | exact absurd rfl hne
        | exact Shape.taken_commute rfl rfl (by intro _ _ _; rfl) record

theorem inputs_independent (dialect : Dialect) :
    Shape.Independent (inputsShape dialect).fields := by
  constructor
  · show ["a", "b", "from", "to"].Nodup
    decide
  · intro first hfirst second hsecond hne value value' record
    simp only [inputsShape, List.mem_cons, List.not_mem_nil, or_false] at hfirst hsecond
    rcases hfirst with rfl | rfl | rfl | rfl <;> rcases hsecond with rfl | rfl | rfl | rfl <;>
      first
        | exact absurd rfl hne
        | exact Shape.taken_commute rfl rfl (by intro _ _ _; rfl) record

theorem settings_independent (dialect : Dialect) :
    Shape.Independent (settingsShape dialect).fields := by
  constructor
  · show ["version", "inputs", "output", "logging"].Nodup
    decide
  · intro first hfirst second hsecond hne value value' record
    simp only [settingsShape, List.mem_cons, List.not_mem_nil, or_false] at hfirst hsecond
    rcases hfirst with rfl | rfl | rfl | rfl <;> rcases hsecond with rfl | rfl | rfl | rfl <;>
      first
        | exact absurd rfl hne
        | exact Shape.taken_commute rfl rfl (by intro _ _ _; rfl) record

/-- A single field is decoded before or after no other. -/
theorem single_independent {σ : Type} (field : Field σ) : Shape.Independent [field] := by
  constructor
  · exact List.nodup_cons.mpr ⟨List.not_mem_nil, List.nodup_nil⟩
  · intro first hfirst second hsecond hne
    rw [List.mem_singleton] at hfirst hsecond
    rw [hfirst, hsecond] at hne
    exact absurd rfl hne

/-! ## Records -/

/-- The point of two coordinates, if both are there and finite. -/
def pointOf? : Option Double → Option Double → Option Point
  | some x, some y => (Point.checked x y).toOption
  | _, _ => none

theorem of_pointOf? {x y : Option Double} {p : Point} (h : pointOf? x y = some p) :
    x = some p.x ∧ y = some p.y := by
  cases x with
  | none => cases h
  | some x =>
    cases y with
    | none => cases h
    | some y =>
      replace h : (Point.checked x y).toOption = some p := h
      cases hchecked : Point.checked x y with
      | error cause =>
        rw [hchecked] at h
        cases h
      | ok point =>
        rw [hchecked] at h
        cases h
        rw [(Point.checked_eq_ok_iff.mp hchecked).1]
        exact ⟨rfl, rfl⟩

theorem toPoint_toOption (dialect : Dialect) (outline : Outline) :
    (outline.toPoint dialect).toOption =
      ((RawPoint.shape dialect).decode dialect outline).toOption.bind fun coordinates =>
        (Point.checked coordinates.1 coordinates.2).toOption := by
  unfold toPoint
  cases (RawPoint.shape dialect).decode dialect outline with
  | error e => rfl
  | ok coordinates =>
    dsimp only [bind, Except.bind, Except.toOption, Option.bind]
    cases Point.checked coordinates.1 coordinates.2 <;> rfl

theorem rawPoint_overlay (dialect : Dialect) (given : String → Option Outline) :
    Shape.overlay (RawPoint.shape dialect).fields given {} =
      (Shape.read (toNumber dialect) (given "x")).bind fun x =>
        (Shape.read (toNumber dialect) (given "y")).bind fun y => some ⟨x, y⟩ := by
  refine (Shape.overlay_set (toNumber dialect) (fun x raw => { raw with x := some x })
    fun _ _ => rfl).trans (congrArg (Option.bind _) (funext fun x => ?_))
  refine (Shape.overlay_set (toNumber dialect) (fun y raw => { raw with y := some y })
    fun _ _ => rfl).trans (congrArg (Option.bind _) (funext fun y => ?_))
  cases x <;> cases y <;> rfl

theorem toPoint_table (hmembers : Shape.IsRead dialect members) :
    (toPoint dialect (.table members true)).toOption =
      (Shape.read (toNumber dialect) (Shape.given members "x")).bind fun x =>
        (Shape.read (toNumber dialect) (Shape.given members "y")).bind fun y => pointOf? x y := by
  rw [toPoint_toOption, Shape.decode_eq_overlay _ (rawPoint_independent dialect) hmembers]
  show ((Shape.overlay (RawPoint.shape dialect).fields (Shape.given members) {}).bind _).bind _ = _
  rw [rawPoint_overlay, Option.bind_assoc, Option.bind_assoc]
  congr 1
  funext x
  rw [Option.bind_assoc]
  congr 1
  funext y
  cases x with
  | none => rfl
  | some x => cases y <;> rfl

/-- The inputs that are given by the names of their fields. -/
def inputsOf? (dialect : Dialect) (given : String → Option Outline) : Option Inputs := do
  let a ← Shape.read (toInteger dialect .word "i64") (given "a")
  let b ← Shape.read (toInteger dialect .word "i64") (given "b")
  let source ← Shape.read (toPoint dialect) (given "from")
  let target ← Shape.read (toPoint dialect) (given "to")
  return {
    a := (a.map Int64.ofInt).getD Inputs.standard.a
    b := (b.map Int64.ofInt).getD Inputs.standard.b
    source := source.getD Inputs.standard.source
    target := target.getD Inputs.standard.target }

theorem inputs_overlay (dialect : Dialect) (given : String → Option Outline) :
    Shape.overlay (inputsShape dialect).fields given Inputs.standard =
      inputsOf? dialect given := by
  refine (Shape.overlay_set (toInteger dialect .word "i64")
    (fun a inputs => { inputs with a := Int64.ofInt a })
    fun _ _ => rfl).trans (congrArg (Option.bind _) (funext fun a => ?_))
  refine (Shape.overlay_set (toInteger dialect .word "i64")
    (fun b inputs => { inputs with b := Int64.ofInt b })
    fun _ _ => rfl).trans (congrArg (Option.bind _) (funext fun b => ?_))
  refine (Shape.overlay_set (toPoint dialect)
    (fun source inputs => { inputs with source := source })
    fun _ _ => rfl).trans (congrArg (Option.bind _) (funext fun source => ?_))
  refine (Shape.overlay_set (toPoint dialect)
    (fun target inputs => { inputs with target := target })
    fun _ _ => rfl).trans (congrArg (Option.bind _) (funext fun target => ?_))
  cases a <;> cases b <;> cases source <;> cases target <;> rfl

theorem toInputs_table (hmembers : Shape.IsRead dialect members) :
    (toInputs dialect (.table members true)).toOption =
      inputsOf? dialect (Shape.given members) := by
  unfold toInputs
  rw [Shape.decode_eq_overlay _ (inputs_independent dialect) hmembers]
  show (Shape.overlay _ _ Inputs.standard).bind some = _
  rw [Option.bind_fun_some, inputs_overlay]

/-- The places that are given. -/
def placesOf? (dialect : Dialect) (given : Option Outline) : Option (Option UInt64) :=
  (Shape.read (toOptional (toInteger dialect sizeKind "usize")) given).map fun places =>
    (places.getD none).map fun n => UInt64.ofNat n.toNat

theorem output_table (hmembers : Shape.IsRead dialect members) :
    ((outputShape dialect).decode dialect (.table members true)).toOption =
      placesOf? dialect (Shape.given members "precision") := by
  rw [Shape.decode_eq_overlay _ (single_independent _) hmembers]
  show (Shape.overlay (outputShape dialect).fields _ none).bind some = _
  rw [Option.bind_fun_some]
  unfold outputShape Shape.overlay Shape.taken placesOf? Shape.read
  dsimp only
  cases Shape.given members "precision" with
  | none => rfl
  | some value =>
    dsimp only
    cases toOptional (toInteger dialect sizeKind "usize") value <;> rfl

/-- The text of the level that is given. -/
def levelOf? (dialect : Dialect) (given : Option Outline) : Option String :=
  (Shape.read (toText dialect) given).map fun level => level.getD Settings.standard.level

theorem logging_table (hmembers : Shape.IsRead dialect members) :
    ((loggingShape dialect).decode dialect (.table members true)).toOption =
      levelOf? dialect (Shape.given members "level") := by
  rw [Shape.decode_eq_overlay _ (single_independent _) hmembers]
  show (Shape.overlay (loggingShape dialect).fields _ Settings.standard.level).bind some = _
  rw [Option.bind_fun_some]
  unfold loggingShape Shape.overlay Shape.taken levelOf? Shape.read
  dsimp only
  cases Shape.given members "level" with
  | none => rfl
  | some value =>
    dsimp only
    cases toText dialect value <;> rfl

theorem settings_overlay (dialect : Dialect) (given : String → Option Outline) :
    Shape.overlay (settingsShape dialect).fields given Settings.standard =
      (Shape.read (toInteger dialect versionKind "u32") (given "version")).bind fun version =>
        ((Shape.read (toInputs dialect) (given "inputs")).map (Option.getD · Inputs.standard)).bind
          fun inputs =>
        ((Shape.read ((outputShape dialect).decode dialect) (given "output")).map
          (Option.getD · none)).bind fun precision =>
        ((Shape.read ((loggingShape dialect).decode dialect) (given "logging")).map
          (Option.getD · Settings.standard.level)).bind fun level =>
        some {
          version := (version.map fun n => UInt32.ofNat n.toNat).getD Settings.standard.version
          inputs, precision, level } := by
  simp only [Option.bind_map, Function.comp_def]
  refine (Shape.overlay_set (toInteger dialect versionKind "u32")
    (fun version settings => { settings with version := UInt32.ofNat version.toNat })
    fun _ _ => rfl).trans (congrArg (Option.bind _) (funext fun version => ?_))
  refine (Shape.overlay_set (toInputs dialect)
    (fun inputs settings => { settings with inputs := inputs })
    fun _ _ => rfl).trans (congrArg (Option.bind _) (funext fun inputs => ?_))
  refine (Shape.overlay_set ((outputShape dialect).decode dialect)
    (fun precision settings => { settings with precision := precision })
    fun _ _ => rfl).trans (congrArg (Option.bind _) (funext fun precision => ?_))
  refine (Shape.overlay_set ((loggingShape dialect).decode dialect)
    (fun level settings => { settings with level := level })
    fun _ _ => rfl).trans (congrArg (Option.bind _) (funext fun level => ?_))
  cases version <;> cases inputs <;> cases precision <;> cases level <;> rfl

/-! ## Sections -/

/-- Outlines of which every part is read member by member where settings are looked for. -/
structure HasRecords (dialect : Dialect) (outline : Outline) : Prop where
  top : outline.IsTable
  canSkip : outline.canSkip dialect = true
  keys : ∀ branch ∈ Leaf.branches, ∀ inner, at? branch outline = some inner → inner.HasOwnKeys
  noLists : ∀ branch ∈ Leaf.branches, ∀ inner, at? branch outline = some inner → ¬ inner.IsList

/-- A table in the place of a section or a point is read member by member. -/
theorem HasRecords.isRead {closed : Bool} (h : outline.HasRecords dialect) (branch : List String)
    (hbranch : branch ∈ Leaf.branches) (hat : at? branch outline = some (.table members closed)) :
    closed = true ∧ Shape.IsRead dialect members :=
  isRead_of_hasOwnKeys (h.keys branch hbranch _ hat) (canSkip_at? h.canSkip hat)

/-- The sections of settings. -/
def sections : List String := ["inputs", "output", "logging"]

theorem branch_of_section {name : String} (h : name ∈ sections) : [name] ∈ Leaf.branches := by
  have hall : ∀ name ∈ sections, [name] ∈ Leaf.branches := by decide
  exact hall name h

/-- Whether what stands in the place of a section is a table. -/
def HasSections (outline : Outline) : Prop :=
  ∀ name ∈ sections, ∀ inner, at? [name] outline = some inner → inner.IsTable

/-- A section that is not there is the same as one with nothing in it. -/
theorem read_section {α : Type} {decode : Outline → Except DecodeError α}
    (hrecords : outline.HasRecords dialect) (hsections : outline.HasSections)
    (name : String) (standard : α) (part : (String → Option Outline) → Option α)
    (hname : name ∈ sections) (hnothing : part (fun _ => none) = some standard)
    (htable : ∀ members, Shape.IsRead dialect members →
      (decode (.table members true)).toOption = part (Shape.given members)) :
    (Shape.read decode (at? [name] outline)).map (Option.getD · standard) =
      part fun field => at? [name, field] outline := by
  have hbranch := branch_of_section hname
  have hpath : ∀ field, at? [name, field] outline = (at? [name] outline).bind (at? [field]) :=
    fun field => at?_append [name] [field] outline
  simp only [hpath]
  cases hat : at? [name] outline with
  | none => exact hnothing.symm
  | some inner =>
    obtain ⟨members, closed, rfl⟩ := exists_table (hsections name hname inner hat)
    obtain ⟨rfl, hread⟩ := hrecords.isRead [name] hbranch hat
    have hgiven : (fun field => (some (Outline.table members true)).bind (at? [field])) =
        Shape.given members := by
      funext field
      exact at?_single members true field
    rw [hgiven, ← htable members hread]
    show (((decode (.table members true)).toOption.map some).map (Option.getD · standard)) = _
    cases decode (.table members true) <;> rfl

/-- The settings that are given along paths. -/
def settingsOf? (dialect : Dialect) (found : List String → Option Outline) : Option Settings := do
  let version ← Shape.read (toInteger dialect versionKind "u32") (found ["version"])
  let inputs ← inputsOf? dialect fun name => found ["inputs", name]
  let precision ← placesOf? dialect (found ["output", "precision"])
  let level ← levelOf? dialect (found ["logging", "level"])
  return {
    version := (version.map fun n => UInt32.ofNat n.toNat).getD Settings.standard.version
    inputs, precision, level }

theorem toSettings_eq_settingsOf (hrecords : outline.HasRecords dialect)
    (hsections : outline.HasSections) :
    (outline.toSettings dialect).toOption =
      settingsOf? dialect fun path => at? path outline := by
  obtain ⟨members, closed, rfl⟩ := exists_table hrecords.top
  obtain ⟨rfl, hread⟩ := hrecords.isRead [] (by decide) rfl
  have hinputs := read_section hrecords hsections "inputs" Inputs.standard (inputsOf? dialect)
    (by decide) rfl fun _ => toInputs_table
  have houtput := read_section hrecords hsections "output" none
    (fun given => placesOf? dialect (given "precision")) (by decide) rfl fun _ => output_table
  have hlogging := read_section hrecords hsections "logging" Settings.standard.level
    (fun given => levelOf? dialect (given "level")) (by decide) rfl fun _ => logging_table
  rw [at?_single] at hinputs houtput hlogging
  unfold toSettings
  rw [Shape.decode_eq_overlay _ (settings_independent dialect) hread]
  show (Shape.overlay _ _ Settings.standard).bind some = _
  rw [Option.bind_fun_some, settings_overlay, hinputs, houtput, hlogging, ← at?_single]
  rfl

end Outline
end PlaneReport
