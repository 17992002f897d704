import PlaneReport.Proofs.Settings.Finite
import PlaneReport.Proofs.Settings.Flat

/-!
# Decoding as an overlay

Settings that are decoded from a text are the standard ones with what the text gives laid over them.
Two texts that give the same where settings are looked for are decoded alike, whatever the order of
their members is and whatever else they hold.  Main statement: `decode_overlay`.
-/

namespace PlaneReport

open Binary

/-! ## Agreement -/

/-- What matters of a value to a leaf. -/
def ContentKind.view : ContentKind → Outline → Outline
  | .number => Outline.numberFace
  | .integer | .text => Outline.face

namespace Outline

variable {dialect : Dialect} {outline outline' inner value : Outline} {path : List String}

/-- Two outlines have the same at a path: nothing, or values that some view does not tell apart. -/
def SameAt (view : Outline → Outline) (path : List String) (outline outline' : Outline) : Prop :=
  (at? path outline).map view = (at? path outline').map view

theorem SameAt.cases {view : Outline → Outline} (h : SameAt view path outline outline') :
    (at? path outline = none ∧ at? path outline' = none) ∨
      ∃ value value', at? path outline = some value ∧ at? path outline' = some value' ∧
        view value = view value' := by
  unfold SameAt at h
  cases hat : at? path outline with
  | none =>
    rw [hat, Option.map_none, eq_comm, Option.map_eq_none_iff] at h
    exact Or.inl ⟨rfl, h⟩
  | some value =>
    rw [hat, Option.map_some, eq_comm, Option.map_eq_some_iff] at h
    obtain ⟨value', hat', hview⟩ := h
    exact Or.inr ⟨value, value', rfl, hat', hview.symm⟩

/-- Where the points of the inputs are. -/
def points : List (List String) := [["inputs", "from"], ["inputs", "to"]]

theorem branch_of_point {path : List String} (h : path ∈ points) : path ∈ Leaf.branches := by
  have hall : ∀ path ∈ points, path ∈ Leaf.branches := by decide
  exact hall path h

/-- Two outlines have the same for settings: at the leaves, in the place of the points, and in the
place of the sections, where a table without known members may stand for nothing. -/
structure Agrees (outline outline' : Outline) : Prop where
  leaves : ∀ leaf : Leaf, SameAt leaf.kind.view leaf.path outline outline'
  points : ∀ path ∈ points, SameAt face path outline outline'
  sections : ∀ name ∈ sections, SameAt face [name] outline outline' ∨
    (∀ inner ∈ at? [name] outline, inner.IsTable) ∧ ∀ inner ∈ at? [name] outline', inner.IsTable

theorem Agrees.symm (h : outline.Agrees outline') : outline'.Agrees outline := by
  refine ⟨fun leaf => (h.leaves leaf).symm, fun path hpath => (h.points path hpath).symm, ?_⟩
  intro name hname
  rcases h.sections name hname with hsame | htables
  · exact Or.inl hsame.symm
  · exact Or.inr htables.symm

theorem Agrees.hasSections (h : outline.Agrees outline') (hsections : outline.HasSections) :
    outline'.HasSections := by
  intro name hname inner' hinner'
  rcases h.sections name hname with hsame | htables
  · rcases hsame.cases with ⟨-, hnone⟩ | ⟨inner, value, hinner, hvalue, hface⟩
    · rw [hinner'] at hnone
      cases hnone
    · rw [hinner'] at hvalue
      cases hvalue
      exact isTable_of_face_eq hface (hsections name hname inner hinner)
  · exact htables.2 inner' hinner'

/-- What is no table in the place of a section is refused. -/
theorem toSettings_of_not_hasSections (hrecords : outline.HasRecords dialect)
    (hsections : ¬ outline.HasSections) : (outline.toSettings dialect).toOption = none := by
  unfold HasSections at hsections
  push Not at hsections
  obtain ⟨name, hname, inner, hinner, htable⟩ := hsections
  have hbranch := branch_of_section hname
  have hlist := hrecords.noLists [name] hbranch inner hinner
  obtain ⟨members, closed, rfl⟩ := exists_table hrecords.top
  obtain ⟨rfl, hread⟩ := hrecords.isRead [] (by decide) rfl
  rw [at?_single] at hinner
  have hrefused : ∀ {σ α : Type} (shape : Shape σ α),
      Shape.read (shape.decode dialect) (some inner) = none := by
    intro σ α shape
    cases inner with
    | table members closed => exact absurd trivial htable
    | list items closed => exact absurd trivial hlist
    | null | bool | integer | number | string | unreadable | overflow | broken => rfl
  unfold toSettings
  rw [Shape.decode_eq_overlay _ (settings_independent dialect) hread]
  show (Shape.overlay _ _ Settings.standard).bind some = _
  rw [Option.bind_fun_some, settings_overlay]
  simp only [sections, List.mem_cons, List.not_mem_nil, or_false] at hname
  rcases hname with rfl | rfl | rfl
  · have hinputs : Shape.read (toInputs dialect) (some inner) = none := hrefused _
    rw [hinner, hinputs]
    simp
  · rw [hinner, hrefused]
    simp
  · rw [hinner, hrefused]
    simp

/-- Points of the same face and with the same coordinates are decoded alike. -/
theorem toPoint_congr {value' : Outline} (hrecords : outline.HasRecords dialect)
    (hrecords' : outline'.HasRecords dialect) (hpath : path ∈ points)
    (hat : at? path outline = some value) (hat' : at? path outline' = some value')
    (hface : value.face = value'.face)
    (hx : SameAt numberFace ["x"] value value') (hy : SameAt numberFace ["y"] value value') :
    (value.toPoint dialect).toOption = (value'.toPoint dialect).toOption := by
  have hbranch := branch_of_point hpath
  by_cases htable : value.IsTable
  · obtain ⟨members, closed, rfl⟩ := exists_table htable
    obtain ⟨members', closed', rfl⟩ := exists_table (isTable_of_face_eq hface htable)
    obtain ⟨rfl, hread⟩ := hrecords.isRead path hbranch hat
    obtain ⟨rfl, hread'⟩ := hrecords'.isRead path hbranch hat'
    unfold SameAt at hx hy
    rw [at?_single, at?_single] at hx hy
    rw [toPoint_table hread, toPoint_table hread', read_congr (toNumber_readsThrough dialect) hx,
      read_congr (toNumber_readsThrough dialect) hy]
  · -- Neither is a list, so that the two are the same.
    have hlist := hrecords.noLists path hbranch value hat
    have htable' : ¬ value'.IsTable := fun h => htable (isTable_of_face_eq hface.symm h)
    have hlist' := hrecords'.noLists path hbranch value' hat'
    rw [face_of_not_isTable htable hlist, face_of_not_isTable htable' hlist'] at hface
    rw [hface]

/-- Where two outlines have the same point, with the same coordinates, it is decoded alike. -/
theorem read_toPoint_congr (hrecords : outline.HasRecords dialect)
    (hrecords' : outline'.HasRecords dialect) (hpath : path ∈ points)
    (hpoint : SameAt face path outline outline')
    (hx : SameAt numberFace (path ++ ["x"]) outline outline')
    (hy : SameAt numberFace (path ++ ["y"]) outline outline') :
    Shape.read (toPoint dialect) (at? path outline) =
      Shape.read (toPoint dialect) (at? path outline') := by
  rcases hpoint.cases with ⟨hnone, hnone'⟩ | ⟨value, value', hat, hat', hface⟩
  · rw [hnone, hnone']
  · unfold SameAt at hx hy
    rw [at?_append, at?_append, hat, hat'] at hx hy
    rw [hat, hat']
    exact congrArg (Option.map some) (toPoint_congr hrecords hrecords' hpath hat hat' hface hx hy)

/-- Outlines that agree are decoded to the same settings, or both refused. -/
theorem toSettings_congr (hrecords : outline.HasRecords dialect)
    (hrecords' : outline'.HasRecords dialect) (h : outline.Agrees outline') :
    (outline.toSettings dialect).toOption = (outline'.toSettings dialect).toOption := by
  by_cases hsections : outline.HasSections
  · have hversion :
        Shape.read (toInteger dialect versionKind "u32") (at? ["version"] outline) = _ :=
      read_congr (toInteger_readsThrough _ _ _) (h.leaves .version)
    have ha : Shape.read (toInteger dialect .word "i64") (at? ["inputs", "a"] outline) = _ :=
      read_congr (toInteger_readsThrough _ _ _) (h.leaves .a)
    have hb : Shape.read (toInteger dialect .word "i64") (at? ["inputs", "b"] outline) = _ :=
      read_congr (toInteger_readsThrough _ _ _) (h.leaves .b)
    have hsource : Shape.read (toPoint dialect) (at? ["inputs", "from"] outline) = _ :=
      read_toPoint_congr hrecords hrecords' (by decide) (h.points _ (by decide))
        (h.leaves .sourceX) (h.leaves .sourceY)
    have htarget : Shape.read (toPoint dialect) (at? ["inputs", "to"] outline) = _ :=
      read_toPoint_congr hrecords hrecords' (by decide) (h.points _ (by decide))
        (h.leaves .targetX) (h.leaves .targetY)
    have hplaces : placesOf? dialect (at? ["output", "precision"] outline) =
        placesOf? dialect (at? ["output", "precision"] outline') := by
      unfold placesOf?
      exact congrArg _ (read_congr (toOptional_readsThrough (toInteger_readsThrough _ _ _))
        (h.leaves .precision))
    have hlevel : levelOf? dialect (at? ["logging", "level"] outline) =
        levelOf? dialect (at? ["logging", "level"] outline') := by
      unfold levelOf?
      exact congrArg _ (read_congr (toText_readsThrough _) (h.leaves .level))
    rw [toSettings_eq_settingsOf hrecords hsections,
      toSettings_eq_settingsOf hrecords' (h.hasSections hsections)]
    unfold settingsOf? inputsOf?
    rw [hversion, ha, hb, hsource, htarget, hplaces, hlevel]
    rfl
  · have hsections' : ¬ outline'.HasSections := fun hsome => hsections (h.symm.hasSections hsome)
    rw [toSettings_of_not_hasSections hrecords hsections,
      toSettings_of_not_hasSections hrecords' hsections']

end Outline

/-! ## Leaves -/

/-- What a value of an outline is as the content of a leaf; `null` stands for its absence. -/
def ContentKind.written? : ContentKind → Outline → Option Content
  | .integer, .integer n => some (.integer n)
  | .integer, .null => some .absent
  | .number, .number x => some (.number x)
  | .number, .integer n => some (.number (Number.ofInt n))
  | .text, .string s => some (.text s)
  | _, _ => none

/-- A leaf of settings has the value that is written for it, or else its standard. -/
def Leaf.IsWritten (leaf : Leaf) (s : Settings) : Option Outline → Prop
  | some value => leaf.kind.written? value = some (leaf.content s)
  | none => leaf.content s = leaf.content Settings.standard

namespace Outline

variable {dialect : Dialect} {outline value : Outline} {found : Option Outline} {s : Settings}

theorem of_toInteger {kind : IntegerKind} {expected : String} {n : Int}
    (h : value.toInteger dialect kind expected = .ok n) :
    value = .integer n ∧ kind.holds n = true := by
  cases value with
  | integer m =>
    rw [toInteger] at h
    by_cases hholds : kind.holds m = true
    · rw [if_pos hholds] at h
      cases h
      exact ⟨rfl, hholds⟩
    · rw [if_neg hholds] at h
      split at h <;> cases h
  | null | bool | number | string | unreadable | overflow | broken | list | table => cases h

theorem of_toNumber {x : Double} (h : value.toNumber dialect = .ok x) :
    ContentKind.number.written? value = some (.number x) := by
  cases value with
  | integer n =>
    rw [toNumber] at h
    split at h
    · cases h
    · cases h
      rfl
  | number y =>
    cases h
    rfl
  | null | bool | string | unreadable | overflow | broken | list | table => cases h

theorem of_toText {text : String} (h : value.toText dialect = .ok text) :
    ContentKind.text.written? value = some (.text text) := by
  cases value with
  | string s =>
    cases h
    rfl
  | null | bool | integer | number | unreadable | overflow | broken | list | table => cases h

/-- Whatever is read is absent or decoded. -/
theorem of_read {α : Type} {decode : Outline → Except DecodeError α} {result : Option α}
    (h : Shape.read decode found = some result) :
    (found = none ∧ result = none) ∨
      ∃ value a, found = some value ∧ result = some a ∧ decode value = .ok a := by
  cases found with
  | none =>
    cases h
    exact Or.inl ⟨rfl, rfl⟩
  | some value =>
    obtain ⟨a, ha, rfl⟩ := Option.map_eq_some_iff.mp h
    refine Or.inr ⟨value, a, rfl, rfl, ?_⟩
    cases hdecode : decode value with
    | error e =>
      rw [hdecode] at ha
      cases ha
    | ok b =>
      rw [hdecode] at ha
      cases ha
      rfl

theorem version_isWritten {result : Option Int}
    (h : Shape.read (toInteger dialect versionKind "u32") found = some result)
    (hs : s.version = (result.map fun n => UInt32.ofNat n.toNat).getD Settings.standard.version) :
    Leaf.version.IsWritten s found := by
  rcases of_read h with ⟨rfl, rfl⟩ | ⟨value, n, rfl, rfl, hvalue⟩
  · exact congrArg (fun version : UInt32 => Content.integer version.toNat) hs
  · obtain ⟨rfl, hholds⟩ := of_toInteger hvalue
    have hn := IntegerKind.toNat_ofNat32_of_holds hholds
    show some (Content.integer n) = some (.integer s.version.toNat)
    rw [hs]
    show _ = some (Content.integer (UInt32.ofNat n.toNat).toNat)
    rw [hn]

theorem word_isWritten {leaf : Leaf} {standard : Int64} {expected : String} {result : Option Int}
    (h : Shape.read (toInteger dialect .word expected) found = some result)
    (hkind : leaf.kind = .integer)
    (hs : leaf.content s = .integer ((result.map Int64.ofInt).getD standard).toInt)
    (hstandard : leaf.content Settings.standard = .integer standard.toInt) :
    leaf.IsWritten s found := by
  rcases of_read h with ⟨rfl, rfl⟩ | ⟨value, n, rfl, rfl, hvalue⟩
  · exact hs.trans hstandard.symm
  · obtain ⟨rfl, hholds⟩ := of_toInteger hvalue
    show leaf.kind.written? (.integer n) = _
    rw [hkind, hs]
    show some (Content.integer n) = some (.integer (Int64.ofInt n).toInt)
    rw [IntegerKind.toInt_ofInt_of_holds hholds]

theorem precision_isWritten (h : placesOf? dialect found = some s.precision) :
    Leaf.precision.IsWritten s found := by
  obtain ⟨result, hread, hplaces⟩ := Option.map_eq_some_iff.mp h
  have hcontent : Leaf.precision.content s =
      s.precision.elim .absent fun places => .integer places.toNat := by
    unfold Leaf.content
    cases s.precision <;> rfl
  rw [← hplaces] at hcontent
  rcases of_read hread with ⟨rfl, rfl⟩ | ⟨value, places, rfl, rfl, hvalue⟩
  · exact hcontent
  · show ContentKind.integer.written? value = _
    rw [hcontent]
    cases value with
    | null =>
      cases hvalue
      rfl
    | integer n =>
      obtain ⟨m, hm, rfl⟩ := map_eq_ok.mp hvalue
      obtain ⟨heq, hholds⟩ := of_toInteger hm
      cases heq
      have hn := IntegerKind.toNat_ofNat64_of_holds hholds
      show some (Content.integer n) = some (.integer (UInt64.ofNat n.toNat).toNat)
      rw [hn]
    | bool | number | string | unreadable | overflow | broken | list | table => cases hvalue

theorem level_isWritten (h : levelOf? dialect found = some s.level) :
    Leaf.level.IsWritten s found := by
  obtain ⟨result, hread, hlevel⟩ := Option.map_eq_some_iff.mp h
  rcases of_read hread with ⟨rfl, rfl⟩ | ⟨value, text, rfl, rfl, hvalue⟩
  · exact congrArg Content.text hlevel.symm
  · show ContentKind.text.written? value = some (.text s.level)
    rw [of_toText hvalue, ← hlevel]
    rfl

/-- What is decoded as a point gives both its coordinates. -/
theorem coordinates_of_toPoint {path : List String} {p : Point}
    (hrecords : outline.HasRecords dialect) (hpath : path ∈ points)
    (hat : at? path outline = some value) (h : value.toPoint dialect = .ok p) :
    ∃ x y, at? (path ++ ["x"]) outline = some x ∧ at? (path ++ ["y"]) outline = some y ∧
      ContentKind.number.written? x = some (.number p.x) ∧
      ContentKind.number.written? y = some (.number p.y) := by
  have hbranch := branch_of_point hpath
  have htable : value.IsTable := by
    have hlist := hrecords.noLists path hbranch value hat
    cases value with
    | table members closed => trivial
    | list items closed => exact absurd trivial hlist
    | null | bool | integer | number | string | unreadable | overflow | broken => cases h
  obtain ⟨members, closed, rfl⟩ := exists_table htable
  obtain ⟨rfl, hread⟩ := hrecords.isRead path hbranch hat
  have hpoint := toPoint_table hread
  rw [h] at hpoint
  obtain ⟨x?, hx, hpoint⟩ := Option.bind_eq_some_iff.mp hpoint.symm
  obtain ⟨y?, hy, hpoint⟩ := Option.bind_eq_some_iff.mp hpoint
  obtain ⟨rfl, rfl⟩ := of_pointOf? hpoint
  simp only [at?_append, hat, Option.bind_some, at?_single]
  rcases of_read hx with ⟨-, hnone⟩ | ⟨x, px, hxgiven, hpx, hxvalue⟩
  · cases hnone
  · rcases of_read hy with ⟨-, hnone⟩ | ⟨y, py, hygiven, hpy, hyvalue⟩
    · cases hnone
    · cases hpx
      cases hpy
      exact ⟨x, y, hxgiven, hygiven, of_toNumber hxvalue, of_toNumber hyvalue⟩

/-- A point that is there has the coordinates that are written; one that is not there is a standard
one. -/
theorem point_isWritten {path : List String} {p : Point} {result : Option Point}
    (xLeaf yLeaf : Leaf) (hrecords : outline.HasRecords dialect) (hpath : path ∈ points)
    (h : Shape.read (toPoint dialect) (at? path outline) = some result)
    (hx : xLeaf.path = path ++ ["x"] ∧ xLeaf.kind = .number ∧
      xLeaf.content Settings.standard = .number p.x)
    (hy : yLeaf.path = path ++ ["y"] ∧ yLeaf.kind = .number ∧
      yLeaf.content Settings.standard = .number p.y)
    (hxs : xLeaf.content s = .number (result.getD p).x)
    (hys : yLeaf.content s = .number (result.getD p).y) :
    xLeaf.IsWritten s (at? xLeaf.path outline) ∧ yLeaf.IsWritten s (at? yLeaf.path outline) := by
  obtain ⟨hxpath, hxkind, hxstandard⟩ := hx
  obtain ⟨hypath, hykind, hystandard⟩ := hy
  rw [hxpath, hypath]
  rcases of_read h with ⟨hat, rfl⟩ | ⟨value, q, hat, rfl, hvalue⟩
  · rw [at?_append, at?_append, hat]
    exact ⟨hxs.trans hxstandard.symm, hys.trans hystandard.symm⟩
  · obtain ⟨x, y, hxat, hyat, hxwritten, hywritten⟩ :=
      coordinates_of_toPoint hrecords hpath hat hvalue
    rw [hxat, hyat]
    constructor
    · show xLeaf.kind.written? x = _
      rw [hxkind, hxs, hxwritten]
      rfl
    · show yLeaf.kind.written? y = _
      rw [hykind, hys, hywritten]
      rfl

/-- A point that is there gives both its coordinates. -/
def HasWholePoints (outline : Outline) : Prop :=
  ∀ path ∈ points, (at? path outline).isSome = true →
    (at? (path ++ ["x"]) outline).isSome = true ∧ (at? (path ++ ["y"]) outline).isSome = true

theorem isSome_of_read_toPoint {path : List String} {result : Option Point}
    (hrecords : outline.HasRecords dialect) (hpath : path ∈ points)
    (h : Shape.read (toPoint dialect) (at? path outline) = some result)
    (hsome : (at? path outline).isSome = true) :
    (at? (path ++ ["x"]) outline).isSome = true ∧ (at? (path ++ ["y"]) outline).isSome = true := by
  rcases of_read h with ⟨hat, -⟩ | ⟨value, p, hat, -, hvalue⟩
  · rw [hat] at hsome
    cases hsome
  · obtain ⟨x, y, hx, hy, -, -⟩ := coordinates_of_toPoint hrecords hpath hat hvalue
    rw [hx, hy]
    exact ⟨rfl, rfl⟩

/-- Decoded settings have in every leaf what is written there, or else its standard. -/
theorem settingsOf?_isWritten (hrecords : outline.HasRecords dialect)
    (h : settingsOf? dialect (fun path => at? path outline) = some s) :
    (∀ leaf : Leaf, leaf.IsWritten s (at? leaf.path outline)) ∧ outline.HasWholePoints := by
  obtain ⟨version, hversion, h⟩ := Option.bind_eq_some_iff.mp h
  obtain ⟨inputs, hinputs, h⟩ := Option.bind_eq_some_iff.mp h
  obtain ⟨precision, hprecision, h⟩ := Option.bind_eq_some_iff.mp h
  obtain ⟨level, hlevel, h⟩ := Option.bind_eq_some_iff.mp h
  obtain ⟨a, ha, hinputs⟩ := Option.bind_eq_some_iff.mp hinputs
  obtain ⟨b, hb, hinputs⟩ := Option.bind_eq_some_iff.mp hinputs
  obtain ⟨source, hsource, hinputs⟩ := Option.bind_eq_some_iff.mp hinputs
  obtain ⟨target, htarget, hinputs⟩ := Option.bind_eq_some_iff.mp hinputs
  cases hinputs
  have hs := (Option.some.inj h).symm
  constructor
  · intro leaf
    have hsourceWritten := point_isWritten .sourceX .sourceY hrecords (by decide) hsource
      ⟨rfl, rfl, rfl⟩ ⟨rfl, rfl, rfl⟩
      (congrArg (fun s : Settings => Content.number s.inputs.source.x) hs)
      (congrArg (fun s : Settings => Content.number s.inputs.source.y) hs)
    have htargetWritten := point_isWritten .targetX .targetY hrecords (by decide) htarget
      ⟨rfl, rfl, rfl⟩ ⟨rfl, rfl, rfl⟩
      (congrArg (fun s : Settings => Content.number s.inputs.target.x) hs)
      (congrArg (fun s : Settings => Content.number s.inputs.target.y) hs)
    cases leaf with
    | version => exact version_isWritten hversion (congrArg Settings.version hs)
    | a =>
      exact word_isWritten ha rfl
        (congrArg (fun s : Settings => Content.integer s.inputs.a.toInt) hs) rfl
    | b =>
      exact word_isWritten hb rfl
        (congrArg (fun s : Settings => Content.integer s.inputs.b.toInt) hs) rfl
    | sourceX => exact hsourceWritten.1
    | sourceY => exact hsourceWritten.2
    | targetX => exact htargetWritten.1
    | targetY => exact htargetWritten.2
    | precision =>
      exact precision_isWritten (hprecision.trans (congrArg (some ·.precision) hs.symm))
    | level => exact level_isWritten (hlevel.trans (congrArg (some ·.level) hs.symm))
  · intro path hpath
    have hpath' := hpath
    simp only [points, List.mem_cons, List.not_mem_nil, or_false] at hpath'
    rcases hpath' with rfl | rfl
    · exact isSome_of_read_toPoint hrecords hpath hsource
    · exact isSome_of_read_toPoint hrecords hpath htarget

theorem isWritten_of_toSettings (hrecords : outline.HasRecords dialect)
    (h : outline.toSettings dialect = .ok s) :
    (∀ leaf : Leaf, leaf.IsWritten s (at? leaf.path outline)) ∧ outline.HasWholePoints := by
  have hsome : (outline.toSettings dialect).toOption = some s := by
    rw [h]
    rfl
  by_cases hsections : outline.HasSections
  · rw [toSettings_eq_settingsOf hrecords hsections] at hsome
    exact settingsOf?_isWritten hrecords hsome
  · rw [toSettings_of_not_hasSections hrecords hsections] at hsome
    cases hsome

/-! ## Texts -/

/-- Settings are written as tables: no list stands in the place of a section or a point. -/
def HasNoLists (outline : Outline) : Prop :=
  outline.IsTable ∧ ∀ branch ∈ Leaf.branches, ∀ inner ∈ at? branch outline, ¬ inner.IsList

instance (outline : Outline) : Decidable outline.HasNoLists :=
  inferInstanceAs (Decidable (_ ∧ ∀ branch ∈ Leaf.branches, ∀ inner ∈ at? branch outline, _))

theorem proper_at? {path : List String} (h : outline.Proper)
    (hat : at? path outline = some value) : value.Proper := by
  induction path generalizing outline with
  | nil =>
    cases hat
    exact h
  | cons key path ih =>
    cases h with
    | plain hplain =>
      cases outline with
      | list items closed => exact absurd hplain id
      | table members closed => exact absurd hplain id
      | null | bool | integer | number | string | unreadable | overflow | broken => cases hat
    | list _ => cases hat
    | table _ _ hmembers =>
      rw [at?_cons] at hat
      obtain ⟨inner, hinner, hat⟩ := Option.bind_eq_some_iff.mp hat
      exact ih (hmembers _ (mem_of_given hinner)) hat

theorem hasOwnKeys_of_proper (h : outline.Proper) : outline.HasOwnKeys := by
  cases h with
  | plain hplain =>
    cases outline with
    | list items closed => exact absurd hplain id
    | table members closed => exact absurd hplain id
    | null | bool | integer | number | string | unreadable | overflow | broken => trivial
  | list _ => trivial
  | table hkeys hnames _ => exact ⟨hkeys, hnames⟩

end Outline

namespace TextFormat

variable {format : TextFormat} {text text' : String} {outline outline' : Outline}

/-- A text that is well formed up to its end, with its outline.  In JSON the keys among which fields
are looked for are texts, and none is there twice; in TOML there is no number beyond all ranges. -/
def IsDocument (format : TextFormat) (text : String) (outline : Outline) : Prop :=
  format.Reads text outline ∧
    match format with
    | .json => ∀ branch ∈ Leaf.branches, ∀ inner ∈ outline.at? branch, inner.HasOwnKeys
    | _ => outline.canSkip Toml.dialect = true

theorem hasRecords_of_isDocument (hdocument : format.IsDocument text outline)
    (hlists : outline.HasNoLists) : outline.HasRecords format.dialect := by
  obtain ⟨htable, hnoLists⟩ := hlists
  obtain ⟨hreads, hdocument⟩ := hdocument
  have htoml : ∀ {outline : Outline}, Toml.outline? .v1_1 text = some outline →
      ∀ branch ∈ Leaf.branches, ∀ inner, outline.at? branch = some inner → inner.HasOwnKeys := by
    intro outline houtline branch _ inner hinner
    exact Outline.hasOwnKeys_of_proper (Outline.proper_at? (Toml.outline?_proper houtline) hinner)
  cases format with
  | json => exact ⟨htable, Json.canSkip_of_clean hreads, hdocument, hnoLists⟩
  | toml => exact ⟨htable, hdocument, htoml hreads, hnoLists⟩
  | tomlDocument => exact ⟨htable, hdocument, htoml hreads.1, hnoLists⟩

/-- Two well-formed texts without lists for records that agree where settings are looked for are
decoded to the same settings, or both refused, in whatever order their members are and whatever else
they hold.  In decoded settings every leaf has the value that is written for it, and its standard if
none is; a point that is written has both its coordinates. -/
theorem decode_overlay (hdocument : format.IsDocument text outline)
    (hdocument' : format.IsDocument text' outline') (hlists : outline.HasNoLists)
    (hlists' : outline'.HasNoLists) (hagrees : outline.Agrees outline') :
    (∀ s, format.decode Outline.toSettings text = .ok s ↔
      format.decode Outline.toSettings text' = .ok s) ∧
    ∀ s, format.decode Outline.toSettings text = .ok s →
      (∀ leaf : Leaf, leaf.IsWritten s (outline.at? leaf.path)) ∧ outline.HasWholePoints := by
  have hrecords := hasRecords_of_isDocument hdocument hlists
  have hrecords' := hasRecords_of_isDocument hdocument' hlists'
  have hsame := Outline.toSettings_congr hrecords hrecords' hagrees
  have hok : ∀ (x : Except DecodeError Settings) (s : Settings),
      x = .ok s ↔ x.toOption = some s := by
    intro x s
    cases x <;> simp [Except.toOption]
  rw [decode_of_reads hdocument.1, decode_of_reads hdocument'.1]
  constructor
  · intro s
    rw [hok, hok, hsame]
  · intro s hs
    exact Outline.isWritten_of_toSettings hrecords hs

/-- A text with three leaves of settings. -/
def plainText : String :=
  "\x7b\"version\": 3, \"inputs\": \x7b\"to\": \x7b\"x\": 1, \"y\": 2.5\x7d\x7d\x7d"

/-- The same leaves in another order and among others. -/
def mixedText : String :=
  "\x7b\"inputs\": \x7b\"c\": [1e999], \"to\": \x7b\"y\": 2.5, \"z\": null, \"x\": 1.0\x7d\x7d, " ++
    "\"output\": \x7b\x7d, \"version\": 3\x7d"

/-- The number 2.5. -/
def twoAndHalf : Double := .ofUnits false (5 * 2 ^ double.scale) 2

def plainOutline : Outline :=
  .table [(some "version", .integer 3), (some "inputs", .table [(some "to", .table
    [(some "x", .integer 1), (some "y", .number twoAndHalf)] true)] true)] true

def mixedOutline : Outline :=
  .table [(some "inputs", .table [(some "c", .list [.unreadable] true), (some "to", .table
      [(some "y", .number twoAndHalf), (some "z", .null), (some "x", .number (.ofInt 1))]
      true)] true),
    (some "output", .table [] true), (some "version", .integer 3)] true

theorem decode_overlay_mixed :
    TextFormat.IsDocument .json plainText plainOutline ∧
      TextFormat.IsDocument .json mixedText mixedOutline ∧ plainOutline.HasNoLists ∧
      mixedOutline.HasNoLists ∧ plainOutline.Agrees mixedOutline ∧
      TextFormat.decode .json Outline.toSettings mixedText =
        .ok { Settings.standard with
          version := 3, inputs := { Inputs.standard with target := ⟨.ofInt 1, twoAndHalf⟩ } } := by
  have hplain : TextFormat.IsDocument .json plainText plainOutline := by
    refine ⟨?_, by decide +kernel⟩
    exact Prod.ext (Outline.eq_of_same _ _ (by decide +kernel)) (by decide +kernel)
  have hmixed : TextFormat.IsDocument .json mixedText mixedOutline := by
    refine ⟨?_, by decide +kernel⟩
    exact Prod.ext (Outline.eq_of_same _ _ (by decide +kernel)) (by decide +kernel)
  have hlists : plainOutline.HasNoLists := by decide +kernel
  have hlists' : mixedOutline.HasNoLists := by decide +kernel
  have hagrees : plainOutline.Agrees mixedOutline := by
    refine ⟨?_, ?_, ?_⟩
    · intro leaf
      cases leaf <;> rfl
    · intro path hpath
      simp only [Outline.points, List.mem_cons, List.not_mem_nil, or_false] at hpath
      rcases hpath with rfl | rfl <;> rfl
    · intro name hname
      right
      revert name
      decide +kernel
  have hdecode : TextFormat.decode .json Outline.toSettings plainText =
      .ok { Settings.standard with
        version := 3, inputs := { Inputs.standard with target := ⟨.ofInt 1, twoAndHalf⟩ } } := by
    decide +kernel
  obtain ⟨hsame, -⟩ := decode_overlay hplain hmixed hlists hlists' hagrees
  exact ⟨hplain, hmixed, hlists, hlists', hagrees, (hsame _).mp hdecode⟩

/-- A text that gives one coordinate. -/
def coordinateText (numeral : String) : String :=
  "\x7b\"inputs\":\x7b\"from\":\x7b\"x\":" ++ numeral ++ ",\"y\":0\x7d\x7d\x7d"

/-- The settings that have one coordinate set. -/
def withCoordinate (x : Double) : Settings :=
  { Settings.standard with inputs := { Inputs.standard with source := ⟨x, .zero⟩ } }

/-- JSON numerals of one value can be read as different numbers, of which one is not the nearest. -/
theorem json_numeral_spelling :
    Number.ofText? "3e23".toList = some (.ofInt (3 * 10 ^ 23) : Double) ∧
      Number.ofText? "3.0e23".toList = some (.ofInt (3 * 10 ^ 23) : Double) ∧
      TextFormat.decode .json Outline.toSettings (coordinateText "3.0e23") =
        .ok (withCoordinate (.ofInt (3 * 10 ^ 23))) ∧
      ∃ x, TextFormat.decode .json Outline.toSettings (coordinateText "3e23") =
        .ok (withCoordinate x) ∧ x ≠ .ofInt (3 * 10 ^ 23) := by
  refine ⟨by decide +kernel, by decide +kernel, by decide +kernel,
    .ofInt (29999999999999997 * 10 ^ 7), by decide +kernel, by decide +kernel⟩

end TextFormat
end PlaneReport
