import Mathlib
import PlaneReport.Proofs.Json.Reader
import PlaneReport.Proofs.Outline.Same
import PlaneReport.Proofs.Outline.Shape
import PlaneReport.Proofs.Sum
import PlaneReport.Proofs.Toml.Distinct
import PlaneReport.Workspace.Load

/-!
# Points from outside are finite

Every way into a point ends in the check of its coordinates, and what has no point of its own keeps
the standard ones.  So whatever is decoded or loaded has finite points, and a text that gives each
coordinate once is refused only for one that is not finite, or for an integer of more than 64 bits.
-/

namespace PlaneReport

open Binary

/-- Both points of the inputs are finite. -/
def Inputs.IsFinite (inputs : Inputs) : Prop :=
  inputs.source.IsFinite ∧ inputs.target.IsFinite

instance (inputs : Inputs) : Decidable inputs.IsFinite :=
  inferInstanceAs (Decidable (_ ∧ _))

theorem Inputs.standard_isFinite : Inputs.standard.IsFinite := by
  decide +kernel

theorem Settings.standard_isFinite : Settings.standard.IsFinite :=
  Inputs.standard_isFinite

/-! ## Texts that are decoded at once -/

namespace Outline

variable {dialect : Dialect} {outline : Outline}

theorem toPoint_isFinite {p : Point} (h : outline.toPoint dialect = .ok p) : p.IsFinite := by
  unfold toPoint at h
  obtain ⟨⟨x, y⟩, -, h⟩ := bind_eq_ok.mp h
  dsimp only at h
  split at h
  · next point hpoint =>
    cases h
    exact (Point.checked_eq_ok_iff.mp hpoint).2
  · cases h

theorem toInputs_isFinite {inputs : Inputs} (h : outline.toInputs dialect = .ok inputs) :
    inputs.IsFinite := by
  refine Shape.decode_keeps (P := Inputs.IsFinite) Inputs.standard_isFinite ?_ ?_ h
  · intro field hfield value record next hrecord hnext
    simp only [inputsShape, List.mem_cons, List.not_mem_nil, or_false] at hfield
    rcases hfield with rfl | rfl | rfl | rfl
    · obtain ⟨a, -, rfl⟩ := map_eq_ok.mp hnext
      exact hrecord
    · obtain ⟨b, -, rfl⟩ := map_eq_ok.mp hnext
      exact hrecord
    · obtain ⟨p, hp, rfl⟩ := map_eq_ok.mp hnext
      exact ⟨toPoint_isFinite hp, hrecord.2⟩
    · obtain ⟨p, hp, rfl⟩ := map_eq_ok.mp hnext
      exact ⟨hrecord.1, toPoint_isFinite hp⟩
  · intro record value hrecord hvalue
    cases hvalue
    exact hrecord

theorem toSettings_isFinite {s : Settings} (h : outline.toSettings dialect = .ok s) :
    s.IsFinite := by
  refine Shape.decode_keeps (P := Settings.IsFinite) Settings.standard_isFinite ?_ ?_ h
  · intro field hfield value record next hrecord hnext
    simp only [settingsShape, List.mem_cons, List.not_mem_nil, or_false] at hfield
    rcases hfield with rfl | rfl | rfl | rfl
    · obtain ⟨version, -, rfl⟩ := map_eq_ok.mp hnext
      exact hrecord
    · obtain ⟨inputs, hinputs, rfl⟩ := map_eq_ok.mp hnext
      exact toInputs_isFinite hinputs
    · obtain ⟨precision, -, rfl⟩ := map_eq_ok.mp hnext
      exact hrecord
    · obtain ⟨level, -, rfl⟩ := map_eq_ok.mp hnext
      exact hrecord
  · intro record value hrecord hvalue
    cases hvalue
    exact hrecord

end Outline

/-! ## Layers -/

namespace Layer
namespace Value

variable {value : Value} {path : List String}

theorem toPoint_isFinite {p : Point} (h : value.toPoint path = .ok p) : p.IsFinite := by
  unfold toPoint at h
  obtain ⟨-, -, h⟩ := bind_eq_ok.mp h
  obtain ⟨x, -, h⟩ := bind_eq_ok.mp h
  obtain ⟨y, -, h⟩ := bind_eq_ok.mp h
  split at h
  · split at h
    · next point hpoint =>
      cases h
      exact (Point.checked_eq_ok_iff.mp hpoint).2
    · cases h
  · cases h
  · cases h

theorem field?_keeps {α : Type} {P : α → Prop} {fields : List String} {name : String}
    {decode : List String → Value → Except Defect α} {result : Option α} {standard : α}
    (hstandard : P standard) (hdecode : ∀ path value a, decode path value = .ok a → P a)
    (h : field? value fields path name decode = .ok result) : P (result.getD standard) := by
  unfold field? at h
  split at h
  · cases h
    exact hstandard
  · obtain ⟨a, ha, rfl⟩ := map_eq_ok.mp h
    exact hdecode _ _ a ha

theorem toInputs_isFinite {inputs : Inputs} (h : value.toInputs path = .ok inputs) :
    inputs.IsFinite := by
  unfold toInputs at h
  obtain ⟨-, -, h⟩ := bind_eq_ok.mp h
  obtain ⟨a, -, h⟩ := bind_eq_ok.mp h
  obtain ⟨b, -, h⟩ := bind_eq_ok.mp h
  obtain ⟨source, hsource, h⟩ := bind_eq_ok.mp h
  obtain ⟨target, htarget, h⟩ := bind_eq_ok.mp h
  cases h
  exact ⟨field?_keeps Inputs.standard_isFinite.1 (fun _ _ _ => toPoint_isFinite) hsource,
    field?_keeps Inputs.standard_isFinite.2 (fun _ _ _ => toPoint_isFinite) htarget⟩

theorem toSettings_isFinite {s : Settings} (h : value.toSettings = .ok s) : s.IsFinite := by
  unfold toSettings at h
  obtain ⟨-, -, h⟩ := bind_eq_ok.mp h
  obtain ⟨inputs, hinputs, h⟩ := bind_eq_ok.mp h
  obtain ⟨level, -, h⟩ := bind_eq_ok.mp h
  obtain ⟨precision, -, h⟩ := bind_eq_ok.mp h
  obtain ⟨version, -, h⟩ := bind_eq_ok.mp h
  cases h
  have hfinite := field?_keeps Inputs.standard_isFinite (fun _ _ _ => toInputs_isFinite) hinputs
  exact hfinite

end Value
end Layer

theorem Settings.loadFrom_isFinite {tree : FileTree} {environment : Environment} {path : String}
    {s : Settings} (h : loadFrom tree environment path = .ok s) : s.IsFinite := by
  unfold loadFrom at h
  obtain ⟨file, -, h⟩ := bind_eq_ok.mp h
  exact Layer.Value.toSettings_isFinite (mapError_eq_ok.mp h)

/-! ## Texts that give both coordinates -/

namespace Outline

variable {dialect : Dialect} {outline first second : Outline} {x y : Double}

/-- A value as a number. -/
def number? : Outline → Option Double
  | .number x => some x
  | .integer n => some (Number.ofInt n)
  | _ => none

/-- The members of a table that are coordinates. -/
def coordinates (members : List (Option String × Outline)) : List (Option String × Outline) :=
  members.filter fun member => member.1 == some "x" || member.1 == some "y"

/-- An outline that gives each coordinate of a point once: a table with one member for each, in any
order and among any others, or a list of the two. -/
inductive GivesCoordinates (first second : Outline) : Outline → Prop
  | table {members : List (Option String × Outline)} {closed : Bool}
    (hmembers : (coordinates members).Perm [(some "x", first), (some "y", second)]) :
    GivesCoordinates first second (.table members closed)
  | list {closed : Bool} : GivesCoordinates first second (.list [first, second] closed)

/-- An outline in which nothing at the top keeps a record from being decoded: it is closed, its keys
are texts, and its parts can be passed over. -/
structure IsClear (dialect : Dialect) (outline : Outline) : Prop where
  canSkip : outline.canSkip dialect = true
  names : ∀ members closed, outline = .table members closed →
    ∀ member ∈ members, member.1.isSome = true

theorem isClear_table {members : List (Option String × Outline)} {closed : Bool}
    (hskip : canSkip dialect (.table members closed) = true)
    (hnames : ∀ member ∈ members, member.1.isSome = true) :
    IsClear dialect (.table members closed) := by
  refine ⟨hskip, fun members' closed' heq => ?_⟩
  obtain ⟨rfl, -⟩ := table.inj heq
  exact hnames

theorem wideIntegerText_eq_none {n : Int} (hlow : -(2 ^ 63 : Int) ≤ n) (hhigh : n < 2 ^ 64) :
    wideIntegerText n = none := by
  unfold wideIntegerText
  rw [if_pos ⟨hlow, hhigh⟩]

/-- A number is decoded as it is, unless it is an integer of more than 64 bits. -/
theorem toNumber_cases (dialect : Dialect) (hx : outline.number? = some x) :
    (outline.toNumber dialect = .ok x ∧ outline.IsNarrow) ∨
      ∃ n shown, outline = .integer n ∧ wideIntegerText n = some shown ∧
        outline.toNumber dialect = .error (.unsuitable (.wrongType shown "f64")) := by
  cases outline with
  | number value =>
    cases hx
    exact .inl ⟨rfl, nofun⟩
  | integer n =>
    cases hx
    by_cases hnarrow : -(2 ^ 63 : Int) ≤ n ∧ n < 2 ^ 64
    · refine .inl ⟨?_, fun m hm => by cases hm; exact hnarrow⟩
      rw [toNumber, wideIntegerText_eq_none hnarrow.1 hnarrow.2]
      rfl
    · obtain ⟨shown, hshown⟩ : ∃ shown, wideIntegerText n = some shown := by
        unfold wideIntegerText
        rw [if_neg hnarrow]
        split
        · exact ⟨_, rfl⟩
        · exact ⟨_, rfl⟩
      refine .inr ⟨n, shown, rfl, hshown, ?_⟩
      simp only [toNumber, hshown, Option.isSome_some, if_true, mismatch, describe]
  | null | bool | string | unreadable | overflow | broken | list | table => cases hx

theorem toNumber_of_number? (hx : outline.number? = some x) (hnarrow : outline.IsNarrow) :
    outline.toNumber dialect = .ok x := by
  obtain ⟨hnumber, -⟩ | ⟨n, shown, rfl, hshown, -⟩ := toNumber_cases dialect hx
  · exact hnumber
  · rw [wideIntegerText_eq_none (hnarrow n rfl).1 (hnarrow n rfl).2] at hshown
    cases hshown

theorem perm_pair {α : Type} {l : List α} {a b : α} (h : l.Perm [a, b]) :
    l = [a, b] ∨ l = [b, a] := by
  obtain ⟨c, d, rfl⟩ := List.length_eq_two.mp h.length_eq
  rcases List.mem_cons.mp (h.mem_iff.mp List.mem_cons_self) with rfl | hc
  · have hd := List.perm_singleton.mp h.cons_inv
    exact Or.inl (congrArg (c :: ·) hd)
  · rw [List.mem_singleton] at hc
    have hswap := h.trans (List.Perm.swap b a [])
    rw [hc] at hswap ⊢
    exact Or.inr (congrArg (b :: ·) (List.perm_singleton.mp hswap.cons_inv))

/-- The coordinates are decoded in the order in which they stand. -/
theorem decode_coordinates (hgives : GivesCoordinates first second outline)
    (hclear : outline.IsClear dialect) :
    ((RawPoint.shape dialect).decode dialect outline = do
        let x ← first.toNumber dialect
        let y ← second.toNumber dialect
        return (x, y)) ∨
      (RawPoint.shape dialect).decode dialect outline = do
        let y ← second.toNumber dialect
        let x ← first.toNumber dialect
        return (x, y) := by
  obtain ⟨hskip, hnames⟩ := hclear
  cases hgives with
  | @table members closed hperm =>
    rw [canSkip, Bool.and_eq_true] at hskip
    obtain ⟨rfl, hskip⟩ := hskip
    have hknown : members.filter (Shape.isKnown (RawPoint.shape dialect).fields) =
        coordinates members := by
      refine List.filter_congr fun member _ => ?_
      show (member.1 == some "x" || (member.1 == some "y" || false)) = _
      rw [Bool.or_false]
    rw [Shape.decode_table, Shape.takeMembers_filter (hnames members true rfl)
      (canSkip_of_mem hskip), hknown]
    obtain hpair | hpair := perm_pair hperm
    · left
      rw [hpair, Shape.takeMembers_field rfl rfl]
      cases hx : first.toNumber dialect with
      | error e => simp [hx]
      | ok x =>
        cases hy : second.toNumber dialect <;>
          simp [RawPoint.shape, Shape.takeMembers, Shape.need, hx, hy]
    · right
      rw [hpair, Shape.takeMembers_field rfl rfl]
      cases hy : second.toNumber dialect with
      | error e => simp [hy]
      | ok y =>
        cases hx : first.toNumber dialect <;>
          simp [RawPoint.shape, Shape.takeMembers, Shape.need, hx, hy]
  | @list closed =>
    rw [canSkip, Bool.and_eq_true] at hskip
    obtain ⟨rfl, -⟩ := hskip
    left
    cases hx : first.toNumber dialect with
    | error e => simp [Shape.decode, RawPoint.shape, Shape.takeItems, hx]
    | ok x =>
      cases hy : second.toNumber dialect <;>
        simp [Shape.decode, RawPoint.shape, Shape.takeItems, Shape.need, hx, hy]

/-- A clear outline with both coordinates is decoded as what the check makes of them. -/
theorem toPoint_of_givesCoordinates (hgives : GivesCoordinates first second outline)
    (hclear : outline.IsClear dialect) (hx : first.toNumber dialect = .ok x)
    (hy : second.toNumber dialect = .ok y) :
    outline.toPoint dialect = match Point.checked x y with
      | .ok p => .ok p
      | .error cause => .error (.unsuitable (.coordinate cause)) := by
  have hdecode : (RawPoint.shape dialect).decode dialect outline = .ok (x, y) := by
    obtain hdecode | hdecode := decode_coordinates hgives hclear <;> rw [hdecode, hx, hy] <;> rfl
  rw [toPoint, hdecode]
  rfl

/-- An integer of more than 64 bits is no coordinate. -/
theorem toPoint_of_wide (hgives : GivesCoordinates first second outline)
    (hclear : outline.IsClear dialect) (hx : first.number? = some x) (hy : second.number? = some y)
    (hwide : ¬ (first.IsNarrow ∧ second.IsNarrow)) :
    ∃ n shown, (first = .integer n ∨ second = .integer n) ∧ wideIntegerText n = some shown ∧
      outline.toPoint dialect = .error (.unsuitable (.wrongType shown "f64")) := by
  have hfailed : ∀ e, (RawPoint.shape dialect).decode dialect outline = .error e →
      outline.toPoint dialect = .error e := by
    intro e hdecode
    rw [toPoint, hdecode]
    rfl
  have horders := decode_coordinates hgives hclear
  obtain ⟨hfirst, hnarrow⟩ | ⟨n, shown, heq, hshown, hfirst⟩ := toNumber_cases dialect hx
  · obtain ⟨-, hnarrow'⟩ | ⟨n, shown, heq, hshown, hsecond⟩ := toNumber_cases dialect hy
    · exact absurd ⟨hnarrow, hnarrow'⟩ hwide
    · refine ⟨n, shown, .inr heq, hshown, hfailed _ ?_⟩
      obtain hdecode | hdecode := horders <;> rw [hdecode, hfirst, hsecond] <;> rfl
  · obtain ⟨hsecond, -⟩ | ⟨n', shown', heq', hshown', hsecond⟩ := toNumber_cases dialect hy
    · refine ⟨n, shown, .inl heq, hshown, hfailed _ ?_⟩
      obtain hdecode | hdecode := horders <;> rw [hdecode, hfirst, hsecond] <;> rfl
    · -- Both are too wide, and the one that stands first is named.
      obtain hdecode | hdecode := horders
      · exact ⟨n, shown, .inl heq, hshown, hfailed _ (by rw [hdecode, hfirst]; rfl)⟩
      · exact ⟨n', shown', .inr heq', hshown', hfailed _ (by rw [hdecode, hsecond]; rfl)⟩

end Outline

/-! ## Formats -/

/-- The ways in which a text is decoded at once: as JSON, as TOML, or as a TOML document, in which
every number must be in range. -/
inductive TextFormat where
  | json
  | toml
  | tomlDocument
deriving DecidableEq, Repr

namespace TextFormat

def dialect : TextFormat → Dialect
  | .json => Json.dialect
  | .toml => Toml.dialect
  | .tomlDocument => Toml.dialect

def decode {α : Type} (format : TextFormat) (decode : Dialect → Outline → Except DecodeError α)
    (text : String) : Except DecodeError α :=
  match format with
  | .json => Json.decodeText (decode format.dialect) text
  | .toml => Toml.decodeText (decode format.dialect) text
  | .tomlDocument => Toml.decodeDocument (decode format.dialect) text

/-- A text that is read up to its end, with its outline; in a TOML document all numbers are in
range. -/
def Reads (format : TextFormat) (text : String) (outline : Outline) : Prop :=
  match format with
  | .json => Json.outline text.toList = (outline, true)
  | .toml => Toml.outline? .v1_1 text = some outline
  | .tomlDocument => Toml.outline? .v1_1 text = some outline ∧ outline.isInRange = true

/-- A text that a parser takes for well formed, with its outline: it is read up to its end, its keys
are texts, and no value in it is beyond what the parser can pass over. -/
structure Accepts (format : TextFormat) (text : String) (outline : Outline) : Prop where
  reads : format.Reads text outline
  isClear : outline.IsClear format.dialect

variable {α : Type} {format : TextFormat} {text : String} {outline : Outline} {value : α}
  {decode : Dialect → Outline → Except DecodeError α}

theorem exists_outline (h : format.decode decode text = .ok value) :
    ∃ outline, decode format.dialect outline = .ok value := by
  cases format with
  | json =>
    replace h : Json.decodeText (decode Json.dialect) text = .ok value := h
    unfold Json.decodeText at h
    rcases houtline : Json.outline text.toList with ⟨outline, clean⟩
    rw [houtline] at h
    dsimp only at h
    obtain ⟨read, hread, h⟩ := bind_eq_ok.mp h
    split at h
    · cases h
      exact ⟨outline, hread⟩
    · cases h
  | toml =>
    replace h : Toml.decodeText (decode Toml.dialect) text = .ok value := h
    unfold Toml.decodeText at h
    split at h
    · cases h
    · exact ⟨_, h⟩
  | tomlDocument =>
    replace h : Toml.decodeDocument (decode Toml.dialect) text = .ok value := h
    unfold Toml.decodeDocument at h
    split at h
    · cases h
    · exact ⟨_, h⟩

/-- A text that is read is decoded as its outline is. -/
theorem decode_of_reads (h : format.Reads text outline) :
    format.decode decode text = decode format.dialect outline := by
  cases format with
  | json =>
    replace h : Json.outline text.toList = (outline, true) := h
    show Json.decodeText (decode Json.dialect) text = decode Json.dialect outline
    unfold Json.decodeText
    rw [h]
    dsimp only
    cases hvalue : decode Json.dialect outline with
    | error e => rfl
    | ok value => rfl
  | toml =>
    replace h : Toml.outline? .v1_1 text = some outline := h
    show Toml.decodeText (decode Toml.dialect) text = decode Toml.dialect outline
    unfold Toml.decodeText
    rw [h]
  | tomlDocument =>
    obtain ⟨houtline, hrange⟩ := h
    show Toml.decodeDocument (decode Toml.dialect) text = decode Toml.dialect outline
    unfold Toml.decodeDocument
    rw [houtline, Option.filter_some, if_pos hrange]

theorem isNarrow_of_isInRange (h : outline.isInRange = true) : outline.IsNarrow := by
  rintro n rfl
  rw [Outline.isInRange] at h
  obtain ⟨hlow, hhigh⟩ := IntegerKind.word_holds_iff.mp h
  omega

theorem isInRange_of_mem_items {items : List Outline} (h : Outline.areItemsInRange items = true) :
    ∀ item ∈ items, item.isInRange = true := by
  induction items with
  | nil => exact fun _ hitem => nomatch hitem
  | cons first rest ih =>
    rw [Outline.areItemsInRange, Bool.and_eq_true] at h
    intro item hitem
    rcases List.mem_cons.mp hitem with hitem | hitem
    · rw [hitem]
      exact h.1
    · exact ih h.2 item hitem

theorem isInRange_of_mem_members {members : List (Option String × Outline)}
    (h : Outline.areMembersInRange members = true) :
    ∀ member ∈ members, member.2.isInRange = true := by
  induction members with
  | nil => exact fun _ hmember => nomatch hmember
  | cons first rest ih =>
    obtain ⟨name, value⟩ := first
    rw [Outline.areMembersInRange, Bool.and_eq_true] at h
    intro member hmember
    rcases List.mem_cons.mp hmember with hmember | hmember
    · rw [hmember]
      exact h.1
    · exact ih h.2 member hmember

/-- Only in TOML as it is read for settings can an integer be of more than 64 bits. -/
theorem isNarrow_of_reads {first second : Outline} (hformat : format ≠ .toml)
    (h : format.Reads text outline) (hgives : Outline.GivesCoordinates first second outline) :
    first.IsNarrow ∧ second.IsNarrow := by
  have hparts : (∀ items closed, outline = .list items closed → ∀ item ∈ items, item.IsNarrow) ∧
      ∀ members closed, outline = .table members closed →
        ∀ member ∈ members, member.2.IsNarrow := by
    cases format with
    | json => exact Json.outline_parts_areNarrow h
    | toml => exact absurd rfl hformat
    | tomlDocument =>
      have hrange := h.2
      constructor
      · rintro items closed rfl item hitem
        rw [Outline.isInRange] at hrange
        exact isNarrow_of_isInRange (isInRange_of_mem_items hrange item hitem)
      · rintro members closed rfl member hmember
        rw [Outline.isInRange] at hrange
        exact isNarrow_of_isInRange (isInRange_of_mem_members hrange member hmember)
  cases hgives with
  | list =>
    have hitems := hparts.1 _ _ rfl
    exact ⟨hitems _ List.mem_cons_self, hitems _ (List.mem_cons_of_mem _ List.mem_cons_self)⟩
  | table hperm =>
    have hmembers := fun member hmember =>
      hparts.2 _ _ rfl member (List.mem_of_mem_filter (hperm.mem_iff.mpr hmember))
    exact ⟨hmembers _ List.mem_cons_self,
      hmembers _ (List.mem_cons_of_mem _ List.mem_cons_self)⟩

end TextFormat

/-! ## Points -/

theorem coordinate_message (axis : Axis) (value : Double) :
    (Problem.coordinate ⟨axis, value⟩).message =
      (match axis with
        | .x => "Coordinate x must be a finite number, got "
        | .y => "Coordinate y must be a finite number, got ") ++ Layout.plain.text value := by
  cases axis with
  | x =>
    have hstart : "Coordinate " ++ Axis.x.name ++ " must be a finite number, got " =
        "Coordinate x must be a finite number, got " := by decide
    exact congrArg (· ++ Layout.plain.text value) hstart
  | y =>
    have hstart : "Coordinate " ++ Axis.y.name ++ " must be a finite number, got " =
        "Coordinate y must be a finite number, got " := by decide
    exact congrArg (· ++ Layout.plain.text value) hstart

/-- Whatever is decoded or loaded has finite points only.  A text that gives each coordinate once as a
number is decoded exactly if they are finite; else the first one that is not, in the order of the
axes, is named.  Integers of more than 64 bits, which only one of the formats knows, are refused
before that for what they are. -/
theorem points_are_finite :
    (∀ (format : TextFormat) (text : String),
      (∀ p, format.decode Outline.toPoint text = .ok p → p.IsFinite) ∧
      (∀ inputs, format.decode Outline.toInputs text = .ok inputs → inputs.IsFinite) ∧
      ∀ s, format.decode Outline.toSettings text = .ok s → s.IsFinite) ∧
    (∀ (tree : FileTree) (environment : Environment),
      (∀ path s, Settings.loadFrom tree environment path = .ok s → s.IsFinite) ∧
      ∀ s, Settings.load tree environment = .ok s → s.IsFinite) ∧
    ∀ (format : TextFormat) (text : String) (outline first second : Outline) (x y : Double),
      format.Accepts text outline → Outline.GivesCoordinates first second outline →
      first.number? = some x → second.number? = some y →
      (format ≠ .toml → first.IsNarrow ∧ second.IsNarrow) ∧
      (first.IsNarrow ∧ second.IsNarrow →
        ((∃ p, format.decode Outline.toPoint text = .ok p) ↔
          x.isFinite = true ∧ y.isFinite = true) ∧
        (x.isFinite = true → y.isFinite = true →
          format.decode Outline.toPoint text = .ok ⟨x, y⟩) ∧
        (x.isFinite = false → ∃ problem,
          format.decode Outline.toPoint text = .error (.unsuitable problem) ∧
          problem.message = "Coordinate x must be a finite number, got " ++ Layout.plain.text x) ∧
        (x.isFinite = true → y.isFinite = false → ∃ problem,
          format.decode Outline.toPoint text = .error (.unsuitable problem) ∧
          problem.message =
            "Coordinate y must be a finite number, got " ++ Layout.plain.text y)) ∧
      (¬ (first.IsNarrow ∧ second.IsNarrow) → ∃ n shown,
        (first = .integer n ∨ second = .integer n) ∧ wideIntegerText n = some shown ∧
        format.decode Outline.toPoint text = .error (.unsuitable (.wrongType shown "f64"))) := by
  refine ⟨fun format text => ⟨fun p h => ?_, fun inputs h => ?_, fun s h => ?_⟩,
    fun tree environment => ⟨fun path s h => Settings.loadFrom_isFinite h,
      fun s h => Settings.loadFrom_isFinite h⟩, ?_⟩
  · obtain ⟨outline, houtline⟩ := TextFormat.exists_outline h
    exact Outline.toPoint_isFinite houtline
  · obtain ⟨outline, houtline⟩ := TextFormat.exists_outline h
    exact Outline.toInputs_isFinite houtline
  · obtain ⟨outline, houtline⟩ := TextFormat.exists_outline h
    exact Outline.toSettings_isFinite houtline
  · intro format text outline first second x y haccepts hgives hfirst hsecond
    have hdecode := @TextFormat.decode_of_reads _ _ _ _ Outline.toPoint haccepts.reads
    rw [hdecode]
    refine ⟨fun hformat => TextFormat.isNarrow_of_reads hformat haccepts.reads hgives,
      fun hnarrow => ?_, Outline.toPoint_of_wide hgives haccepts.isClear hfirst hsecond⟩
    rw [Outline.toPoint_of_givesCoordinates hgives haccepts.isClear
      (Outline.toNumber_of_number? hfirst hnarrow.1)
      (Outline.toNumber_of_number? hsecond hnarrow.2)]
    unfold Point.checked
    cases hx : x.isFinite with
    | false =>
      refine ⟨⟨fun h => ?_, fun h => nomatch h.1⟩, nofun, fun _ => ?_, nofun⟩
      · obtain ⟨p, hp⟩ := h
        cases hp
      · exact ⟨_, rfl, coordinate_message .x x⟩
    | true =>
      cases hy : y.isFinite with
      | false =>
        refine ⟨⟨fun h => ?_, fun h => nomatch h.2⟩, nofun, nofun, fun _ _ => ?_⟩
        · obtain ⟨p, hp⟩ := h
          cases hp
        · exact ⟨_, rfl, coordinate_message .y y⟩
      | true => exact ⟨⟨fun _ => ⟨rfl, rfl⟩, fun _ => ⟨_, rfl⟩⟩, fun _ _ => rfl, nofun, nofun⟩

/-- An integer beyond those of 64 bits with a sign is still a coordinate, and other members may stand
beside it. -/
theorem points_are_finite_nan :
    let outline : Outline := .table [(some "y", .integer 9223372036854775808),
      (some "z", .list [.integer 99999999999999999999] true), (some "x", .number .nan)] true
    let text := "y = 9223372036854775808\nz = [99999999999999999999]\nx = -nan"
    TextFormat.Accepts .toml text outline ∧ ∃ problem,
      TextFormat.decode .toml Outline.toPoint text = .error (.unsuitable problem) ∧
        problem.message = "Coordinate x must be a finite number, got " ++
          Layout.plain.text (.nan : Double) := by
  intro outline text
  have hclear : outline.IsClear Toml.dialect := Outline.isClear_table rfl (by decide)
  have haccepts : TextFormat.Accepts .toml text outline :=
    ⟨Outline.eq_some_of_same (by decide +kernel), hclear⟩
  have hgives : Outline.GivesCoordinates (.number .nan) (.integer 9223372036854775808) outline :=
    .table (List.Perm.swap _ _ _)
  have hnarrow : ∀ n, Outline.integer 9223372036854775808 = .integer n →
      -(2 ^ 63 : Int) ≤ n ∧ n < 2 ^ 64 := by
    intro n heq
    cases heq
    decide
  obtain ⟨-, hnamed, -⟩ := points_are_finite.2.2 .toml _ _ _ _ _ _ haccepts hgives rfl rfl
  exact ⟨haccepts, (hnamed ⟨nofun, hnarrow⟩).2.2.1 rfl⟩

/-- Finite coordinates alone do not make a point: not if one is an integer of more than 64 bits, if
one is given twice, or if a list goes on after them. -/
theorem finite_coordinates_refused :
    let wide : Outline :=
      .table [(some "x", .integer 99999999999999999999), (some "y", .number .zero)] true
    let repeated : Outline :=
      .table [(some "x", .integer 1), (some "y", .integer 2), (some "x", .integer 1)] true
    let longer : Outline := .list [.integer 1, .integer 2, .integer 3] true
    (TextFormat.Accepts .toml "x = 99999999999999999999\ny = 0.0" wide ∧
      (Number.ofInt 99999999999999999999 : Double).isFinite = true ∧
      TextFormat.decode .toml Outline.toPoint "x = 99999999999999999999\ny = 0.0" =
        .error (.unsuitable (.wrongType "integer `99999999999999999999` as i128" "f64"))) ∧
    (TextFormat.Accepts .json "\x7b\"x\":1,\"y\":2,\"x\":1\x7d" repeated ∧
      TextFormat.decode .json Outline.toPoint "\x7b\"x\":1,\"y\":2,\"x\":1\x7d" =
        .error (.unsuitable (.duplicateField "x"))) ∧
    (TextFormat.Accepts .json "[1,2,3]" longer ∧
      TextFormat.decode .json Outline.toPoint "[1,2,3]" = .error .malformed) := by
  intro wide repeated longer
  have hwide : wide.IsClear Toml.dialect := Outline.isClear_table rfl (by decide)
  have hrepeated : repeated.IsClear Json.dialect := Outline.isClear_table rfl (by decide)
  have hlonger : longer.IsClear Json.dialect := ⟨rfl, nofun⟩
  have hread : ∀ (text : String) (outline : Outline),
      (Json.outline text.toList).1.same outline = true → (Json.outline text.toList).2 = true →
      TextFormat.Reads .json text outline :=
    fun text outline hsame hclean => Prod.ext (Outline.eq_of_same _ _ hsame) hclean
  refine ⟨⟨⟨Outline.eq_some_of_same (by decide +kernel), hwide⟩, by decide +kernel,
    by decide +kernel⟩, ⟨⟨hread _ _ (by decide +kernel) (by decide +kernel), hrepeated⟩,
    by decide +kernel⟩, ⟨hread _ _ (by decide +kernel) (by decide +kernel), hlonger⟩,
    by decide +kernel⟩

end PlaneReport
