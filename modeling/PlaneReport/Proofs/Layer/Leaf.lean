import Mathlib.Data.Fintype.Basic
import PlaneReport.Proofs.Layer.Merge
import PlaneReport.Proofs.Result
import PlaneReport.Proofs.Sum
import PlaneReport.Layer.Decode

/-!
# The leaves of settings

Settings consist of nine single values, the leaves, each at a path of its own.  `toSettings_leaf`
says that decoding gives every leaf what is at its path and leaves the others at their standard.
-/

namespace PlaneReport

open Binary

inductive Leaf where
  | version
  | a
  | b
  | sourceX
  | sourceY
  | targetX
  | targetY
  | precision
  | level
deriving DecidableEq, Repr

instance : Fintype Leaf where
  elems := {.version, .a, .b, .sourceX, .sourceY, .targetX, .targetY, .precision, .level}
  complete leaf := by cases leaf <;> decide

/-- What a leaf holds. -/
inductive Content where
  | absent
  | integer (value : Int)
  | number (value : Double)
  | text (value : String)
deriving DecidableEq

inductive ContentKind where
  | integer
  | number
  | text
deriving DecidableEq, Repr

/-- What a value is as the content of a leaf; whole numbers can stand for fractional ones. -/
def ContentKind.read : ContentKind → Layer.Value → Option Content
  | .integer, .integer _ _ n => some (.integer n)
  | .number, .number _ x => some (.number x)
  | .number, .integer _ _ n => some (.number (Number.ofInt n))
  | .text, .string _ s => some (.text s)
  | _, _ => none

namespace Leaf

/-- The keys that lead to a leaf. -/
def path : Leaf → List String
  | .version => ["version"]
  | .a => ["inputs", "a"]
  | .b => ["inputs", "b"]
  | .sourceX => ["inputs", "from", "x"]
  | .sourceY => ["inputs", "from", "y"]
  | .targetX => ["inputs", "to", "x"]
  | .targetY => ["inputs", "to", "y"]
  | .precision => ["output", "precision"]
  | .level => ["logging", "level"]

def kind : Leaf → ContentKind
  | .version | .a | .b | .precision => .integer
  | .sourceX | .sourceY | .targetX | .targetY => .number
  | .level => .text

def content (s : Settings) : Leaf → Content
  | .version => .integer s.version.toNat
  | .a => .integer s.inputs.a.toInt
  | .b => .integer s.inputs.b.toInt
  | .sourceX => .number s.inputs.source.x
  | .sourceY => .number s.inputs.source.y
  | .targetX => .number s.inputs.target.x
  | .targetY => .number s.inputs.target.y
  | .precision =>
    match s.precision with
    | none => .absent
    | some places => .integer places.toNat
  | .level => .text s.level

/-- The paths of the tables in which the leaves are. -/
def branches : List (List String) :=
  [[], ["inputs"], ["inputs", "from"], ["inputs", "to"], ["output"], ["logging"]]

/-- Whether what stands in the place of such a table is one. -/
def HasTables (value : Layer.Value) : Prop :=
  ∀ branch ∈ branches, ∀ inner ∈ value.at? branch, inner.IsTable

instance (value : Layer.Value) : Decidable (HasTables value) :=
  inferInstanceAs (Decidable (∀ branch ∈ branches, ∀ inner ∈ value.at? branch, inner.IsTable))

/-- What a leaf holds when its path leads to a value, or to none. -/
def Holds (leaf : Leaf) (s : Settings) : Option Layer.Value → Prop
  | some value => leaf.kind.read value = some (leaf.content s)
  | none => leaf.content s = leaf.content Settings.standard

end Leaf

namespace Layer
namespace Value

variable {source : Source} {members : List (String × Value)} {fields path : List String}
  {name expected : String} {value : Value}

/-! ## Fields of a table -/

/-- A field of a table is absent or its member decodes. -/
theorem field?_eq_ok {α : Type} {decode : List String → Value → Except Defect α}
    {result : Option α} (h : field? (.table source members) fields path name decode = .ok result) :
    (members.lookup name = none ∧ result = none) ∨
      ∃ value a, members.lookup name = some value ∧ result = some a ∧
        decode (path ++ [name]) value = .ok a := by
  unfold field? part? at h
  dsimp only at h
  cases hlookup : members.lookup name with
  | none =>
    rw [hlookup] at h
    cases h
    exact Or.inl ⟨rfl, rfl⟩
  | some value =>
    rw [hlookup] at h
    obtain ⟨a, ha, hresult⟩ := map_eq_ok.mp h
    exact Or.inr ⟨value, a, rfl, hresult.symm, ha⟩

theorem field?_of_lookup_some {α : Type} {decode : List String → Value → Except Defect α}
    (h : members.lookup name = some value) :
    field? (.table source members) fields path name decode =
      (decode (path ++ [name]) value).map some := by
  unfold field? part?
  dsimp only
  rw [h]
  rfl

theorem toInteger_eq_ok {kind : IntegerKind} {n : Int}
    (h : toInteger kind expected path value = .ok n) :
    ContentKind.integer.read value = some (.integer n) ∧ kind.holds n = true := by
  cases value with
  | integer source signed m =>
    rw [toInteger] at h
    by_cases hholds : kind.holds m = true
    · rw [if_pos hholds] at h
      cases h
      exact ⟨rfl, hholds⟩
    · rw [if_neg hholds] at h
      cases h
  | bool | number | string | list | table => cases h

theorem toNumber_eq_ok {x : Double} (h : toNumber path value = .ok x) :
    ContentKind.number.read value = some (.number x) := by
  cases value with
  | integer source signed m =>
    cases h
    rfl
  | number source y =>
    cases h
    rfl
  | bool | string | list | table => cases h

theorem toText_eq_ok {s : String} (h : toText path value = .ok s) :
    ContentKind.text.read value = some (.text s) := by
  cases value with
  | string source t =>
    cases h
    rfl
  | bool | integer | number | list | table => cases h

theorem toPoint_eq_ok {p : Point} (h : toPoint path (.table source members) = .ok p) :
    ∃ x y, members.lookup "x" = some x ∧ members.lookup "y" = some y ∧
      ContentKind.number.read x = some (.number p.x) ∧
      ContentKind.number.read y = some (.number p.y) := by
  unfold toPoint at h
  obtain ⟨-, -, h⟩ := bind_eq_ok.mp h
  obtain ⟨x, hx, h⟩ := bind_eq_ok.mp h
  obtain ⟨y, hy, h⟩ := bind_eq_ok.mp h
  rcases field?_eq_ok hx with ⟨-, rfl⟩ | ⟨xValue, px, hxlookup, rfl, hxread⟩
  · cases h
  · rcases field?_eq_ok hy with ⟨-, rfl⟩ | ⟨yValue, py, hylookup, rfl, hyread⟩
    · cases h
    · dsimp only at h
      split at h
      · next point hpoint =>
        cases h
        obtain ⟨rfl, -⟩ := Point.checked_eq_ok_iff.mp hpoint
        exact ⟨xValue, yValue, hxlookup, hylookup, toNumber_eq_ok hxread, toNumber_eq_ok hyread⟩
      · cases h

/-! ## Records of tables -/

theorem exists_table (h : value.IsTable) : ∃ source members, value = .table source members := by
  cases value with
  | table source members => exact ⟨source, members, rfl⟩
  | bool | integer | number | string | list => exact absurd h id

/-- A field that a leaf is read from directly. -/
theorem holds_of_field {α : Type} {decode : List String → Value → Except Defect α}
    {result : Option α} {leaf : Leaf} {s : Settings}
    (h : field? (.table source members) fields path name decode = .ok result)
    (hnone : result = none → leaf.content s = leaf.content Settings.standard)
    (hsome : ∀ value a, result = some a → decode (path ++ [name]) value = .ok a →
      leaf.kind.read value = some (leaf.content s)) :
    leaf.Holds s (members.lookup name) := by
  rcases field?_eq_ok h with ⟨hlookup, hresult⟩ | ⟨value, a, hlookup, hresult, hread⟩
  · rw [hlookup]
    exact hnone hresult
  · rw [hlookup]
    exact hsome value a hresult hread

/-- A field that is a point gives both its coordinates or none. -/
theorem point_at? {result : Option Point}
    (h : field? (.table source members) fields path name toPoint = .ok result)
    (htable : ∀ inner, members.lookup name = some inner → inner.IsTable) :
    (members.lookup name = none ∧ result = none) ∨
      ∃ p x y, result = some p ∧ (members.lookup name).bind (at? ["x"]) = some x ∧
        (members.lookup name).bind (at? ["y"]) = some y ∧
        ContentKind.number.read x = some (.number p.x) ∧
        ContentKind.number.read y = some (.number p.y) := by
  rcases field?_eq_ok h with hnone | ⟨value, p, hlookup, hresult, hpoint⟩
  · exact Or.inl hnone
  · obtain ⟨from', inner, rfl⟩ := exists_table (htable value hlookup)
    obtain ⟨x, y, hx, hy, hxread, hyread⟩ := toPoint_eq_ok hpoint
    refine Or.inr ⟨p, x, y, hresult, ?_, ?_, hxread, hyread⟩
    · rw [hlookup]
      show (inner.lookup "x").bind (at? []) = _
      rw [hx]
      rfl
    · rw [hlookup]
      show (inner.lookup "y").bind (at? []) = _
      rw [hy]
      rfl

theorem holds_point {result : Option Point} {s : Settings} {xLeaf yLeaf : Leaf} {p : Point}
    (h : field? (.table source members) fields path name toPoint = .ok result)
    (htable : ∀ inner, members.lookup name = some inner → inner.IsTable)
    (hx : xLeaf.kind = .number ∧ xLeaf.content s = .number (result.getD p).x ∧
      xLeaf.content Settings.standard = .number p.x)
    (hy : yLeaf.kind = .number ∧ yLeaf.content s = .number (result.getD p).y ∧
      yLeaf.content Settings.standard = .number p.y) :
    xLeaf.Holds s ((members.lookup name).bind (at? ["x"])) ∧
      yLeaf.Holds s ((members.lookup name).bind (at? ["y"])) := by
  obtain ⟨hxkind, hxcontent, hxstandard⟩ := hx
  obtain ⟨hykind, hycontent, hystandard⟩ := hy
  rcases point_at? h htable with ⟨hlookup, rfl⟩ | ⟨q, x, y, rfl, hxat, hyat, hxread, hyread⟩
  · rw [hlookup]
    exact ⟨hxcontent.trans hxstandard.symm, hycontent.trans hystandard.symm⟩
  · rw [hxat, hyat]
    constructor
    · show xLeaf.kind.read x = some (xLeaf.content s)
      rw [hxkind, hxcontent, hxread]
      rfl
    · show yLeaf.kind.read y = some (yLeaf.content s)
      rw [hykind, hycontent, hyread]
      rfl

/-- An integer of a kind is what its field was read as. -/
theorem holds_word {result : Option Int} {leaf : Leaf} {s : Settings} {standard : Int64}
    (h : field? (.table source members) fields path name (toInteger .word expected) = .ok result)
    (hkind : leaf.kind = .integer)
    (hcontent : leaf.content s = .integer ((result.map Int64.ofInt).getD standard).toInt)
    (hstandard : leaf.content Settings.standard = .integer standard.toInt) :
    leaf.Holds s (members.lookup name) := by
  refine holds_of_field h ?_ ?_
  · rintro rfl
    exact hcontent.trans hstandard.symm
  · rintro value n rfl hread
    obtain ⟨hread, hholds⟩ := toInteger_eq_ok hread
    rw [hkind, hcontent, hread]
    show _ = some (Content.integer (Int64.ofInt n).toInt)
    rw [IntegerKind.toInt_ofInt_of_holds hholds]

theorem toInputs_holds {s : Settings} (h : toInputs path (.table source members) = .ok s.inputs)
    (hfrom : ∀ inner, members.lookup "from" = some inner → inner.IsTable)
    (hto : ∀ inner, members.lookup "to" = some inner → inner.IsTable) :
    Leaf.a.Holds s (members.lookup "a") ∧ Leaf.b.Holds s (members.lookup "b") ∧
      (Leaf.sourceX.Holds s ((members.lookup "from").bind (at? ["x"])) ∧
        Leaf.sourceY.Holds s ((members.lookup "from").bind (at? ["y"]))) ∧
      (Leaf.targetX.Holds s ((members.lookup "to").bind (at? ["x"])) ∧
        Leaf.targetY.Holds s ((members.lookup "to").bind (at? ["y"]))) := by
  unfold toInputs at h
  obtain ⟨-, -, h⟩ := bind_eq_ok.mp h
  obtain ⟨a, ha, h⟩ := bind_eq_ok.mp h
  obtain ⟨b, hb, h⟩ := bind_eq_ok.mp h
  obtain ⟨p, hp, h⟩ := bind_eq_ok.mp h
  obtain ⟨q, hq, h⟩ := bind_eq_ok.mp h
  have hinputs := (Except.ok.inj h).symm
  exact ⟨holds_word ha rfl (congrArg (fun i : Inputs => Content.integer i.a.toInt) hinputs) rfl,
    holds_word hb rfl (congrArg (fun i : Inputs => Content.integer i.b.toInt) hinputs) rfl,
    holds_point hp hfrom
      ⟨rfl, congrArg (fun i : Inputs => Content.number i.source.x) hinputs, rfl⟩
      ⟨rfl, congrArg (fun i : Inputs => Content.number i.source.y) hinputs, rfl⟩,
    holds_point hq hto
      ⟨rfl, congrArg (fun i : Inputs => Content.number i.target.x) hinputs, rfl⟩
      ⟨rfl, congrArg (fun i : Inputs => Content.number i.target.y) hinputs, rfl⟩⟩

theorem toPrecision_holds {s : Settings}
    (h : toPrecision path (.table source members) = .ok s.precision) :
    Leaf.precision.Holds s (members.lookup "precision") := by
  unfold toPrecision at h
  obtain ⟨-, -, h⟩ := bind_eq_ok.mp h
  obtain ⟨places, hplaces, h⟩ := bind_eq_ok.mp h
  have hprecision := (Except.ok.inj h).symm
  refine holds_of_field hplaces ?_ ?_
  · rintro rfl
    unfold Leaf.content
    rw [hprecision]
    rfl
  · rintro value n rfl hread
    obtain ⟨hread, hholds⟩ := toInteger_eq_ok hread
    have hn := IntegerKind.toNat_ofNat64_of_holds hholds
    unfold Leaf.content
    rw [hprecision]
    show ContentKind.integer.read value = some (.integer (UInt64.ofNat n.toNat).toNat)
    rw [hread, hn]

theorem toLevel_holds {s : Settings} (h : toLevel path (.table source members) = .ok s.level) :
    Leaf.level.Holds s (members.lookup "level") := by
  unfold toLevel at h
  obtain ⟨-, -, h⟩ := bind_eq_ok.mp h
  obtain ⟨level, hlevel, h⟩ := bind_eq_ok.mp h
  have htext := (Except.ok.inj h).symm
  refine holds_of_field hlevel ?_ ?_
  · rintro rfl
    exact congrArg Content.text htext
  · rintro value text rfl hread
    show ContentKind.text.read value = some (.text s.level)
    rw [toText_eq_ok hread, htext]
    rfl

theorem version_holds {s : Settings} {result : Option Int}
    (h : field? (.table source members) fields path name (toInteger ⟨32, false⟩ expected) =
      .ok result)
    (hversion : s.version =
      (result.map fun n => UInt32.ofNat n.toNat).getD Settings.standard.version) :
    Leaf.version.Holds s (members.lookup name) := by
  refine holds_of_field h ?_ ?_
  · rintro rfl
    exact congrArg (fun version : UInt32 => Content.integer version.toNat) hversion
  · rintro value n rfl hread
    obtain ⟨hread, hholds⟩ := toInteger_eq_ok hread
    have hn := IntegerKind.toNat_ofNat32_of_holds hholds
    show ContentKind.integer.read value = some (.integer s.version.toNat)
    rw [hread, hversion]
    show _ = some (Content.integer (UInt32.ofNat n.toNat).toNat)
    rw [hn]

/-- What is at a path that starts with a field. -/
theorem at?_field {inner : Value} (h : members.lookup name = some inner) (keys : List String) :
    at? (name :: keys) (.table source members) = at? keys inner := by
  show (members.lookup name).bind (at? keys) = _
  rw [h]
  rfl

theorem at?_absent (h : members.lookup name = none) (keys : List String) :
    at? (name :: keys) (.table source members) = none := by
  show (members.lookup name).bind (at? keys) = _
  rw [h]
  rfl

@[simp]
theorem at?_single (name : String) (members : List (String × Value)) :
    at? [name] (.table source members) = members.lookup name := by
  cases h : members.lookup name with
  | none => exact at?_absent h []
  | some inner => exact at?_field h []

theorem output_holds {s : Settings} {result : Option (Option UInt64)}
    (h : field? (.table source members) fields path "output" toPrecision = .ok result)
    (hs : s.precision = result.getD none)
    (htables : Leaf.HasTables (.table source members)) :
    Leaf.precision.Holds s (at? Leaf.precision.path (.table source members)) := by
  rcases field?_eq_ok h with ⟨hlookup, rfl⟩ | ⟨inner, precision, hlookup, rfl, hread⟩
  · show Leaf.precision.Holds s (at? ["output", "precision"] _)
    rw [at?_absent hlookup]
    show Leaf.precision.content s = _
    unfold Leaf.content
    rw [hs]
    rfl
  · have htable := htables ["output"] (by decide) inner ((at?_single _ _).trans hlookup)
    obtain ⟨from', inside, rfl⟩ := exists_table htable
    show Leaf.precision.Holds s (at? ["output", "precision"] _)
    rw [at?_field hlookup, at?_single]
    exact toPrecision_holds (hread.trans (congrArg Except.ok hs.symm))

theorem logging_holds {s : Settings} {result : Option String}
    (h : field? (.table source members) fields path "logging" toLevel = .ok result)
    (hs : s.level = result.getD Settings.standard.level)
    (htables : Leaf.HasTables (.table source members)) :
    Leaf.level.Holds s (at? Leaf.level.path (.table source members)) := by
  rcases field?_eq_ok h with ⟨hlookup, rfl⟩ | ⟨inner, level, hlookup, rfl, hread⟩
  · show Leaf.level.Holds s (at? ["logging", "level"] _)
    rw [at?_absent hlookup]
    exact congrArg Content.text hs
  · have htable := htables ["logging"] (by decide) inner ((at?_single _ _).trans hlookup)
    obtain ⟨from', inside, rfl⟩ := exists_table htable
    show Leaf.level.Holds s (at? ["logging", "level"] _)
    rw [at?_field hlookup, at?_single]
    exact toLevel_holds (hread.trans (congrArg Except.ok hs.symm))

theorem inputs_holds {s : Settings} {result : Option Inputs}
    (h : field? (.table source members) fields path "inputs" toInputs = .ok result)
    (hs : s.inputs = result.getD Inputs.standard)
    (htables : Leaf.HasTables (.table source members)) {leaf : Leaf}
    (hleaf : leaf.path.head? = some "inputs") :
    leaf.Holds s (at? leaf.path (.table source members)) := by
  rcases field?_eq_ok h with ⟨hlookup, rfl⟩ | ⟨inner, inputs, hlookup, rfl, hread⟩
  · have hcontent : ∀ part : Inputs → Content, part s.inputs = part Inputs.standard :=
      fun part => congrArg part hs
    cases leaf with
    | version | precision | level => exact absurd hleaf (by decide)
    | a => exact (at?_absent hlookup ["a"]) ▸ hcontent fun i => .integer i.a.toInt
    | b => exact (at?_absent hlookup ["b"]) ▸ hcontent fun i => .integer i.b.toInt
    | sourceX => exact (at?_absent hlookup ["from", "x"]) ▸ hcontent fun i => .number i.source.x
    | sourceY => exact (at?_absent hlookup ["from", "y"]) ▸ hcontent fun i => .number i.source.y
    | targetX => exact (at?_absent hlookup ["to", "x"]) ▸ hcontent fun i => .number i.target.x
    | targetY => exact (at?_absent hlookup ["to", "y"]) ▸ hcontent fun i => .number i.target.y
  · have htable := htables ["inputs"] (by decide) inner ((at?_single _ _).trans hlookup)
    obtain ⟨from', inside, rfl⟩ := exists_table htable
    have hinner : ∀ name, ["inputs", name] ∈ Leaf.branches →
        ∀ value, inside.lookup name = some value → value.IsTable := by
      intro name hname value hvalue
      refine htables ["inputs", name] hname value ?_
      rw [at?_field hlookup, at?_single]
      exact hvalue
    obtain ⟨ha, hb, ⟨hsx, hsy⟩, htx, hty⟩ := toInputs_holds
      (hread.trans (congrArg Except.ok hs.symm)) (hinner "from" (by decide))
      (hinner "to" (by decide))
    have hpath : ∀ keys, at? ("inputs" :: keys) (.table source members) =
        at? keys (.table from' inside) := at?_field hlookup
    cases leaf with
    | version | precision | level => exact absurd hleaf (by decide)
    | a => exact (hpath ["a"]).trans (at?_single _ _) ▸ ha
    | b => exact (hpath ["b"]).trans (at?_single _ _) ▸ hb
    | sourceX => exact hpath ["from", "x"] ▸ hsx
    | sourceY => exact hpath ["from", "y"] ▸ hsy
    | targetX => exact hpath ["to", "x"] ▸ htx
    | targetY => exact hpath ["to", "y"] ▸ hty

/-- Decoded settings have in every leaf what the path of the leaf leads to. -/
theorem toSettings_leaf {s : Settings} (h : toSettings value = .ok s)
    (htables : Leaf.HasTables value) (leaf : Leaf) : leaf.Holds s (value.at? leaf.path) := by
  obtain ⟨source, members, rfl⟩ := exists_table (htables [] (by decide) value rfl)
  unfold toSettings at h
  obtain ⟨-, -, h⟩ := bind_eq_ok.mp h
  obtain ⟨inputs, hinputs, h⟩ := bind_eq_ok.mp h
  obtain ⟨level, hlevel, h⟩ := bind_eq_ok.mp h
  obtain ⟨precision, hprecision, h⟩ := bind_eq_ok.mp h
  obtain ⟨version, hversion, h⟩ := bind_eq_ok.mp h
  have hs := (Except.ok.inj h).symm
  cases leaf with
  | version =>
    show Leaf.version.Holds s (at? ["version"] _)
    rw [at?_single]
    exact version_holds hversion (congrArg Settings.version hs)
  | precision => exact output_holds hprecision (congrArg Settings.precision hs) htables
  | level => exact logging_holds hlevel (congrArg Settings.level hs) htables
  | a | b | sourceX | sourceY | targetX | targetY =>
    exact inputs_holds hinputs (congrArg Settings.inputs hs) htables rfl

end Value
end Layer
end PlaneReport
