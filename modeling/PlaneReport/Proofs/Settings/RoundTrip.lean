import PlaneReport.Proofs.Outline.Shape
import PlaneReport.Proofs.Sink
import PlaneReport.Proofs.Sum
import PlaneReport.Proofs.Toml.Document

/-!
# Settings read back from their text

Saved settings are loaded again as they were, and so is what is shown of them below the heading:
cutting the line end off the text and adding one again changes nothing, since the text ends with a
quote and a line end.
-/

namespace PlaneReport
namespace Settings

open Toml

variable {edition : Edition}

/-! ## The outline of the text -/

/-- What the pairs of a point are read as. -/
def pointReads (p : Point) : List (String × Outline) :=
  [("x", .number p.x), ("y", .number p.y)]

def precisionReads : Option UInt64 → List (String × Outline)
  | none => []
  | some places => [("precision", .integer places.toNat)]

def sectionReads (s : Settings) : List (List String × String × List (String × Outline)) :=
  [([], "inputs", [("a", .integer s.inputs.a.toInt), ("b", .integer s.inputs.b.toInt)]),
    (["inputs"], "from", pointReads s.inputs.source),
    (["inputs"], "to", pointReads s.inputs.target),
    ([], "output", precisionReads s.precision),
    ([], "logging", [("level", .string s.level)])]

/-- The members of a table whose values are all plain. -/
def plainMembers (reads : List (String × Outline)) : Members :=
  reads.map fun read => (read.1, .value read.2)

def members (s : Settings) : Members :=
  [("version", .value (.integer s.version.toNat)),
    ("inputs", .table .header
      [("a", .value (.integer s.inputs.a.toInt)), ("b", .value (.integer s.inputs.b.toInt)),
        ("from", .table .header (plainMembers (pointReads s.inputs.source))),
        ("to", .table .header (plainMembers (pointReads s.inputs.target)))]),
    ("output", .table .header (plainMembers (precisionReads s.precision))),
    ("logging", .table .header [("level", .value (.string s.level))])]

theorem added_members (s : Settings) :
    (addPairs [] [("version", .integer s.version.toNat)] []).bind (addSections s.sectionReads) =
      some s.members := by
  unfold sectionReads members
  cases s.precision with
  | none => rfl
  | some places => rfl

theorem readsAs_word (n : Int64) :
    (Scalar.integer n.toInt).ReadsAs edition (.integer n.toInt) := by
  have hlow := n.le_toInt
  have hhigh := n.toInt_lt
  exact readsAs_integer (by omega) (by omega)

theorem readsAs_nat {n : Nat} (hn : n < 2 ^ 64) :
    (Scalar.integer n).ReadsAs edition (.integer n) :=
  readsAs_integer (by omega) (by omega)

theorem pairReads_point {p : Point} (hp : p.IsFinite) :
    List.Forall₂ (PairReads edition) p.tomlPairs (pointReads p) :=
  .cons (pairReads_of (by decide) (readsAs_number hp.1)) <|
    .cons (pairReads_of (by decide) (readsAs_number hp.2)) .nil

theorem outline?_tomlText {s : Settings} (hs : s.IsFinite)
    (hone : edition.allowsParts 1 = true) (htwo : edition.allowsParts 2 = true) :
    outline? edition s.tomlText = some (.table (Members.outlines s.members) true) := by
  have hversion := s.version.toNat_lt
  have hpairs : List.Forall₂ (PairReads edition)
      [("version", Scalar.integer s.version.toNat)] [("version", .integer s.version.toNat)] :=
    .cons (pairReads_of (by decide) (readsAs_nat (by omega))) .nil
  refine outline?_documentText hpairs ?_ hone s.added_members
  refine .cons (sectionReads_of rfl (by decide) hone ?_) <|
    .cons (sectionReads_of rfl (by decide) htwo (pairReads_point hs.1)) <|
    .cons (sectionReads_of rfl (by decide) htwo (pairReads_point hs.2)) <|
    .cons (sectionReads_of rfl (by decide) hone ?_) <|
    .cons (sectionReads_of rfl (by decide) hone ?_) .nil
  · exact .cons (pairReads_of (by decide) (readsAs_word _))
      (.cons (pairReads_of (by decide) (readsAs_word _)) .nil)
  · cases s.precision with
    | none => exact .nil
    | some places =>
      exact .cons (pairReads_of (by decide) (readsAs_nat places.toNat_lt)) .nil
  · exact .cons (pairReads_of (by decide) (readsAs_string _)) .nil

/-! ## Decoding the outline -/

section Decode

variable {dialect : Dialect}

theorem toPoint_pointReads {p : Point} (hp : p.IsFinite) :
    (Outline.table (Members.outlines (plainMembers (pointReads p))) true).toPoint dialect =
      .ok p := by
  have hchecked : Point.checked p.x p.y = .ok p := Point.checked_eq_ok_iff.mpr ⟨rfl, hp⟩
  have hdecode : (RawPoint.shape dialect).decode dialect
      (.table (Members.outlines (plainMembers (pointReads p))) true) = .ok (p.x, p.y) := rfl
  refine bind_eq_ok.mpr ⟨(p.x, p.y), hdecode, ?_⟩
  dsimp only
  rw [hchecked]
  rfl

theorem toInputs_members {i : Inputs} (hsource : i.source.IsFinite) (htarget : i.target.IsFinite) :
    (Outline.table [(some "a", .integer i.a.toInt), (some "b", .integer i.b.toInt),
      (some "from", .table (Members.outlines (plainMembers (pointReads i.source))) true),
      (some "to", .table (Members.outlines (plainMembers (pointReads i.target))) true)]
        true).toInputs dialect = .ok i := by
  have hword : ∀ (n : Int64) (f : Int → Inputs),
      ((Outline.integer n.toInt).toInteger dialect .word "i64").map f = .ok (f n.toInt) := by
    intro n f
    rw [Outline.toInteger_of_holds (IntegerKind.word_holds n)]
    rfl
  have hpoint : ∀ (p : Point) (f : Point → Inputs), p.IsFinite →
      ((Outline.table (Members.outlines (plainMembers (pointReads p))) true).toPoint
        dialect).map f = .ok (f p) := by
    intro p f hp
    rw [toPoint_pointReads hp]
    rfl
  unfold Outline.toInputs
  rw [Shape.decode_table, Shape.takeMembers_taken rfl rfl (hword _ _),
    Shape.takeMembers_taken rfl rfl (hword _ _),
    Shape.takeMembers_taken rfl rfl (hpoint _ _ hsource),
    Shape.takeMembers_taken rfl rfl (hpoint _ _ htarget), Int64.ofInt_toInt, Int64.ofInt_toInt]
  rfl

theorem decode_precision (precision : Option UInt64) :
    (Outline.outputShape dialect).decode dialect
      (.table (Members.outlines (plainMembers (precisionReads precision))) true) =
        .ok precision := by
  cases precision with
  | none => rfl
  | some places =>
    have hplaces : ((Outline.integer places.toNat).toOptional
        (Outline.toInteger dialect Outline.sizeKind "usize")).map
          (fun precision => precision.map fun places => UInt64.ofNat places.toNat) =
        .ok (some places) := by
      have hholds : Outline.sizeKind.holds places.toNat = true :=
        IntegerKind.unsigned_holds places.toNat_lt
      show (((Outline.integer places.toNat).toInteger dialect Outline.sizeKind "usize").map
        some).map _ = _
      rw [Outline.toInteger_of_holds hholds]
      exact congrArg (fun n => Except.ok (some n)) UInt64.ofNat_toNat
    show (Shape.takeMembers dialect _ [] _ [(some "precision", _)]).bind _ = _
    rw [Shape.takeMembers_taken rfl rfl hplaces]
    rfl

theorem decode_level (level : String) :
    (Outline.loggingShape dialect).decode dialect
      (.table [(some "level", .string level)] true) = .ok level :=
  rfl

theorem toSettings_members {s : Settings} (hs : s.IsFinite) :
    (Outline.table (Members.outlines s.members) true).toSettings dialect = .ok s := by
  have hversion : ∀ f : Int → Settings, ((Outline.integer s.version.toNat).toInteger dialect
      Outline.versionKind "u32").map f = .ok (f s.version.toNat) := by
    intro f
    have hholds : Outline.versionKind.holds s.version.toNat = true :=
      IntegerKind.unsigned_holds s.version.toNat_lt
    rw [Outline.toInteger_of_holds hholds]
    rfl
  have hinputs : ∀ f : Inputs → Settings, (Except.map f <| Outline.toInputs dialect _) =
      .ok (f s.inputs) := fun f => congrArg (Except.map f) (toInputs_members hs.1 hs.2)
  have houtput : ∀ f : Option UInt64 → Settings,
      (Except.map f <| (Outline.outputShape dialect).decode dialect _) = .ok (f s.precision) :=
    fun f => congrArg (Except.map f) (decode_precision s.precision)
  have hlogging : ∀ f : String → Settings,
      (Except.map f <| (Outline.loggingShape dialect).decode dialect _) = .ok (f s.level) :=
    fun f => congrArg (Except.map f) (decode_level s.level)
  unfold Outline.toSettings
  rw [Shape.decode_table]
  show (Shape.takeMembers dialect _ [] _
    [(some "version", _), (some "inputs", _), (some "output", _), (some "logging", _)]).bind _ = _
  rw [Shape.takeMembers_taken rfl rfl (hversion _), Shape.takeMembers_taken rfl rfl (hinputs _),
    Shape.takeMembers_taken rfl rfl (houtput _), Shape.takeMembers_taken rfl rfl (hlogging _)]
  show Except.ok { s with version := UInt32.ofNat s.version.toNat } = _
  rw [UInt32.ofNat_toNat]

/-- The text of settings is read and decoded as the same settings. -/
theorem decodeText_tomlText {s : Settings} (hs : s.IsFinite) :
    Toml.decodeText (Outline.toSettings dialect) s.tomlText = .ok s := by
  unfold Toml.decodeText
  rw [outline?_tomlText hs rfl rfl]
  exact toSettings_members hs

end Decode

/-! ## The text that is shown -/

theorem equals_self {x : Binary.Double} (hx : x.isFinite = true) : x.equals x = true := by
  cases x with
  | nan => cases hx
  | infinite negative => cases hx
  | finite negative size =>
    show (_ || _ == _) = true
    rw [beq_self_eq_true, Bool.or_true]

theorem equals_of_isFinite {s : Settings} (hs : s.IsFinite) : s.equals s = true := by
  unfold equals Inputs.equals Point.equals
  rw [equals_self hs.1.1, equals_self hs.1.2, equals_self hs.2.1, equals_self hs.2.2]
  simp only [beq_self_eq_true, Bool.and_self]

theorem exists_append_stringChars (text : List Char) :
    ∃ content quote, stringChars text = content ++ [quote] ∧ Text.isBlank quote = false := by
  unfold stringChars
  cases formOf text with
  | basic => exact ⟨'"' :: basicContent 0 0 text, '"', rfl, by decide⟩
  | literal => exact ⟨'\'' :: text, '\'', rfl, by decide⟩
  | basicLines => exact ⟨_, '"', (List.append_assoc _ ['"', '"'] ['"']).symm, by decide⟩
  | literalLines => exact ⟨_, '\'', (List.append_assoc _ ['\'', '\''] ['\'']).symm, by decide⟩

/-- Cutting a line end off stops at the character before it. -/
theorem trimRight_feed (text : List Char) {c : Char} (hc : Text.isBlank c = false) :
    Text.trimRight (text ++ [c, '\n']) = text ++ [c] := by
  have hfeed : Text.isBlank '\n' = true := rfl
  unfold Text.trimRight
  rw [List.reverse_append]
  show (List.dropWhile Text.isBlank ('\n' :: c :: text.reverse)).reverse = _
  rw [List.dropWhile_cons, if_pos hfeed, List.dropWhile_cons,
    if_neg (by rw [hc]; exact Bool.false_ne_true), List.reverse_cons, List.reverse_reverse]

/-- The level is the last thing in the text. -/
theorem exists_append_level (s : Settings) :
    ∃ front, s.tomlText.toList = front ++ (stringChars s.level.toList ++ ['\n']) := by
  unfold tomlText documentText
  rw [String.toList_ofList]
  simp only [List.flatMap_cons, List.flatMap_nil, List.append_nil, Section.chars, pairLine,
    Scalar.chars, ← List.append_assoc]
  exact ⟨_, rfl⟩

/-- Without its last line end the text is what trimming leaves of it. -/
theorem ofList_trimRight_tomlText (s : Settings) :
    String.ofList (Text.trimRight s.tomlText.toList) ++ "\n" = s.tomlText := by
  obtain ⟨front, hfront⟩ := s.exists_append_level
  obtain ⟨content, quote, hchars, hquote⟩ := exists_append_stringChars s.level.toList
  have htext : s.tomlText.toList = (front ++ content) ++ [quote, '\n'] := by
    rw [hfront, hchars]
    simp only [List.append_assoc]
    rfl
  rw [← String.toList_inj, String.toList_append, String.toList_ofList, htext,
    trimRight_feed _ hquote, List.append_assoc]
  rfl

/-- What is shown of settings, with its line end, is a heading of two lines and the text. -/
theorem settingsText_feed (s : Settings) :
    Output.settingsText .text s ++ "\n" =
      "Current Configuration:\n" ++ Output.rule ++ "\n" ++ s.tomlText := by
  have htrimmed := s.ofList_trimRight_tomlText
  calc Output.settingsText .text s ++ "\n"
      = "Current Configuration:\n" ++ Output.rule ++ "\n" ++
          (String.ofList (Text.trimRight s.tomlText.toList) ++ "\n") := String.append_assoc
    _ = _ := by rw [htrimmed]

/-- Settings with finite points are read back from their text, and from what is shown of them after
the two lines of the heading. -/
theorem toml_round_trip {s : Settings} (hs : s.IsFinite) :
    Toml.decodeText (Outline.toSettings Toml.dialect) s.tomlText = .ok s ∧ s.equals s = true ∧
      ∀ out : Output, out.format = .text → out.stdout.AcceptsAll →
        ∃ shown after, out.settings s = (.ok .complete, { out with stdout := after }) ∧
          after.taken = out.stdout.taken ++
            ("Current Configuration:\n" ++ Output.rule ++ "\n" ++ shown).toUTF8.toList ∧
          Toml.decodeText (Outline.toSettings Toml.dialect) shown = .ok s := by
  refine ⟨decodeText_tomlText hs, equals_of_isFinite hs, fun out hformat haccepts => ?_⟩
  obtain ⟨after, hwritten, htook⟩ :=
    Output.writeResult_took out haccepts (Output.settingsText out.format s)
  refine ⟨s.tomlText, after, hwritten, ?_, decodeText_tomlText hs⟩
  rw [htook.taken, hformat, settingsText_feed]

/-- Settings at the ends of every range: extreme integers, a negative zero, the least and the
greatest number of either sign, and a level full of quotes and line ends. -/
def extreme : Settings where
  version := UInt32.ofNat 4294967295
  inputs :=
    { a := Int64.minValue
      b := Int64.maxValue
      source := ⟨.ofBits 0x8000000000000000, .ofBits 1⟩
      target := ⟨.ofBits 0x7fefffffffffffff, .ofBits 0xffefffffffffffff⟩ }
  precision := some (UInt64.ofNat 18446744073709551615)
  level := "\"\"'''\\\n\r\"\"\""

theorem toml_round_trip_extreme :
    extreme.IsFinite ∧
      Toml.decodeText (Outline.toSettings Toml.dialect) extreme.tomlText = .ok extreme ∧
      extreme.equals extreme = true ∧
      ∃ shown after, Output.settings ⟨.text, {}, {}⟩ extreme =
          (.ok .complete, ⟨.text, after, {}⟩) ∧
        after.taken = ("Current Configuration:\n" ++ Output.rule ++ "\n" ++ shown).toUTF8.toList ∧
        Toml.decodeText (Outline.toSettings Toml.dialect) shown = .ok extreme := by
  have hfinite : extreme.IsFinite := by decide
  obtain ⟨hread, hequals, hshown⟩ := toml_round_trip hfinite
  exact ⟨hfinite, hread, hequals, hshown ⟨.text, {}, {}⟩ rfl ⟨rfl, by decide, rfl⟩⟩

end Settings
end PlaneReport
