import PlaneReport.Log.Directive
import PlaneReport.Proofs.Result
import PlaneReport.Proofs.Text.Trim

/-!
# Directives that can be cut

Names are cut out of a directive at places that were counted from its first mark on.  If all these
places lie between characters of the directive as it stands, it is read or complained about.  They
do so if nothing blank stands in front, and if all characters are of one byte.
-/

namespace PlaneReport

namespace Text

/-- Whether a place in a text lies between its characters, or beyond them. -/
def CanCut (text : List Char) (place : Nat) : Prop :=
  ∃ parts, splitAtByte place 0 text = .ok parts

@[simp] theorem byteCount_append (before after : List Char) :
    byteCount (before ++ after) = byteCount before + byteCount after := by
  induction before with
  | nil => exact (Nat.zero_add _).symm
  | cons c before ih =>
    rw [List.cons_append, byteCount, ih, byteCount, Nat.add_assoc]

@[simp] theorem byteCount_cons (c : Char) (rest : List Char) :
    byteCount (c :: rest) = c.utf8Size + byteCount rest := rfl

theorem splitAtByte_of_le {place start : Nat} (h : place ≤ start) (text : List Char) :
    splitAtByte place start text = .ok ([], text) := by
  cases text with
  | nil => rfl
  | cons c rest => exact if_pos h

theorem splitAtByte_append (before after : List Char) (start : Nat) :
    splitAtByte (start + byteCount before) start (before ++ after) = .ok (before, after) := by
  induction before generalizing start with
  | nil => exact splitAtByte_of_le (Nat.le_refl start) after
  | cons c before ih =>
    have hsize := c.utf8Size_pos
    have hrest := ih (start + c.utf8Size)
    rw [Nat.add_assoc, ← byteCount_cons] at hrest
    rw [byteCount_cons] at hrest ⊢
    rw [List.cons_append, splitAtByte, if_neg (by omega), if_neg (by omega), hrest]
    rfl

theorem canCut_append (before after : List Char) :
    CanCut (before ++ after) (byteCount before) := by
  have h := splitAtByte_append before after 0
  rw [Nat.zero_add] at h
  exact ⟨_, h⟩

theorem canCut_byteCount (text : List Char) : CanCut text (byteCount text) := by
  have h := canCut_append text []
  rwa [List.append_nil] at h

/-- Between characters of one byte every place will do. -/
theorem canCut_of_single {text : List Char} (h : ∀ c ∈ text, c.utf8Size = 1) (place : Nat) :
    CanCut text place := by
  suffices ∀ start, ∃ parts, splitAtByte place start text = .ok parts from this 0
  induction text with
  | nil =>
    intro start
    exact ⟨_, rfl⟩
  | cons c rest ih =>
    intro start
    have hsize := h c List.mem_cons_self
    rw [splitAtByte]
    split
    · exact ⟨_, rfl⟩
    · rw [if_neg (by omega)]
      obtain ⟨parts, hparts⟩ :=
        ih (fun d hd => h d (List.mem_cons_of_mem c hd)) (start + c.utf8Size)
      rw [hparts]
      exact ⟨_, rfl⟩

/-- Of two places that will do, the second will still do after a cut at the first. -/
theorem splitAtByte_rest {start stop offset : Nat} {text before after : List Char}
    (hoffset : offset ≤ start) (hstart : splitAtByte start offset text = .ok (before, after))
    (hstop : ∃ parts, splitAtByte stop offset text = .ok parts) :
    ∃ parts, splitAtByte stop start after = .ok parts := by
  by_cases hle : stop ≤ start
  · exact ⟨_, splitAtByte_of_le hle after⟩
  · induction text generalizing offset before with
    | nil =>
      cases hstart
      exact ⟨_, rfl⟩
    | cons c rest ih =>
      rw [splitAtByte] at hstart
      split at hstart
      · next hplace =>
        cases hstart
        have hsame : offset = start := by omega
        rw [← hsame]
        exact hstop
      · split at hstart
        · cases hstart
        · next hinside =>
          rw [splitAtByte, if_neg (by omega), if_neg (by omega)] at hstop
          obtain ⟨⟨between, after'⟩, hbetween, hafter⟩ := map_eq_ok.mp hstart
          obtain ⟨_, hstop⟩ := hstop
          obtain ⟨parts, hparts, -⟩ := map_eq_ok.mp hstop
          cases hafter
          exact ih (by omega) hbetween ⟨parts, hparts⟩

end Text

namespace Log
namespace Directive

open Text (CanCut byteCount)

/-- A computation that is not broken off. -/
def NoFault {α : Type} (x : Except Defect α) : Prop :=
  ∀ fault, x ≠ .error (.fault fault)

theorem noFault_ok {α : Type} (a : α) : NoFault (.ok a) := nofun

theorem noFault_refused {α : Type} (why : String) :
    NoFault (.error (.refused why) : Except Defect α) := nofun

theorem NoFault.bind {α β : Type} {x : Except Defect α} {f : α → Except Defect β} (hx : NoFault x)
    (hf : ∀ a, NoFault (f a)) : NoFault (x >>= f) := by
  cases x with
  | ok a => exact hf a
  | error defect =>
    intro fault h
    cases h
    exact hx fault rfl

theorem slice_eq_ok {text : List Char} {start stop : Nat} (hstart : CanCut text start)
    (hstop : CanCut text stop) : ∃ between, slice start stop text = .ok between := by
  obtain ⟨⟨before, after⟩, hparts⟩ := hstart
  obtain ⟨⟨between, rest⟩, hbetween⟩ := Text.splitAtByte_rest (Nat.zero_le start) hparts hstop
  unfold slice
  rw [hparts]
  show ∃ between', ((Text.splitAtByte stop start after).mapError _ >>= fun parts => pure parts.1) =
    Except.ok between'
  rw [hbetween]
  exact ⟨between, rfl⟩

theorem slice_noFault {text : List Char} {start stop : Nat} (hstart : CanCut text start)
    (hstop : CanCut text stop) : NoFault (slice start stop text) := by
  obtain ⟨between, hbetween⟩ := slice_eq_ok hstart hstop
  rw [hbetween]
  exact noFault_ok between

/-- A directive, and what is left of it when blanks are passed over: it can be cut wherever the
marks of the latter end. -/
def Fits (text marks : List Char) : Prop :=
  ∀ before after, marks = before ++ after → CanCut text (byteCount before)

variable {text marks : List Char} {objection? : String → Option String}

theorem levelFrom_noFault {start : Nat} (hstart : CanCut text start) :
    NoFault (levelFrom start text) := by
  unfold levelFrom
  refine (slice_noFault hstart (Text.canCut_byteCount text)).bind fun word => ?_
  split
  · exact noFault_ok _
  · split
    · exact noFault_ok _
    · exact noFault_refused _

theorem levelAfterSpan_noFault (hfits : Fits text marks) {before rest : List Char}
    (hmarks : marks = before ++ rest) :
    NoFault (levelAfterSpan text (byteCount before) rest) := by
  unfold levelAfterSpan
  split
  · exact noFault_ok _
  · next rest =>
    have hplace := hfits (before ++ ['=']) rest (by rw [hmarks, List.append_assoc]; rfl)
    rw [Text.byteCount_append] at hplace
    exact levelFrom_noFault hplace
  · exact noFault_refused _

/-- What is wrong with the value of a field is no reason to break off. -/
theorem patternOf_noFault (objection? : String → Option String) (text : List Char) :
    NoFault (patternOf objection? text) := by
  unfold patternOf
  split
  · exact noFault_ok _
  · dsimp only
    split
    · exact noFault_ok _
    · exact noFault_refused _

theorem readField_noFault (hfits : Fits text marks) {before rest : List Char}
    (hmarks : marks = before ++ rest) (target span : Option String) :
    NoFault (readField objection? text target span (byteCount before) rest) := by
  unfold readField
  rcases hspan : rest.span fun c => c != '\x7d' with ⟨field, after⟩
  obtain ⟨hrest, hstops⟩ := Text.of_span hspan
  dsimp only
  cases after with
  | nil => exact noFault_refused _
  | cons mark after =>
    have hmark : mark = '\x7d' := by simpa using hstops mark rfl
    have hstop : CanCut text (byteCount before + byteCount field) := by
      rw [← Text.byteCount_append]
      exact hfits _ (mark :: after) (by rw [hmarks, hrest, List.append_assoc])
    refine (slice_noFault (hfits before rest hmarks) hstop).bind fun name => ?_
    split
    · exact noFault_refused _
    · refine (patternOf_noFault objection? name).bind fun pattern => ?_
      split
      · next after =>
        have hplace : byteCount before + byteCount field + 2 =
            byteCount (before ++ field ++ [mark, ']']) := by
          rw [Text.byteCount_append, Text.byteCount_append, hmark]
          rfl
        rw [hplace]
        refine (levelAfterSpan_noFault hfits ?_).bind fun level => noFault_ok _
        rw [hmarks, hrest, List.append_assoc, List.append_assoc]
        rfl
      · exact noFault_refused _

theorem readSpan_noFault (hfits : Fits text marks) {before rest : List Char}
    (hmarks : marks = before ++ rest) (target : Option String) :
    NoFault (readSpan objection? text target (byteCount before) rest) := by
  unfold readSpan
  rcases hspan : rest.span fun c => c != ']' && c != '\x7b' with ⟨name, after⟩
  obtain ⟨hrest, hstops⟩ := Text.of_span hspan
  dsimp only
  cases after with
  | nil => exact noFault_refused _
  | cons mark after =>
    have hmark : mark = ']' ∨ mark = '\x7b' := by
      have h := hstops mark rfl
      simp only [Bool.and_eq_false_iff, bne_eq_false_iff_eq] at h
      exact h
    have hsize : mark.utf8Size = 1 := by
      rcases hmark with rfl | rfl
      · rfl
      · rfl
    have hstop : CanCut text (byteCount before + byteCount name) := by
      rw [← Text.byteCount_append]
      exact hfits _ (mark :: after) (by rw [hmarks, hrest, List.append_assoc])
    have hplace : byteCount before + byteCount name + 1 = byteCount (before ++ name ++ [mark]) := by
      rw [Text.byteCount_append, Text.byteCount_append, Text.byteCount_cons, hsize]
      rfl
    have hafter : marks = before ++ name ++ [mark] ++ after := by
      rw [hmarks, hrest, List.append_assoc, List.append_assoc]
      rfl
    rw [hplace]
    refine (slice_noFault (hfits before rest hmarks) hstop).bind fun name' => ?_
    split
    · exact (levelAfterSpan_noFault hfits hafter).bind fun level => noFault_ok _
    · exact readField_noFault hfits hafter target _

/-- What fits is read or complained about. -/
theorem ofText_noFault (hfits : Fits text (Text.trim text)) :
    NoFault (ofText objection? text) := by
  unfold ofText
  split
  · exact noFault_refused _
  · next rest htrim =>
    have hmarks : Text.trim text = ['['] ++ rest := htrim
    exact readSpan_noFault hfits hmarks none
  · next c rest _ htrim =>
    split
    · exact noFault_refused _
    · rcases hspan : (c :: rest).span fun c => c != '=' && c != '[' with ⟨word, after⟩
      obtain ⟨hmarks, hstops⟩ := Text.of_span hspan
      dsimp only
      cases after with
      | nil =>
        dsimp only
        split
        · exact noFault_ok _
        · exact noFault_ok _
      | cons mark after =>
        have hmark : mark = '=' ∨ mark = '[' := by
          have h := hstops mark rfl
          simp only [Bool.and_eq_false_iff, bne_eq_false_iff_eq] at h
          exact h
        have hsize : mark.utf8Size = 1 := by
          rcases hmark with rfl | rfl
          · rfl
          · rfl
        have hstart : CanCut text 0 := hfits [] _ rfl
        have hstop : CanCut text (byteCount word) := hfits word (mark :: after) (htrim.trans hmarks)
        have hplace : byteCount word + 1 = byteCount (word ++ [mark]) := by
          rw [Text.byteCount_append, Text.byteCount_cons, hsize]
          rfl
        have hafter : Text.trim text = word ++ [mark] ++ after := by
          rw [htrim, hmarks, List.append_assoc]
          rfl
        refine (slice_noFault hstart hstop).bind fun target => ?_
        rw [hplace]
        split
        · exact (levelFrom_noFault (hfits _ after hafter)).bind fun level => noFault_ok _
        · exact readSpan_noFault hfits hafter _

/-- A directive that cannot be cut has a blank in front and a character of several bytes. -/
theorem ofText_fault {fault : Fault} (h : ofText objection? text = .error (.fault fault)) :
    (∃ c rest, text = c :: rest ∧ Text.isBlank c = true) ∧ ∃ c ∈ text, c.utf8Size ≠ 1 := by
  constructor
  · by_contra hblank
    refine ofText_noFault ?_ fault h
    have hstart : Text.trimLeft text = text := by
      cases text with
      | nil => rfl
      | cons c rest =>
        have hc : Text.isBlank c ≠ true := fun hc => hblank ⟨c, rest, rfl, hc⟩
        exact List.dropWhile_cons_of_neg hc
    intro before after hmarks
    rw [Text.trim, hstart] at hmarks
    obtain ⟨blanks, htext, -⟩ := Text.trimRight_append text
    rw [htext, hmarks, List.append_assoc]
    exact Text.canCut_append before (after ++ blanks)
  · by_contra hsingle
    refine ofText_noFault ?_ fault h
    have hsingle : ∀ c ∈ text, c.utf8Size = 1 := by
      intro c hc
      by_contra hsize
      exact hsingle ⟨c, hc, hsize⟩
    intro before after _
    exact Text.canCut_of_single hsingle _

end Directive
end Log
end PlaneReport
