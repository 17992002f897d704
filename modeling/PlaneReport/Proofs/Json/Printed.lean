import PlaneReport.Proofs.Json.Reader
import PlaneReport.Proofs.Json.Tokens

/-!
# Printed JSON values are read back

The printers for JSON differ in the blanks between tokens alone.  A `Spacing` says which blanks they
set, and whatever blanks these are, the reader finds the outline of the value that was printed.  Not
so for numbers that are no integers and for integers that do not fit 64 bits, which are left out
here.  Main statement: `outline_chars`.
-/

namespace PlaneReport
namespace Json

open Numeral (carriesOn)

/-! ## Outlines of values -/

mutual

/-- Whether all numbers in a value are integers of 64 bits, with or without a sign. -/
def isIntegral : Json → Bool
  | .integer n => decide (-(2 ^ 63 : Int) ≤ n) && decide (n < 2 ^ 64)
  | .number _ => false
  | .array items => areItemsIntegral items
  | .object members => areMembersIntegral members
  | _ => true

def areItemsIntegral : List Json → Bool
  | [] => true
  | item :: rest => isIntegral item && areItemsIntegral rest

def areMembersIntegral : List (String × Json) → Bool
  | [] => true
  | (_, value) :: rest => isIntegral value && areMembersIntegral rest

end

mutual

/-- The outline of a text that denotes a value. -/
def outlineOf : Json → Outline
  | .null => .null
  | .bool value => .bool value
  | .integer n => .integer n
  | .number x => .number x
  | .string s => .string s
  | .array items => .list (outlinesOf items) true
  | .object members => .table (memberOutlinesOf members) true

def outlinesOf : List Json → List Outline
  | [] => []
  | item :: rest => outlineOf item :: outlinesOf rest

def memberOutlinesOf : List (String × Json) → List (Option String × Outline)
  | [] => []
  | (key, value) :: rest => (some key, outlineOf value) :: memberOutlinesOf rest

end

/-! ## Printers -/

/-- Where a printer sets blanks: before items, members and closing brackets, depending on the level,
and after colons. -/
structure Spacing where
  lead : Nat → List Char
  gap : List Char
  lead_blank (level : Nat) : (lead level).all isBlank = true
  gap_blank : gap.all isBlank = true

namespace Spacing

variable (spacing : Spacing)

mutual

def chars (level : Nat) : Json → List Char
  | .array (item :: rest) =>
    '[' :: (spacing.lead (level + 1) ++ chars (level + 1) item ++ moreItems level rest)
  | .object ((key, value) :: rest) =>
    '\x7b' :: (spacing.lead (level + 1) ++ stringChars key ++
      ':' :: (spacing.gap ++ chars (level + 1) value ++ moreMembers level rest))
  | leaf => leafChars leaf

/-- What follows an item, with the closing bracket. -/
def moreItems (level : Nat) : List Json → List Char
  | [] => spacing.lead level ++ [']']
  | item :: rest =>
    ',' :: (spacing.lead (level + 1) ++ chars (level + 1) item ++ moreItems level rest)

/-- What follows a member, with the closing brace. -/
def moreMembers (level : Nat) : List (String × Json) → List Char
  | [] => spacing.lead level ++ ['\x7d']
  | (key, value) :: rest =>
    ',' :: (spacing.lead (level + 1) ++ stringChars key ++
      ':' :: (spacing.gap ++ chars (level + 1) value ++ moreMembers level rest))

end

/-- A line for each item and member, and a blank after colons. -/
def lines : Spacing where
  lead := lineStart
  gap := [' ']
  lead_blank level := by
    rw [lineStart, List.all_cons, List.all_replicate]
    simp [isBlank]
  gap_blank := rfl

/-- No blanks at all. -/
def tight : Spacing where
  lead _ := []
  gap := []
  lead_blank _ := rfl
  gap_blank := rfl

end Spacing

/-- Whether a value has no parts, so that it is printed without regard to blanks. -/
def isLeaf : Json → Bool
  | .array (_ :: _) => false
  | .object (_ :: _) => false
  | _ => true

/-- A printer of values, of items and of members that sets the blanks of a spacing.  Brackets and
braces are closed with the last item and the last member. -/
structure Spacing.Prints (spacing : Spacing) (chars : Nat → Json → List Char)
    (items : Nat → List Json → List Char) (members : Nat → List (String × Json) → List Char) :
    Prop where
  leaf (level : Nat) {value : Json} (h : value.isLeaf = true) :
    chars level value = leafChars value
  array (level : Nat) (item : Json) (rest : List Json) :
    chars level (.array (item :: rest)) = '[' :: items level (item :: rest)
  lastItem (level : Nat) (item : Json) :
    items level [item] = spacing.lead (level + 1) ++ chars (level + 1) item ++
      (spacing.lead level ++ [']'])
  nextItem (level : Nat) (item next : Json) (rest : List Json) :
    items level (item :: next :: rest) =
      spacing.lead (level + 1) ++ chars (level + 1) item ++ ',' :: items level (next :: rest)
  object (level : Nat) (member : String × Json) (rest : List (String × Json)) :
    chars level (.object (member :: rest)) = '\x7b' :: members level (member :: rest)
  lastMember (level : Nat) (key : String) (value : Json) :
    members level [(key, value)] = spacing.lead (level + 1) ++ stringChars key ++
      ':' :: (spacing.gap ++ chars (level + 1) value ++ (spacing.lead level ++ ['\x7d']))
  nextMember (level : Nat) (key : String) (value : Json) (next : String × Json)
    (rest : List (String × Json)) :
    members level ((key, value) :: next :: rest) = spacing.lead (level + 1) ++ stringChars key ++
      ':' :: (spacing.gap ++ chars (level + 1) value ++ ',' :: members level (next :: rest))

namespace Spacing.Prints

variable {spacing : Spacing} {chars : Nat → Json → List Char}
  {items : Nat → List Json → List Char} {members : Nat → List (String × Json) → List Char}

mutual

/-- The blanks decide what is printed. -/
theorem chars_eq (h : spacing.Prints chars items members) (level : Nat) (value : Json) :
    chars level value = spacing.chars level value := by
  match value with
  | .array [] => exact h.leaf level rfl
  | .array (item :: rest) =>
    have hitems := comma_items h level (item :: rest) nofun
    rw [moreItems, List.cons.injEq] at hitems
    rw [h.array, Spacing.chars, hitems.2]
  | .object [] => exact h.leaf level rfl
  | .object ((key, value) :: rest) =>
    have hmembers := comma_members h level ((key, value) :: rest) nofun
    rw [moreMembers, List.cons.injEq] at hmembers
    rw [h.object, Spacing.chars, hmembers.2]
  | .null => exact h.leaf level rfl
  | .bool _ => exact h.leaf level rfl
  | .integer _ => exact h.leaf level rfl
  | .number _ => exact h.leaf level rfl
  | .string _ => exact h.leaf level rfl

theorem comma_items (h : spacing.Prints chars items members) (level : Nat) (parts : List Json)
    (hparts : parts ≠ []) : ',' :: items level parts = spacing.moreItems level parts := by
  match parts with
  | [item] => rw [h.lastItem, chars_eq h, moreItems, moreItems]
  | item :: next :: rest =>
    rw [h.nextItem, chars_eq h, comma_items h level (next :: rest) nofun, ← moreItems]

theorem comma_members (h : spacing.Prints chars items members) (level : Nat)
    (parts : List (String × Json)) (hparts : parts ≠ []) :
    ',' :: members level parts = spacing.moreMembers level parts := by
  match parts with
  | [(key, value)] => rw [h.lastMember, chars_eq h, moreMembers, moreMembers]
  | (key, value) :: next :: rest =>
    rw [h.nextMember, chars_eq h, comma_members h level (next :: rest) nofun, ← moreMembers]

end

end Spacing.Prints

theorem prettyChars_prints : Spacing.lines.Prints prettyChars prettyItems prettyMembers where
  leaf _ value h :=
    match value, h with
    | .null, _ | .bool _, _ | .integer _, _ | .number _, _ | .string _, _ => rfl
    | .array [], _ | .object [], _ => rfl
  array _ _ _ := rfl
  lastItem _ _ := by
    rw [prettyItems, List.append_assoc]
    rfl
  nextItem _ _ _ _ := by
    rw [prettyItems]
    · rfl
    · nofun
  object _ _ _ := rfl
  lastMember _ _ _ := by
    rw [prettyMembers, List.append_assoc _ _ ['\x7d']]
    rfl
  nextMember _ _ _ _ _ := by
    rw [prettyMembers]
    · rfl
    · nofun

theorem compactChars_prints : Spacing.tight.Prints (fun _ => compactChars) (fun _ => compactItems)
    (fun _ => compactMembers) where
  leaf _ value h :=
    match value, h with
    | .null, _ | .bool _, _ | .integer _, _ | .number _, _ | .string _, _ => rfl
    | .array [], _ | .object [], _ => rfl
  array _ _ _ := rfl
  lastItem _ _ := rfl
  nextItem _ _ _ _ := rfl
  object _ _ _ := rfl
  lastMember _ _ _ := rfl
  nextMember _ _ _ _ _ := rfl

/-! ## Reading -/

variable {blank rest : List Char} {fuel : Nat}

theorem skipBlanks_append (hblank : blank.all isBlank = true) (text : List Char) :
    skipBlanks (blank ++ text) = skipBlanks text :=
  List.dropWhile_append_of_pos (List.all_eq_true.mp hblank)

theorem skipBlanks_cons {c : Char} (hc : isBlank c = false) (rest : List Char) :
    skipBlanks (c :: rest) = c :: rest := by
  rw [skipBlanks, List.dropWhile_cons, hc, if_neg Bool.false_ne_true]

theorem carriesOn_of_isBlank {c : Char} (hc : isBlank c = true) : carriesOn c = false := by
  simp only [isBlank, Bool.or_eq_true, beq_iff_eq] at hc
  obtain ((rfl | rfl) | rfl) | rfl := hc <;> rfl

/-- Blanks carry no numeral on, and neither does what follows them if it does not by itself. -/
theorem stopsAt_blank_append (hblank : blank.all isBlank = true)
    (hrest : Text.StopsAt carriesOn rest) : Text.StopsAt carriesOn (blank ++ rest) := by
  cases blank with
  | nil => exact hrest
  | cons c blank =>
    rw [List.all_cons, Bool.and_eq_true] at hblank
    exact Text.stopsAt_cons (carriesOn_of_isBlank hblank.1) _

/-- A text at whose start the reader of a list looks for an item. -/
def StartsItem (text : List Char) : Prop :=
  ∃ c more, text = c :: more ∧ isBlank c = false ∧ c ≠ ']'

theorem StartsItem.append {text : List Char} (h : StartsItem text) (rest : List Char) :
    StartsItem (text ++ rest) := by
  obtain ⟨c, more, rfl, hc⟩ := h
  exact ⟨c, more ++ rest, rfl, hc⟩

theorem readValue_blank (hblank : blank.all isBlank = true) (text : List Char) :
    readValue fuel (blank ++ text) = readValue fuel text := by
  cases fuel with
  | zero => simp only [readValue]
  | succ fuel => simp only [readValue, skipBlanks_append hblank]

theorem readItems_first (hblank : blank.all isBlank = true) {text : List Char}
    (htext : StartsItem text) :
    readItems (fuel + 1) true (blank ++ text) = itemsFrom fuel text := by
  obtain ⟨c, more, rfl, hc, hbracket⟩ := htext
  rw [readItems.eq_def]
  dsimp only
  rw [skipBlanks_append hblank, skipBlanks_cons hc]
  split
  · next h => cases h
  · next h => exact absurd (List.cons.inj h).1 hbracket
  · next h =>
    cases h
    rfl

theorem readItems_comma (hblank : blank.all isBlank = true) {text : List Char}
    (htext : StartsItem text) :
    readItems (fuel + 1) false (',' :: (blank ++ text)) = itemsFrom fuel text := by
  obtain ⟨c, more, rfl, hc, hbracket⟩ := htext
  have hcomma : skipBlanks (',' :: (blank ++ c :: more)) = ',' :: (blank ++ c :: more) :=
    skipBlanks_cons rfl _
  have hitem : skipBlanks (blank ++ c :: more) = c :: more := by
    rw [skipBlanks_append hblank, skipBlanks_cons hc]
  rw [readItems.eq_def]
  dsimp only
  rw [hcomma]
  split
  · next h => cases h
  · next h => cases h
  · next h =>
    cases h
    rw [if_neg Bool.false_ne_true, if_pos rfl, hitem]
    split
    · next h => cases h
    · next h => exact absurd (List.cons.inj h).1 hbracket
    · rfl

theorem readItems_end (hblank : blank.all isBlank = true) (first : Bool) :
    readItems (fuel + 1) first (blank ++ ']' :: rest) = ([], some rest) := by
  have hbracket : skipBlanks (blank ++ ']' :: rest) = ']' :: rest := by
    rw [skipBlanks_append hblank, skipBlanks_cons rfl]
  rw [readItems.eq_def]
  dsimp only
  rw [hbracket]
  rfl

theorem readMembers_first (hblank : blank.all isBlank = true) (key : String) (text : List Char) :
    readMembers (fuel + 1) true (blank ++ (stringChars key ++ text)) =
      membersFrom fuel (stringChars key ++ text) := by
  have hkey : skipBlanks (blank ++ (stringChars key ++ text)) = stringChars key ++ text := by
    rw [skipBlanks_append hblank]
    exact skipBlanks_cons rfl _
  rw [readMembers.eq_def]
  dsimp only
  rw [hkey]
  rfl

theorem readMembers_comma (hblank : blank.all isBlank = true) (key : String) (text : List Char) :
    readMembers (fuel + 1) false (',' :: (blank ++ (stringChars key ++ text))) =
      membersFrom fuel (stringChars key ++ text) := by
  have hcomma : skipBlanks (',' :: (blank ++ (stringChars key ++ text))) =
      ',' :: (blank ++ (stringChars key ++ text)) := skipBlanks_cons rfl _
  have hkey : skipBlanks (blank ++ (stringChars key ++ text)) = stringChars key ++ text := by
    rw [skipBlanks_append hblank]
    exact skipBlanks_cons rfl _
  rw [readMembers.eq_def]
  dsimp only
  rw [hcomma]
  show membersFrom fuel (skipBlanks (blank ++ (stringChars key ++ text))) = _
  rw [hkey]

theorem readMembers_end (hblank : blank.all isBlank = true) (first : Bool) :
    readMembers (fuel + 1) first (blank ++ '\x7d' :: rest) = ([], some rest) := by
  have hbrace : skipBlanks (blank ++ '\x7d' :: rest) = '\x7d' :: rest := by
    rw [skipBlanks_append hblank, skipBlanks_cons rfl]
  rw [readMembers.eq_def]
  dsimp only
  rw [hbrace]
  rfl

/-- An item is read before what follows it. -/
theorem itemsFrom_of_readValue {text : List Char} {value : Outline}
    (h : readValue fuel text = (value, some rest)) :
    itemsFrom fuel text =
      (value :: (readItems fuel false rest).1, (readItems fuel false rest).2) := by
  rw [itemsFrom, h]

/-- A key, its colon and its value are read before what follows them. -/
theorem membersFrom_of_readValue (key : String) {text : List Char} {value : Outline}
    (h : readValue fuel text = (value, some rest)) :
    membersFrom fuel (stringChars key ++ ':' :: text) =
      ((some key, value) :: (readMembers fuel false rest).1, (readMembers fuel false rest).2) := by
  have hkey : stringChars key ++ ':' :: text =
      '"' :: (key.toList.flatMap escapeChar ++ '"' :: ':' :: text) := by
    simp [stringChars]
  have hcolon : skipBlanks (':' :: text) = ':' :: text := skipBlanks_cons rfl _
  rw [hkey, membersFrom, readString_escaped]
  simp only [hcolon, h]

theorem readValue_of_readItems {text : List Char} {items : List Outline}
    (h : readItems fuel true text = (items, some rest)) :
    readValue (fuel + 1) ('[' :: text) = (.list items true, some rest) := by
  have hopen : skipBlanks ('[' :: text) = '[' :: text := skipBlanks_cons rfl _
  rw [readValue, hopen]
  simp only [h, Option.isSome_some]

theorem readValue_of_readMembers {text : List Char} {members : List (Option String × Outline)}
    (h : readMembers fuel true text = (members, some rest)) :
    readValue (fuel + 1) ('\x7b' :: text) = (.table members true, some rest) := by
  have hopen : skipBlanks ('\x7b' :: text) = '\x7b' :: text := skipBlanks_cons rfl _
  rw [readValue, hopen]
  simp only [h, Option.isSome_some]

/-! ## Values without parts -/

/-- Whether an integer can start with a character. -/
def startsInteger (c : Char) : Bool :=
  c == '-' || Decimal.isDigit c

/-- What a numeral is as a value. -/
def Numeral.toOutline : Numeral → Outline
  | .integer value => .integer value
  | .number value => .number value
  | .tooLarge => .unreadable

theorem exists_cons_integerChars (n : Int) :
    ∃ c more, integerChars n = c :: more ∧ startsInteger c = true := by
  unfold integerChars
  split
  · exact ⟨'-', _, rfl, rfl⟩
  · obtain ⟨c, more, hcons⟩ := List.exists_cons_of_ne_nil (@Nat.toDigits_ne_nil n.natAbs 10)
    have hdigits := Decimal.all_isDigit_toDigits n.natAbs
    rw [hcons, List.all_cons, Bool.and_eq_true] at hdigits
    exact ⟨c, more, hcons, by rw [startsInteger, hdigits.1, Bool.or_true]⟩

theorem ne_of_startsInteger {c d : Char} (hc : startsInteger c = true)
    (hd : startsInteger d = false) : c ≠ d := by
  rintro rfl
  cases hc.symm.trans hd

theorem isBlank_of_startsInteger {c : Char} (hc : startsInteger c = true) : isBlank c = false := by
  simp only [isBlank, Bool.or_eq_false_iff, beq_eq_false_iff_ne]
  exact ⟨⟨⟨ne_of_startsInteger hc rfl, ne_of_startsInteger hc rfl⟩, ne_of_startsInteger hc rfl⟩,
    ne_of_startsInteger hc rfl⟩

theorem readLeaf_stringChars (s : String) :
    readLeaf (stringChars s ++ rest) = (.string s, some rest) := by
  have hstring : stringChars s ++ rest = '"' :: (s.toList.flatMap escapeChar ++ '"' :: rest) := by
    simp [stringChars]
  rw [hstring, readLeaf, readString_escaped]

theorem readValue_eq_readLeaf {c : Char} (hc : isBlank c = false) (hlist : c ≠ '[')
    (htable : c ≠ '\x7b') (rest : List Char) :
    readValue (fuel + 1) (c :: rest) = readLeaf (c :: rest) := by
  rw [readValue.eq_def]
  dsimp only
  rw [skipBlanks_cons hc]
  split
  · next h => exact absurd (List.cons.inj h).1 hlist
  · next h => exact absurd (List.cons.inj h).1 htable
  · rfl

/-- What starts like an integer is read as a numeral. -/
theorem readValue_of_startsInteger {c : Char} (hc : startsInteger c = true) {more : List Char}
    {numeral : Numeral} (hread : Numeral.read (c :: more) = some (numeral, rest)) :
    readValue (fuel + 1) (c :: more) = (numeral.toOutline, some rest) := by
  rw [readValue_eq_readLeaf (isBlank_of_startsInteger hc) (ne_of_startsInteger hc rfl)
    (ne_of_startsInteger hc rfl)]
  unfold readLeaf
  split
  · next h => exact absurd (List.cons.inj h).1 (ne_of_startsInteger hc rfl)
  · next h => exact absurd (List.cons.inj h).1 (ne_of_startsInteger hc rfl)
  · next h => exact absurd (List.cons.inj h).1 (ne_of_startsInteger hc rfl)
  · next h => exact absurd (List.cons.inj h).1 (ne_of_startsInteger hc rfl)
  · rw [hread]
    cases numeral <;> rfl

theorem readValue_integerChars {n : Int} (hlow : -(2 ^ 63 : Int) ≤ n) (hhigh : n < 2 ^ 64)
    (hrest : Text.StopsAt carriesOn rest) :
    readValue (fuel + 1) (integerChars n ++ rest) = (.integer n, some rest) := by
  have hread := Numeral.read_integerChars hlow hhigh hrest
  obtain ⟨c, more, hcons, hc⟩ := exists_cons_integerChars n
  rw [hcons, List.cons_append] at hread ⊢
  exact readValue_of_startsInteger hc hread

theorem readValue_stringChars (s : String) (rest : List Char) :
    readValue (fuel + 1) (stringChars s ++ rest) = (.string s, some rest) := by
  rw [← readLeaf_stringChars]
  exact readValue_eq_readLeaf rfl (by decide) (by decide) _

theorem startsItem_chars (spacing : Spacing) (level : Nat) {value : Json}
    (hvalue : value.isIntegral = true) : StartsItem (spacing.chars level value) := by
  cases value with
  | null => exact ⟨'n', _, rfl, rfl, by decide⟩
  | bool value => cases value <;> exact ⟨_, _, rfl, rfl, by decide⟩
  | integer n =>
    obtain ⟨c, more, hcons, hc⟩ := exists_cons_integerChars n
    exact ⟨c, more, hcons, isBlank_of_startsInteger hc, ne_of_startsInteger hc rfl⟩
  | number x => cases hvalue
  | string s => exact ⟨'"', _, rfl, rfl, by decide⟩
  | array items => cases items <;> exact ⟨'[', _, rfl, rfl, by decide⟩
  | object members => cases members <;> exact ⟨'\x7b', _, rfl, rfl, by decide⟩

/-! ## Values -/

theorem stopsAt_moreItems (spacing : Spacing) (level : Nat) (items : List Json) (rest : List Char) :
    Text.StopsAt carriesOn (spacing.moreItems level items ++ rest) := by
  cases items with
  | nil =>
    rw [Spacing.moreItems, List.append_assoc]
    exact stopsAt_blank_append (spacing.lead_blank level) (Text.stopsAt_cons rfl rest)
  | cons item items => exact Text.stopsAt_cons rfl _

theorem stopsAt_moreMembers (spacing : Spacing) (level : Nat) (members : List (String × Json))
    (rest : List Char) : Text.StopsAt carriesOn (spacing.moreMembers level members ++ rest) := by
  cases members with
  | nil =>
    rw [Spacing.moreMembers, List.append_assoc]
    exact stopsAt_blank_append (spacing.lead_blank level) (Text.stopsAt_cons rfl rest)
  | cons member members => exact Text.stopsAt_cons rfl _

mutual

/-- Whatever the blanks between tokens, a printed value is read back up to its end.  There is enough
fuel because a value takes at most two steps for each of its characters. -/
theorem readValue_chars (spacing : Spacing) (level : Nat) (value : Json) (rest : List Char)
    (fuel : Nat) (hvalue : value.isIntegral = true)
    (hfuel : 2 * (spacing.chars level value).length ≤ fuel)
    (hrest : Text.StopsAt carriesOn rest) :
    readValue fuel (spacing.chars level value ++ rest) = (value.outlineOf, some rest) := by
  have hpos : 0 < (spacing.chars level value).length := by
    obtain ⟨c, more, hcons, -⟩ := startsItem_chars spacing level hvalue
    rw [hcons, List.length_cons]
    omega
  obtain ⟨fuel, rfl⟩ : ∃ f, fuel = f + 2 := ⟨fuel - 2, by omega⟩
  match value with
  | .null => exact readValue_eq_readLeaf rfl (by decide) (by decide) _
  | .bool true => exact readValue_eq_readLeaf rfl (by decide) (by decide) _
  | .bool false => exact readValue_eq_readLeaf rfl (by decide) (by decide) _
  | .integer n =>
    simp only [isIntegral, Bool.and_eq_true, decide_eq_true_eq] at hvalue
    exact readValue_integerChars hvalue.1 hvalue.2 hrest
  | .number _ => cases hvalue
  | .string s => exact readValue_stringChars s rest
  | .array [] =>
    have hitems : readItems (fuel + 1) true ([] ++ ']' :: rest) = ([], some rest) :=
      readItems_end rfl true
    exact readValue_of_readItems hitems
  | .array (item :: items) =>
    simp only [isIntegral, areItemsIntegral, Bool.and_eq_true] at hvalue
    simp only [Spacing.chars, List.length_cons, List.length_append] at hfuel
    have hitem := readValue_chars spacing (level + 1) item
      (spacing.moreItems level items ++ rest) fuel hvalue.1 (by omega)
      (stopsAt_moreItems spacing level items rest)
    have hmore := readItems_moreItems spacing level items rest fuel hvalue.2 (by omega)
    simp only [Spacing.chars, List.cons_append, List.append_assoc]
    refine readValue_of_readItems ?_
    rw [readItems_first (spacing.lead_blank (level + 1))
      ((startsItem_chars spacing (level + 1) hvalue.1).append _), itemsFrom_of_readValue hitem,
      hmore]
    rfl
  | .object [] =>
    have hmembers : readMembers (fuel + 1) true ([] ++ '\x7d' :: rest) = ([], some rest) :=
      readMembers_end rfl true
    exact readValue_of_readMembers hmembers
  | .object ((key, value) :: members) =>
    simp only [isIntegral, areMembersIntegral, Bool.and_eq_true] at hvalue
    simp only [Spacing.chars, List.length_cons, List.length_append] at hfuel
    have hthis := readValue_chars spacing (level + 1) value
      (spacing.moreMembers level members ++ rest) fuel hvalue.1 (by omega)
      (stopsAt_moreMembers spacing level members rest)
    have hmore := readMembers_moreMembers spacing level members rest fuel hvalue.2 (by omega)
    rw [← readValue_blank spacing.gap_blank] at hthis
    simp only [Spacing.chars, List.cons_append, List.append_assoc]
    refine readValue_of_readMembers ?_
    rw [readMembers_first (spacing.lead_blank (level + 1)) key, membersFrom_of_readValue key hthis,
      hmore]
    rfl

theorem readItems_moreItems (spacing : Spacing) (level : Nat) (items : List Json)
    (rest : List Char) (fuel : Nat) (hitems : areItemsIntegral items = true)
    (hfuel : 2 * (spacing.moreItems level items).length ≤ fuel) :
    readItems fuel false (spacing.moreItems level items ++ rest) =
      (outlinesOf items, some rest) := by
  match items with
  | [] =>
    simp only [Spacing.moreItems, List.length_append, List.length_singleton] at hfuel
    obtain ⟨fuel, rfl⟩ : ∃ f, fuel = f + 1 := ⟨fuel - 1, by omega⟩
    rw [Spacing.moreItems, List.append_assoc]
    exact readItems_end (spacing.lead_blank level) false
  | item :: items =>
    simp only [areItemsIntegral, Bool.and_eq_true] at hitems
    simp only [Spacing.moreItems, List.length_cons, List.length_append] at hfuel
    obtain ⟨fuel, rfl⟩ : ∃ f, fuel = f + 1 := ⟨fuel - 1, by omega⟩
    have hitem := readValue_chars spacing (level + 1) item
      (spacing.moreItems level items ++ rest) fuel hitems.1 (by omega)
      (stopsAt_moreItems spacing level items rest)
    have hmore := readItems_moreItems spacing level items rest fuel hitems.2 (by omega)
    simp only [Spacing.moreItems, List.cons_append, List.append_assoc]
    rw [readItems_comma (spacing.lead_blank (level + 1))
      ((startsItem_chars spacing (level + 1) hitems.1).append _), itemsFrom_of_readValue hitem,
      hmore]
    rfl

theorem readMembers_moreMembers (spacing : Spacing) (level : Nat) (members : List (String × Json))
    (rest : List Char) (fuel : Nat) (hmembers : areMembersIntegral members = true)
    (hfuel : 2 * (spacing.moreMembers level members).length ≤ fuel) :
    readMembers fuel false (spacing.moreMembers level members ++ rest) =
      (memberOutlinesOf members, some rest) := by
  match members with
  | [] =>
    simp only [Spacing.moreMembers, List.length_append, List.length_singleton] at hfuel
    obtain ⟨fuel, rfl⟩ : ∃ f, fuel = f + 1 := ⟨fuel - 1, by omega⟩
    rw [Spacing.moreMembers, List.append_assoc]
    exact readMembers_end (spacing.lead_blank level) false
  | (key, value) :: members =>
    simp only [areMembersIntegral, Bool.and_eq_true] at hmembers
    simp only [Spacing.moreMembers, List.length_cons, List.length_append] at hfuel
    obtain ⟨fuel, rfl⟩ : ∃ f, fuel = f + 1 := ⟨fuel - 1, by omega⟩
    have hthis := readValue_chars spacing (level + 1) value
      (spacing.moreMembers level members ++ rest) fuel hmembers.1 (by omega)
      (stopsAt_moreMembers spacing level members rest)
    have hmore := readMembers_moreMembers spacing level members rest fuel hmembers.2 (by omega)
    rw [← readValue_blank spacing.gap_blank] at hthis
    simp only [Spacing.moreMembers, List.cons_append, List.append_assoc]
    rw [readMembers_comma (spacing.lead_blank (level + 1)) key, membersFrom_of_readValue key hthis,
      hmore]
    rfl

end

/-- A text that is a printed value and blanks has the outline of that value. -/
theorem outline_chars (spacing : Spacing) {value : Json} (hvalue : value.isIntegral = true)
    (hblank : blank.all isBlank = true) :
    outline (spacing.chars 0 value ++ blank) = (value.outlineOf, true) := by
  have hstop : Text.StopsAt carriesOn (blank ++ []) :=
    stopsAt_blank_append hblank (Text.stopsAt_nil _)
  have hend : skipBlanks (blank ++ []) = [] := skipBlanks_append hblank []
  rw [List.append_nil] at hstop hend
  have hread := readValue_chars spacing 0 value blank
    (2 * (spacing.chars 0 value ++ blank).length + 2) hvalue
    (by rw [List.length_append]; omega) hstop
  rw [outline, hread]
  simp only [hend, List.isEmpty_nil]

end Json
end PlaneReport
