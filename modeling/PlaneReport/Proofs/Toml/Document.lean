import PlaneReport.Proofs.Toml.Number
import PlaneReport.Proofs.Toml.Quoted
import PlaneReport.Toml.Reader

/-!
# Documents of TOML read back

A document is printed line by line, and the reader takes it back line by line: a pair sets a value
under the last header, a header opens a table.  `addPairs` and `addSections` say what the lines do
to the members of the document, and `outline?_documentText` that the reader does the same.

Keys are written without quotes, so they have to be bare.
-/

namespace PlaneReport
namespace Toml

variable {edition : Edition}

/-! ## Values -/

/-- A scalar whose text, at the end of a line, is read as a value. -/
structure Scalar.ReadsAs (edition : Edition) (scalar : Scalar) (value : Outline) : Prop where
  starts : Text.StopsAt isBlank scalar.chars
  ne_nil : scalar.chars ≠ []
  reads : ∀ fuel depth rest, readValue edition (fuel + 1) depth (scalar.chars ++ '\n' :: rest) =
    some (value, '\n' :: rest)

theorem not_isScalarChar_of_mark :
    isScalarChar '"' = false ∧ isScalarChar '\'' = false ∧ isScalarChar '[' = false ∧
      isScalarChar '\x7b' = false := by
  decide

theorem readValue_scalar {c : Char} (hc : isScalarChar c = true) (fuel depth : Nat)
    (rest : List Char) :
    readValue edition (fuel + 1) depth (c :: rest) = readScalar edition (c :: rest) := by
  obtain ⟨hquote, hsingle, hlist, htable⟩ := not_isScalarChar_of_mark
  have hne : ∀ mark, isScalarChar mark = false → c ≠ mark := by
    rintro mark hmark rfl
    rw [hc] at hmark
    cases hmark
  rw [readValue.eq_def]
  dsimp only
  split
  · next heq =>
    injection heq with heq
    exact absurd heq (hne _ hquote)
  · next heq =>
    injection heq with heq
    exact absurd heq (hne _ hsingle)
  · next heq =>
    injection heq with heq
    exact absurd heq (hne _ hlist)
  · next heq =>
    injection heq with heq
    exact absurd heq (hne _ htable)
  · rfl

theorem not_isBlank_of_isScalarChar {c : Char} (hc : isScalarChar c = true) :
    isBlank c = false := by
  unfold isBlank
  rw [Bool.or_eq_false_iff, beq_eq_false_iff_ne, beq_eq_false_iff_ne]
  constructor
  · rintro rfl
    exact absurd hc (by decide)
  · rintro rfl
    exact absurd hc (by decide)

theorem readsAs_of_isScalarText {scalar : Scalar} {value : Outline}
    (h : IsScalarText edition scalar.chars value) : scalar.ReadsAs edition value := by
  have hread := readScalar_of_isScalarText h
  obtain ⟨hne, hall, -⟩ := h
  cases hchars : scalar.chars with
  | nil => exact absurd hchars hne
  | cons c more =>
    rw [hchars, List.all_cons, Bool.and_eq_true] at hall
    refine ⟨?_, hne, fun fuel depth rest => ?_⟩
    · rw [hchars]
      exact Text.stopsAt_cons (not_isBlank_of_isScalarChar hall.1) more
    · have hrest := hread rest
      rw [hchars, List.cons_append] at hrest ⊢
      rw [readValue_scalar hall.1, hrest]

theorem readsAs_integer {n : Int} (hlow : -(2 ^ 127 : Int) ≤ n) (hhigh : n < 2 ^ 128) :
    (Scalar.integer n).ReadsAs edition (.integer n) :=
  readsAs_of_isScalarText (isScalarText_integer hlow hhigh)

theorem readsAs_number {x : Binary.Double} (hx : x.isFinite = true) :
    (Scalar.number x).ReadsAs edition (.number x) := by
  cases x with
  | nan => cases hx
  | infinite negative => cases hx
  | finite negative size => exact readsAs_of_isScalarText (isScalarText_number negative size)

theorem exists_cons_stringChars (text : List Char) :
    ∃ quote more, stringChars text = quote :: more ∧ (quote = '"' ∨ quote = '\'') := by
  unfold stringChars
  cases formOf text with
  | basic => exact ⟨_, _, rfl, Or.inl rfl⟩
  | literal => exact ⟨_, _, rfl, Or.inr rfl⟩
  | basicLines => exact ⟨_, _, rfl, Or.inl rfl⟩
  | literalLines => exact ⟨_, _, rfl, Or.inr rfl⟩

theorem readsAs_string (text : String) : (Scalar.string text).ReadsAs edition (.string text) := by
  obtain ⟨quote, more, hchars, hquote⟩ := exists_cons_stringChars text.toList
  have hscalar : (Scalar.string text).chars = quote :: more := hchars
  refine ⟨?_, ?_, fun fuel depth rest => ?_⟩
  · rw [hscalar]
    rcases hquote with rfl | rfl <;> exact Text.stopsAt_cons (by decide) more
  · rw [hscalar]
    exact List.cons_ne_nil quote more
  · have hread : readString edition (stringChars text.toList ++ '\n' :: rest) =
        some (text.toList, '\n' :: rest) := readString_stringChars text.toList rest
    rw [hchars, List.cons_append] at hread
    rw [hscalar, List.cons_append, readValue.eq_def]
    rcases hquote with rfl | rfl
    · dsimp only
      rw [hread, Option.map_some, String.ofList_toList]
      rfl
    · dsimp only
      rw [hread, Option.map_some, String.ofList_toList]
      rfl

/-! ## Keys -/

/-- A key that can stand without quotes. -/
structure IsBareKey (key : String) : Prop where
  ne_empty : key.toList ≠ []
  all_chars : key.toList.all isKeyChar = true

instance (key : String) : Decidable (IsBareKey key) :=
  decidable_of_iff (key.toList ≠ [] ∧ key.toList.all isKeyChar = true)
    ⟨fun h => ⟨h.1, h.2⟩, fun h => ⟨h.ne_empty, h.all_chars⟩⟩

theorem IsBareKey.exists_cons {key : String} (h : IsBareKey key) :
    ∃ c more, key.toList = c :: more ∧ isKeyChar c = true := by
  obtain ⟨hne, hall⟩ := h
  cases hkey : key.toList with
  | nil => exact absurd hkey hne
  | cons c more =>
    rw [hkey, List.all_cons, Bool.and_eq_true] at hall
    exact ⟨c, more, rfl, hall.1⟩

theorem ne_of_isKeyChar {c d : Char} (hc : isKeyChar c = true) (hd : isKeyChar d = false) :
    c ≠ d := by
  rintro rfl
  rw [hc] at hd
  cases hd

theorem not_isBlank_of_isKeyChar {c : Char} (hc : isKeyChar c = true) : isBlank c = false := by
  unfold isBlank
  rw [beq_false_of_ne (ne_of_isKeyChar hc (by decide)),
    beq_false_of_ne (ne_of_isKeyChar hc (by decide))]
  rfl

theorem readKeyPart_bare {key : String} (hkey : IsBareKey key) {rest : List Char}
    (hrest : Text.StopsAt isKeyChar rest) :
    readKeyPart edition (skipBlanks (key.toList ++ rest)) = some (key, rest) := by
  obtain ⟨c, more, hchars, hc⟩ := hkey.exists_cons
  have hblanks : skipBlanks (key.toList ++ rest) = key.toList ++ rest := by
    rw [hchars, List.cons_append]
    exact Text.dropWhile_of_stopsAt (Text.stopsAt_cons (not_isBlank_of_isKeyChar hc) _)
  have hspan := Text.span_append hkey.all_chars hrest
  have hfull : key.toList.isEmpty = false := by
    rw [hchars]
    rfl
  rw [hblanks]
  rw [hchars, List.cons_append] at hspan ⊢
  unfold readKeyPart
  split
  · next heq =>
    injection heq with heq
    exact absurd heq (ne_of_isKeyChar hc (by decide))
  · next heq =>
    injection heq with heq
    exact absurd heq (ne_of_isKeyChar hc (by decide))
  · rw [hspan, ← hchars]
    dsimp only
    rw [hfull, if_neg Bool.false_ne_true, String.ofList_toList]

theorem toList_dotted_cons (part key : String) (path : List String) :
    (".".intercalate (part :: (path ++ [key]))).toList =
      part.toList ++ '.' :: (".".intercalate (path ++ [key])).toList := by
  rw [String.toList_intercalate, String.toList_intercalate, List.map_cons,
    List.intercalate_cons_of_ne_nil (by simp), List.append_assoc]
  rfl

/-- A dotted key goes on up to a character that can be neither in a key nor before a point. -/
theorem readKeyParts_dotted {path : List String} {key : String}
    (hpath : ∀ part ∈ path, IsBareKey part) (hkey : IsBareKey key) {rest : List Char}
    (hrest : Text.StopsAt isKeyChar rest) (hdot : ∀ more, skipBlanks rest ≠ '.' :: more)
    {fuel : Nat} (hfuel : path.length < fuel) :
    readKeyParts edition fuel ((".".intercalate (path ++ [key])).toList ++ rest) =
      some (path, key, skipBlanks rest) := by
  induction path generalizing fuel with
  | nil =>
    obtain ⟨fuel, rfl⟩ := Nat.exists_eq_succ_of_ne_zero (by omega : fuel ≠ 0)
    have hname : (".".intercalate ([] ++ [key])).toList = key.toList := rfl
    rw [hname, readKeyParts, readKeyPart_bare hkey hrest]
    dsimp only [Option.bind_eq_bind, Option.bind_some]
    split
    · next more heq => exact absurd heq (hdot more)
    · rfl
  | cons part path ih =>
    rw [List.length_cons] at hfuel
    obtain ⟨fuel, rfl⟩ := Nat.exists_eq_succ_of_ne_zero (by omega : fuel ≠ 0)
    have hrec := ih (fun p hp => hpath p (List.mem_cons_of_mem part hp)) (by omega : _ < fuel)
    rw [List.cons_append, toList_dotted_cons, List.append_assoc, List.cons_append, readKeyParts,
      readKeyPart_bare (hpath part List.mem_cons_self) (Text.stopsAt_cons (by decide) _)]
    have hpoint (more : List Char) : skipBlanks ('.' :: more) = '.' :: more := rfl
    dsimp only [Option.bind_eq_bind, Option.bind_some]
    rw [hpoint]
    split
    · next more heq =>
      cases heq
      rw [hrec]
      rfl
    · next hpart => exact absurd rfl (hpart _)

theorem length_lt_dotted {path : List String} {key : String}
    (hpath : ∀ part ∈ path, IsBareKey part) (hkey : IsBareKey key) :
    path.length < (".".intercalate (path ++ [key])).toList.length := by
  induction path with
  | nil => exact List.length_pos_of_ne_nil hkey.ne_empty
  | cons part path ih =>
    have hrec := ih fun p hp => hpath p (List.mem_cons_of_mem part hp)
    rw [List.cons_append, toList_dotted_cons, List.length_append, List.length_cons,
      List.length_cons]
    omega

theorem readKey_dotted {path : List String} {key : String}
    (hpath : ∀ part ∈ path, IsBareKey part) (hkey : IsBareKey key)
    (hparts : edition.allowsParts (path.length + 1) = true) {rest : List Char}
    (hrest : Text.StopsAt isKeyChar rest) (hdot : ∀ more, skipBlanks rest ≠ '.' :: more) :
    readKey edition ((".".intercalate (path ++ [key])).toList ++ rest) =
      some (path, key, skipBlanks rest) := by
  have hfuel : path.length < ((".".intercalate (path ++ [key])).toList ++ rest).length := by
    have hlength := length_lt_dotted hpath hkey
    rw [List.length_append]
    omega
  unfold readKey
  rw [readKeyParts_dotted hpath hkey hrest hdot hfuel, Option.filter_some, if_pos hparts]

/-! ## Lines -/

variable {pair : String × Scalar} {value : Outline} {header : List String}
  {members added : Members} {rest : List Char} {fuel : Nat}

theorem readLines_feed :
    readLines edition (fuel + 1) header members ('\n' :: rest) =
      readLines edition fuel header members rest :=
  rfl

theorem pairLine_append (pair : String × Scalar) (rest : List Char) :
    pairLine pair ++ rest =
      pair.1.toList ++ ' ' :: '=' :: ' ' :: (pair.2.chars ++ '\n' :: rest) := by
  unfold pairLine
  simp only [List.append_assoc]
  rfl

theorem readKey_pairLine (hkey : IsBareKey pair.1) (hparts : edition.allowsParts 1 = true) :
    readKey edition (pairLine pair ++ rest) =
      some ([], pair.1, '=' :: ' ' :: (pair.2.chars ++ '\n' :: rest)) := by
  rw [pairLine_append]
  exact readKey_dotted (List.forall_mem_nil _) hkey hparts (Text.stopsAt_cons (by decide) _)
    (fun more heq => by cases heq)

theorem Scalar.ReadsAs.skipBlanks {scalar : Scalar} (hvalue : scalar.ReadsAs edition value) :
    Toml.skipBlanks (' ' :: (scalar.chars ++ '\n' :: rest)) = scalar.chars ++ '\n' :: rest := by
  have hstarts := hvalue.starts
  cases hscalar : scalar.chars with
  | nil => exact absurd hscalar hvalue.ne_nil
  | cons c chars =>
    rw [hscalar] at hstarts
    exact Text.dropWhile_of_stopsAt (Text.stopsAt_cons (hstarts c rfl) _)

/-- The line of a pair starts with its key, and so is neither blank nor a comment or a header. -/
theorem readLines_pairLine (hkey : IsBareKey pair.1) (hvalue : pair.2.ReadsAs edition value)
    (hparts : edition.allowsParts 1 = true)
    (hadded : Members.change (Members.insert pair.1 value []) header members = some added) :
    readLines edition (fuel + 1) header members (pairLine pair ++ rest) =
      readLines edition fuel header added rest := by
  obtain ⟨c, more, hchars, hc⟩ := hkey.exists_cons
  have hcons : pairLine pair ++ rest =
      c :: (more ++ ' ' :: '=' :: ' ' :: (pair.2.chars ++ '\n' :: rest)) := by
    rw [pairLine_append, hchars, List.cons_append]
  have hkept : skipBlanks (pairLine pair ++ rest) = pairLine pair ++ rest := by
    rw [hcons]
    exact Text.dropWhile_of_stopsAt (Text.stopsAt_cons (not_isBlank_of_isKeyChar hc) _)
  have hhash : c ≠ '#' := ne_of_isKeyChar hc (by decide)
  have hnewline : (afterNewline? (pairLine pair ++ rest)).isSome = false := by
    rw [hcons, afterNewline?_eq_none (ne_of_isKeyChar hc (by decide))
      (ne_of_isKeyChar hc (by decide))]
    rfl
  have hread : readKey edition (pairLine pair ++ rest) = _ := readKey_pairLine hkey hparts
  have hscalar : readValue edition (2 * (' ' :: (pair.2.chars ++ '\n' :: rest)).length + 2)
      edition.depth (pair.2.chars ++ '\n' :: rest) = some (value, '\n' :: rest) :=
    hvalue.reads _ edition.depth rest
  rw [readLines, hkept]
  rw [hcons] at hread hnewline ⊢
  split
  · next heq => cases heq
  · next heq =>
    injection heq with heq
    exact absurd heq (ne_of_isKeyChar hc (by decide))
  · next heq =>
    injection heq with hhead htail
    rw [← hhead, ← htail, hnewline, hread, decide_eq_false hhash, Bool.or_self,
      if_neg Bool.false_ne_true]
    split
    · next heq =>
      cases heq
      rw [hvalue.skipBlanks, hscalar]
      dsimp only
      rw [hadded]
      rfl
    · next hpair => exact absurd rfl (hpair _ _ _)

theorem readHeader_dotted {path : List String} {key : String}
    (hpath : ∀ part ∈ path, IsBareKey part) (hkey : IsBareKey key)
    (hparts : edition.allowsParts (path.length + 1) = true) :
    readHeader edition ((".".intercalate (path ++ [key])).toList ++ ']' :: '\n' :: rest) =
      some (false, path, key, rest) := by
  have hread : readKey edition ((".".intercalate (path ++ [key])).toList ++ ']' :: '\n' :: rest) =
      some (path, key, ']' :: '\n' :: rest) :=
    readKey_dotted hpath hkey hparts (Text.stopsAt_cons (by decide) _)
      (fun more heq => by cases heq)
  have hstarts : ∀ more, (".".intercalate (path ++ [key])).toList ++ ']' :: '\n' :: rest ≠
      '[' :: more := by
    intro more heq
    cases path with
    | nil =>
      obtain ⟨c, tail, hchars, hc⟩ := hkey.exists_cons
      have hname : (".".intercalate ([] ++ [key])).toList = key.toList := rfl
      rw [hname, hchars] at heq
      injection heq with heq
      exact ne_of_isKeyChar hc (by decide) heq
    | cons part path =>
      obtain ⟨c, tail, hchars, hc⟩ := (hpath part List.mem_cons_self).exists_cons
      rw [List.cons_append, toList_dotted_cons, hchars] at heq
      injection heq with heq
      exact ne_of_isKeyChar hc (by decide) heq
  unfold readHeader
  split
  · next more heq => exact absurd heq (hstarts more)
  · rw [hread]
    rfl

theorem readLines_header {path : List String} {key : String}
    (hpath : ∀ part ∈ path, IsBareKey part) (hkey : IsBareKey key)
    (hparts : edition.allowsParts (path.length + 1) = true)
    (hopened : Members.descend (Members.openTable key) path members = some added) :
    readLines edition (fuel + 1) header members
        ('[' :: ((".".intercalate (path ++ [key])).toList ++ ']' :: '\n' :: rest)) =
      readLines edition fuel (path ++ [key]) added rest := by
  have hbracket (more : List Char) : skipBlanks ('[' :: more) = '[' :: more := rfl
  rw [readLines, hbracket]
  split
  · next heq => cases heq
  · next heq =>
    cases heq
    rw [readHeader_dotted hpath hkey hparts]
    dsimp only
    rw [if_neg Bool.false_ne_true, hopened]
  · next hline heq =>
    cases heq
    exact absurd rfl hline

/-! ## Pairs and sections -/

/-- A pair of a document and the key and value that it is read as. -/
structure PairReads (edition : Edition) (pair : String × Scalar) (read : String × Outline) :
    Prop where
  key_eq : pair.1 = read.1
  isBareKey : IsBareKey pair.1
  value : pair.2.ReadsAs edition read.2

theorem pairReads_of {key : String} {scalar : Scalar} (hkey : IsBareKey key)
    (hvalue : scalar.ReadsAs edition value) : PairReads edition (key, scalar) (key, value) :=
  ⟨rfl, hkey, hvalue⟩

/-- Sets the values of pairs in turn below a header. -/
def addPairs (header : List String) : List (String × Outline) → Members → Option Members
  | [], members => some members
  | (key, value) :: rest, members =>
    (Members.change (Members.insert key value []) header members).bind (addPairs header rest)

/-- Opens the tables of sections in turn and sets the values of their pairs.  A section is the path
of its header, split into the leading parts and the last one, with its pairs. -/
def addSections :
    List (List String × String × List (String × Outline)) → Members → Option Members
  | [], members => some members
  | (path, key, pairs) :: rest, members =>
    ((Members.descend (Members.openTable key) path members).bind
      (addPairs (path ++ [key]) pairs)).bind (addSections rest)

/-- A section of a document and what it is read as. -/
structure SectionReads (edition : Edition) (s : Section)
    (read : List String × String × List (String × Outline)) : Prop where
  path_eq : s.path = read.1 ++ [read.2.1]
  areBareKeys : ∀ part ∈ read.1, IsBareKey part
  isBareKey : IsBareKey read.2.1
  allowsParts : edition.allowsParts (read.1.length + 1) = true
  pairs : List.Forall₂ (PairReads edition) s.pairs read.2.2

theorem sectionReads_of {s : Section} {path : List String} {key : String}
    {reads : List (String × Outline)} (heq : s.path = path ++ [key])
    (hkeys : ∀ part ∈ path ++ [key], IsBareKey part)
    (hparts : edition.allowsParts (path.length + 1) = true)
    (hpairs : List.Forall₂ (PairReads edition) s.pairs reads) :
    SectionReads edition s (path, key, reads) := by
  refine ⟨heq, fun part hpart => hkeys part (List.mem_append_left _ hpart), ?_, hparts, hpairs⟩
  exact hkeys key (List.mem_append_right _ (List.mem_singleton_self key))

theorem readLines_pairs {pairs : List (String × Scalar)} {reads : List (String × Outline)}
    (hpairs : List.Forall₂ (PairReads edition) pairs reads)
    (hparts : edition.allowsParts 1 = true) (hadded : addPairs header reads members = some added) :
    readLines edition (fuel + pairs.length) header members (pairs.flatMap pairLine ++ rest) =
      readLines edition fuel header added rest := by
  induction hpairs generalizing members with
  | nil =>
    injection hadded with hadded
    rw [hadded]
    rfl
  | @cons pair read pairs reads hpair hpairs ih =>
    obtain ⟨key, value⟩ := read
    obtain ⟨hkey, hbare, hvalue⟩ := hpair
    rw [addPairs, Option.bind_eq_some_iff] at hadded
    obtain ⟨next, hnext, hadded⟩ := hadded
    rw [List.flatMap_cons, List.append_assoc, List.length_cons, ← Nat.add_assoc]
    have hkey : pair.1 = key := hkey
    rw [← hkey] at hnext
    rw [readLines_pairLine hbare hvalue hparts hnext, ih hadded]

theorem readLines_section {s : Section} {read : List String × String × List (String × Outline)}
    (hs : SectionReads edition s read) (hparts : edition.allowsParts 1 = true)
    (hadded : ((Members.descend (Members.openTable read.2.1) read.1 members).bind
      (addPairs (read.1 ++ [read.2.1]) read.2.2)) = some added) :
    readLines edition (fuel + s.pairs.length + 2) header members (s.chars ++ rest) =
      readLines edition fuel s.path added rest := by
  obtain ⟨next, hnext, hadded⟩ := Option.bind_eq_some_iff.mp hadded
  have hchars : s.chars ++ rest = '\n' :: '[' :: ((".".intercalate s.path).toList ++
      ']' :: '\n' :: (s.pairs.flatMap pairLine ++ rest)) := by
    unfold Section.chars
    simp only [List.append_assoc]
    rfl
  rw [hchars, readLines_feed, hs.path_eq,
    readLines_header hs.areBareKeys hs.isBareKey hs.allowsParts hnext,
    readLines_pairs hs.pairs hparts hadded]

/-- The count of lines that sections take, without the empty ones. -/
def lineCount (sections : List Section) : Nat :=
  (sections.map fun s => s.pairs.length + 2).sum

theorem readLines_sections {sections : List Section}
    {reads : List (List String × String × List (String × Outline))}
    (hsections : List.Forall₂ (SectionReads edition) sections reads)
    (hparts : edition.allowsParts 1 = true) (hadded : addSections reads members = some added) :
    readLines edition (fuel + 1 + lineCount sections) header members
      (sections.flatMap Section.chars) = some added := by
  induction hsections generalizing members header with
  | nil => exact hadded
  | @cons s read sections reads hs hsections ih =>
    obtain ⟨path, key, pairs⟩ := read
    rw [addSections, Option.bind_eq_some_iff] at hadded
    obtain ⟨next, hnext, hadded⟩ := hadded
    have hcount : fuel + 1 + lineCount (s :: sections) =
        fuel + 1 + lineCount sections + s.pairs.length + 2 := by
      unfold lineCount
      rw [List.map_cons, List.sum_cons]
      omega
    rw [hcount, List.flatMap_cons, readLines_section hs hparts hnext, ih hadded]

theorem length_pairs_le (pairs : List (String × Scalar)) :
    pairs.length ≤ (pairs.flatMap pairLine).length := by
  induction pairs with
  | nil => exact Nat.zero_le _
  | cons pair pairs ih =>
    have hline : 0 < (pairLine pair).length := by
      unfold pairLine
      rw [List.length_append]
      exact Nat.lt_add_left _ Nat.zero_lt_one
    rw [List.flatMap_cons, List.length_append, List.length_cons]
    omega

theorem Section.length_chars (s : Section) : s.pairs.length + 2 ≤ s.chars.length := by
  have hpairs := length_pairs_le s.pairs
  have hopen : "\n[".toList.length = 2 := rfl
  unfold Section.chars
  simp only [List.length_append, hopen]
  omega

theorem lineCount_le (sections : List Section) :
    lineCount sections ≤ (sections.flatMap Section.chars).length := by
  induction sections with
  | nil => exact Nat.zero_le _
  | cons s sections ih =>
    have hchars := s.length_chars
    have hcount : lineCount (s :: sections) = s.pairs.length + 2 + lineCount sections := by
      unfold lineCount
      rw [List.map_cons, List.sum_cons]
    rw [hcount, List.flatMap_cons, List.length_append]
    omega

theorem not_mark_of_isKeyChar {c : Char} (h : isKeyChar c = true) : c.toNat ≠ 0xfeff := by
  intro hmark
  have hc : c = Char.ofNat 0xfeff := by rw [← hmark, Char.ofNat_toNat]
  rw [hc] at h
  exact absurd h (by decide)

theorem dropMark_of_head {text : List Char} (h : ∀ c, text.head? = some c → c.toNat ≠ 0xfeff) :
    dropMark text = text := by
  cases text with
  | nil => rfl
  | cons c text =>
    show (if c.toNat = 0xfeff then text else c :: text) = _
    rw [if_neg (h c rfl)]

/-- No document starts with a byte order mark. -/
theorem dropMark_document {pairs : List (String × Scalar)} {reads : List (String × Outline)}
    (hpairs : List.Forall₂ (PairReads edition) pairs reads) (sections : List Section) :
    dropMark (pairs.flatMap pairLine ++ sections.flatMap Section.chars) =
      pairs.flatMap pairLine ++ sections.flatMap Section.chars := by
  refine dropMark_of_head fun c hc => ?_
  cases hpairs with
  | nil =>
    cases sections with
    | nil => cases hc
    | cons s sections =>
      cases hc
      decide
  | @cons pair read pairs reads hpair hpairs =>
    obtain ⟨d, more, hchars, hd⟩ := hpair.isBareKey.exists_cons
    rw [List.flatMap_cons, pairLine, hchars] at hc
    cases hc
    exact not_mark_of_isKeyChar hd

/-- A printed document is read as what its lines do to an empty one. -/
theorem outline?_documentText {pairs : List (String × Scalar)} {sections : List Section}
    {pairReads : List (String × Outline)}
    {sectionReads : List (List String × String × List (String × Outline))}
    (hpairs : List.Forall₂ (PairReads edition) pairs pairReads)
    (hsections : List.Forall₂ (SectionReads edition) sections sectionReads)
    (hparts : edition.allowsParts 1 = true)
    (hadded : (addPairs [] pairReads []).bind (addSections sectionReads) = some added) :
    outline? edition (documentText pairs sections) =
      some (.table (Members.outlines added) true) := by
  obtain ⟨next, hnext, hadded⟩ := Option.bind_eq_some_iff.mp hadded
  have hpairLines := length_pairs_le pairs
  have hsectionLines := lineCount_le sections
  obtain ⟨fuel, hfuel⟩ : ∃ fuel, (pairs.flatMap pairLine ++
      sections.flatMap Section.chars).length + 1 =
        fuel + 1 + lineCount sections + pairs.length := by
    rw [List.length_append]
    exact ⟨(pairs.flatMap pairLine).length + (sections.flatMap Section.chars).length -
      lineCount sections - pairs.length, by omega⟩
  unfold outline? documentText
  rw [String.toList_ofList, dropMark_document hpairs]
  dsimp only
  rw [hfuel, readLines_pairs hpairs hparts hnext, readLines_sections hsections hparts hadded]
  rfl

end Toml
end PlaneReport
