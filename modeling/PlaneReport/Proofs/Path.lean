import Mathlib.Data.List.Infix
import PlaneReport.Path

/-!
# The paths above a path

A text cut at a separator gives back the pieces that it was joined from, so the components of a path
that is put together are known.  The theorem this file exists for is `components_ancestors`: an
absolute path and the paths above it have the beginnings of its components, the longest first, down
to the root alone.
-/

namespace PlaneReport

namespace Text

variable {separator : Char} {piece rest text : List Char}

theorem splitAt_ne_nil (separator : Char) (text : List Char) : splitAt separator text ≠ [] := by
  induction text with
  | nil => simp [splitAt]
  | cons c text ih =>
    rw [splitAt]
    split
    · simp
    · split <;> simp

theorem splitAt_of_not_mem (h : separator ∉ piece) : splitAt separator piece = [piece] := by
  induction piece with
  | nil => rfl
  | cons c piece ih =>
    rw [List.mem_cons, not_or] at h
    simp [splitAt, Ne.symm h.1, ih h.2]

theorem splitAt_append (separator : Char) (before rest : List Char) :
    splitAt separator (before ++ separator :: rest) =
      splitAt separator before ++ splitAt separator rest := by
  induction before with
  | nil => simp [splitAt]
  | cons c before ih =>
    rw [List.cons_append, splitAt, splitAt]
    by_cases hc : c = separator
    · simp [hc, ih]
    · obtain ⟨piece, pieces, hpieces⟩ :=
        List.exists_cons_of_ne_nil (splitAt_ne_nil separator before)
      simp [hc, ih, hpieces]

theorem not_mem_of_mem_splitAt (h : piece ∈ splitAt separator text) : separator ∉ piece := by
  induction text generalizing piece with
  | nil =>
    rw [splitAt, List.mem_singleton] at h
    simp [h]
  | cons c text ih =>
    rw [splitAt] at h
    split at h
    · rcases List.mem_cons.mp h with rfl | h
      · exact List.not_mem_nil
      · exact ih h
    · next hc =>
      generalize splitAt separator text = pieces at ih h
      cases pieces with
      | nil =>
        rw [List.mem_singleton] at h
        simp [h, Ne.symm hc]
      | cons first pieces =>
        rcases List.mem_cons.mp h with rfl | h
        · simp [Ne.symm hc, ih List.mem_cons_self]
        · exact ih (List.mem_cons_of_mem _ h)

end Text

namespace Path

variable {path base directory piece : String} {names reversed : List String}

/-- A piece of a path has no slash in it. -/
def IsPiece (piece : String) : Prop :=
  '/' ∉ piece.toList

instance : DecidablePred IsPiece := fun piece =>
  inferInstanceAs (Decidable ('/' ∉ piece.toList))

theorem isPiece_of_mem_pieces (h : piece ∈ pieces path) : IsPiece piece := by
  obtain ⟨text, htext, rfl⟩ := List.mem_map.mp h
  simpa [IsPiece] using Text.not_mem_of_mem_splitAt htext

theorem pieces_of_isPiece (h : IsPiece piece) : pieces piece = [piece] := by
  simp [pieces, Text.splitAt_of_not_mem h]

theorem pieces_append (before rest : String) :
    pieces (before ++ "/" ++ rest) = pieces before ++ pieces rest := by
  simp [pieces, Text.splitAt_append]

/-- Cutting undoes joining. -/
theorem pieces_intercalate (hne : names ≠ []) (h : ∀ name ∈ names, IsPiece name) :
    pieces ("/".intercalate names) = names := by
  induction names with
  | nil => exact absurd rfl hne
  | cons name rest ih =>
    have hname : IsPiece name := h name List.mem_cons_self
    cases rest with
    | nil => simpa using pieces_of_isPiece hname
    | cons next rest =>
      rw [String.intercalate_cons_cons, pieces_append, pieces_of_isPiece hname,
        ih (List.cons_ne_nil next rest) fun other hother => h other (List.mem_cons_of_mem name hother)]
      rfl

theorem mem_intercalate {c : Char} (h : c ∈ ("/".intercalate names).toList) :
    c = '/' ∨ ∃ name ∈ names, c ∈ name.toList := by
  induction names with
  | nil => cases h
  | cons name rest ih =>
    cases rest with
    | nil => exact .inr ⟨name, List.mem_cons_self, by simpa using h⟩
    | cons next rest =>
      rw [String.intercalate_cons_cons, String.toList_append, String.toList_append, List.mem_append,
        List.mem_append] at h
      obtain (h | h) | h := h
      · exact .inr ⟨name, List.mem_cons_self, h⟩
      · exact .inl (by simpa using h)
      · obtain h | ⟨other, hother, h⟩ := ih h
        · exact .inl h
        · exact .inr ⟨other, List.mem_cons_of_mem name hother, h⟩

/-- A joined path ends as its last name does. -/
theorem getLast?_intercalate {name : String} (hname : name ≠ "") (names : List String) :
    ("/".intercalate (names ++ [name])).toList.getLast? = name.toList.getLast? := by
  have hlast : name.toList.getLast? ≠ none := by simpa using hname
  obtain ⟨c, hc⟩ := Option.ne_none_iff_exists'.mp hlast
  induction names with
  | nil => simp
  | cons first names ih =>
    obtain ⟨next, rest, hnext⟩ := List.exists_cons_of_ne_nil (List.concat_ne_nil name names)
    rw [hnext] at ih
    rw [List.cons_append, hnext, String.intercalate_cons_cons, String.toList_append,
      List.getLast?_append, ih, hc]
    rfl

/-- A path in a directory that is not the root is joined to its names. -/
theorem join_intercalate {name path : String} (hname : name ≠ "") (hpiece : IsPiece name)
    (names : List String) (hpath : isAbsolute path = false) :
    join ("/" ++ "/".intercalate (names ++ [name])) path =
      "/" ++ "/".intercalate (names ++ [name]) ++ "/" ++ path := by
  have hlast : ("/" ++ "/".intercalate (names ++ [name])).toList.getLast? ≠ some '/' := by
    rw [String.toList_append, List.getLast?_append, getLast?_intercalate hname]
    intro h
    cases hc : name.toList.getLast? with
    | none => exact hname (by simpa using hc)
    | some c =>
      rw [hc] at h
      obtain rfl : c = '/' := Option.some.inj h
      exact hpiece (List.mem_of_getLast? hc)
  rw [join, if_neg (by simp [hpath]), if_neg fun h => hlast (eq_of_beq h)]

/-- An absolute path starts with nothing before its first slash. -/
theorem pieces_slash (rest : String) : pieces ("/" ++ rest) = "" :: pieces rest := by
  have hstart : pieces "" = [""] := pieces_of_isPiece (by decide)
  simpa [hstart] using pieces_append "" rest

theorem exists_slash (h : isAbsolute path = true) : ∃ rest, path = "/" ++ rest := by
  unfold isAbsolute at h
  rw [beq_iff_eq, List.head?_eq_some_iff] at h
  obtain ⟨rest, hrest⟩ := h
  refine ⟨String.ofList rest, String.toList_inj.mp ?_⟩
  simp [hrest]

theorem isAbsolute_slash (rest : String) : isAbsolute ("/" ++ rest) = true := by
  simp [isAbsolute]

theorem isAbsolute_of_mem_above {reversed : List String} (h : path ∈ above true reversed) :
    isAbsolute path = true := by
  fun_induction above true reversed with
  | case1 => cases h
  | case2 piece before hidle ih => exact ih h
  | case3 piece before hidle ih =>
    rcases List.mem_cons.mp h with rfl | h
    · exact isAbsolute_slash _
    · exact ih h

/-- All paths above an absolute path are absolute. -/
theorem isAbsolute_of_mem_ancestors (habsolute : isAbsolute path = true)
    (h : directory ∈ ancestors path) : isAbsolute directory = true := by
  rw [ancestors, habsolute] at h
  rcases List.mem_cons.mp h with rfl | h
  · exact habsolute
  · exact isAbsolute_of_mem_above h

theorem ne_empty_of_isAbsolute (h : isAbsolute path = true) : path ≠ "" := by
  rintro rfl
  exact absurd h (by decide)

theorem isAbsolute_append (h : isAbsolute path = true) (more : String) :
    isAbsolute (path ++ more) = true := by
  obtain ⟨rest, rfl⟩ := exists_slash h
  rw [String.append_assoc]
  exact isAbsolute_slash _

theorem isAbsolute_join (h : isAbsolute base = true) (path : String) :
    isAbsolute (join base path) = true := by
  unfold join
  split
  · next hself =>
    rw [Bool.or_eq_true] at hself
    obtain hself | hempty := hself
    · exact hself
    · exact absurd (by simpa using hempty) (ne_empty_of_isAbsolute h)
  · split
    · exact isAbsolute_append h _
    · exact isAbsolute_append (isAbsolute_append h _) _

/-! ## Components -/

/-- A piece that is a component: it leads on. -/
def leadsOn (piece : String) : Bool :=
  piece != "" && piece != "."

theorem components_eq (path : String) : components path = "/" :: (pieces path).filter leadsOn := rfl

theorem isIdle_cons (piece : String) (before : List String) :
    isIdle true (piece :: before) = !leadsOn piece := by
  simp [isIdle, leadsOn, bne]

theorem components_ofReversed (h : ∀ name ∈ reversed, IsPiece name) :
    components (ofReversed true reversed) = "/" :: reversed.reverse.filter leadsOn := by
  have hstart : leadsOn "" = false := by decide
  rw [components_eq, ofReversed, if_pos rfl, pieces_slash, List.filter_cons_of_neg (by simp [hstart])]
  cases reversed with
  | nil => decide
  | cons name rest =>
    rw [pieces_intercalate (by simp) fun other hother => h other (List.mem_reverse.mp hother)]

/-- A component more is a beginning more. -/
theorem tail_inits_append (names : List String) (name : String) :
    (("/" :: names) ++ [name]).inits.tail.reverse =
      (("/" :: names) ++ [name]) :: ("/" :: names).inits.tail.reverse := by
  simp [List.inits_append]

/-- The paths above one that ends in a piece. -/
theorem components_above (piece : String) (h : ∀ name ∈ reversed, IsPiece name) :
    (above true (piece :: reversed)).map components =
      ("/" :: reversed.reverse.filter leadsOn).inits.tail.reverse := by
  induction reversed generalizing piece with
  | nil =>
    show [components (ofReversed true [])] = _
    rw [components_ofReversed h]
    rfl
  | cons name before ih =>
    have hbefore := ih name fun other hother => h other (List.mem_cons_of_mem name hother)
    rw [above, isIdle_cons]
    cases hname : leadsOn name with
    | false => simpa [hname] using hbefore
    | true =>
      have hlast : (name :: before).reverse.filter leadsOn =
          before.reverse.filter leadsOn ++ [name] := by
        simp [hname]
      rw [if_neg (by simp), List.map_cons, hbefore, components_ofReversed h, hlast,
        ← List.cons_append, tail_inits_append]

theorem filter_trimmed (reversed : List String) :
    (trimmed true reversed).filter leadsOn = reversed.filter leadsOn := by
  induction reversed with
  | nil => rfl
  | cons piece before ih =>
    rw [trimmed, isIdle_cons]
    cases hpiece : leadsOn piece with
    | false => simpa [hpiece] using ih
    | true => simp [hpiece]

theorem trimmed_subset (reversed : List String) : trimmed true reversed ⊆ reversed := by
  induction reversed with
  | nil => exact List.Subset.refl _
  | cons piece before ih =>
    rw [trimmed]
    split
    · exact List.subset_cons_of_subset piece ih
    · exact List.Subset.refl _

theorem trimmed_cases (reversed : List String) : trimmed true reversed = [] ∨
    ∃ piece before, trimmed true reversed = piece :: before ∧ leadsOn piece = true := by
  induction reversed with
  | nil => exact .inl rfl
  | cons piece before ih =>
    rw [trimmed, isIdle_cons]
    cases hpiece : leadsOn piece with
    | false => simpa using ih
    | true => exact .inr ⟨piece, before, by simp, hpiece⟩

/-- An absolute path and the paths above it have the beginnings of its components. -/
theorem components_ancestors (h : isAbsolute path = true) :
    (ancestors path).map components = (components path).inits.tail.reverse := by
  obtain ⟨rest, rfl⟩ := exists_slash h
  have hancestors : ancestors ("/" ++ rest) =
      ("/" ++ rest) :: above true (trimmed true (pieces rest).reverse) := by
    simp only [ancestors, h, pieces_slash, if_true, List.drop_one, List.tail_cons]
  have hcomponents : components ("/" ++ rest) =
      "/" :: (trimmed true (pieces rest).reverse).reverse.filter leadsOn := by
    rw [components_eq, pieces_slash, List.filter_reverse, filter_trimmed, ← List.filter_reverse,
      List.reverse_reverse]
    rfl
  have hclean : ∀ name ∈ trimmed true (pieces rest).reverse, IsPiece name := by
    intro name hname
    exact isPiece_of_mem_pieces (List.mem_reverse.mp (trimmed_subset _ hname))
  rw [hancestors, List.map_cons, hcomponents]
  rcases trimmed_cases (pieces rest).reverse with hnone | ⟨piece, before, hsome, hpiece⟩
  · rw [hnone]
    rfl
  · rw [hsome] at hclean ⊢
    have hlast : (piece :: before).reverse.filter leadsOn =
        before.reverse.filter leadsOn ++ [piece] := by
      simp [hpiece]
    rw [components_above piece fun other hother => hclean other (List.mem_cons_of_mem piece hother),
      hlast, ← List.cons_append, tail_inits_append]

end Path
end PlaneReport
