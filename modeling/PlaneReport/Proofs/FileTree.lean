import PlaneReport.Workspace.Save
import PlaneReport.Proofs.Path
import PlaneReport.Proofs.Result

/-!
# Files that were written

A file that was written under a path is found under that path.  Putting a file where no directory
and no link is leaves all directories and links of the tree in place, so the path is walked as
before and leads to the same location.
-/

namespace PlaneReport

namespace Node

variable {root root' node new : Node} {location here : Location} {name : String}

/-! ## Getting and putting -/

@[simp]
theorem get?_append (root : Node) (location rest : Location) :
    root.get? (location ++ rest) = (root.get? location).bind (get? rest) := by
  induction location generalizing root with
  | nil => rfl
  | cons name location ih =>
    cases root with
    | file content => rfl
    | link target => rfl
    | directory entries =>
      rw [List.cons_append, get?, get?]
      cases entries.lookup name with
      | none => rfl
      | some node => exact ih node

/-- What is below a member of a directory. -/
theorem exists_member {entries : List (String × Node)} {first : String} {rest : Location}
    (h : (Node.directory entries).get? (first :: rest) = some node) :
    ∃ member, entries.lookup first = some member ∧ member.get? rest = some node := by
  rw [get?] at h
  cases hlookup : entries.lookup first with
  | none =>
    rw [hlookup] at h
    cases h
  | some member =>
    rw [hlookup] at h
    exact ⟨member, rfl, h⟩

@[simp]
theorem get?_assign (entries : List (String × Node)) (name first : String) (new : Node)
    (rest : Location) :
    (Node.directory (Entries.assign name new entries)).get? (first :: rest) =
      if first = name then new.get? rest else (Node.directory entries).get? (first :: rest) := by
  by_cases hfirst : first = name <;> simp [get?, hfirst]

/-- A directory is at the location. -/
def HasDirectory (root : Node) (location : Location) : Prop :=
  ∃ entries, root.get? location = some (.directory entries)

theorem hasDirectory_of_append {rest : Location} (h : root.HasDirectory (location ++ rest)) :
    root.HasDirectory location := by
  obtain ⟨entries, hget⟩ := h
  rw [get?_append] at hget
  obtain ⟨node, hnode, hrest⟩ := Option.bind_eq_some_iff.mp hget
  cases node with
  | directory inner => exact ⟨inner, hnode⟩
  | file content =>
    cases rest with
    | nil => exact ⟨entries, hnode.trans hrest⟩
    | cons name rest => cases hrest
  | link target =>
    cases rest with
    | nil => exact ⟨entries, hnode.trans hrest⟩
    | cons name rest => cases hrest

/-- A tree with a directory anywhere has one at its root. -/
theorem hasDirectory_root (h : root.HasDirectory location) : root.HasDirectory [] :=
  hasDirectory_of_append ((List.nil_append location).symm ▸ h)

theorem hasDirectory_dropLast (h : root.HasDirectory location) :
    root.HasDirectory location.dropLast := by
  cases hlocation : location with
  | nil => rwa [hlocation] at h
  | cons name rest =>
    rw [hlocation, ← List.dropLast_concat_getLast (List.cons_ne_nil name rest)] at h
    exact hasDirectory_of_append h

theorem get?_put_self (new : Node) (name : String) (h : root.HasDirectory location) :
    (put new (location ++ [name]) root).get? (location ++ [name]) = some new := by
  obtain ⟨entries, hget⟩ := h
  induction location generalizing root with
  | nil =>
    cases hget
    rw [List.nil_append, put]
    cases entries.lookup name with
    | none => simp [get?]
    | some node => simp [get?, put]
  | cons first rest ih =>
    cases root with
    | file content => cases hget
    | link target => cases hget
    | directory members =>
      obtain ⟨member, hmember, hrest⟩ := exists_member hget
      rw [List.cons_append, put, hmember]
      dsimp only
      rw [get?_assign, if_pos rfl]
      exact ih hrest

/-- What is put somewhere is found there and what is in it below.  Directories on the way stay
directories, and everything else stays what it is. -/
theorem get?_put_cases (new : Node) (location other : Location) (root : Node) :
    (put new location root).get? other = root.get? other ∨
      (∃ below, other = location ++ below ∧
        (put new location root).get? other = new.get? below) ∨
      ∃ entries entries', root.get? other = some (.directory entries) ∧
        (put new location root).get? other = some (.directory entries') := by
  induction location generalizing root other with
  | nil => exact .inr (.inl ⟨other, rfl, rfl⟩)
  | cons first rest ih =>
    cases root with
    | file content => exact .inl rfl
    | link target => exact .inl rfl
    | directory entries =>
      rw [put]
      cases hlookup : entries.lookup first with
      | some old =>
        dsimp only
        cases other with
        | nil => exact .inr (.inr ⟨entries, _, rfl, rfl⟩)
        | cons name below =>
          rw [get?_assign]
          split
          · next hname =>
            subst hname
            rw [get?, hlookup]
            refine (ih below old).imp_right (Or.imp_left ?_)
            rintro ⟨inner, rfl, hinner⟩
            exact ⟨inner, rfl, hinner⟩
          · exact .inl rfl
      | none =>
        dsimp only
        split
        · next hrest =>
          subst hrest
          cases other with
          | nil => exact .inr (.inr ⟨entries, _, rfl, rfl⟩)
          | cons name below =>
            rw [get?_assign]
            split
            · next hname =>
              subst hname
              exact .inr (.inl ⟨below, rfl, rfl⟩)
            · exact .inl rfl
        · exact .inl rfl

/-- A directory that is put somewhere in one leaves a directory. -/
theorem hasDirectory_put {entries : List (String × Node)} (h : root.HasDirectory []) :
    (put (.directory entries) location root).HasDirectory [] := by
  obtain hsame | ⟨below, hbelow, hnew⟩ | ⟨-, entries', -, hdirectory⟩ :=
    get?_put_cases (.directory entries) location [] root
  · exact h.imp fun members hget => hsame.trans hget
  · rw [(List.append_eq_nil_iff.mp hbelow.symm).2] at hnew
    exact ⟨entries, hnew⟩
  · exact ⟨entries', hdirectory⟩

/-- Directories and links stay what they are, though a directory may get entries. -/
structure Keeps (root root' : Node) : Prop where
  directories (location : Location) : root.HasDirectory location → root'.HasDirectory location
  links (location : Location) (target : String) :
    root.get? location = some (.link target) → root'.get? location = some (.link target)

theorem Keeps.refl (root : Node) : root.Keeps root := ⟨fun _ h => h, fun _ _ h => h⟩

/-- Neither a directory nor a link is at the location. -/
def IsFree (root : Node) (location : Location) : Prop :=
  ∀ node, root.get? location = some node → ∃ content, node = .file content

/-- Nothing is below a free location, and a file at most is at it. -/
theorem IsFree.of_get?_append {below : Location} (h : root.IsFree location)
    (hnode : root.get? (location ++ below) = some node) :
    below = [] ∧ ∃ content, node = .file content := by
  rw [get?_append] at hnode
  obtain ⟨top, htop, hbelow⟩ := Option.bind_eq_some_iff.mp hnode
  obtain ⟨content, rfl⟩ := h top htop
  cases below with
  | nil =>
    cases hbelow
    exact ⟨rfl, content, rfl⟩
  | cons name rest => cases hbelow

theorem keeps_put (h : root.IsFree location) : root.Keeps (put new location root) := by
  refine ⟨fun other hother => ?_, fun other target hget => ?_⟩
  · obtain hsame | ⟨below, rfl, -⟩ | ⟨-, entries', -, hdirectory⟩ :=
      get?_put_cases new location other root
    · exact hother.imp fun entries hget => hsame.trans hget
    · obtain ⟨entries, hget⟩ := hother
      obtain ⟨-, content, hfile⟩ := h.of_get?_append hget
      cases hfile
    · exact ⟨entries', hdirectory⟩
  · obtain hsame | ⟨below, rfl, -⟩ | ⟨entries, -, hdirectory, -⟩ :=
      get?_put_cases new location other root
    · exact hsame.trans hget
    · obtain ⟨-, content, hfile⟩ := h.of_get?_append hget
      cases hfile
    · cases hdirectory.symm.trans hget

/-! ## Walking -/

/-- A piece of a path that leads to an entry of a directory. -/
structure IsName (piece : String) : Prop where
  moves : ¬(piece = "" ∨ piece = ".")
  goesDown : piece ≠ ".."
  fits : ¬longestName < piece.utf8ByteSize

section Walk

variable {last : Bool} {enter : Location → List String → Except IoError Spot} {piece : String}
  {pieces rest : List String} {slash : Bool} {content : ByteArray} {fuel : Nat}

/-- What a walk ends at without going on: a file, nothing, or a link that it does not follow. -/
def Stops (root : Node) (last : Bool) (location : Location) : Prop :=
  root.IsFree location ∨ last = false ∧ ∃ target, root.get? location = some (.link target)

/-- The steps of a walk that ends at a location. -/
inductive Leads (root : Node) (last : Bool) : Nat → Location → List String → Location → Bool → Prop
  | done {fuel : Nat} {here : Location} : Leads root last fuel here [] here false
  | stay {fuel : Nat} {here location : Location} {piece : String} {rest : List String} {slash : Bool}
    (hstays : piece = "" ∨ piece = ".") (hrest : Leads root last fuel here rest location slash) :
    Leads root last fuel here (piece :: rest) location slash
  | up {fuel : Nat} {here location : Location} {rest : List String} {slash : Bool}
    (hrest : Leads root last fuel here.dropLast rest location slash) :
    Leads root last fuel here (".." :: rest) location slash
  | down {fuel : Nat} {here location : Location} {piece : String} {rest : List String} {slash : Bool}
    (hname : IsName piece) (hdirectory : root.HasDirectory (here ++ [piece]))
    (hrest : Leads root last fuel (here ++ [piece]) rest location slash) :
    Leads root last fuel here (piece :: rest) location slash
  | follow {fuel : Nat} {here location : Location} {piece target : String} {rest : List String}
    {slash : Bool} (hname : IsName piece) (hlink : root.get? (here ++ [piece]) = some (.link target))
    (hfollows : ¬((rest = [] ∨ rest = [""]) ∧ last = false))
    (hrest : Leads root last fuel (if Path.isAbsolute target then [] else here)
      (Path.pieces target ++ rest) location slash) :
    Leads root last (fuel + 1) here (piece :: rest) location slash
  | stop {fuel : Nat} {here : Location} {piece : String} {rest : List String} (hname : IsName piece)
    (hend : rest = [] ∨ rest = [""]) (hstops : root.Stops last (here ++ [piece])) :
    Leads root last fuel here (piece :: rest) (here ++ [piece]) (!rest.isEmpty)

theorem walkWith_leads
    (henter : ∀ here pieces, enter here pieces = .ok (.entry location slash) →
      ∃ less, fuel = less + 1 ∧ root.Leads last less here pieces location slash)
    (h : root.walkWith last enter here pieces = .ok (.entry location slash)) :
    root.Leads last fuel here pieces location slash := by
  fun_induction Node.walkWith root last enter here pieces with
  | case1 here =>
    cases h
    exact .done
  | case2 here piece rest hstays ih => exact .stay hstays (ih h)
  | case3 here rest hmoves ih => exact .up (ih h)
  | case4 => cases h
  | case5 here piece rest hmoves hdown hfits next entries hget ih =>
    exact .down ⟨hmoves, hdown, hfits⟩ ⟨entries, hget⟩ (ih h)
  | case6 here piece rest hmoves hdown hfits next atEnd target hget hlast =>
    obtain ⟨rfl, rfl⟩ := Spot.entry.inj (Except.ok.inj h)
    obtain ⟨hend, hlast⟩ := hlast
    exact .stop ⟨hmoves, hdown, hfits⟩ hend (.inr ⟨by simpa using hlast, target, hget⟩)
  | case7 here piece rest hmoves hdown hfits next atEnd target hget hlast =>
    obtain ⟨less, rfl, hrest⟩ := henter _ _ h
    exact .follow ⟨hmoves, hdown, hfits⟩ hget (by simpa using hlast) hrest
  | case8 here piece rest hmoves hdown hfits next atEnd content hget hend =>
    obtain ⟨rfl, rfl⟩ := Spot.entry.inj (Except.ok.inj h)
    refine .stop ⟨hmoves, hdown, hfits⟩ hend (.inl fun node hnode => ?_)
    cases hget.symm.trans hnode
    exact ⟨content, rfl⟩
  | case9 => cases h
  | case10 here piece rest hmoves hdown hfits next atEnd hget hend =>
    obtain ⟨rfl, rfl⟩ := Spot.entry.inj (Except.ok.inj h)
    refine .stop ⟨hmoves, hdown, hfits⟩ hend (.inl fun node hnode => ?_)
    cases hget.symm.trans hnode
  | case11 => cases h

theorem walk_eq_walkWith (root : Node) (last : Bool) (fuel : Nat) :
    ∃ enter, root.walk last fuel = root.walkWith last enter := by
  cases fuel <;> exact ⟨_, rfl⟩

/-- A walk ends at an entry exactly if its steps lead there. -/
theorem walk_eq_ok_iff : root.walk last fuel here pieces = .ok (.entry location slash) ↔
    root.Leads last fuel here pieces location slash := by
  constructor
  · intro h
    induction fuel generalizing here pieces with
    | zero =>
      refine walkWith_leads ?_ h
      intro here pieces h
      cases h
    | succ fuel ih => exact walkWith_leads (fun _ _ h => ⟨fuel, rfl, ih h⟩) h
  · intro h
    induction h with
    | @done fuel here =>
      obtain ⟨enter, hwalk⟩ := root.walk_eq_walkWith last fuel
      rw [hwalk, walkWith]
    | @stay fuel here location piece rest slash hstays hrest ih =>
      obtain ⟨enter, hwalk⟩ := root.walk_eq_walkWith last fuel
      rw [hwalk] at ih ⊢
      rw [walkWith, if_pos hstays, ih]
    | @up fuel here location rest slash hrest ih =>
      obtain ⟨enter, hwalk⟩ := root.walk_eq_walkWith last fuel
      rw [hwalk] at ih ⊢
      rw [walkWith, if_neg (by decide), if_pos rfl, ih]
    | @down fuel here location piece rest slash hname hdirectory hrest ih =>
      obtain ⟨enter, hwalk⟩ := root.walk_eq_walkWith last fuel
      rw [hwalk] at ih ⊢
      rw [walkWith, if_neg hname.moves, if_neg hname.goesDown, if_neg hname.fits]
      obtain ⟨entries, hget⟩ := hdirectory
      dsimp only
      rw [hget]
      exact ih
    | follow hname hlink hfollows hrest ih =>
      rw [walk, walkWith, if_neg hname.moves, if_neg hname.goesDown, if_neg hname.fits]
      dsimp only
      rw [hlink]
      dsimp only
      rw [if_neg (by simpa using hfollows), ih]
    | @stop fuel here piece rest hname hend hstops =>
      obtain ⟨enter, hwalk⟩ := root.walk_eq_walkWith last fuel
      rw [hwalk, walkWith, if_neg hname.moves, if_neg hname.goesDown, if_neg hname.fits]
      dsimp only
      obtain hfree | ⟨rfl, target, hlink⟩ := hstops
      · cases hget : root.get? (here ++ [piece]) with
        | none => exact if_pos hend
        | some node =>
          obtain ⟨content, rfl⟩ := hfree node hget
          exact if_pos hend
      · rw [hlink]
        exact if_pos ⟨hend, rfl⟩

/-- A walk from a directory that is there does not end in one that has been removed. -/
theorem walkWith_ne_removed {depth : Nat}
    (henter : ∀ here pieces, enter here pieces ≠ .ok (.removed depth)) :
    root.walkWith last enter here pieces ≠ .ok (.removed depth) := by
  fun_induction Node.walkWith root last enter here pieces with
  | case2 here piece rest hstays ih => exact ih
  | case3 here rest hmoves ih => exact ih
  | case5 here piece rest hmoves hdown hfits next entries hget ih => exact ih
  | case7 => exact henter _ _
  | case1 | case4 | case6 | case8 | case9 | case10 | case11 => nofun

theorem walk_ne_removed (fuel depth : Nat) :
    root.walk last fuel here pieces ≠ .ok (.removed depth) := by
  induction fuel generalizing here pieces with
  | zero => exact walkWith_ne_removed fun _ _ => nofun
  | succ fuel ih => exact walkWith_ne_removed fun _ _ => ih

/-- A walk that ended where there is a file now goes on as before. -/
theorem Leads.keeps (hkeeps : root.Keeps root')
    (hthere : root'.get? location = some (.file content))
    (h : root.Leads last fuel here pieces location slash) :
    root'.Leads last fuel here pieces location slash := by
  induction h with
  | done => exact .done
  | stay hstays _ ih => exact .stay hstays (ih hthere)
  | up _ ih => exact .up (ih hthere)
  | down hname hdirectory _ ih => exact .down hname (hkeeps.directories _ hdirectory) (ih hthere)
  | follow hname hlink hfollows _ ih =>
    exact .follow hname (hkeeps.links _ _ hlink) hfollows (ih hthere)
  | stop hname hend _ =>
    refine .stop hname hend (.inl fun node hnode => ?_)
    cases hthere.symm.trans hnode
    exact ⟨content, rfl⟩

/-- Where nothing is, there is no link to follow either. -/
theorem Leads.followed (h : root.Leads false fuel here pieces location slash)
    (hnone : root.get? location = none) : root.Leads true fuel here pieces location slash := by
  induction h with
  | done => exact .done
  | stay hstays _ ih => exact .stay hstays (ih hnone)
  | up _ ih => exact .up (ih hnone)
  | down hname hdirectory _ ih => exact .down hname hdirectory (ih hnone)
  | follow hname hlink _ _ ih => exact .follow hname hlink nofun (ih hnone)
  | stop hname hend _ =>
    exact .stop hname hend (.inl fun node hnode => nomatch hnone.symm.trans hnode)

/-- A walk to where a directory has come to be ends there, in one step more. -/
theorem Leads.arrives (hkeeps : root.Keeps root') (hthere : root'.HasDirectory location)
    (h : root.Leads true fuel here pieces location slash) :
    root'.Leads true fuel here pieces location false := by
  induction h with
  | done => exact .done
  | stay hstays _ ih => exact .stay hstays (ih hthere)
  | up _ ih => exact .up (ih hthere)
  | down hname hdirectory _ ih => exact .down hname (hkeeps.directories _ hdirectory) (ih hthere)
  | follow hname hlink hfollows _ ih =>
    exact .follow hname (hkeeps.links _ _ hlink) hfollows (ih hthere)
  | stop hname hend _ =>
    obtain rfl | rfl := hend
    · exact .down hname hthere .done
    · exact .down hname hthere (.stay (.inl rfl) .done)

/-- A walk that follows links ends at a directory, or in one where there is a file or nothing. -/
def IsEnd (root : Node) (location : Location) : Prop :=
  root.HasDirectory location ∨
    root.IsFree location ∧ ∃ above name, location = above ++ [name] ∧ root.HasDirectory above

theorem Leads.isEnd (hroot : root.HasDirectory []) (hhere : root.HasDirectory here)
    (h : root.Leads true fuel here pieces location slash) : root.IsEnd location := by
  induction h with
  | done => exact .inl hhere
  | stay _ _ ih => exact ih hhere
  | up _ ih => exact ih (hasDirectory_dropLast hhere)
  | down _ hdirectory _ ih => exact ih hdirectory
  | follow _ _ _ _ ih =>
    refine ih ?_
    split
    · exact hroot
    · exact hhere
  | stop _ _ hstops =>
    obtain hfree | ⟨hlast, -⟩ := hstops
    · exact .inr ⟨hfree, _, _, rfl, hhere⟩
    · cases hlast

end Walk

end Node

namespace FileTree

variable {tree tree' : FileTree} {path : String} {content : ByteArray}

/-- The root of the tree is a directory. -/
def IsRooted (tree : FileTree) : Prop :=
  tree.root.HasDirectory []

/-! ## Where a path starts -/

/-- The texts that can lead anywhere. -/
def IsFit (path : String) : Prop :=
  path ≠ "" ∧ '\x00' ∉ path.toList ∧ path.utf8ByteSize ≤ longestPath

/-- Where the walk along a path starts, and the pieces that are left for it.  A path that does not
climb out of removed directories starts nowhere. -/
def start? (tree : FileTree) (path : String) : Option (Location × List String) :=
  if Path.isAbsolute path then some ([], Path.pieces path)
  else
    match climb tree.lost (Path.pieces path) with
    | .ok (0, pieces) => some (tree.current, pieces)
    | _ => none

/-- A path starts at a directory if it starts anywhere. -/
def StartsInside (tree : FileTree) (path : String) : Prop :=
  ∀ here pieces, tree.start? path = some (here, pieces) → tree.root.HasDirectory here

theorem start?_of_isAbsolute (hpath : Path.isAbsolute path = true) :
    tree.start? path = some ([], Path.pieces path) :=
  if_pos hpath

theorem start?_congr (hcurrent : tree'.current = tree.current) (hlost : tree'.lost = tree.lost) :
    tree'.start? path = tree.start? path := by
  rw [start?, start?, hcurrent, hlost]

theorem StartsInside.of_isAbsolute (htree : tree.IsRooted) (hpath : Path.isAbsolute path = true) :
    tree.StartsInside path := by
  intro here pieces hstart
  rw [start?_of_isAbsolute hpath] at hstart
  cases hstart
  exact htree

theorem StartsInside.of_hasDirectory (htree : tree.root.HasDirectory tree.current) :
    tree.StartsInside path := by
  intro here pieces hstart
  unfold start? at hstart
  split at hstart
  · cases hstart
    exact Node.hasDirectory_root htree
  · split at hstart
    · cases hstart
      exact htree
    · cases hstart

/-- Where a path leads is up to its walk, as far as the path itself is fit for use. -/
theorem resolve_eq_entry_iff {last : Bool} {location : Location} {slash : Bool} :
    tree.resolve last path = .ok (.entry location slash) ↔
      IsFit path ∧ ∃ here pieces, tree.start? path = some (here, pieces) ∧
        tree.root.Leads last mostLinks here pieces location slash := by
  by_cases hfit : IsFit path
  · rw [and_iff_right hfit]
    obtain ⟨hempty, hclean, hfits⟩ := hfit
    unfold resolve start?
    rw [if_neg hempty, if_neg (by simpa using hclean), if_neg (Nat.not_lt.mpr hfits)]
    by_cases hpath : Path.isAbsolute path = true
    · simp [hpath, Node.walk_eq_ok_iff]
    · rw [if_neg hpath, if_neg hpath]
      cases climb tree.lost (Path.pieces path) with
      | error e => exact iff_of_false nofun nofun
      | ok climbed =>
        obtain ⟨lost, pieces⟩ := climbed
        cases lost with
        | zero =>
          show tree.root.walk last mostLinks tree.current pieces = _ ↔ _
          simp [Node.walk_eq_ok_iff]
        | succ lost => exact iff_of_false nofun nofun
  · refine iff_of_false (fun h => hfit ?_) fun h => hfit h.1
    unfold resolve at h
    by_cases hempty : path = ""
    · rw [if_pos hempty] at h
      cases h
    · rw [if_neg hempty] at h
      by_cases hclean : path.toList.contains '\x00' = true
      · rw [if_pos hclean] at h
        cases h
      · rw [if_neg hclean] at h
        by_cases hfits : longestPath < path.utf8ByteSize
        · rw [if_pos hfits] at h
          cases h
        · exact ⟨hempty, by simpa using hclean, Nat.not_lt.mp hfits⟩

/-- An absolute path starts at the root. -/
theorem resolve_eq_ok_iff (hpath : Path.isAbsolute path = true) {last : Bool} {location : Location}
    {slash : Bool} : tree.resolve last path = .ok (.entry location slash) ↔
      ('\x00' ∉ path.toList ∧ path.utf8ByteSize ≤ longestPath) ∧
        tree.root.Leads last mostLinks [] (Path.pieces path) location slash := by
  have hnonempty := Path.ne_empty_of_isAbsolute hpath
  rw [resolve_eq_entry_iff, start?_of_isAbsolute hpath, IsFit, and_iff_right hnonempty]
  refine and_congr_right fun _ => ⟨?_, fun hleads => ⟨_, _, rfl, hleads⟩⟩
  rintro ⟨here, pieces, hstart, hleads⟩
  cases hstart
  exact hleads

theorem resolve_ne_removed (hpath : Path.isAbsolute path = true) (last : Bool) (depth : Nat) :
    tree.resolve last path ≠ .ok (.removed depth) := by
  unfold resolve
  split
  · nofun
  · split
    · nofun
    · split
      · nofun
      · exact Node.walk_ne_removed _ _

/-! ## Reading what was written -/

/-- What a path leads to is at a location, unless it is a removed directory. -/
theorem find_eq_ok {node : Node} (h : tree.find path = .ok node) :
    (∃ depth, tree.resolve true path = .ok (.removed depth) ∧ node = .directory []) ∨
      ∃ location slash, tree.resolve true path = .ok (.entry location slash) ∧
        tree.root.get? location = some node ∧ (slash = true → node.isDirectory = true) := by
  obtain ⟨spot, hspot, h⟩ := bind_eq_ok.mp h
  cases spot with
  | removed depth =>
    cases h
    exact .inl ⟨depth, hspot, rfl⟩
  | entry location slash =>
    dsimp only at h
    cases hget : tree.root.get? location with
    | none =>
      rw [hget] at h
      cases h
    | some found =>
      rw [hget] at h
      dsimp only at h
      split at h
      · cases h
      · next hfit =>
        cases h
        exact .inr ⟨location, slash, hspot, hget, by simpa using hfit⟩

theorem resolve_of_isFile (h : tree.isFile path = true) :
    ∃ location content, tree.resolve true path = .ok (.entry location false) ∧
      tree.root.get? location = some (.file content) := by
  unfold isFile at h
  split at h
  · next content hfind =>
    obtain ⟨depth, -, hnode⟩ | ⟨location, slash, hspot, hget, hslash⟩ := find_eq_ok hfind
    · cases hnode
    · obtain rfl : slash = false := by simpa [Node.isDirectory] using hslash
      exact ⟨location, content, hspot, hget⟩
  · cases h

/-- A file is written in a directory, where there is a file or nothing. -/
theorem write_eq_ok (hstart : tree.StartsInside path) (h : tree.write path content = .ok tree') :
    ∃ above name, tree.resolve true path = .ok (.entry (above ++ [name]) false) ∧
      tree.root.HasDirectory above ∧ tree.root.IsFree (above ++ [name]) ∧
      tree' = { tree with root := Node.put (.file content) (above ++ [name]) tree.root } := by
  unfold write at h
  obtain ⟨spot, hspot, h⟩ := bind_eq_ok.mp h
  cases spot with
  | removed depth => cases h
  | entry location slash =>
    obtain ⟨-, here, pieces, hpieces, hleads⟩ := resolve_eq_entry_iff.mp hspot
    have hhere := hstart here pieces hpieces
    obtain ⟨entries, hget⟩ | ⟨hfree, above, name, rfl, habove⟩ :=
      hleads.isEnd (Node.hasDirectory_root hhere) hhere
    · dsimp only at h
      rw [hget] at h
      cases h
    · have hwritten : (if slash then Except.error IoError.isDirectory else Except.ok
          { tree with root := Node.put (.file content) (above ++ [name]) tree.root }) =
            Except.ok tree' := by
        dsimp only at h
        cases hget : tree.root.get? (above ++ [name]) with
        | none =>
          rw [hget] at h
          exact h
        | some node =>
          obtain ⟨content', rfl⟩ := hfree node hget
          rw [hget] at h
          exact h
      cases slash with
      | true => cases hwritten
      | false => exact ⟨above, name, hspot, habove, hfree, (Except.ok.inj hwritten).symm⟩

/-- The path leads to the file that was written, and to the place where it was written. -/
theorem resolve_write (hstart : tree.StartsInside path) (h : tree.write path content = .ok tree') :
    ∃ location, tree.resolve true path = .ok (.entry location false) ∧
      tree'.resolve true path = .ok (.entry location false) ∧
      tree'.root.get? location = some (.file content) ∧ tree.root.IsFree location ∧
      tree' = { tree with root := Node.put (.file content) location tree.root } := by
  obtain ⟨above, name, hspot, habove, hfree, rfl⟩ := write_eq_ok hstart h
  obtain ⟨hfit, here, pieces, hpieces, hleads⟩ := resolve_eq_entry_iff.mp hspot
  have hthere := Node.get?_put_self (.file content) name habove
  have hleads' := hleads.keeps (Node.keeps_put hfree) hthere
  refine ⟨_, hspot, ?_, hthere, hfree, rfl⟩
  exact resolve_eq_entry_iff.mpr ⟨hfit, here, pieces, hpieces, hleads'⟩

theorem find_write (hstart : tree.StartsInside path) (h : tree.write path content = .ok tree') :
    tree'.find path = .ok (.file content) := by
  obtain ⟨location, -, hspot, hthere, -, -⟩ := resolve_write hstart h
  refine bind_eq_ok.mpr ⟨_, hspot, ?_⟩
  dsimp only
  rw [hthere]
  rfl

/-- The file is the one that a search for the path finds. -/
theorem read?_lookUp?_write (htree : tree.IsRooted) (hpath : Path.isAbsolute path = true)
    (h : tree.write path content = .ok tree') :
    tree'.lookUp? path = some path ∧ tree'.read? path = some content := by
  have hfind := find_write (.of_isAbsolute htree hpath) h
  constructor
  · rw [lookUp?, if_pos hpath]
    refine List.find?_cons_of_pos ?_
    rw [isFile, hfind]
  · rw [read?, hfind]

/-! ## Directories above -/

/-- A directory is created where nothing is. -/
theorem createDirectory_eq_ok (h : tree.createDirectory path = .ok tree') :
    ∃ location slash, tree.resolve false path = .ok (.entry location slash) ∧
      tree.root.get? location = none ∧
      tree' = { tree with root := Node.put (.directory []) location tree.root } := by
  unfold createDirectory create at h
  obtain ⟨spot, hspot, h⟩ := bind_eq_ok.mp h
  cases spot with
  | removed depth => cases h
  | entry location slash =>
    dsimp only at h
    cases hget : tree.root.get? location with
    | some node =>
      rw [hget] at h
      cases h
    | none =>
      rw [hget] at h
      refine ⟨location, slash, hspot, hget, ?_⟩
      cases slash <;> exact (Except.ok.inj h).symm

theorem isRooted_createDirectory (htree : tree.IsRooted)
    (h : tree.createDirectory path = .ok tree') : tree'.IsRooted := by
  obtain ⟨location, slash, -, -, rfl⟩ := createDirectory_eq_ok h
  exact Node.hasDirectory_put htree

/-- What the creation of one directory keeps, the creation of one with those above it keeps. -/
theorem createFirst_induction {motive : FileTree → Prop} {paths : List String}
    (hstep : ∀ tree tree' path, path ∈ paths → motive tree → createDirectory tree path = .ok tree' →
      motive tree') (htree : motive tree) : motive (tree.createFirst paths).2 := by
  induction paths generalizing tree with
  | nil => exact htree
  | cons path above ih =>
    have hself : path ∈ path :: above := List.mem_cons_self
    rw [createFirst]
    split
    · exact htree
    · cases hcreated : tree.createDirectory path with
      | ok created => exact hstep _ _ _ hself htree hcreated
      | error e =>
        dsimp only
        split
        · have habove := ih (fun below below' other hother =>
            hstep below below' other (List.mem_cons_of_mem path hother)) htree
          generalize tree.createFirst above = created at habove ⊢
          obtain ⟨result, below⟩ := created
          cases result with
          | error e => exact habove
          | ok =>
            dsimp only
            cases hagain : below.createDirectory path with
            | ok created => exact hstep _ _ _ hself habove hagain
            | error e => exact habove
        · exact htree

theorem isRooted_createFirst (htree : tree.IsRooted) (paths : List String) :
    (tree.createFirst paths).2.IsRooted :=
  createFirst_induction (fun _ _ _ _ => isRooted_createDirectory) htree

/-- Writing below no directory is writing. -/
theorem write_of_writeBelow_none {text : String}
    (h : tree.writeBelow none path text = (.ok (), tree')) :
    tree.write path text.toUTF8 = .ok tree' := by
  unfold writeBelow at h
  dsimp only at h
  cases hwrite : tree.write path text.toUTF8 with
  | error e =>
    rw [hwrite] at h
    cases h
  | ok written =>
    rw [hwrite] at h
    cases h
    rfl

/-- What writing below directories comes to: the directories leave a tree in which it is done. -/
theorem writeBelow_eq_ok {directory? : Option String} {text : String} (htree : tree.IsRooted)
    (h : tree.writeBelow directory? path text = (.ok (), tree')) :
    ∃ below : FileTree, below.IsRooted ∧ below.write path text.toUTF8 = .ok tree' := by
  cases directory? with
  | none => exact ⟨tree, htree, write_of_writeBelow_none h⟩
  | some directory =>
    have hrooted := isRooted_createFirst htree (Path.ancestors directory)
    unfold writeBelow at h
    dsimp only [createDirectories] at h
    generalize tree.createFirst (Path.ancestors directory) = created at h hrooted
    obtain ⟨result, below⟩ := created
    cases result with
    | error e => cases h
    | ok => exact ⟨below, hrooted, write_of_writeBelow_none h⟩

end FileTree
end PlaneReport
