import PlaneReport.Proofs.FileTree

/-!
# Where a file can be written

Where nothing is, not even a link that leads nowhere, a directory can be created and then a file in
it.  Main statement: `exists_writeBelow`.
-/

namespace PlaneReport

namespace Node

variable {root root' : Node} {location here : Location} {pieces : List String} {slash : Bool}
  {fuel : Nat} {name : String}

/-- A walk that does not follow the link at its end stops where the other one ends, or at a link. -/
theorem Leads.unfollowed (h : root.Leads true fuel here pieces location slash) :
    ∃ location' slash', root.Leads false fuel here pieces location' slash' ∧
      (location' = location ∨ ∃ target, root.get? location' = some (.link target)) := by
  induction h with
  | done => exact ⟨_, _, .done, .inl rfl⟩
  | stay hstays _ ih =>
    obtain ⟨location', slash', hrest, hplace⟩ := ih
    exact ⟨location', slash', .stay hstays hrest, hplace⟩
  | up _ ih =>
    obtain ⟨location', slash', hrest, hplace⟩ := ih
    exact ⟨location', slash', .up hrest, hplace⟩
  | down hname hdirectory _ ih =>
    obtain ⟨location', slash', hrest, hplace⟩ := ih
    exact ⟨location', slash', .down hname hdirectory hrest, hplace⟩
  | @follow fuel here location piece target rest slash hname hlink _ _ ih =>
    by_cases hend : rest = [] ∨ rest = [""]
    · exact ⟨_, _, .stop hname hend (.inr ⟨rfl, target, hlink⟩), .inr ⟨target, hlink⟩⟩
    · obtain ⟨location', slash', hrest, hplace⟩ := ih
      exact ⟨location', slash', .follow hname hlink (fun h => hend h.1) hrest, hplace⟩
  | stop hname hend hstops =>
    obtain hfree | ⟨hlast, -⟩ := hstops
    · exact ⟨_, _, .stop hname hend (.inl hfree), .inl rfl⟩
    · cases hlast

/-- A walk to where a directory has come to be leads on to what is not in it yet. -/
theorem Leads.into (hkeeps : root.Keeps root') (hnone : root.get? location = none)
    (hthere : root'.get? location = some (.directory [])) (hname : IsName name)
    (hslash : slash = false) (h : root.Leads true fuel here pieces location slash) :
    root'.Leads true fuel here (pieces ++ [name]) (location ++ [name]) false := by
  have hmember : root'.get? (location ++ [name]) = none := by
    rw [get?_append, hthere]
    rfl
  have hstop : ∀ fuel, root'.Leads true fuel location [name] (location ++ [name]) false :=
    fun _ => .stop hname (.inl rfl) (.inl fun node hnode => nomatch hmember.symm.trans hnode)
  induction h with
  | done => exact hstop _
  | stay hstays _ ih => exact .stay hstays (ih hnone hthere hslash hmember hstop)
  | up _ ih => exact .up (ih hnone hthere hslash hmember hstop)
  | down hpiece hdirectory _ ih =>
    exact .down hpiece (hkeeps.directories _ hdirectory) (ih hnone hthere hslash hmember hstop)
  | follow hpiece hlink _ _ ih =>
    have hrest := ih hnone hthere hslash hmember hstop
    rw [List.append_assoc] at hrest
    exact .follow hpiece (hkeeps.links _ _ hlink) nofun hrest
  | @stop fuel here piece rest hpiece hend _ =>
    obtain rfl | rfl := hend
    · exact .down hpiece ⟨[], hthere⟩ (hstop fuel)
    · cases hslash

/-- A walk down the names of a location. -/
theorem Leads.of_names {last : Bool} {names rest : List String}
    (hnames : ∀ name ∈ names, IsName name) (hdirectory : root.HasDirectory (here ++ names))
    (hrest : root.Leads last fuel (here ++ names) rest location slash) :
    root.Leads last fuel here (names ++ rest) location slash := by
  induction names generalizing here with
  | nil => simpa using hrest
  | cons name names ih =>
    rw [List.append_cons] at hdirectory hrest
    refine .down (hnames name List.mem_cons_self) (hasDirectory_of_append hdirectory) ?_
    exact ih (fun other hother => hnames other (List.mem_cons_of_mem name hother)) hdirectory hrest

end Node

namespace FileTree

variable {tree tree' : FileTree} {path directory name text : String} {content : ByteArray}

/-- Nothing is at the path, and something can be created there. -/
def IsVacant (tree : FileTree) (path : String) : Prop :=
  ∃ location, tree.resolve false path = .ok (.entry location false) ∧
    tree.root.get? location = none

/-- What the current directory lacks can be created in it. -/
theorem isVacant_below {names : List String} (hne : names ≠ [])
    (hnames : ∀ other ∈ names ++ [name], Node.IsName other)
    (hpieces : ∀ other ∈ names ++ [name], Path.IsPiece other)
    (hclean : ∀ other ∈ names ++ [name], '\x00' ∉ other.toList)
    (hfits : ("/" ++ "/".intercalate names ++ "/" ++ name).utf8ByteSize ≤ longestPath)
    (hdirectory : tree.root.HasDirectory names) (hnone : tree.root.get? (names ++ [name]) = none) :
    tree.IsVacant ("/" ++ "/".intercalate names ++ "/" ++ name) := by
  have hpath := Path.isAbsolute_append (Path.isAbsolute_append
    (Path.isAbsolute_slash ("/".intercalate names)) "/") name
  have hcleanPath : '\x00' ∉ ("/" ++ "/".intercalate names ++ "/" ++ name).toList := by
    intro h
    rw [String.toList_append, String.toList_append, String.toList_append, List.mem_append,
      List.mem_append, List.mem_append] at h
    obtain ((h | h) | h) | h := h
    · exact absurd h (by decide)
    · obtain h | ⟨other, hother, h⟩ := Path.mem_intercalate h
      · exact absurd h (by decide)
      · exact hclean other (List.mem_append_left _ hother) h
    · exact absurd h (by decide)
    · exact hclean name (by simp) h
  refine ⟨names ++ [name], (resolve_eq_ok_iff hpath).mpr ⟨⟨hcleanPath, hfits⟩, ?_⟩, hnone⟩
  rw [Path.pieces_append, Path.pieces_slash, Path.pieces_intercalate hne fun other hother =>
    hpieces other (List.mem_append_left _ hother), Path.pieces_of_isPiece (hpieces name (by simp))]
  refine .stay (.inl rfl) (.of_names (fun other hother => hnames other (by simp [hother]))
    hdirectory ?_)
  exact .stop (hnames name (by simp)) (.inl rfl)
    (.inl fun node hnode => nomatch hnone.symm.trans hnode)

theorem exists_write {location : Location}
    (hspot : tree.resolve true path = .ok (.entry location false))
    (hfree : tree.root.IsFree location) : ∃ tree', tree.write path content = .ok tree' := by
  refine ⟨{ tree with root := Node.put (.file content) location tree.root },
    bind_eq_ok.mpr ⟨_, hspot, ?_⟩⟩
  dsimp only
  cases hget : tree.root.get? location with
  | none => rfl
  | some node =>
    obtain ⟨old, rfl⟩ := hfree node hget
    rfl

theorem exists_write_of_isFile (h : tree.isFile path = true) :
    ∃ tree', tree.write path content = .ok tree' := by
  obtain ⟨location, old, hspot, hget⟩ := resolve_of_isFile h
  exact exists_write hspot fun node hnode => ⟨old, Option.some.inj (hnode.symm.trans hget)⟩

theorem exists_write_of_isVacant (hpath : Path.isAbsolute path = true) (h : tree.IsVacant path) :
    ∃ tree', tree.write path content = .ok tree' := by
  obtain ⟨location, hspot, hnone⟩ := h
  obtain ⟨hfit, hleads⟩ := (resolve_eq_ok_iff hpath).mp hspot
  exact exists_write ((resolve_eq_ok_iff hpath).mpr ⟨hfit, hleads.followed hnone⟩)
    fun node hnode => nomatch hnone.symm.trans hnode

/-- A directory that is missing is created. -/
theorem createDirectories_of_isVacant (hpath : Path.isAbsolute directory = true)
    {location : Location} (hspot : tree.resolve false directory = .ok (.entry location false))
    (hnone : tree.root.get? location = none) :
    tree.createDirectories directory =
      (.ok (), { tree with root := Node.put (.directory []) location tree.root }) := by
  have hcreate : tree.createDirectory directory =
      .ok { tree with root := Node.put (.directory []) location tree.root } := by
    refine bind_eq_ok.mpr ⟨_, hspot, ?_⟩
    dsimp only
    rw [hnone]
    rfl
  unfold createDirectories Path.ancestors
  dsimp only
  rw [createFirst, if_neg (Path.ne_empty_of_isAbsolute hpath), hcreate]

/-- A directory that is there, or that a link leads to, is left as it is. -/
theorem createDirectories_of_isDirectory (hpath : Path.isAbsolute directory = true)
    (h : tree.isDirectory directory = true) :
    tree.createDirectories directory = (.ok (), tree) := by
  have hcreate : tree.createDirectory directory = .error .entryExists := by
    unfold isDirectory at h
    split at h
    · next entries hfind =>
      obtain ⟨location, slash, hspot, hget, -⟩ :=
        (find_eq_ok hfind).resolve_left fun ⟨depth, h, _⟩ => resolve_ne_removed hpath true depth h
      obtain ⟨hfit, hleads⟩ := (resolve_eq_ok_iff hpath).mp hspot
      obtain ⟨location', slash', hleads', hplace⟩ := hleads.unfollowed
      have hthere : ∃ node, tree.root.get? location' = some node := by
        obtain rfl | ⟨target, hlink⟩ := hplace
        · exact ⟨_, hget⟩
        · exact ⟨_, hlink⟩
      obtain ⟨node, hnode⟩ := hthere
      unfold createDirectory create
      rw [(resolve_eq_ok_iff hpath).mpr ⟨hfit, hleads'⟩]
      simp only [bind, Except.bind, hnode]
      rfl
    · cases h
  unfold createDirectories Path.ancestors
  dsimp only
  rw [createFirst, if_neg (Path.ne_empty_of_isAbsolute hpath), hcreate]
  dsimp only
  rw [if_neg (by decide), h, if_pos rfl]

/-- A file can be written in a directory that has just been created. -/
theorem exists_write_into {location : Location} (htree : tree.IsRooted)
    (hdirectory : Path.isAbsolute directory = true) (hname : Node.IsName name)
    (hpiece : Path.IsPiece name) (hclean : '\x00' ∉ name.toList)
    (hfits : (directory ++ "/" ++ name).utf8ByteSize ≤ longestPath)
    (hspot : tree.resolve false directory = .ok (.entry location false))
    (hnone : tree.root.get? location = none) :
    ∃ tree', write { tree with root := Node.put (.directory []) location tree.root }
      (directory ++ "/" ++ name) content = .ok tree' := by
  obtain ⟨⟨hcleanAbove, -⟩, hleads⟩ := (resolve_eq_ok_iff hdirectory).mp hspot
  replace hleads := hleads.followed hnone
  have hthere : (Node.put (.directory []) location tree.root).get? location =
      some (.directory []) := by
    obtain ⟨entries, hget⟩ | ⟨-, above, last, rfl, habove⟩ := hleads.isEnd htree htree
    · cases hnone.symm.trans hget
    · exact Node.get?_put_self _ last habove
  have hinto := hleads.into (Node.keeps_put fun node hnode => nomatch hnone.symm.trans hnode) hnone
    hthere hname rfl
  have hpieces : Path.pieces (directory ++ "/" ++ name) = Path.pieces directory ++ [name] := by
    rw [Path.pieces_append, Path.pieces_of_isPiece hpiece]
  have hpath := Path.isAbsolute_append (Path.isAbsolute_append hdirectory "/") name
  refine exists_write ((resolve_eq_ok_iff hpath).mpr
    ⟨⟨by simp [hclean, hcleanAbove], hfits⟩, hpieces ▸ hinto⟩) ?_
  intro node hnode
  rw [Node.get?_append, hthere] at hnode
  cases hnode

/-- A file can be written below a directory if that is there or missing, and the file too, as long as
its path is not too long. -/
theorem exists_writeBelow (htree : tree.IsRooted) (hdirectory : Path.isAbsolute directory = true)
    (hname : Node.IsName name) (hpiece : Path.IsPiece name) (hclean : '\x00' ∉ name.toList)
    (hfits : (directory ++ "/" ++ name).utf8ByteSize ≤ longestPath)
    (h : tree.IsVacant directory ∨ tree.isDirectory directory = true ∧
      (tree.IsVacant (directory ++ "/" ++ name) ∨ tree.isFile (directory ++ "/" ++ name) = true)) :
    ∃ tree', tree.writeBelow (some directory) (directory ++ "/" ++ name) text = (.ok (), tree') := by
  have hpath := Path.isAbsolute_append (Path.isAbsolute_append hdirectory "/") name
  suffices hwrite : ∃ below tree', tree.createDirectories directory = (.ok (), below) ∧
      below.write (directory ++ "/" ++ name) text.toUTF8 = .ok tree' by
    obtain ⟨below, tree', hcreated, hwrite⟩ := hwrite
    refine ⟨tree', ?_⟩
    unfold writeBelow
    dsimp only
    rw [hcreated]
    dsimp only [Except.mapError]
    rw [hwrite]
  obtain ⟨location, hspot, hnone⟩ | ⟨hthere, hvacant | hfile⟩ := h
  · obtain ⟨tree', hwrite⟩ :=
      exists_write_into htree hdirectory hname hpiece hclean hfits hspot hnone
    exact ⟨_, tree', createDirectories_of_isVacant hdirectory hspot hnone, hwrite⟩
  · obtain ⟨tree', hwrite⟩ := exists_write_of_isVacant hpath hvacant
    exact ⟨tree, tree', createDirectories_of_isDirectory hdirectory hthere, hwrite⟩
  · obtain ⟨tree', hwrite⟩ := exists_write_of_isFile hfile
    exact ⟨tree, tree', createDirectories_of_isDirectory hdirectory hthere, hwrite⟩

end FileTree
end PlaneReport
