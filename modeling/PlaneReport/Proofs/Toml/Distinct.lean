import PlaneReport.Proofs.Layer.Merge
import PlaneReport.Toml.Reader

/-!
# No key twice

The reader of TOML texts refuses to set a key twice, and a text that breaks off has no outline.
`outline?_proper` says so of whole outlines: everything in them, however deep, is read to its end,
and no table has two members of one name.
-/

namespace PlaneReport

/-- A value without parts. -/
def Outline.IsPlain : Outline → Prop
  | .broken => False
  | .list _ _ => False
  | .table _ _ => False
  | _ => True

/-- An outline that does not stop short, with tables whose keys are texts and differ. -/
inductive Outline.Proper : Outline → Prop
  | plain {outline : Outline} (h : outline.IsPlain) : Proper outline
  | list {items : List Outline} (h : ∀ item ∈ items, Proper item) : Proper (.list items true)
  | table {members : List (Option String × Outline)} (hkeys : (members.map Prod.fst).Nodup)
    (hnames : ∀ member ∈ members, member.1.isSome = true)
    (h : ∀ member ∈ members, Proper member.2) : Proper (.table members true)

namespace Toml

variable {edition : Edition}

/-! ## Tables while the text is read -/

/-- A node in which no table has a key twice. -/
inductive Node.Distinct : Node → Prop
  | value {outline : Outline} (h : outline.Proper) : Distinct (.value outline)
  | table {origin : Origin} {members : Members} (hkeys : (members.map Prod.fst).Nodup)
    (h : ∀ member ∈ members, Distinct member.2) : Distinct (.table origin members)
  | tables {items : List Members} (hkeys : ∀ members ∈ items, (members.map Prod.fst).Nodup)
    (h : ∀ members ∈ items, ∀ member ∈ members, Distinct member.2) : Distinct (.tables items)

namespace Members

structure Distinct (members : Members) : Prop where
  keys : (members.map Prod.fst).Nodup
  nodes : ∀ member ∈ members, Node.Distinct member.2

variable {members result : Members} {key part : String} {node : Node} {path : List String}
  {value : Outline} {f : Members → Option Members}

theorem distinct_nil : Distinct [] :=
  ⟨List.nodup_nil, fun _ h => nomatch h⟩

theorem Distinct.table (h : members.Distinct) (origin : Origin) :
    (Node.table origin members).Distinct :=
  .table h.keys h.nodes

theorem Distinct.of_table {origin : Origin} (h : (Node.table origin members).Distinct) :
    members.Distinct := by
  cases h with
  | table hkeys hnodes => exact ⟨hkeys, hnodes⟩

theorem Distinct.of_tables {items : List Members} (h : (Node.tables items).Distinct)
    (hmem : members ∈ items) : members.Distinct := by
  cases h with
  | tables hkeys hnodes => exact ⟨hkeys members hmem, hnodes members hmem⟩

theorem distinct_tables {items : List Members} (h : ∀ members ∈ items, Distinct members) :
    (Node.tables items).Distinct :=
  .tables (fun members hmem => (h members hmem).keys) fun members hmem => (h members hmem).nodes

theorem Distinct.lookup (h : members.Distinct) (hlookup : members.lookup key = some node) :
    node.Distinct :=
  h.nodes (key, node) (Entries.mem_of_lookup hlookup)

theorem Distinct.append (h : members.Distinct) (hlookup : members.lookup key = none)
    (hnode : node.Distinct) : Distinct (members ++ [(key, node)]) := by
  have hkey := Entries.lookup_eq_none_iff.mp hlookup
  constructor
  · rw [List.map_append, List.nodup_append]
    refine ⟨h.keys, List.nodup_singleton key, fun n hn m hm heq => ?_⟩
    rw [List.map_singleton, List.mem_singleton] at hm
    rw [heq, hm] at hn
    exact hkey hn
  · intro member hmember
    rcases List.mem_append.mp hmember with hmember | hmember
    · exact h.nodes member hmember
    · rw [List.mem_singleton] at hmember
      rw [hmember]
      exact hnode

theorem map_fst_replace (key : String) (node : Node) (members : Members) :
    (members.replace key node).map Prod.fst = members.map Prod.fst := by
  unfold replace
  rw [List.map_map]
  apply List.map_congr_left
  intro member _
  show (if member.1 = key then (member.1, node) else (member.1, member.2)).1 = member.1
  split <;> rfl

theorem Distinct.replace (h : members.Distinct) (hnode : node.Distinct) :
    Distinct (members.replace key node) := by
  constructor
  · rw [map_fst_replace]
    exact h.keys
  · intro member hmember
    obtain ⟨old, hold, hmember⟩ := List.mem_map.mp hmember
    rw [← hmember]
    show (if old.1 = key then (old.1, node) else (old.1, old.2)).2.Distinct
    split
    · exact hnode
    · exact h.nodes old hold

/-- A change to the last table of a list. -/
theorem Distinct.replace_last {items : List Members} (h : members.Distinct)
    (hlookup : members.lookup part = some (.tables items)) (hresult : result.Distinct) :
    Distinct (members.replace part (.tables (items.dropLast ++ [result]))) := by
  have hitems := h.lookup hlookup
  refine h.replace (distinct_tables fun item hitem => ?_)
  rcases List.mem_append.mp hitem with hitem | hitem
  · exact .of_tables hitems (List.dropLast_subset _ hitem)
  · rw [List.mem_singleton] at hitem
    rw [hitem]
    exact hresult

theorem Distinct.last {items : List Members} {last : Members} (h : members.Distinct)
    (hlookup : members.lookup part = some (.tables items)) (hlast : items.getLast? = some last) :
    last.Distinct :=
  .of_tables (h.lookup hlookup) (List.mem_of_getLast? hlast)

theorem insert_distinct (h : members.Distinct) (hvalue : value.Proper)
    (hresult : insert key value path members = some result) : result.Distinct := by
  induction path generalizing members result with
  | nil =>
    unfold insert at hresult
    split at hresult
    · cases hresult
    · next hlookup =>
      cases hresult
      exact h.append hlookup (.value hvalue)
  | cons part path ih =>
    unfold insert at hresult
    split at hresult
    · next hlookup =>
      obtain ⟨inner, hinner, hresult⟩ := Option.bind_eq_some_iff.mp hresult
      cases hresult
      exact h.append hlookup ((ih distinct_nil hinner).table .dotted)
    · next origin inner hlookup =>
      split at hresult
      · cases hresult
      · obtain ⟨next, hnext, hresult⟩ := Option.bind_eq_some_iff.mp hresult
        cases hresult
        exact h.replace ((ih (.of_table (h.lookup hlookup)) hnext).table origin)
    · next items hlookup =>
      split at hresult
      · cases hresult
      · next last hlast =>
        split at hresult
        · cases hresult
        · obtain ⟨next, hnext, hresult⟩ := Option.bind_eq_some_iff.mp hresult
          cases hresult
          exact h.replace_last hlookup (ih (h.last hlookup hlast) hnext)
    · cases hresult

theorem change_distinct
    (hf : ∀ {members result}, Distinct members → f members = some result → Distinct result)
    (h : members.Distinct) (hresult : change f path members = some result) : result.Distinct := by
  induction path generalizing members result with
  | nil => exact hf h hresult
  | cons part path ih =>
    unfold change at hresult
    split at hresult
    · next origin inner hlookup =>
      obtain ⟨next, hnext, hresult⟩ := Option.bind_eq_some_iff.mp hresult
      cases hresult
      exact h.replace ((ih (.of_table (h.lookup hlookup)) hnext).table origin)
    · next items hlookup =>
      split at hresult
      · cases hresult
      · next last hlast =>
        obtain ⟨next, hnext, hresult⟩ := Option.bind_eq_some_iff.mp hresult
        cases hresult
        exact h.replace_last hlookup (ih (h.last hlookup hlast) hnext)
    · cases hresult

theorem descend_distinct
    (hf : ∀ {members result}, Distinct members → f members = some result → Distinct result)
    (h : members.Distinct) (hresult : descend f path members = some result) :
    result.Distinct := by
  induction path generalizing members result with
  | nil => exact hf h hresult
  | cons part path ih =>
    unfold descend at hresult
    split at hresult
    · next hlookup =>
      obtain ⟨inner, hinner, hresult⟩ := Option.bind_eq_some_iff.mp hresult
      cases hresult
      exact h.append hlookup ((ih distinct_nil hinner).table .parent)
    · next origin inner hlookup =>
      obtain ⟨next, hnext, hresult⟩ := Option.bind_eq_some_iff.mp hresult
      cases hresult
      exact h.replace ((ih (.of_table (h.lookup hlookup)) hnext).table origin)
    · next items hlookup =>
      split at hresult
      · cases hresult
      · next last hlast =>
        obtain ⟨next, hnext, hresult⟩ := Option.bind_eq_some_iff.mp hresult
        cases hresult
        exact h.replace_last hlookup (ih (h.last hlookup hlast) hnext)
    · cases hresult

theorem openTable_distinct (h : members.Distinct) (hresult : openTable key members = some result) :
    result.Distinct := by
  unfold openTable at hresult
  split at hresult
  · next hlookup =>
    cases hresult
    exact h.append hlookup (distinct_nil.table .header)
  · next inner hlookup =>
    cases hresult
    have hrest : Distinct (members.filter fun member => member.1 != key) :=
      ⟨h.keys.sublist (List.filter_sublist.map _), fun member hmember =>
        h.nodes member (List.mem_of_mem_filter hmember)⟩
    refine hrest.append ?_ ((Distinct.of_table (h.lookup hlookup)).table .header)
    rw [Entries.lookup_eq_none_iff]
    intro hmem
    obtain ⟨member, hmember, hkey⟩ := List.mem_map.mp hmem
    have hne := List.of_mem_filter hmember
    rw [bne_iff_ne] at hne
    exact hne hkey
  · cases hresult

theorem openItem_distinct (h : members.Distinct) (hresult : openItem key members = some result) :
    result.Distinct := by
  unfold openItem at hresult
  split at hresult
  · next hlookup =>
    cases hresult
    refine h.append hlookup (distinct_tables fun item hitem => ?_)
    rw [List.mem_singleton] at hitem
    rw [hitem]
    exact distinct_nil
  · next items hlookup =>
    cases hresult
    refine h.replace (distinct_tables fun item hitem => ?_)
    rcases List.mem_append.mp hitem with hitem | hitem
    · exact .of_tables (h.lookup hlookup) hitem
    · rw [List.mem_singleton] at hitem
      rw [hitem]
      exact distinct_nil
  · cases hresult

end Members

/-! ## Outlines of tables -/

theorem outlines_eq_map (members : Members) :
    Members.outlines members = members.map fun member => (some member.1, member.2.outline) := by
  induction members with
  | nil => rw [Members.outlines]; rfl
  | cons member rest ih =>
    obtain ⟨key, node⟩ := member
    rw [Members.outlines, ih, List.map_cons]

theorem outlineItems_eq_map (items : List Members) :
    Members.outlineItems items =
      items.map fun members => .table (Members.outlines members) true := by
  induction items with
  | nil => rw [Members.outlineItems]; rfl
  | cons members rest ih => rw [Members.outlineItems, ih, List.map_cons]

theorem proper_outlines {members : Members} (hkeys : (members.map Prod.fst).Nodup)
    (h : ∀ member ∈ members, member.2.outline.Proper) :
    (Outline.table (Members.outlines members) true).Proper := by
  rw [outlines_eq_map]
  refine .table ?_ (fun member hmember => ?_) fun member hmember => ?_
  · rw [List.map_map]
    have hsome : (Prod.fst ∘ fun member : String × Node =>
        ((some member.1 : Option String), member.2.outline)) = some ∘ Prod.fst := rfl
    rw [hsome, ← List.map_map]
    exact hkeys.map fun _ _ => Option.some.inj
  · obtain ⟨old, -, hmember⟩ := List.mem_map.mp hmember
    rw [← hmember]
    rfl
  · obtain ⟨old, hold, hmember⟩ := List.mem_map.mp hmember
    rw [← hmember]
    exact h old hold

theorem Node.Distinct.outline {node : Node} (h : node.Distinct) : node.outline.Proper := by
  induction h with
  | value h =>
    rw [Node.outline]
    exact h
  | table hkeys _ ih =>
    rw [Node.outline]
    exact proper_outlines hkeys ih
  | tables hkeys _ ih =>
    rw [Node.outline, outlineItems_eq_map]
    refine .list fun item hitem => ?_
    obtain ⟨members, hmembers, hitem⟩ := List.mem_map.mp hitem
    rw [← hitem]
    exact proper_outlines (hkeys members hmembers) (ih members hmembers)

theorem Members.Distinct.outline {members : Members} (h : members.Distinct) :
    (Outline.table (Members.outlines members) true).Proper :=
  proper_outlines h.keys fun member hmember => (h.nodes member hmember).outline

/-! ## Scalars -/

variable {text rest : List Char} {value : Outline}

theorem isPlain_of_map {α : Type} {read : Option α} {f : α → Outline}
    (hf : ∀ part, (f part).IsPlain) (h : read.map f = some value) : value.IsPlain := by
  obtain ⟨part, -, h⟩ := Option.map_eq_some_iff.mp h
  rw [← h]
  exact hf part

theorem integer_isPlain (n : Int) : (integer n).IsPlain := by
  unfold integer
  split <;> trivial

theorem integerOfText?_isPlain (h : integerOfText? text = some value) : value.IsPlain := by
  unfold integerOfText? at h
  split at h <;> exact isPlain_of_map (fun _ => integer_isPlain _) h

theorem finite_isPlain (d : Decimal) : (finite d).IsPlain := by
  unfold finite
  dsimp only
  split <;> trivial

theorem unsignedNumberOfText?_isPlain {negative : Bool}
    (h : unsignedNumberOfText? negative text = some value) : value.IsPlain := by
  unfold unsignedNumberOfText? at h
  split at h
  · cases h
    trivial
  · split at h
    · cases h
      trivial
    · dsimp only at h
      split at h
      · split at h
        · split at h
          · cases h
            exact finite_isPlain _
          · exact isPlain_of_map (fun _ => finite_isPlain _) h
        · cases h
      · split at h
        · cases h
          exact finite_isPlain _
        · cases h
      · cases h

theorem numberOfText?_isPlain (h : numberOfText? text = some value) : value.IsPlain := by
  unfold numberOfText? at h
  split at h <;> exact unsignedNumberOfText?_isPlain h

theorem date_proper (text : List Char) : (date text).Proper := by
  refine .table (List.nodup_singleton _) (fun member hmember => ?_) fun member hmember => ?_
  · rw [List.mem_singleton] at hmember
    rw [hmember]
    rfl
  · rw [List.mem_singleton] at hmember
    rw [hmember]
    exact .plain trivial

theorem scalarOfText?_proper (h : scalarOfText? edition text = some value) :
    value.Proper := by
  unfold scalarOfText? at h
  split at h
  · cases h
    exact .plain trivial
  · split at h
    · cases h
      exact .plain trivial
    · split at h
      · next hinteger =>
        cases h
        exact .plain (integerOfText?_isPlain hinteger)
      · split at h
        · next hnumber =>
          cases h
          exact .plain (numberOfText?_isPlain hnumber)
        · split at h
          · cases h
            exact date_proper text
          · cases h

theorem readScalar_proper (h : readScalar edition text = some (value, rest)) :
    value.Proper := by
  unfold readScalar at h
  dsimp only at h
  obtain ⟨scalar, hscalar, h⟩ := Option.map_eq_some_iff.mp h
  cases h
  exact scalarOfText?_proper hscalar

/-! ## Values and lines -/

/-- The values, items and pairs that are read with some fuel. -/
structure ReadsProper (edition : Edition) (fuel : Nat) : Prop where
  value : ∀ {depth text value rest}, readValue edition fuel depth text = some (value, rest) →
    value.Proper
  items : ∀ {depth text items rest}, readItems edition fuel depth text = some (items, rest) →
    ∀ item ∈ items, item.Proper
  pairs : ∀ {depth text rest} {members result : Members}, members.Distinct →
    readPairs edition fuel depth members text = some (result, rest) → result.Distinct

theorem ReadsProper.value_succ {fuel depth : Nat} {value : Outline} {rest : List Char}
    (ih : ReadsProper edition fuel)
    (h : readValue edition (fuel + 1) depth text = some (value, rest)) : value.Proper := by
  rw [readValue.eq_def] at h
  dsimp only at h
  split at h
  · obtain ⟨s, -, h⟩ := Option.map_eq_some_iff.mp h
    cases h
    exact .plain trivial
  · obtain ⟨s, -, h⟩ := Option.map_eq_some_iff.mp h
    cases h
    exact .plain trivial
  · split at h
    · cases h
    · obtain ⟨⟨items, rest⟩, hitems, h⟩ := Option.map_eq_some_iff.mp h
      cases h
      exact .list (ih.items hitems)
  · split at h
    · cases h
    · split at h
      · cases h
      · cases h
        exact .table List.nodup_nil (fun _ hmember => nomatch hmember)
          fun _ hmember => nomatch hmember
      · obtain ⟨⟨members, rest⟩, hmembers, h⟩ := Option.map_eq_some_iff.mp h
        cases h
        exact (ih.pairs Members.distinct_nil hmembers).outline
  · exact readScalar_proper h

theorem ReadsProper.items_succ {fuel depth : Nat} {items : List Outline} {rest : List Char}
    (ih : ReadsProper edition fuel)
    (h : readItems edition (fuel + 1) depth text = some (items, rest)) :
    ∀ item ∈ items, item.Proper := by
  rw [readItems.eq_def] at h
  dsimp only at h
  split at h
  · cases h
  · cases h
    exact fun _ hitem => nomatch hitem
  · split at h
    · cases h
    · next first rest hfirst =>
      split at h
      · cases h
        intro item hitem
        rw [List.mem_singleton] at hitem
        rw [hitem]
        exact ih.value hfirst
      · obtain ⟨⟨items, rest⟩, hitems, h⟩ := Option.map_eq_some_iff.mp h
        cases h
        intro item hitem
        rcases List.mem_cons.mp hitem with hitem | hitem
        · rw [hitem]
          exact ih.value hfirst
        · exact ih.items hitems item hitem
      · cases h

theorem ReadsProper.pairs_succ {fuel depth : Nat} {members result : Members} {rest : List Char}
    (ih : ReadsProper edition fuel) (hmembers : members.Distinct)
    (h : readPairs edition (fuel + 1) depth members text = some (result, rest)) :
    result.Distinct := by
  rw [readPairs.eq_def] at h
  dsimp only at h
  obtain ⟨⟨path, key, afterKey⟩, -, h⟩ := Option.bind_eq_some_iff.mp h
  obtain ⟨afterGap, -, h⟩ := Option.bind_eq_some_iff.mp h
  obtain ⟨afterSign, -, h⟩ := Option.bind_eq_some_iff.mp h
  obtain ⟨beforeValue, -, h⟩ := Option.bind_eq_some_iff.mp h
  obtain ⟨⟨value, afterValue⟩, hvalue, h⟩ := Option.bind_eq_some_iff.mp h
  obtain ⟨next, hnext, h⟩ := Option.bind_eq_some_iff.mp h
  have hdistinct := Members.insert_distinct hmembers (ih.value hvalue) hnext
  obtain ⟨afterPair, -, h⟩ := Option.bind_eq_some_iff.mp h
  split at h
  · cases h
    exact hdistinct
  · obtain ⟨afterComma, -, h⟩ := Option.bind_eq_some_iff.mp h
    split at h
    · split at h
      · cases h
        exact hdistinct
      · cases h
    · exact ih.pairs hdistinct h
  · cases h

theorem readsProper (fuel : Nat) : ReadsProper edition fuel := by
  induction fuel with
  | zero =>
    refine ⟨fun h => ?_, fun h => ?_, fun _ h => ?_⟩
    · rw [readValue] at h
      cases h
    · rw [readItems] at h
      cases h
    · rw [readPairs] at h
      cases h
  | succ fuel ih => exact ⟨ih.value_succ, ih.items_succ, ih.pairs_succ⟩

theorem readLines_distinct {fuel : Nat} {header : List String} {members result : Members}
    (hmembers : members.Distinct) (h : readLines edition fuel header members text = some result) :
    result.Distinct := by
  induction fuel generalizing header members text with
  | zero =>
    rw [readLines] at h
    cases h
  | succ fuel ih =>
    rw [readLines] at h
    split at h
    · cases h
      exact hmembers
    · split at h
      · cases h
      · next isItem path key rest hheader =>
        dsimp only at h
        split at h
        · cases h
        · next opened hopened =>
          refine ih (Members.descend_distinct ?_ hmembers hopened) h
          intro before after hbefore hafter
          split at hafter
          · exact Members.openItem_distinct hbefore hafter
          · exact Members.openTable_distinct hbefore hafter
    · split at h
      · split at h
        · cases h
        · exact ih hmembers h
      · split at h
        · next path key afterKey hkey =>
          split at h
          · cases h
          · next value afterValue hvalue =>
            split at h
            · cases h
            · next changed hchanged =>
              have hdistinct := Members.change_distinct (fun hbefore hafter =>
                Members.insert_distinct hbefore ((readsProper _).value hvalue) hafter)
                hmembers hchanged
              split at h
              · cases h
              · exact ih hdistinct h
        · cases h

/-- What is read of a whole text is read to its end, and no table in it has a key twice. -/
theorem outline?_proper {text : String} {outline : Outline}
    (h : outline? edition text = some outline) : outline.Proper := by
  unfold outline? at h
  dsimp only at h
  obtain ⟨members, hmembers, h⟩ := Option.map_eq_some_iff.mp h
  rw [← h]
  exact (readLines_distinct Members.distinct_nil hmembers).outline

end Toml
end PlaneReport
