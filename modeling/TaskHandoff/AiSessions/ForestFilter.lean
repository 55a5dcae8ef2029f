import TaskHandoff.AiSessions.ForestSpec

/-! # Filtering and flattening the session forest

The filter marks what matches and, going up the parents, every ancestor of it. The flattened list
goes down from the roots through what is marked. -/

namespace TaskHandoff.AiSessions

open List Option Relation AiSessionForest
open TaskHandoff.Events (truthy)
open ForestTraversal (ChildOf InSubtree IsForest IsRoots Preorder)

structure AiSessionForestFilter where
  visibleSessionIds : Finset String
  expandedSessionIds : Finset String

structure AiSessionTreeEntry where
  node : AiSessionNode
  depth : Nat

/-- `forest.nodesById.get(node.parentSessionId)`, looked up when the id is truthy. -/
def AiSessionForest.parent (forest : AiSessionForest) (node : AiSessionNode) : Option AiSessionNode :=
  (truthy (forest.fields node).parentSessionId).bind forest.nodesById.get?

/-- The loop up the parents of a match. -/
def markParents (forest : AiSessionForest) :
    Nat → AiSessionNode → AiSessionForestFilter → AiSessionForestFilter
  | 0, _, filter => filter
  | fuel + 1, current, filter =>
    match forest.parent current with
    | none => filter
    | some parent =>
      markParents forest fuel parent
        ⟨insert parent.session.id filter.visibleSessionIds,
          insert parent.session.id filter.expandedSessionIds⟩

def markMatch (forest : AiSessionForest) (predicate : AiSessionHierarchyRecord → Bool) (fuel : Nat)
    (filter : AiSessionForestFilter) (node : AiSessionNode) : AiSessionForestFilter :=
  if predicate node.session then
    markParents forest fuel node
      { filter with visibleSessionIds := insert node.session.id filter.visibleSessionIds }
  else filter

def filterAiSessionForest (fuel : Nat) (forest : AiSessionForest)
    (predicate : AiSessionHierarchyRecord → Bool) : AiSessionForestFilter :=
  forest.nodesById.values.foldl (markMatch forest predicate fuel) ⟨∅, ∅⟩

structure FlattenOptions where
  expandedSessionIds : Option (Finset String)
  forcedExpandedSessionIds : Option (Finset String)
  visibleSessionIds : Option (Finset String)

def FlattenOptions.hides (options : FlattenOptions) (node : AiSessionNode) : Bool :=
  options.visibleSessionIds.any fun ids => node.session.id ∉ ids

def FlattenOptions.expands (options : FlattenOptions) (node : AiSessionNode) : Bool :=
  (options.expandedSessionIds.any fun ids => node.session.id ∈ ids) ||
    options.forcedExpandedSessionIds.any fun ids => node.session.id ∈ ids

/-- The stack loop; the top of the stack is the head of the list. -/
def flattenFrom (forest : AiSessionForest) (options : FlattenOptions) :
    Nat → List AiSessionTreeEntry → List AiSessionTreeEntry → List AiSessionTreeEntry
  | 0, _, entries => entries
  | _ + 1, [], entries => entries
  | fuel + 1, entry :: stack, entries =>
    if options.hides entry.node then flattenFrom forest options fuel stack entries
    else if options.expands entry.node then
      flattenFrom forest options fuel
        ((forest.children entry.node).map (⟨·, entry.depth + 1⟩) ++ stack) (entries ++ [entry])
    else flattenFrom forest options fuel stack (entries ++ [entry])

def flattenAiSessionForest (fuel : Nat) (forest : AiSessionForest) (options : FlattenOptions) :
    List AiSessionTreeEntry :=
  flattenFrom forest options fuel (forest.roots.map (⟨·, 0⟩)) []

/-! ## The flattened list -/

/-- The children the loop goes down to. -/
def shownChildren (forest : AiSessionForest) (options : FlattenOptions) (node : AiSessionNode) :
    List AiSessionNode :=
  if !options.hides node && options.expands node then forest.children node else []

variable {forest : AiSessionForest} {options : FlattenOptions} {fuel : Nat}

theorem shownChildren_sublist (node : AiSessionNode) :
    (shownChildren forest options node).Sublist (forest.children node) := by
  unfold shownChildren
  split
  · exact .refl _
  · exact nil_sublist _

theorem flattenFrom_cons (fuel : Nat) (entry : AiSessionTreeEntry)
    (stack entries : List AiSessionTreeEntry) :
    flattenFrom forest options (fuel + 1) (entry :: stack) entries = flattenFrom forest options fuel
        ((shownChildren forest options entry.node).map (⟨·, entry.depth + 1⟩) ++ stack)
        (entries ++ if options.hides entry.node then [] else [entry]) := by
  rw [flattenFrom, shownChildren]
  cases options.hides entry.node <;> cases options.expands entry.node <;> simp

theorem flattenFrom_preorder {tops order : List AiSessionNode}
    (hp : Preorder (shownChildren forest options) tops order) (depth fuel : Nat)
    (stack entries : List AiSessionTreeEntry) :
    ∃ listed, listed.map (·.node) = order.filter (!options.hides ·) ∧
      flattenFrom forest options (fuel + order.length) (tops.map (⟨·, depth⟩) ++ stack) entries =
        flattenFrom forest options fuel stack (entries ++ listed) := by
  induction hp generalizing depth fuel stack entries with
  | nil => exact ⟨[], rfl, by simp⟩
  | @cons t tops below rest hbelow hrest ihbelow ihrest =>
    have hfuel : fuel + (t :: (below ++ rest)).length = fuel + rest.length + below.length + 1 := by
      simp only [length_cons, length_append]
      omega
    have ⟨first, hfirst, hdown⟩ := ihbelow (depth + 1) (fuel + rest.length)
      (tops.map (⟨·, depth⟩) ++ stack) (entries ++ if options.hides t then [] else [⟨t, depth⟩])
    have ⟨second, hsecond, hnext⟩ := ihrest depth fuel stack
      ((entries ++ if options.hides t then [] else [⟨t, depth⟩]) ++ first)
    refine ⟨(if options.hides t then [] else [⟨t, depth⟩]) ++ first ++ second, ?_, ?_⟩
    · rw [map_append, map_append, hfirst, hsecond, filter_cons]
      cases options.hides t <;> simp
    · rw [hfuel, map_cons, cons_append, flattenFrom_cons, hdown, hnext]
      simp only [append_assoc]

variable (options) in
theorem flatten_preorder {nodes : List AiSessionNode} (hforest : IsForest nodes forest.children)
    (hroots : IsRoots nodes forest.children forest.roots) (hfuel : nodes.length ≤ fuel) :
    ∃ order, Preorder (shownChildren forest options) forest.roots order ∧
      (order.Pairwise fun a b => ¬ InSubtree (shownChildren forest options) a b) ∧
      (flattenAiSessionForest fuel forest options).map (·.node) =
        order.filter (!options.hides ·) := by
  have hshown : ∀ p, (shownChildren forest options p).Sublist (forest.children p) :=
    shownChildren_sublist
  have hsub := hforest.sublist hshown
  have ⟨order, hp⟩ := hsub.exists_preorder forest.roots
  have hordered := hp.ordered hsub (hroots.apart.sublist hshown)
  have hnodup : order.Nodup := by
    apply hordered.imp
    rintro a _ hnot rfl
    exact hnot .refl
  have hmem : ∀ x ∈ order, x ∈ nodes := by
    intro x hx
    obtain ⟨r, hr, hxr⟩ := (hp.mem_iff x).mp hx
    exact hsub.mem_of_inSubtree ((hroots.mem_iff r).mp hr).1 hxr
  have hlength := (subperm_of_subset hnodup hmem).length_le
  have ⟨listed, hlisted, hrun⟩ := flattenFrom_preorder hp 0 (fuel - order.length) [] []
  rw [Nat.sub_add_cancel (by omega), append_nil, nil_append] at hrun
  have hflat : flattenAiSessionForest fuel forest options = listed := by
    rw [flattenAiSessionForest, hrun]
    cases fuel - order.length <;> rfl
  exact ⟨order, hp, hordered, hflat ▸ hlisted⟩

/-! ## The marks -/

section Marks

variable {nodes : List AiSessionNode} {predicate : AiSessionHierarchyRecord → Bool}

/-- What the loops over parents need of a forest. -/
structure ParentLinked (forest : AiSessionForest) (nodes : List AiSessionNode) : Prop where
  isForest : IsForest nodes forest.children
  parent_iff : ∀ node ∈ nodes, ∀ parent, forest.parent node = some parent ↔
    node ∈ forest.children parent

/-- The loop reaches every ancestor, as the nodes it came through are all different. -/
theorem mem_markParents (h : ParentLinked forest nodes) {current : AiSessionNode}
    {path : List AiSessionNode} (filter : AiSessionForestFilter) (hnodup : (current :: path).Nodup)
    (hnodes : ∀ x ∈ current :: path, x ∈ nodes)
    (hpath : ∀ x ∈ path, TransGen (ChildOf forest.children) x current)
    (hfuel : nodes.length ≤ fuel + path.length) (id : String) :
    (id ∈ (markParents forest fuel current filter).visibleSessionIds ↔
      id ∈ filter.visibleSessionIds ∨
        ∃ a, TransGen (ChildOf forest.children) current a ∧ a.session.id = id) ∧
    (id ∈ (markParents forest fuel current filter).expandedSessionIds ↔
      id ∈ filter.expandedSessionIds ∨
        ∃ a, TransGen (ChildOf forest.children) current a ∧ a.session.id = id) := by
  induction fuel generalizing current path filter with
  | zero =>
    have hlength := (subperm_of_subset hnodup hnodes).length_le
    rw [length_cons] at hlength
    omega
  | succ fuel ih =>
    have hcurrent := hnodes current mem_cons_self
    have habove : ∀ a, TransGen (ChildOf forest.children) current a ↔
        ∃ parent, forest.parent current = some parent ∧ InSubtree forest.children parent a := by
      intro a
      rw [TransGen.head'_iff]
      simp only [h.parent_iff current hcurrent]
      rfl
    cases hparent : forest.parent current with
    | none => simp [markParents, hparent, habove]
    | some parent =>
      have hchild := (h.parent_iff current hcurrent parent).mp hparent
      have hbelow : ∀ x ∈ current :: path, TransGen (ChildOf forest.children) x parent := by
        intro x hx
        rcases mem_cons.mp hx with rfl | hx
        · exact .single hchild
        · exact (hpath x hx).tail hchild
      have hnew : parent ∉ current :: path := fun hin => h.isForest.acyclic parent (hbelow parent hin)
      have hmem : ∀ x ∈ parent :: current :: path, x ∈ nodes :=
        forall_mem_cons.mpr ⟨(h.isForest.mem parent current hchild).2, hnodes⟩
      have hnext := ih ⟨insert parent.session.id filter.visibleSessionIds,
          insert parent.session.id filter.expandedSessionIds⟩
        (nodup_cons.mpr ⟨hnew, hnodup⟩) hmem hbelow (by rw [length_cons]; omega)
      have hsame : (∃ a, TransGen (ChildOf forest.children) current a ∧
          a.session.id = id) ↔ id = parent.session.id ∨
            ∃ a, TransGen (ChildOf forest.children) parent a ∧ a.session.id = id := by
        simp only [habove, hparent, some.injEq, exists_eq_left', InSubtree,
          reflTransGen_iff_eq_or_transGen]
        grind
      rw [markParents]
      grind

variable (predicate) in
theorem mem_foldl_markMatch (h : ParentLinked forest nodes) (hfuel : nodes.length ≤ fuel)
    {l : List AiSessionNode} (hl : ∀ node ∈ l, node ∈ nodes) (filter : AiSessionForestFilter)
    (id : String) : (id ∈ (l.foldl (markMatch forest predicate fuel) filter).visibleSessionIds ↔
      id ∈ filter.visibleSessionIds ∨ ∃ below ∈ l, predicate below.session = true ∧
        ∃ a, InSubtree forest.children below a ∧ a.session.id = id) ∧
    (id ∈ (l.foldl (markMatch forest predicate fuel) filter).expandedSessionIds ↔
      id ∈ filter.expandedSessionIds ∨ ∃ below ∈ l, predicate below.session = true ∧
        ∃ a, TransGen (ChildOf forest.children) below a ∧ a.session.id = id) := by
  induction l generalizing filter with
  | nil => simp
  | cons node l ih =>
    have ⟨hnode, hl⟩ := forall_mem_cons.mp hl
    have hmarks := mem_markParents h
      { filter with visibleSessionIds := insert node.session.id filter.visibleSessionIds }
      (nodup_singleton node) (by simpa using hnode) (by simp) hfuel id
    have hself : (∃ a, InSubtree forest.children node a ∧ a.session.id = id) ↔
        id = node.session.id ∨
          ∃ a, TransGen (ChildOf forest.children) node a ∧ a.session.id = id := by
      simp only [InSubtree, reflTransGen_iff_eq_or_transGen]
      grind
    simp only [foldl_cons, ih hl, exists_mem_cons_iff, hself]
    unfold markMatch
    split
    · simp only [hmarks, Finset.mem_insert]
      grind
    · grind

end Marks

/-! ## Filter and list together -/

/-- The list has every match and every ancestor of a match, each once and above what is below it. -/
structure ListsMatches (forest : AiSessionForest) (nodes : List AiSessionNode)
    (predicate : AiSessionHierarchyRecord → Bool) (entries : List AiSessionTreeEntry) : Prop where
  once : (entries.map (·.node.session.id)).Nodup
  exactly : ∀ node, node ∈ entries.map (·.node) ↔ node ∈ nodes ∧
    ∃ below ∈ nodes, predicate below.session = true ∧ InSubtree forest.children below node
  ordered : entries.Pairwise fun a b => ¬ InSubtree forest.children a.node b.node

section Derived

variable {sessions : List AiSessionHierarchyRecord} (dateParse : String → Option Int)
  (localeCompare : String → String → Int) (orderBy : Option AiSessionForestOrder)

theorem linked_derive (hids : (sessions.map (·.id)).Nodup) :
    ParentLinked (deriveAiSessionForest dateParse localeCompare sessions orderBy)
      (sessionNodes sessions) := by
  have hd := distinctIds_sessionNodes hids
  have hnodes := sessionNodes_nodup sessions
  have hforest := isForest_forestOfNodes dateParse localeCompare orderBy hd hnodes
  refine ⟨hforest, fun node hn parent => ?_⟩
  have hget := get?_nodesById dateParse localeCompare orderBy hd hn
  have hsettled := parentOf_forestOfNodes dateParse localeCompare orderBy hd hnodes node.session.id
  rw [parentOf, hget] at hsettled
  rw [AiSessionForest.parent, bind_eq_some_iff]
  constructor
  · rintro ⟨parentId, hparent, hfound⟩
    obtain ⟨hp, rfl⟩ := (get?_indexNodesById hd).mp hfound
    apply (mem_children_forestOfNodes dateParse localeCompare orderBy hd hnodes hn hp).mpr
    rw [parentOf, hget]
    exact (truthy_eq_some.mp hparent).1
  intro hchild
  have hp := (hforest.mem parent node hchild).2
  have hid := (mem_children_forestOfNodes dateParse localeCompare orderBy hd hnodes hn hp).mp hchild
  rw [parentOf, hget] at hid
  refine ⟨parent.session.id, truthy_eq_some.mpr ⟨hid, ?_⟩,
    get?_nodesById dateParse localeCompare orderBy hd hp⟩
  exact (truthy_eq_some.mp (hsettled.symm.trans hid)).2

theorem inSubtree_shown {forest : AiSessionForest} {options : FlattenOptions} {x r : AiSessionNode}
    (hshows : ∀ c p, c ∈ forest.children p → InSubtree forest.children x c →
      (!options.hides p && options.expands p) = true)
    (hx : InSubtree forest.children x r) : InSubtree (shownChildren forest options) x r := by
  induction hx with
  | refl => exact .refl
  | @tail c p hc hcp ih =>
    refine ih.tail ?_
    rw [ChildOf, shownChildren, if_pos (hshows c p hcp hc)]
    exact hcp

/-- With the sets of the filter the list has the matches and their ancestors, whatever else is
expanded. -/
theorem flatten_filter (hids : (sessions.map (·.id)).Nodup)
    (predicate : AiSessionHierarchyRecord → Bool) (expanded : Option (Finset String)) {fuel : Nat}
    (hfuel : sessions.length ≤ fuel) :
    let forest := deriveAiSessionForest dateParse localeCompare sessions orderBy
    let filter := filterAiSessionForest fuel forest predicate
    ListsMatches forest (sessionNodes sessions) predicate (flattenAiSessionForest fuel forest
        ⟨expanded, some filter.expandedSessionIds, some filter.visibleSessionIds⟩) := by
  intro forest filter
  have hd := distinctIds_sessionNodes hids
  have hlinked : ParentLinked forest (sessionNodes sessions) :=
    linked_derive dateParse localeCompare orderBy hids
  have hforest := hlinked.isForest
  have hroots : IsRoots (sessionNodes sessions) forest.children forest.roots :=
    isRoots_forestOfNodes dateParse localeCompare orderBy hd (sessionNodes_nodup sessions)
  have hlength : (sessionNodes sessions).length ≤ fuel := by simpa [sessionNodes] using hfuel
  have hvalues : forest.nodesById.values = sessionNodes sessions :=
    Keyed.values_index (fun node : AiSessionNode => node.session.id) hd
  have hmarks := mem_foldl_markMatch predicate hlinked hlength (fun _ => id) ⟨∅, ∅⟩
  have hfilter : filter = (sessionNodes sessions).foldl (markMatch forest predicate fuel) ⟨∅, ∅⟩ :=
    congrArg (·.foldl (markMatch forest predicate fuel) ⟨∅, ∅⟩) hvalues
  generalize hoptions : (⟨expanded, some filter.expandedSessionIds,
    some filter.visibleSessionIds⟩ : FlattenOptions) = options
  have habove : ∀ below a, below ∈ sessionNodes sessions → InSubtree forest.children below a →
      a ∈ sessionNodes sessions := by
    intro below a hbelow ha
    rcases ha.cases_tail with rfl | ⟨c, _, hca⟩
    · exact hbelow
    · exact (hforest.mem a c hca).2
  have hvisible : ∀ node ∈ sessionNodes sessions, options.hides node = false ↔
      ∃ below ∈ sessionNodes sessions, predicate below.session = true ∧
        InSubtree forest.children below node := by
    intro node hn
    have hiff : options.hides node = false ↔ node.session.id ∈ filter.visibleSessionIds := by
      subst hoptions
      simp [FlattenOptions.hides]
    rw [hiff, hfilter, (hmarks node.session.id).1]
    constructor
    · rintro (hnone | ⟨below, hbelow, hmatch, a, ha, hid⟩)
      · cases hnone
      · exact ⟨below, hbelow, hmatch, hd.eq (habove below a hbelow ha) hn hid ▸ ha⟩
    · rintro ⟨below, hbelow, hmatch, hup⟩
      exact .inr ⟨below, hbelow, hmatch, node, hup, rfl⟩
  have hexpands : ∀ below ∈ sessionNodes sessions, predicate below.session = true → ∀ p,
      TransGen (ChildOf forest.children) below p → options.expands p = true := by
    intro below hbelow hmatch p hup
    have hin : p.session.id ∈ filter.expandedSessionIds := by
      rw [hfilter, (hmarks p.session.id).2]
      exact .inr ⟨below, hbelow, hmatch, p, hup, rfl⟩
    subst hoptions
    simp [FlattenOptions.expands, hin]
  have hshown : ∀ node ∈ sessionNodes sessions, options.hides node = false → ∀ r,
      InSubtree forest.children node r → InSubtree (shownChildren forest options) node r := by
    intro node hn hshows r hr
    obtain ⟨below, hbelow, hmatch, hup⟩ := (hvisible node hn).mp hshows
    apply inSubtree_shown _ hr
    intro c p hcp hxc
    have hpath : TransGen (ChildOf forest.children) below p := TransGen.tail' (hup.trans hxc) hcp
    have hp := habove below p hbelow hpath.to_reflTransGen
    rw [(hvisible p hp).mpr ⟨below, hbelow, hmatch, hpath.to_reflTransGen⟩,
      hexpands below hbelow hmatch p hpath]
    rfl
  obtain ⟨order, hp, hordered, hlist⟩ := flatten_preorder options hforest hroots hlength
  have hmem : ∀ node, node ∈ order.filter (!options.hides ·) ↔ node ∈ sessionNodes sessions ∧
      options.hides node = false := by
    intro node
    rw [mem_filter, Bool.not_eq_true', hp.mem_iff]
    constructor
    · rintro ⟨⟨r, hr, hnr⟩, hshows⟩
      exact ⟨hforest.mem_of_inSubtree ((hroots.mem_iff r).mp hr).1 (hnr.mono shownChildren_sublist),
        hshows⟩
    rintro ⟨hn, hshows⟩
    obtain ⟨r, hr, hnr⟩ := hforest.exists_root hroots hn
    exact ⟨⟨r, hr, hshown node hn hshows r hnr⟩, hshows⟩
  have hpairs : ((flattenAiSessionForest fuel forest options).map (·.node)).Pairwise
      fun a b => ¬ InSubtree forest.children a b := by
    rw [hlist]
    apply (hordered.sublist filter_sublist).imp_of_mem
    intro a b ha _ hnot hab
    obtain ⟨hn, hshows⟩ := (hmem a).mp ha
    exact hnot (hshown a hn hshows b hab)
  refine ⟨?_, ?_, pairwise_map.mp hpairs⟩
  · have hids : ((flattenAiSessionForest fuel forest options).map (·.node)).Pairwise
        fun a b => a.session.id ≠ b.session.id := by
      apply hpairs.imp_of_mem
      intro a b ha hb hnot heq
      rw [hlist] at ha hb
      have hsame := hd.eq ((hmem a).mp ha).1 ((hmem b).mp hb).1 heq
      exact hnot (hsame ▸ .refl)
    simpa [List.Nodup, pairwise_map] using hids
  · intro node
    rw [hlist, hmem]
    exact and_congr_right fun hn => hvisible node hn

end Derived

/-- Going down from the broken cycle of the example to the child that matches; the orphan and the
other session of the cycle are left out. -/
theorem flatten_filter_example :
    ∃ forest entries, forest = deriveAiSessionForest exampleDate (fun _ _ => 0) exampleSessions none ∧
      entries.map (fun entry : AiSessionTreeEntry => (entry.node.session.id, entry.depth)) =
        [("a", 0), ("c", 1)] ∧
      ListsMatches forest (sessionNodes exampleSessions) (fun session => session.id = "c") entries :=
  ⟨_, _, rfl, by decide, flatten_filter exampleDate (fun _ _ => 0) none
    (show (exampleSessions.map (·.id)).Nodup by decide) (fun session => session.id = "c") none
    (Nat.le_refl 4)⟩

/-- Two sessions under one id. -/
def exampleSharedId : List AiSessionHierarchyRecord :=
  [exampleSession "a" "pa" none "t", exampleSession "a" "pb" none "tt"]

/-- The index holds only one of two sessions under one id. -/
theorem flatten_filter_limits :
    ∃ forest predicate, forest = deriveAiSessionForest exampleDate (fun _ _ => 0) exampleSharedId none ∧
      (∃ session ∈ exampleSharedId, predicate session = true) ∧
      let filter := filterAiSessionForest 2 forest predicate
      flattenAiSessionForest 2 forest
        ⟨none, some filter.expandedSessionIds, some filter.visibleSessionIds⟩ = [] :=
  ⟨_, fun session => session.providerSessionId = some "pa", rfl, by decide, by decide⟩

end TaskHandoff.AiSessions
