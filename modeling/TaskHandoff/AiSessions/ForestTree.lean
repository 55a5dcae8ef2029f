import TaskHandoff.AiSessions.ForestParents

/-! # The tree of the session forest

Settling the nodes in postorder folds finished children into their parent, so
each node ends with the latest activity of its subtree. Sorting only reorders
siblings: the returned tree is the linked one.
-/

namespace TaskHandoff.AiSessions

open List
open TaskHandoff.Events (truthy)
open ParentCycles (Edge OnCycle)
open ForestTraversal (ChildOf InSubtree IsForest IsRoots)

variable (dateParse : String → Option Int) (localeCompare : String → String → Int)
variable (orderBy : Option AiSessionForestOrder) (indexById : OrderedMap String Nat)
variable {nodes : List AiSessionNode}

/-! ## The latest time of a list -/

theorem timestamp_latestTimestamp (left right : Option String) :
    timestamp dateParse left ≤ timestamp dateParse (latestTimestamp dateParse left right) ∧
      timestamp dateParse right ≤ timestamp dateParse (latestTimestamp dateParse left right) := by
  unfold latestTimestamp
  split
  next hlt => exact ⟨hlt.le, le_refl _⟩
  next hle => exact ⟨le_refl _, not_lt.mp hle⟩

theorem foldl_latestTimestamp {α : Type} (value : α → Option String) (l : List α)
    (start : Option String) :
    let latest := l.foldl (fun latest a => latestTimestamp dateParse latest (value a)) start
    (latest = start ∨ ∃ a ∈ l, latest = value a) ∧
      timestamp dateParse start ≤ timestamp dateParse latest ∧
      ∀ a ∈ l, timestamp dateParse (value a) ≤ timestamp dateParse latest := by
  induction l generalizing start with
  | nil => exact ⟨.inl rfl, le_refl _, by simp⟩
  | cons b l ih =>
    obtain ⟨hone, hstart, hall⟩ := ih (latestTimestamp dateParse start (value b))
    have hbound := timestamp_latestTimestamp dateParse start (value b)
    refine ⟨?_, hbound.1.trans hstart, ?_⟩
    · rcases hone with hfirst | ⟨a, ha, hlater⟩
      · have hchoice : latestTimestamp dateParse start (value b) = start ∨
            latestTimestamp dateParse start (value b) = value b := by
          unfold latestTimestamp
          split
          · exact .inr rfl
          · exact .inl rfl
        rcases hchoice with hs | hb
        · exact .inl (hfirst.trans hs)
        · exact .inr ⟨b, mem_cons_self, hfirst.trans hb⟩
      · exact .inr ⟨a, mem_cons_of_mem b ha, hlater⟩
    · intro a ha
      rcases mem_cons.mp ha with rfl | hin
      · exact hbound.2.trans hstart
      · exact hall a hin

/-- `value` is the own value of a node of the subtree, and no own value there is later. -/
def IsLatestBelow (children : AiSessionNode → List AiSessionNode)
    (own : AiSessionNode → Option String) (node : AiSessionNode) (value : Option String) : Prop :=
  (∃ x, InSubtree children x node ∧ own x = value) ∧
    ∀ x, InSubtree children x node → timestamp dateParse (own x) ≤ timestamp dateParse value

variable {node : AiSessionNode} {fields : AiSessionNode → AiSessionNodeFields}
  {settled : List AiSessionNode}

theorem isLatestBelow_foldl {children : AiSessionNode → List AiSessionNode}
    {own latest : AiSessionNode → Option String} (hchildren : ∀ child ∈ children node,
      IsLatestBelow dateParse children own child (latest child)) :
    IsLatestBelow dateParse children own node
      ((children node).foldl (fun value child => latestTimestamp dateParse value (latest child))
        (own node)) := by
  obtain ⟨hone, hown, hall⟩ := foldl_latestTimestamp dateParse latest (children node) (own node)
  constructor
  · rcases hone with hself | ⟨child, hmem, hchild⟩
    · exact ⟨node, .refl, hself.symm⟩
    · obtain ⟨⟨x, hx, hvalue⟩, -⟩ := hchildren child hmem
      exact ⟨x, hx.tail hmem, hvalue.trans hchild.symm⟩
  · intro x hx
    rcases ForestTraversal.inSubtree_iff.mp hx with rfl | ⟨child, hmem, hbelow⟩
    · exact hown
    · exact ((hchildren child hmem).2 x hbelow).trans (hall child hmem)

/-! ## Settling the nodes -/

theorem sortNodes_perm (fields : AiSessionNode → AiSessionNodeFields) (l : List AiSessionNode) :
    (sortNodes dateParse localeCompare orderBy indexById fields l).Perm l :=
  perm_insertionSort _ l

/-- The fields after some nodes are settled. -/
structure Settled (nodes settled : List AiSessionNode)
    (fields : AiSessionNode → AiSessionNodeFields) : Prop where
  parent : ∀ node, (fields node).parentSessionId = (linkedFields dateParse nodes node).parentSessionId
  children : ∀ node, (fields node).children.Perm (linkedChildren nodes node)
  pending : ∀ node, node ∉ settled → fields node = linkedFields dateParse nodes node
  updated : ∀ node ∈ settled, IsLatestBelow dateParse (linkedChildren nodes)
    (fun x => some x.session.updatedAt) node (fields node).aggregateUpdatedAt
  active : ∀ node ∈ settled, IsLatestBelow dateParse (linkedChildren nodes)
    (fun x => ownLastActiveAt dateParse x.session) node (fields node).aggregateLastActiveAt

theorem Settled.start (nodes : List AiSessionNode) :
    Settled dateParse nodes [] (linkedFields dateParse nodes) where
  parent := fun _ => rfl
  children := fun _ => .refl _
  pending := fun _ _ => rfl
  updated := by simp
  active := by simp

variable {dateParse}

theorem Settled.step (hs : Settled dateParse nodes settled fields) (hnew : node ∉ settled)
    (hchildren : ∀ child ∈ linkedChildren nodes node, child ∈ settled) :
    Settled dateParse nodes (settled ++ [node])
      (settleNode dateParse localeCompare orderBy indexById fields node) := by
  have hown := hs.pending node hnew
  have hself : settleNode dateParse localeCompare orderBy indexById fields node node =
      { parentSessionId := (linkedFields dateParse nodes node).parentSessionId
        children := sortNodes dateParse localeCompare orderBy indexById fields
          (linkedChildren nodes node)
        aggregateUpdatedAt := (linkedChildren nodes node).foldl
          (fun latest child => latestTimestamp dateParse latest (fields child).aggregateUpdatedAt)
          (some node.session.updatedAt)
        aggregateLastActiveAt := (linkedChildren nodes node).foldl (fun latest child =>
            latestTimestamp dateParse latest (fields child).aggregateLastActiveAt)
          (ownLastActiveAt dateParse node.session) } := by
    simp [settleNode, hown, linkedFields]
  have hother : ∀ x, x ≠ node →
      settleNode dateParse localeCompare orderBy indexById fields node x = fields x := by
    intro x hx
    simp [settleNode, hx]
  constructor
  · intro x
    by_cases hx : x = node
    · rw [hx, hself]
    · rw [hother x hx, hs.parent x]
  · intro x
    by_cases hx : x = node
    · rw [hx, hself]
      exact sortNodes_perm dateParse localeCompare orderBy indexById fields _
    · rw [hother x hx]
      exact hs.children x
  · intro x hx
    rw [mem_append, mem_singleton, not_or] at hx
    rw [hother x hx.2]
    exact hs.pending x hx.1
  · intro x hx
    by_cases he : x = node
    · rw [he, hself]
      exact isLatestBelow_foldl dateParse fun child hmem => hs.updated child (hchildren child hmem)
    · rw [hother x he]
      exact hs.updated x (by simpa [he] using hx)
  · intro x hx
    by_cases he : x = node
    · rw [he, hself]
      exact isLatestBelow_foldl dateParse fun child hmem => hs.active child (hchildren child hmem)
    · rw [hother x he]
      exact hs.active x (by simpa [he] using hx)

theorem Settled.foldl {order : List AiSessionNode}
    (hbefore : ∀ before node after, order = before ++ node :: after →
      ∀ child ∈ linkedChildren nodes node, child ∈ before) (hnodup : order.Nodup)
    {settled rest : List AiSessionNode} (hsplit : order = settled ++ rest)
    (hs : Settled dateParse nodes settled fields) : Settled dateParse nodes order
      (rest.foldl (settleNode dateParse localeCompare orderBy indexById) fields) := by
  induction rest generalizing settled fields with
  | nil =>
    rw [append_nil] at hsplit
    exact hsplit ▸ hs
  | cons node rest ih =>
    have hnew : node ∉ settled := by
      rw [hsplit] at hnodup
      exact fun hin => disjoint_of_nodup_append hnodup hin mem_cons_self
    have hstep := hs.step localeCompare orderBy indexById hnew (hbefore settled node rest hsplit)
    exact ih (by rw [hsplit, append_assoc]; rfl) hstep

/-! ## The derived forest -/

section Derived

variable (dateParse) (h : DistinctIds nodes) (hnodes : nodes.Nodup)

include h hnodes

theorem settled_settledFields :
    Settled dateParse nodes nodes (settledFields dateParse localeCompare orderBy nodes) := by
  have hforest := linked_isForest h hnodes
  have hroots := linked_isRoots hnodes
  have hperm := hforest.postorder_perm hnodes hroots (le_refl (2 * nodes.length))
  have hpost := hforest.isPostorder (fun r hmem => ((hroots.mem_iff r).mp hmem).1) hroots.apart
    (le_refl (2 * nodes.length))
  have hall := Settled.foldl localeCompare orderBy
    (.ofList (nodes.map fun node => (node.session.id, node.index)))
    (fun before node after hsplit => hpost.children_before hforest hsplit) hpost.nodup
    (nil_append _).symm (Settled.start dateParse nodes)
  exact ⟨hall.parent, hall.children,
    fun node hn => hall.pending node fun hin => hn (hperm.mem_iff.mp hin),
    fun node hn => hall.updated node (hperm.mem_iff.mpr hn),
    fun node hn => hall.active node (hperm.mem_iff.mpr hn)⟩

theorem children_forestOfNodes (parent : AiSessionNode) :
    ((forestOfNodes dateParse localeCompare nodes orderBy).children parent).Perm
      (linkedChildren nodes parent) :=
  (settled_settledFields dateParse localeCompare orderBy h hnodes).children parent

theorem childOf_forestOfNodes :
    ChildOf (forestOfNodes dateParse localeCompare nodes orderBy).children =
      ChildOf (linkedChildren nodes) := by
  funext child parent
  exact propext (children_forestOfNodes dateParse localeCompare orderBy h hnodes parent).mem_iff

theorem isForest_forestOfNodes :
    IsForest nodes (forestOfNodes dateParse localeCompare nodes orderBy).children := by
  have hlinked := linked_isForest h hnodes
  have hmem : ∀ parent child,
      child ∈ (forestOfNodes dateParse localeCompare nodes orderBy).children parent ↔
        child ∈ linkedChildren nodes parent :=
    fun parent child =>
      (children_forestOfNodes dateParse localeCompare orderBy h hnodes parent).mem_iff
  constructor
  · exact fun parent child hc => hlinked.mem parent child ((hmem parent child).mp hc)
  · intro parent
    exact (children_forestOfNodes dateParse localeCompare orderBy h hnodes parent).nodup_iff.mpr
      (hlinked.nodup parent)
  · exact fun p q child hp hq =>
      hlinked.unique p q child ((hmem p child).mp hp) ((hmem q child).mp hq)
  · rw [childOf_forestOfNodes dateParse localeCompare orderBy h hnodes]
    exact hlinked.acyclic

theorem isRoots_forestOfNodes :
    IsRoots nodes (forestOfNodes dateParse localeCompare nodes orderBy).children
      (forestOfNodes dateParse localeCompare nodes orderBy).roots := by
  have hlinked := linked_isRoots hnodes
  have hperm : (forestOfNodes dateParse localeCompare nodes orderBy).roots.Perm
      (linkedRoots nodes) := sortNodes_perm dateParse localeCompare orderBy _ _ _
  constructor
  · exact hperm.nodup_iff.mpr hlinked.nodup
  intro root
  rw [hperm.mem_iff, hlinked.mem_iff]
  have hmem : ∀ parent, root ∈ linkedChildren nodes parent ↔
      root ∈ (forestOfNodes dateParse localeCompare nodes orderBy).children parent :=
    fun parent =>
      (children_forestOfNodes dateParse localeCompare orderBy h hnodes parent).mem_iff.symm
  simp only [hmem]

variable {node : AiSessionNode}

omit hnodes in
theorem get?_nodesById (hn : node ∈ nodes) :
    (forestOfNodes dateParse localeCompare nodes orderBy).nodesById.get? node.session.id =
      some node :=
  (get?_indexNodesById h).mpr ⟨hn, rfl⟩

omit hnodes in
theorem size_nodesById :
    (forestOfNodes dateParse localeCompare nodes orderBy).nodesById.size = nodes.length := by
  have hkeys : ((nodes.map fun n => (n.session.id, n)).map Prod.fst).Nodup := by
    simpa [map_map, Function.comp_def, DistinctIds] using h
  show (indexNodesById nodes).size = _
  rw [indexNodesById, OrderedMap.size, OrderedMap.entries_ofList hkeys, length_map]

theorem parentOf_forestOfNodes (id : String) :
    (forestOfNodes dateParse localeCompare nodes orderBy).parentOf id =
      parentIn (settledParents nodes) id := by
  unfold AiSessionForest.parentOf
  cases hget : (forestOfNodes dateParse localeCompare nodes orderBy).nodesById.get? id with
  | some node =>
    obtain ⟨-, rfl⟩ := (get?_indexNodesById h).mp hget
    rw [← map_parentNode h node]
    exact (settled_settledFields dateParse localeCompare orderBy h hnodes).parent node
  | none =>
    cases hid : parentIn (settledParents nodes) id with
    | none => rfl
    | some parentId =>
      obtain ⟨⟨node, hn, rfl⟩, -⟩ := parentIn_candidate h (candidate_of_settled hid).2
      rw [get?_nodesById dateParse localeCompare orderBy h hn] at hget
      cases hget

theorem mem_children_forestOfNodes {child parent : AiSessionNode} (hc : child ∈ nodes)
    (hp : parent ∈ nodes) :
    child ∈ (forestOfNodes dateParse localeCompare nodes orderBy).children parent ↔
      (forestOfNodes dateParse localeCompare nodes orderBy).parentOf child.session.id =
        some parent.session.id := by
  rw [(children_forestOfNodes dateParse localeCompare orderBy h hnodes parent).mem_iff,
    mem_linkedChildren, parentOf_forestOfNodes dateParse localeCompare orderBy h hnodes,
    parentNode_eq_some h]
  constructor
  · exact fun hmem => hmem.2.2
  · exact fun hid => ⟨hc, hp, hid⟩

theorem subtree_isPostorder (hn : node ∈ nodes) :
    ForestTraversal.IsPostorder (forestOfNodes dateParse localeCompare nodes orderBy).children
      [node] (aiSessionSubtreePostorder (forestOfNodes dateParse localeCompare nodes orderBy)
        node.session.id) := by
  have hforest := isForest_forestOfNodes dateParse localeCompare orderBy h hnodes
  unfold aiSessionSubtreePostorder
  rw [get?_nodesById dateParse localeCompare orderBy h hn,
    size_nodesById dateParse localeCompare orderBy h]
  apply hforest.isPostorder _ (pairwise_singleton _ _) (le_refl _)
  intro t ht
  exact mem_singleton.mp ht ▸ hn

theorem subtrees_perm :
    ((forestOfNodes dateParse localeCompare nodes orderBy).roots.flatMap fun root =>
      aiSessionSubtreePostorder (forestOfNodes dateParse localeCompare nodes orderBy)
        root.session.id).Perm nodes := by
  have hforest := isForest_forestOfNodes dateParse localeCompare orderBy h hnodes
  have hroots := isRoots_forestOfNodes dateParse localeCompare orderBy h hnodes
  have hin : ∀ root ∈ (forestOfNodes dateParse localeCompare nodes orderBy).roots, root ∈ nodes :=
    fun root hmem => ((hroots.mem_iff root).mp hmem).1
  have hsub : ∀ root ∈ (forestOfNodes dateParse localeCompare nodes orderBy).roots, ∀ x,
      x ∈ aiSessionSubtreePostorder (forestOfNodes dateParse localeCompare nodes orderBy)
        root.session.id ↔
      InSubtree (forestOfNodes dateParse localeCompare nodes orderBy).children x root := by
    intro root hmem x
    have hpost := subtree_isPostorder dateParse localeCompare orderBy h hnodes (hin root hmem)
    rw [hpost.mem_iff]
    simp
  have hnodup : ((forestOfNodes dateParse localeCompare nodes orderBy).roots.flatMap fun root =>
      aiSessionSubtreePostorder (forestOfNodes dateParse localeCompare nodes orderBy)
        root.session.id).Nodup := by
    rw [nodup_flatMap]
    constructor
    · exact fun root hmem =>
        (subtree_isPostorder dateParse localeCompare orderBy h hnodes (hin root hmem)).nodup
    apply hroots.apart.imp_of_mem
    intro r r' hr hr' hapart x hx hx'
    exact hforest.disjoint hapart ((hsub r hr x).mp hx) ((hsub r' hr' x).mp hx')
  apply (perm_ext_iff_of_nodup hnodup hnodes).mpr
  intro x
  rw [mem_flatMap]
  constructor
  · rintro ⟨root, hmem, hx⟩
    exact hforest.mem_of_inSubtree (hin root hmem) ((hsub root hmem x).mp hx)
  intro hx
  obtain ⟨root, hmem, hbelow⟩ := hforest.exists_root hroots hx
  exact ⟨root, hmem, (hsub root hmem x).mpr hbelow⟩

theorem updated_isLatest (hn : node ∈ nodes) :
    IsLatestBelow dateParse (forestOfNodes dateParse localeCompare nodes orderBy).children
      (fun x => some x.session.updatedAt) node
      ((forestOfNodes dateParse localeCompare nodes orderBy).fields node).aggregateUpdatedAt := by
  unfold IsLatestBelow InSubtree
  rw [childOf_forestOfNodes dateParse localeCompare orderBy h hnodes]
  exact (settled_settledFields dateParse localeCompare orderBy h hnodes).updated node hn

theorem active_isLatest (hn : node ∈ nodes) :
    IsLatestBelow dateParse (forestOfNodes dateParse localeCompare nodes orderBy).children
      (fun x => ownLastActiveAt dateParse x.session) node
      ((forestOfNodes dateParse localeCompare nodes orderBy).fields node).aggregateLastActiveAt := by
  unfold IsLatestBelow InSubtree
  rw [childOf_forestOfNodes dateParse localeCompare orderBy h hnodes]
  exact (settled_settledFields dateParse localeCompare orderBy h hnodes).active node hn

end Derived

end TaskHandoff.AiSessions
