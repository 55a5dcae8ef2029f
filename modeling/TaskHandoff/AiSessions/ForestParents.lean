import Mathlib.Data.List.Pairwise
import TaskHandoff.AiSessions.Forest

/-! # The parent relation of the session forest

The derivation keeps maps of node objects. What they answer depends on the
sessions alone: the first session of an identity is the one its key finds, the
candidate parent of a session is the session it names, and the settled parent is
the candidate unless the session lies on a cycle.
-/

namespace TaskHandoff.AiSessions

open OrderedMap List AiSessionHierarchyRecord ParentCycles
open TaskHandoff.Events (truthy)
open ParentCycles (Edge OnCycle)

theorem truthy_eq_some {value : Option String} {text : String} :
    truthy value = some text ↔ value = some text ∧ text ≠ "" := by
  cases value with
  | none => simp [truthy]
  | some other =>
    by_cases h : other = ""
    · simp only [truthy, if_pos h, reduceCtorEq, Option.some.injEq, false_iff, not_and, not_not]
      exact fun he => he ▸ h
    simp only [truthy, if_neg h, Option.some.injEq]
    constructor
    · rintro rfl
      exact ⟨rfl, h⟩
    · exact fun he => he.1

/-! ## Nodes and their sessions -/

variable {sessions : List AiSessionHierarchyRecord} {nodes : List AiSessionNode}

theorem map_session_sessionNodes (sessions : List AiSessionHierarchyRecord) :
    (sessionNodes sessions).map (·.session) = sessions := by
  simp [sessionNodes, Function.comp_def]

theorem sessionNodes_nodup (sessions : List AiSessionHierarchyRecord) :
    (sessionNodes sessions).Nodup := by
  apply List.Nodup.of_map (fun node => node.index)
  simpa [sessionNodes, Function.comp_def] using nodup_range' 1 (by omega)

theorem find?_sessionNodes (p : AiSessionHierarchyRecord → Bool) :
    ((sessionNodes sessions).find? fun node => p node.session).map (·.session) =
      sessions.find? p := by
  conv_rhs => rw [← map_session_sessionNodes sessions, find?_map]
  rfl

def DistinctIds (nodes : List AiSessionNode) : Prop := (nodes.map (·.session.id)).Nodup

theorem distinctIds_sessionNodes (h : (sessions.map (·.id)).Nodup) :
    DistinctIds (sessionNodes sessions) := by
  have hmap : (sessionNodes sessions).map (·.session.id) = sessions.map (·.id) := by
    conv_rhs => rw [← map_session_sessionNodes sessions, map_map]
    rfl
  rw [DistinctIds, hmap]
  exact h

theorem DistinctIds.eq (h : DistinctIds nodes) {n m : AiSessionNode} (hn : n ∈ nodes)
    (hm : m ∈ nodes) (hid : n.session.id = m.session.id) : n = m :=
  inj_on_of_nodup_map h hn hm hid

variable {node : AiSessionNode} {id parentId : String}

theorem get?_indexNodesById (h : DistinctIds nodes) :
    (indexNodesById nodes).get? id = some node ↔ node ∈ nodes ∧ node.session.id = id := by
  have hkeys : ((nodes.map fun n => (n.session.id, n)).map Prod.fst).Nodup := by
    simpa [map_map, Function.comp_def, DistinctIds] using h
  rw [indexNodesById, get?_eq_some, entries_ofList hkeys, mem_map]
  constructor
  · rintro ⟨n, hn, he⟩
    cases he
    exact ⟨hn, rfl⟩
  · rintro ⟨hn, rfl⟩
    exact ⟨node, hn, rfl⟩

/-! ## Identities -/

/-- The key under which a session is found; without a provider id it has none. -/
def AiSessionHierarchyRecord.identity (session : AiSessionHierarchyRecord) : Option String :=
  (truthy session.providerSessionId).map fun providerSessionId =>
    identityKey session.instanceId session.agent (some providerSessionId)

variable (index : ProviderIndex)

theorem get?_foldl_indexNode (nodes : List AiSessionNode) (key : String) :
    (nodes.foldl indexNode index).nodesByIdentity.get? key = (index.nodesByIdentity.get? key).or
        (nodes.find? fun node => node.session.identity = some key) := by
  induction nodes generalizing index with
  | nil => simp
  | cons node nodes ih =>
    rw [foldl_cons, ih, find?_cons]
    cases hp : truthy node.session.providerSessionId with
    | none =>
      have hid : node.session.identity = none := by simp [identity, hp]
      simp [indexNode, hp, hid]
    | some pid =>
      have hid : node.session.identity =
          some (identityKey node.session.instanceId node.session.agent (some pid)) := by
        simp [identity, hp]
      rw [hid]
      generalize hkey : identityKey node.session.instanceId node.session.agent (some pid) = own
      cases hget : index.nodesByIdentity.get? own with
      | some first =>
        simp only [indexNode, hp, hkey, OrderedMap.contains, hget, Option.isSome_some, if_true]
        by_cases he : own = key
        · rw [← he, hget]
          rfl
        · simp [he]
      | none =>
        simp only [indexNode, hp, hkey, OrderedMap.contains, hget, Option.isSome_none,
          Bool.false_eq_true, if_false]
        by_cases he : own = key
        · rw [← he, hget]
          simp
        · rw [get?_set_ne _ _ (Ne.symm he)]
          simp [he]

theorem getD_foldl_indexNode (nodes : List AiSessionNode) (pid : String) :
    ((nodes.foldl indexNode index).nodesByProviderId.get? pid).getD [] =
      (index.nodesByProviderId.get? pid).getD [] ++
        nodes.filter fun node => truthy node.session.providerSessionId = some pid := by
  induction nodes generalizing index with
  | nil => simp
  | cons node nodes ih =>
    rw [foldl_cons, ih]
    cases hp : truthy node.session.providerSessionId with
    | none => simp [indexNode, hp]
    | some own =>
      simp only [indexNode, hp]
      by_cases he : own = pid
      · subst he
        simp [hp]
      · rw [get?_set_ne _ _ (Ne.symm he)]
        simp [hp, he]

theorem diagnostics_foldl_indexNode {index : ProviderIndex}
    (hnew : ∀ node ∈ nodes, ∀ key, node.session.identity = some key →
      index.nodesByIdentity.get? key = none)
    (hnodup : (nodes.filterMap fun node => node.session.identity).Nodup) :
    (nodes.foldl indexNode index).diagnostics = index.diagnostics := by
  induction nodes generalizing index with
  | nil => rfl
  | cons node nodes ih =>
    rw [foldl_cons]
    cases hp : truthy node.session.providerSessionId with
    | none =>
      have hid : node.session.identity = none := by simp [identity, hp]
      have hstep : indexNode index node = index := by simp [indexNode, hp]
      simp only [filterMap_cons, hid] at hnodup
      rw [hstep]
      exact ih (fun n hn => hnew n (mem_cons_of_mem node hn)) hnodup
    | some pid =>
      have hid : node.session.identity =
          some (identityKey node.session.instanceId node.session.agent (some pid)) := by
        simp [identity, hp]
      simp only [filterMap_cons, hid] at hnodup
      obtain ⟨hfresh, hrest⟩ := nodup_cons.mp hnodup
      have hget := hnew node mem_cons_self _ hid
      have hdiag : (indexNode index node).diagnostics = index.diagnostics := by
        simp [indexNode, hp, OrderedMap.contains, hget]
      rw [← hdiag]
      apply ih _ hrest
      intro n hn key hkey
      have hne : key ≠ identityKey node.session.instanceId node.session.agent (some pid) := by
        rintro rfl
        exact hfresh (mem_filterMap.mpr ⟨n, hn, hkey⟩)
      have hold := hnew n (mem_cons_of_mem node hn) key hkey
      simp [indexNode, hp, OrderedMap.contains, hget, get?_set_ne _ _ hne, hold]

theorem nodesByIdentity_providerIndex (nodes : List AiSessionNode) (key : String) :
    (providerIndex nodes).nodesByIdentity.get? key =
      nodes.find? fun node => node.session.identity = some key := by
  simp [providerIndex, get?_foldl_indexNode]

theorem nodesByProviderId_providerIndex (nodes : List AiSessionNode) (pid : String) :
    ((providerIndex nodes).nodesByProviderId.get? pid).getD [] =
      nodes.filter fun node => truthy node.session.providerSessionId = some pid := by
  simp [providerIndex, getD_foldl_indexNode]

/-! ## Lookups among the sessions -/

/-- The lookup of a parent, told without node objects. -/
def lookupAmong (sessions : List AiSessionHierarchyRecord) (session : AiSessionHierarchyRecord) :
    ParentLookup :=
  match session.lineage with
  | some (.subagent pid) =>
    match sessions.find? fun other =>
        other.identity = some (identityKey session.instanceId session.agent (some pid)) with
    | none =>
      .rejected
        (if sessions.any fun other => truthy other.providerSessionId = some pid &&
            other.instanceId ≠ session.instanceId then .crossInstanceParent
          else if sessions.any fun other => truthy other.providerSessionId = some pid &&
            other.agent ≠ session.agent then .crossAgentParent
          else .orphanParent) pid
    | some parent =>
      if parent.id = session.id then .rejected .selfParent pid else .candidate parent.id
  | _ => .unnamed

theorem lookupParent_eq (sessions : List AiSessionHierarchyRecord) (node : AiSessionNode) :
    lookupParent (providerIndex (sessionNodes sessions)) node =
      lookupAmong sessions node.session := by
  have hany : ∀ (pid : String) (p : AiSessionHierarchyRecord → Bool),
      ((sessionNodes sessions).filter fun n =>
        truthy n.session.providerSessionId = some pid).any (fun n => p n.session) =
      sessions.any fun other => truthy other.providerSessionId = some pid && p other := by
    intro pid p
    conv_rhs => rw [← map_session_sessionNodes sessions, any_map]
    rw [any_filter]
    rfl
  unfold lookupParent lookupAmong
  cases node.session.lineage with
  | none => rfl
  | some lineage =>
    cases lineage with
    | fork _ _ => rfl
    | subagent pid =>
      dsimp only
      rw [nodesByIdentity_providerIndex, nodesByProviderId_providerIndex,
        hany pid fun other => other.instanceId ≠ node.session.instanceId,
        hany pid fun other => other.agent ≠ node.session.agent,
        ← @find?_sessionNodes sessions fun other => decide (other.identity =
          some (identityKey node.session.instanceId node.session.agent (some pid)))]
      cases (sessionNodes sessions).find? fun n => decide (n.session.identity =
        some (identityKey node.session.instanceId node.session.agent (some pid))) with
      | none => rfl
      | some parent => rfl

/-! ## Candidate parents -/

def ParentLookup.candidate? : ParentLookup → Option String
  | .candidate parentId => some parentId
  | _ => none

theorem get?_setCandidate (m : OrderedMap String String) (node : AiSessionNode) (id : String) :
    (setCandidate index m node).get? id =
      if node.session.id = id then (lookupParent index node).candidate?.or (m.get? id)
      else m.get? id := by
  unfold setCandidate ParentLookup.candidate?
  by_cases hid : node.session.id = id
  · rw [if_pos hid]
    cases lookupParent index node with
    | unnamed => rfl
    | rejected _ _ => rfl
    | candidate parentId => simp [hid]
  · rw [if_neg hid]
    cases lookupParent index node with
    | unnamed => rfl
    | rejected _ _ => rfl
    | candidate parentId => exact get?_set_ne _ _ (Ne.symm hid)

section

variable (h : DistinctIds nodes)

include h

theorem get?_foldl_setCandidate
    (m : OrderedMap String String) (id : String) : (nodes.foldl (setCandidate index) m).get? id =
      ((nodes.find? fun node => node.session.id = id).bind fun node =>
        (lookupParent index node).candidate?).or (m.get? id) := by
  induction nodes generalizing m with
  | nil => simp
  | cons node nodes ih =>
    obtain ⟨hfresh, hrest⟩ := nodup_cons.mp h
    rw [foldl_cons, ih hrest, get?_setCandidate]
    by_cases hid : node.session.id = id
    · have hnone : (nodes.find? fun n => n.session.id = id) = none := by
        apply find?_eq_none.mpr
        intro n hn
        have hne : n.session.id ≠ id := fun he =>
          hfresh (mem_map.mpr ⟨n, hn, he.trans hid.symm⟩)
        simpa using hne
      simp [hid, hnone]
    · simp [hid]

theorem get?_candidateParents (id : String) : (candidateParents nodes).get? id =
      (nodes.find? fun node => node.session.id = id).bind fun node =>
        (lookupParent (providerIndex nodes) node).candidate? := by
  simp [candidateParents, get?_foldl_setCandidate (providerIndex nodes) h]

theorem get?_candidateParents_of_mem
    (hn : node ∈ nodes) : (candidateParents nodes).get? node.session.id =
      (lookupParent (providerIndex nodes) node).candidate? := by
  rw [get?_candidateParents h]
  cases hfind : nodes.find? fun n => n.session.id = node.session.id with
  | none => simpa using find?_eq_none.mp hfind node hn
  | some found =>
    have hid : found.session.id = node.session.id := by simpa using find?_some hfind
    rw [h.eq (mem_of_find?_eq_some hfind) hn hid]
    rfl

end

theorem lookupParent_candidate
    (h : (lookupParent (providerIndex nodes) node).candidate? = some parentId) :
    ∃ parent ∈ nodes, parent.session.id = parentId ∧ parentId ≠ node.session.id ∧
      ∃ pid, node.session.lineage = some (.subagent pid) ∧ parent.session.identity =
        some (identityKey node.session.instanceId node.session.agent (some pid)) := by
  unfold lookupParent at h
  cases hlineage : node.session.lineage with
  | none =>
    rw [hlineage] at h
    cases h
  | some lineage =>
    rw [hlineage] at h
    cases lineage with
    | fork _ _ => cases h
    | subagent pid =>
      dsimp only at h
      rw [nodesByIdentity_providerIndex] at h
      cases hfind : nodes.find? fun n => decide (n.session.identity =
          some (identityKey node.session.instanceId node.session.agent (some pid))) with
      | none =>
        rw [hfind] at h
        cases h
      | some parent =>
        rw [hfind] at h
        by_cases hself : parent.session.id = node.session.id
        · simp [ParentLookup.candidate?, hself] at h
        simp only [hself, if_false, ParentLookup.candidate?, Option.some.injEq] at h
        exact ⟨parent, mem_of_find?_eq_some hfind, h, h ▸ hself, pid, rfl,
          by simpa using find?_some hfind⟩

theorem parentIn_candidate (h : DistinctIds nodes)
    (hp : parentIn (candidateParents nodes) id = some parentId) :
    (∃ node ∈ nodes, node.session.id = id) ∧ (∃ parent ∈ nodes, parent.session.id = parentId) ∧
      parentId ≠ "" := by
  obtain ⟨hget, hne⟩ := truthy_eq_some.mp hp
  rw [get?_candidateParents h] at hget
  obtain ⟨node, hfind, hcand⟩ := Option.bind_eq_some_iff.mp hget
  obtain ⟨parent, hmem, hid, -⟩ := lookupParent_candidate hcand
  exact ⟨⟨node, mem_of_find?_eq_some hfind, by simpa using find?_some hfind⟩,
    ⟨parent, hmem, hid⟩, hne⟩

/-! ## Cycles -/

theorem cycleMarks_eq (nodes : List AiSessionNode) :
    cycleMarks nodes = mark (parentIn (candidateParents nodes)) (nodes.length + 1)
      (nodes.map fun node => truthy (some node.session.id)) := by
  unfold cycleMarks mark
  rw [foldl_map]
  congr 1
  funext marks node
  by_cases hdone : node.session.id ∈ marks.complete
  · rw [if_pos hdone]
    by_cases hempty : node.session.id = ""
    · simp [truthy, hempty, markFrom, walk]
    · simp only [truthy, if_neg hempty]
      exact (markFrom_of_mem _ hdone).symm
  · rw [if_neg hdone]

section Cycles

variable (h : DistinctIds nodes)

include h

theorem parentIn_mem_ids (x y : String) (hxy : parentIn (candidateParents nodes) x = some y) :
    y ∈ nodes.map (·.session.id) := by
  obtain ⟨-, ⟨parent, hmem, hid⟩, -⟩ := parentIn_candidate h hxy
  exact mem_map.mpr ⟨parent, hmem, hid⟩

omit h in
theorem starts_mem_ids : ∀ start ∈ nodes.map fun node => truthy (some node.session.id),
    ∀ x ∈ start, x ∈ nodes.map (·.session.id) := by
  intro start hstart x hx
  obtain ⟨node, hn, rfl⟩ := mem_map.mp hstart
  obtain ⟨he, -⟩ := truthy_eq_some.mp hx
  exact mem_map.mpr ⟨node, hn, Option.some.inj he⟩

/-- The marked nodes are the members of cycles among the candidate parents. -/
theorem mem_cycleMembers (x : String) :
    x ∈ (cycleMarks nodes).cycleMembers ↔ OnCycle (parentIn (candidateParents nodes)) x := by
  rw [cycleMarks_eq]
  apply mem_cycleMembers_mark (parentIn_mem_ids h) (by simp) starts_mem_ids
  intro y hy
  obtain ⟨z, -, hzy⟩ := Relation.TransGen.tail'_iff.mp hy
  obtain ⟨-, ⟨parent, hmem, hid⟩, hne⟩ := parentIn_candidate h hzy
  exact mem_map.mpr ⟨parent, hmem, truthy_eq_some.mpr ⟨by rw [hid], hne⟩⟩

theorem nodup_cycleMembers : (cycleMarks nodes).cycleMembers.Nodup := by
  rw [cycleMarks_eq]
  exact nodup_cycleMembers_mark (parentIn_mem_ids h) (by simp) starts_mem_ids

omit h in
theorem get?_foldl_erase (ids : List String) (m : OrderedMap String String) (id : String) :
    (ids.foldl (fun parents x => parents.erase x) m).get? id =
      if id ∈ ids then none else m.get? id := by
  induction ids generalizing m with
  | nil => simp
  | cons x ids ih =>
    rw [foldl_cons, ih, get?_erase]
    by_cases hx : id = x
    · simp [hx]
    · simp [hx]

omit h in
theorem parentIn_settledParents (id : String) : parentIn (settledParents nodes) id =
    if id ∈ (cycleMarks nodes).cycleMembers then none
    else parentIn (candidateParents nodes) id := by
  unfold parentIn settledParents
  rw [get?_foldl_erase]
  split <;> rfl

omit h in
theorem candidate_of_settled {x y : String} (hxy : parentIn (settledParents nodes) x = some y) :
    x ∉ (cycleMarks nodes).cycleMembers ∧ parentIn (candidateParents nodes) x = some y := by
  rw [parentIn_settledParents] at hxy
  by_cases hx : x ∈ (cycleMarks nodes).cycleMembers
  · rw [if_pos hx] at hxy
    cases hxy
  · rw [if_neg hx] at hxy
    exact ⟨hx, hxy⟩

/-- Without the parents of the cycle members nothing leads back to itself. -/
theorem settled_acyclic (x : String) : ¬ OnCycle (parentIn (settledParents nodes)) x := by
  intro hx
  obtain ⟨y, hxy, -⟩ := Relation.TransGen.head'_iff.mp hx
  have hcand := hx.mono fun a b hab => (candidate_of_settled hab).2
  exact (candidate_of_settled hxy).1 ((mem_cycleMembers h x).mpr hcand)

/-! ## Linked nodes -/

variable {node parent : AiSessionNode}

theorem parentNode_eq_some : parentNode nodes node = some parent ↔
      parent ∈ nodes ∧ parentIn (settledParents nodes) node.session.id =
        some parent.session.id := by
  unfold parentNode
  rw [Option.bind_eq_some_iff]
  constructor
  · rintro ⟨id, hid, hget⟩
    obtain ⟨hmem, rfl⟩ := (get?_indexNodesById h).mp hget
    exact ⟨hmem, hid⟩
  · rintro ⟨hmem, hid⟩
    exact ⟨parent.session.id, hid, (get?_indexNodesById h).mpr ⟨hmem, rfl⟩⟩

theorem map_parentNode (node : AiSessionNode) : (parentNode nodes node).map (·.session.id) =
      parentIn (settledParents nodes) node.session.id := by
  cases hp : parentNode nodes node with
  | some parent => exact ((parentNode_eq_some h).mp hp).2.symm
  | none =>
    cases hid : parentIn (settledParents nodes) node.session.id with
    | none => rfl
    | some id =>
      obtain ⟨-, ⟨parent, hmem, rfl⟩, -⟩ := parentIn_candidate h (candidate_of_settled hid).2
      have hsome := (parentNode_eq_some h).mpr ⟨hmem, hid⟩
      rw [hp] at hsome
      cases hsome

omit h in
theorem mem_linkedChildren :
    node ∈ linkedChildren nodes parent ↔ node ∈ nodes ∧ parentNode nodes node = some parent := by
  simp [linkedChildren]

theorem linked_isForest (hnodes : nodes.Nodup) :
    ForestTraversal.IsForest nodes (linkedChildren nodes) where
  mem := by
    intro parent node hmem
    obtain ⟨hn, hp⟩ := mem_linkedChildren.mp hmem
    exact ⟨hn, ((parentNode_eq_some h).mp hp).1⟩
  nodup := fun parent => hnodes.filter _
  unique := by
    intro p q node hp hq
    have hp' := (mem_linkedChildren.mp hp).2
    have hq' := (mem_linkedChildren.mp hq).2
    exact Option.some.inj (hp'.symm.trans hq')
  acyclic := by
    intro node hcycle
    apply settled_acyclic h node.session.id
    refine Relation.TransGen.lift (fun n : AiSessionNode => n.session.id) ?_ node node hcycle
    intro n p hnp
    exact ((parentNode_eq_some h).mp (mem_linkedChildren.mp hnp).2).2

omit h in
theorem linked_isRoots (hnodes : nodes.Nodup) :
    ForestTraversal.IsRoots nodes (linkedChildren nodes) (linkedRoots nodes) where
  nodup := hnodes.filter _
  mem_iff := by
    intro node
    simp only [linkedRoots, mem_filter, decide_eq_true_eq, mem_linkedChildren, not_and]
    constructor
    · rintro ⟨hn, hp⟩
      refine ⟨hn, fun parent _ hparent => ?_⟩
      rw [hp] at hparent
      cases hparent
    · rintro ⟨hn, hp⟩
      refine ⟨hn, ?_⟩
      cases hparent : parentNode nodes node with
      | none => rfl
      | some parent => exact (hp parent hn hparent).elim

end Cycles

end TaskHandoff.AiSessions
