import TaskHandoff.AiSessions.ForestTree

/-! # What the session forest is

The forest in terms of the sessions alone. A session names the first session of
the list with the instance, agent and provider id it was started from; the
derivation follows that relation, takes it away from the members of its cycles,
and returns the tree that is left.
-/

namespace TaskHandoff.AiSessions

open List AiSessionHierarchyRecord ParentLookup
open TaskHandoff.Events (truthy)
open ParentCycles (Edge OnCycle)

variable {sessions sessions' : List AiSessionHierarchyRecord}

/-! ## The named parent -/

/-- `parent` has the instance, the agent and the provider id that `child` names. -/
def namesParent (child parent : AiSessionHierarchyRecord) : Bool :=
  match child.lineage with
  | some (.subagent pid) =>
    truthy parent.providerSessionId = some pid && parent.agent = child.agent &&
      truthy parent.instanceId = truthy child.instanceId
  | _ => false

/-- The session that `child` names; of several with one identity the first. -/
def providerParent (sessions : List AiSessionHierarchyRecord) (child : AiSessionHierarchyRecord) :
    Option AiSessionHierarchyRecord :=
  sessions.find? (namesParent child)

/-- No instance and no agent holds the character that joins the identity keys. -/
def NulFree (sessions : List AiSessionHierarchyRecord) : Prop :=
  ∀ s ∈ sessions, '\x00' ∉ s.agent.toList ∧ '\x00' ∉ ((truthy s.instanceId).getD "").toList

def IdentitiesUnique (sessions : List AiSessionHierarchyRecord) : Prop :=
  (sessions.filterMap identity).Nodup

variable {α : Type} {pid : String} {child parent : AiSessionHierarchyRecord}

theorem eq_of_append_cons {a : α} {x x' z z' : List α} (hx : a ∉ x) (hx' : a ∉ x')
    (h : x ++ a :: z = x' ++ a :: z') : x = x' ∧ z = z' := by
  induction x generalizing x' with
  | nil =>
    cases x' with
    | nil => exact ⟨rfl, (cons.inj h).2⟩
    | cons b x' => exact (hx' ((cons.inj h).1 ▸ mem_cons_self)).elim
  | cons b x ih =>
    cases x' with
    | nil => exact (hx ((cons.inj h).1 ▸ mem_cons_self)).elim
    | cons c x' =>
      obtain ⟨hbc, hrest⟩ := cons.inj h
      obtain ⟨he, hz⟩ := ih (fun hin => hx (mem_cons_of_mem b hin))
        (fun hin => hx' (mem_cons_of_mem c hin)) hrest
      exact ⟨by rw [hbc, he], hz⟩

theorem truthy_eq_of_getD {value other : Option String}
    (h : (truthy value).getD "" = (truthy other).getD "") : truthy value = truthy other := by
  cases hv : truthy value with
  | none =>
    cases ho : truthy other with
    | none => rfl
    | some text =>
      rw [hv, ho] at h
      exact ((truthy_eq_some.mp ho).2 h.symm).elim
  | some text =>
    cases ho : truthy other with
    | none =>
      rw [hv, ho] at h
      exact ((truthy_eq_some.mp hv).2 h).elim
    | some text' =>
      rw [hv, ho] at h
      exact congrArg some h

theorem identityKey_inj {instanceId instanceId' : Option String} {agent agent' : String}
    {pid pid' : Option String} (ha : '\x00' ∉ agent.toList) (ha' : '\x00' ∉ agent'.toList)
    (hi : '\x00' ∉ ((truthy instanceId).getD "").toList)
    (hi' : '\x00' ∉ ((truthy instanceId').getD "").toList)
    (h : identityKey instanceId agent pid = identityKey instanceId' agent' pid') :
    truthy instanceId = truthy instanceId' ∧ agent = agent' ∧ truthy pid = truthy pid' := by
  have hlist := congrArg String.toList h
  have hnul : ("\x00" : String).toList = ['\x00'] := by decide
  simp only [identityKey, String.toList_append, hnul, append_assoc, cons_append,
    nil_append] at hlist
  obtain ⟨hinst, hrest⟩ := eq_of_append_cons hi hi' hlist
  obtain ⟨hagent, hpid⟩ := eq_of_append_cons ha ha' hrest
  exact ⟨truthy_eq_of_getD (String.toList_inj.mp hinst), String.toList_inj.mp hagent,
    truthy_eq_of_getD (String.toList_inj.mp hpid)⟩

theorem identity_eq_iff_namesParent (hnul : NulFree sessions)
    (hc : child ∈ sessions) (hp : parent ∈ sessions)
    (hlineage : child.lineage = some (.subagent pid)) :
    parent.identity = some (identityKey child.instanceId child.agent (some pid)) ↔
      namesParent child parent = true := by
  simp only [namesParent, hlineage, Bool.and_eq_true, decide_eq_true_eq,
    identity, Option.map_eq_some_iff]
  constructor
  · rintro ⟨own, hown, hkey⟩
    obtain ⟨hi, ha, hpid⟩ := identityKey_inj (hnul parent hp).1 (hnul child hc).1
      (hnul parent hp).2 (hnul child hc).2 hkey
    have hfull : truthy (some own) = some own :=
      truthy_eq_some.mpr ⟨rfl, (truthy_eq_some.mp hown).2⟩
    have hpid' := (truthy_eq_some.mp (hpid.symm.trans hfull)).1
    exact ⟨⟨hown.trans hpid'.symm, ha⟩, hi⟩
  · rintro ⟨⟨hown, ha⟩, hi⟩
    refine ⟨pid, hown, ?_⟩
    rw [identityKey, identityKey, hi, ha]

theorem find?_congr_mem {p q : α → Bool} {l : List α} (h : ∀ a ∈ l, p a = q a) :
    l.find? p = l.find? q := by
  induction l with
  | nil => rfl
  | cons a l ih =>
    rw [find?_cons, find?_cons, h a mem_cons_self, ih fun b hb => h b (mem_cons_of_mem a hb)]

theorem find?_identity (hnul : NulFree sessions)
    (hc : child ∈ sessions) (hlineage : child.lineage = some (.subagent pid)) :
    (sessions.find? fun other =>
      other.identity = some (identityKey child.instanceId child.agent (some pid))) =
      providerParent sessions child := by
  apply find?_congr_mem
  intro parent hp
  rw [Bool.eq_iff_iff, decide_eq_true_eq]
  exact identity_eq_iff_namesParent hnul hc hp hlineage

theorem candidate_lookupAmong (hnul : NulFree sessions) (hc : child ∈ sessions) {id : String} :
    (lookupAmong sessions child).candidate? = some id ↔
      ∃ parent, providerParent sessions child = some parent ∧ parent.id = id ∧ id ≠ child.id := by
  unfold lookupAmong
  cases hlineage : child.lineage with
  | none =>
    have hnone : providerParent sessions child = none :=
      find?_eq_none.mpr fun _ _ => by simp [namesParent, hlineage]
    simp [candidate?, hnone]
  | some lineage =>
    cases lineage with
    | fork _ _ =>
      have hnone : providerParent sessions child = none :=
        find?_eq_none.mpr fun _ _ => by simp [namesParent, hlineage]
      simp [candidate?, hnone]
    | subagent pid =>
      dsimp only
      rw [find?_identity hnul hc hlineage]
      cases hp : providerParent sessions child with
      | none => simp [candidate?]
      | some parent =>
        by_cases hself : parent.id = child.id
        · simp only [hself, if_true, candidate?, reduceCtorEq,
            Option.some.injEq, exists_eq_left', false_iff, not_and, not_not]
          exact fun he => he.symm
        simp only [hself, if_false, candidate?, Option.some.injEq, exists_eq_left']
        constructor
        · rintro rfl
          exact ⟨rfl, hself⟩
        · exact fun he => he.1

theorem providerParent_mem (h : providerParent sessions child = some parent) :
    parent ∈ sessions ∧ namesParent child parent = true :=
  ⟨mem_of_find?_eq_some h, find?_some h⟩

/-! ## Parents of sessions -/

theorem exists_node {session : AiSessionHierarchyRecord} (hs : session ∈ sessions) :
    ∃ node ∈ sessionNodes sessions, node.session = session := by
  rw [← map_session_sessionNodes sessions] at hs
  exact mem_map.mp hs

section Parents

variable (hids : (sessions.map (·.id)).Nodup)

include hids

variable {session child : AiSessionHierarchyRecord}

theorem get?_candidateParents_session (hs : session ∈ sessions) :
    (candidateParents (sessionNodes sessions)).get? session.id =
      (lookupAmong sessions session).candidate? := by
  obtain ⟨node, hn, rfl⟩ := exists_node hs
  rw [get?_candidateParents_of_mem (distinctIds_sessionNodes hids) hn, lookupParent_eq]

variable (hnul : NulFree sessions)

include hnul

theorem namesParent_of_settled (hc : child ∈ sessions) {id : String}
    (h : parentIn (settledParents (sessionNodes sessions)) child.id = some id) :
    ∃ parent, providerParent sessions child = some parent ∧ parent.id = id ∧ id ≠ child.id := by
  obtain ⟨hget, -⟩ := truthy_eq_some.mp (candidate_of_settled h).2
  rw [get?_candidateParents_session hids hc] at hget
  exact (candidate_lookupAmong hnul hc).mp hget

variable (hne : ∀ s ∈ sessions, s.id ≠ "")

include hne

/-- Following named parents is following candidate parents, but for a session that names
itself. -/
theorem candidates_reach
    {child other : AiSessionHierarchyRecord} (hc : child ∈ sessions)
    (h : Relation.ReflTransGen (Edge (providerParent sessions)) child other) :
    other ∈ sessions ∧ Relation.ReflTransGen
      (Edge (parentIn (candidateParents (sessionNodes sessions)))) child.id other.id := by
  induction h with
  | refl => exact ⟨hc, .refl⟩
  | @tail s parent _ hedge ih =>
    obtain ⟨hs, hreach⟩ := ih
    have hp := (providerParent_mem hedge).1
    refine ⟨hp, ?_⟩
    by_cases hself : parent.id = s.id
    · rw [hself]
      exact hreach
    have hget := get?_candidateParents_session hids hs
    rw [(candidate_lookupAmong hnul hs).mpr ⟨parent, hedge, rfl, hself⟩] at hget
    exact hreach.tail (truthy_eq_some.mpr ⟨hget, hne parent hp⟩)

theorem settled_of_onCycle
    (hs : session ∈ sessions) (hcycle : OnCycle (providerParent sessions) session) :
    parentIn (settledParents (sessionNodes sessions)) session.id = none := by
  cases hid : parentIn (settledParents (sessionNodes sessions)) session.id with
  | none => rfl
  | some id =>
    obtain ⟨parent, hparent, rfl, -⟩ := namesParent_of_settled hids hnul hs hid
    obtain ⟨hnot, hedge⟩ := candidate_of_settled hid
    obtain ⟨next, hnext, hback⟩ := Relation.TransGen.head'_iff.mp hcycle
    obtain rfl : parent = next := Option.some.inj (hparent.symm.trans hnext)
    have hreach := (candidates_reach hids hnul hne (providerParent_mem hparent).1 hback).2
    exact (hnot ((mem_cycleMembers (distinctIds_sessionNodes hids) session.id).mpr
      (.head' hedge hreach))).elim

end Parents

/-! ## The order of the list -/

theorem find?_eq_of_perm {p : α → Bool} {l l' : List α} (hperm : l.Perm l')
    (hone : ∀ a ∈ l, ∀ b ∈ l, p a = true → p b = true → a = b) : l.find? p = l'.find? p := by
  cases hfind : l.find? p with
  | none =>
    symm
    apply find?_eq_none.mpr
    exact fun a ha => find?_eq_none.mp hfind a (hperm.mem_iff.mpr ha)
  | some a =>
    have ha := mem_of_find?_eq_some hfind
    have hpa := find?_some hfind
    cases hfind' : l'.find? p with
    | none => exact (find?_eq_none.mp hfind' a (hperm.mem_iff.mp ha) hpa).elim
    | some b =>
      have hb := hperm.mem_iff.mpr (mem_of_find?_eq_some hfind')
      rw [hone a ha b hb hpa (find?_some hfind')]

theorem eq_of_nodup_filterMap {α β : Type} {f : α → Option β} {l : List α}
    (h : (l.filterMap f).Nodup) {a b : α} (ha : a ∈ l) (hb : b ∈ l) {k : β} (hka : f a = some k)
    (hkb : f b = some k) : a = b := by
  induction l with
  | nil => cases ha
  | cons c l ih =>
    have htail : (l.filterMap f).Nodup := h.sublist ((sublist_cons_self c l).filterMap f)
    have hfresh : ∀ x ∈ l, f x = some k → f c ≠ some k := by
      intro x hx hfx hfc
      rw [filterMap_cons_some hfc] at h
      exact (nodup_cons.mp h).1 (mem_filterMap.mpr ⟨x, hx, hfx⟩)
    rcases mem_cons.mp ha with rfl | hal
    · rcases mem_cons.mp hb with rfl | hbl
      · rfl
      · exact (hfresh b hbl hkb hka).elim
    rcases mem_cons.mp hb with rfl | hbl
    · exact (hfresh a hal hka hkb).elim
    · exact ih htail hal hbl

section Order

variable (hids : (sessions.map (·.id)).Nodup) (hperm : sessions.Perm sessions')

include hperm

theorem any_perm (p : AiSessionHierarchyRecord → Bool) : sessions.any p = sessions'.any p := by
  rw [Bool.eq_iff_iff, any_eq_true, any_eq_true]
  simp only [hperm.mem_iff]

theorem lookupAmong_perm (huniq : IdentitiesUnique sessions) (session : AiSessionHierarchyRecord) :
    lookupAmong sessions session = lookupAmong sessions' session := by
  have hfind : ∀ key, (sessions.find? fun other => other.identity = some key) =
      sessions'.find? fun other => other.identity = some key := by
    intro key
    apply find?_eq_of_perm hperm
    intro a ha b hb hka hkb
    exact eq_of_nodup_filterMap huniq ha hb (of_decide_eq_true hka) (of_decide_eq_true hkb)
  unfold lookupAmong
  simp only [hfind, any_perm hperm]

include hids

variable (id : String)

theorem find?_id_perm : (sessions.find? fun s => s.id = id) =
    sessions'.find? fun s => s.id = id := by
  apply find?_eq_of_perm hperm
  intro a ha b hb hia hib
  exact inj_on_of_nodup_map hids ha hb ((of_decide_eq_true hia).trans (of_decide_eq_true hib).symm)

omit hperm in
theorem get?_candidateParents_sessions : (candidateParents (sessionNodes sessions)).get? id =
      (sessions.find? fun s => s.id = id).bind fun s => (lookupAmong sessions s).candidate? := by
  rw [get?_candidateParents (distinctIds_sessionNodes hids),
    ← @find?_sessionNodes sessions fun s => decide (s.id = id)]
  simp only [lookupParent_eq]
  rw [Option.bind_map]
  rfl

omit hperm in
theorem map_get?_indexNodesById :
    ((indexNodesById (sessionNodes sessions)).get? id).map (·.session) =
      sessions.find? fun s => s.id = id := by
  have hd := distinctIds_sessionNodes hids
  rw [← @find?_sessionNodes sessions fun s => decide (s.id = id)]
  congr 1
  cases hfind : (sessionNodes sessions).find? fun n => decide (n.session.id = id) with
  | some node =>
    have hid : node.session.id = id := by simpa using find?_some hfind
    exact (get?_indexNodesById hd).mpr ⟨mem_of_find?_eq_some hfind, hid⟩
  | none =>
    cases hget : (indexNodesById (sessionNodes sessions)).get? id with
    | none => rfl
    | some node =>
      obtain ⟨hn, hid⟩ := (get?_indexNodesById hd).mp hget
      exact (find?_eq_none.mp hfind node hn (by simpa using hid)).elim

section

variable (huniq : IdentitiesUnique sessions)

include huniq

theorem parentIn_candidates_perm : parentIn (candidateParents (sessionNodes sessions)) =
      parentIn (candidateParents (sessionNodes sessions')) := by
  have hids' : (sessions'.map (·.id)).Nodup := (hperm.map _).nodup_iff.mp hids
  funext id
  unfold parentIn
  rw [get?_candidateParents_sessions hids, get?_candidateParents_sessions hids',
    find?_id_perm hids hperm]
  simp only [lookupAmong_perm hperm huniq]

theorem cycleMembers_perm : (cycleMarks (sessionNodes sessions)).cycleMembers.Perm
      (cycleMarks (sessionNodes sessions')).cycleMembers := by
  have hd := distinctIds_sessionNodes hids
  have hd' : DistinctIds (sessionNodes sessions') :=
    distinctIds_sessionNodes ((hperm.map _).nodup_iff.mp hids)
  apply (perm_ext_iff_of_nodup (nodup_cycleMembers hd) (nodup_cycleMembers hd')).mpr
  intro id
  rw [mem_cycleMembers hd, mem_cycleMembers hd', parentIn_candidates_perm hids hperm huniq]

theorem parentIn_settled_perm (id : String) : parentIn (settledParents (sessionNodes sessions)) id =
      parentIn (settledParents (sessionNodes sessions')) id := by
  have hmem := (cycleMembers_perm hids hperm huniq).mem_iff (a := id)
  rw [parentIn_settledParents, parentIn_settledParents, parentIn_candidates_perm hids hperm huniq]
  simp only [hmem]

end

omit hids hperm in
theorem filterMap_sessionNodes {α : Type} (f : AiSessionHierarchyRecord → Option α) :
    (sessionNodes sessions).filterMap (fun node => f node.session) = sessions.filterMap f := by
  conv_rhs => rw [← map_session_sessionNodes sessions, filterMap_map]
  rfl

omit hids hperm in
theorem diagnostics_providerIndex (huniq : IdentitiesUnique sessions) :
    (providerIndex (sessionNodes sessions)).diagnostics = [] := by
  apply diagnostics_foldl_indexNode
  · exact fun _ _ _ _ => rfl
  · rw [filterMap_sessionNodes identity]
    exact huniq

/-- The diagnostic of a lookup, told without node objects. -/
def diagnosticAmong (sessions : List AiSessionHierarchyRecord)
    (session : AiSessionHierarchyRecord) : Option AiSessionHierarchyDiagnostic :=
  match lookupAmong sessions session with
  | .rejected code pid => some ⟨session.id, code, some pid⟩
  | _ => none

omit hids hperm in
theorem filterMap_lookupDiagnostic :
    (sessionNodes sessions).filterMap (lookupDiagnostic (providerIndex (sessionNodes sessions))) =
      sessions.filterMap (diagnosticAmong sessions) := by
  rw [← filterMap_sessionNodes]
  congr 1
  funext node
  cases h : lookupAmong sessions node.session <;>
    simp only [lookupDiagnostic, diagnosticAmong, lookupParent_eq, h]

theorem cycleDiagnostic_perm : cycleDiagnostic (indexNodesById (sessionNodes sessions)) id =
      cycleDiagnostic (indexNodesById (sessionNodes sessions')) id := by
  have hids' : (sessions'.map (·.id)).Nodup := (hperm.map _).nodup_iff.mp hids
  have hget : ((indexNodesById (sessionNodes sessions)).get? id).map (·.session) =
      ((indexNodesById (sessionNodes sessions')).get? id).map (·.session) := by
    rw [map_get?_indexNodesById hids, map_get?_indexNodesById hids', find?_id_perm hids hperm]
  have hbind : ∀ found : Option AiSessionNode, (found.bind fun node =>
        node.session.lineage.map AiSessionLineage.parentProviderSessionId) =
      (found.map (·.session)).bind fun session =>
        session.lineage.map AiSessionLineage.parentProviderSessionId := by
    intro found
    cases found <;> rfl
  unfold cycleDiagnostic
  rw [hbind, hbind, hget]

theorem diagnostics_perm (huniq : IdentitiesUnique sessions) (dateParse : String → Option Int)
    (localeCompare : String → String → Int) (orderBy : Option AiSessionForestOrder) :
    (deriveAiSessionForest dateParse localeCompare sessions orderBy).diagnostics.Perm
      (deriveAiSessionForest dateParse localeCompare sessions' orderBy).diagnostics := by
  have huniq' : IdentitiesUnique sessions' := (hperm.filterMap _).nodup_iff.mp huniq
  have hamong : diagnosticAmong sessions = diagnosticAmong sessions' := by
    funext session
    simp only [diagnosticAmong, lookupAmong_perm hperm huniq]
  have hcycle : cycleDiagnostic (indexNodesById (sessionNodes sessions)) =
      cycleDiagnostic (indexNodesById (sessionNodes sessions')) :=
    funext (cycleDiagnostic_perm hids hperm)
  simp only [deriveAiSessionForest, forestOfNodes, diagnostics_providerIndex huniq,
    diagnostics_providerIndex huniq', filterMap_lookupDiagnostic, hamong, hcycle,
    nil_append]
  exact (hperm.filterMap _).append ((cycleMembers_perm hids hperm huniq).map _)

end Order

/-! ## The derived forest -/

/-- The forest of a session list: a placement of every session, without cycles, along named
parents, with the latest activity of every subtree. -/
structure IsSessionForest (dateParse : String → Option Int)
    (sessions : List AiSessionHierarchyRecord) (forest : AiSessionForest) : Prop where
  placed : ((forest.roots.flatMap fun root =>
    aiSessionSubtreePostorder forest root.session.id).map (·.session)).Perm sessions
  linked : ∀ child ∈ sessionNodes sessions, ∀ parent ∈ sessionNodes sessions,
    (child ∈ forest.children parent ↔ forest.parentOf child.session.id = some parent.session.id)
  acyclic : ∀ id, ¬ OnCycle forest.parentOf id
  named : NulFree sessions → ∀ child ∈ sessions, ∀ id, forest.parentOf child.id = some id →
    ∃ parent ∈ sessions, parent.id = id ∧ namesParent child parent = true
  cycles : NulFree sessions → (∀ session ∈ sessions, session.id ≠ "") → ∀ session ∈ sessions,
    OnCycle (providerParent sessions) session → ∃ root ∈ forest.roots, root.session = session
  updated : ∀ node ∈ sessionNodes sessions,
    IsLatestBelow dateParse forest.children (fun x => some x.session.updatedAt) node
      (forest.fields node).aggregateUpdatedAt
  active : ∀ node ∈ sessionNodes sessions,
    IsLatestBelow dateParse forest.children (fun x => ownLastActiveAt dateParse x.session) node
      (forest.fields node).aggregateLastActiveAt

section Derived

variable (dateParse : String → Option Int) (localeCompare : String → String → Int)
variable (orderBy : Option AiSessionForestOrder)

theorem isSessionForest_derive (hids : (sessions.map (·.id)).Nodup) :
    IsSessionForest dateParse sessions
      (deriveAiSessionForest dateParse localeCompare sessions orderBy) := by
  have hd := distinctIds_sessionNodes hids
  have hnodes := sessionNodes_nodup sessions
  have hparent : ∀ id,
      (deriveAiSessionForest dateParse localeCompare sessions orderBy).parentOf id =
        parentIn (settledParents (sessionNodes sessions)) id :=
    parentOf_forestOfNodes dateParse localeCompare orderBy hd hnodes
  constructor
  · have hperm := (subtrees_perm dateParse localeCompare orderBy hd hnodes).map
      fun node : AiSessionNode => node.session
    rwa [map_session_sessionNodes] at hperm
  · intro child hc parent hp
    exact mem_children_forestOfNodes dateParse localeCompare orderBy hd hnodes hc hp
  · intro id hcycle
    have hsame := funext hparent
    rw [hsame] at hcycle
    exact settled_acyclic hd id hcycle
  · intro hnul child hc id hid
    rw [hparent] at hid
    obtain ⟨parent, hfound, he, -⟩ := namesParent_of_settled hids hnul hc hid
    obtain ⟨hmem, hnames⟩ := providerParent_mem hfound
    exact ⟨parent, hmem, he, hnames⟩
  · intro hnul hne session hs hcycle
    obtain ⟨node, hn, rfl⟩ := exists_node hs
    have hroots := isRoots_forestOfNodes dateParse localeCompare orderBy hd hnodes
    refine ⟨node, (hroots.mem_iff node).mpr ⟨hn, fun parent hchild => ?_⟩, rfl⟩
    have hforest := isForest_forestOfNodes dateParse localeCompare orderBy hd hnodes
    have hp := (hforest.mem parent node hchild).2
    have hid := (mem_children_forestOfNodes dateParse localeCompare orderBy hd hnodes hn hp).mp
      hchild
    rw [parentOf_forestOfNodes dateParse localeCompare orderBy hd hnodes,
      settled_of_onCycle hids hnul hne hs hcycle] at hid
    cases hid
  · exact fun node hn => updated_isLatest dateParse localeCompare orderBy hd hnodes hn
  · exact fun node hn => active_isLatest dateParse localeCompare orderBy hd hnodes hn

theorem derive_perm (hids : (sessions.map (·.id)).Nodup) (hperm : sessions.Perm sessions')
    (huniq : IdentitiesUnique sessions) :
    (∀ id, (deriveAiSessionForest dateParse localeCompare sessions orderBy).parentOf id =
        (deriveAiSessionForest dateParse localeCompare sessions' orderBy).parentOf id) ∧
      (deriveAiSessionForest dateParse localeCompare sessions orderBy).diagnostics.Perm
        (deriveAiSessionForest dateParse localeCompare sessions' orderBy).diagnostics := by
  have hids' : (sessions'.map (·.id)).Nodup := (hperm.map _).nodup_iff.mp hids
  refine ⟨fun id => ?_, diagnostics_perm hids hperm huniq dateParse localeCompare orderBy⟩
  have hparent := parentOf_forestOfNodes dateParse localeCompare orderBy
    (distinctIds_sessionNodes hids) (sessionNodes_nodup sessions) id
  have hparent' := parentOf_forestOfNodes dateParse localeCompare orderBy
    (distinctIds_sessionNodes hids') (sessionNodes_nodup sessions') id
  exact hparent.trans ((parentIn_settled_perm hids hperm huniq id).trans hparent'.symm)

/-- The forest of every list of sessions with distinct ids, and what of it the order of the
list cannot change. -/
theorem session_forest (hids : (sessions.map (·.id)).Nodup) : IsSessionForest dateParse sessions
        (deriveAiSessionForest dateParse localeCompare sessions orderBy) ∧
      ∀ sessions', sessions.Perm sessions' → IdentitiesUnique sessions →
        (∀ id, (deriveAiSessionForest dateParse localeCompare sessions orderBy).parentOf id =
          (deriveAiSessionForest dateParse localeCompare sessions' orderBy).parentOf id) ∧
        (deriveAiSessionForest dateParse localeCompare sessions orderBy).diagnostics.Perm
          (deriveAiSessionForest dateParse localeCompare sessions' orderBy).diagnostics :=
  ⟨isSessionForest_derive dateParse localeCompare orderBy hids,
    fun _ hperm huniq => derive_perm dateParse localeCompare orderBy hids hperm huniq⟩

end Derived

/-- A reading of dates for examples: a longer text is a later date. -/
def exampleDate (text : String) : Option Int := some text.toList.length

/-- A session of agent `codex` that was updated at `updatedAt`. -/
def exampleSession (id providerSessionId : String) (parent : Option String)
    (updatedAt : String) : AiSessionHierarchyRecord where
  id := id
  instanceId := none
  agent := "codex"
  providerSessionId := some providerSessionId
  lineage := parent.map AiSessionLineage.subagent
  lastUserMessageAt := none
  updatedAt := updatedAt
  completedAt := none

/-- A cycle of two, a child of one of them and an orphan. -/
def exampleSessions : List AiSessionHierarchyRecord :=
  [exampleSession "a" "pa" (some "pb") "t", exampleSession "b" "pb" (some "pa") "tt",
    exampleSession "c" "pc" (some "pa") "ttt", exampleSession "o" "po" (some "gone") "tttt"]

instance (sessions : List AiSessionHierarchyRecord) : Decidable (IdentitiesUnique sessions) :=
  inferInstanceAs (Decidable (List.Nodup _))

/-- The cycle of the example is broken, its child stays, and turning the list round keeps
the parents. -/
theorem session_forest_example : ∃ forest forest' : AiSessionForest,
      forest = deriveAiSessionForest exampleDate (fun _ _ => 0) exampleSessions none ∧
      forest' = deriveAiSessionForest exampleDate (fun _ _ => 0) exampleSessions.reverse none ∧
      IsSessionForest exampleDate exampleSessions forest ∧ (∃ root ∈ forest.roots,
        root.session.id = "a") ∧ forest.parentOf "c" = some "a" ∧
      ∀ id, forest.parentOf id = forest'.parentOf id := by
  have h := session_forest exampleDate (fun _ _ => 0) none
    (show (exampleSessions.map (·.id)).Nodup by decide)
  refine ⟨_, _, rfl, rfl, h.1, by decide, by decide, ?_⟩
  exact (h.2 _ (reverse_perm exampleSessions).symm (by decide)).1

/-- Two orphans are reported in the order of the list. -/
def exampleOrphans : List AiSessionHierarchyRecord :=
  [exampleSession "x" "px" (some "gone") "t", exampleSession "y" "py" (some "gone") "tt"]

/-- A cycle through a session with an empty id. -/
def exampleEmptyId : List AiSessionHierarchyRecord :=
  [exampleSession "" "pe" (some "pb") "t", exampleSession "b" "pb" (some "pe") "tt"]

/-- Two agents whose identity keys read the same. -/
def exampleJoinedKeys : List AiSessionHierarchyRecord :=
  [exampleSession "p" "pid\x00pp" none "t",
    { exampleSession "c" "pc" (some "pp") "tt" with agent := "codex\x00pid" }]

/-- The list order shows in the diagnostics; a member of a cycle through an empty id is no
root; and a key that reads two ways joins sessions of different agents. -/
theorem session_forest_limits :
    (∀ list ∈ [exampleOrphans, exampleEmptyId, exampleJoinedKeys], (list.map (·.id)).Nodup) ∧
    (IdentitiesUnique exampleOrphans ∧
      (deriveAiSessionForest exampleDate (fun _ _ => 0) exampleOrphans none).diagnostics ≠
      (deriveAiSessionForest exampleDate (fun _ _ => 0) exampleOrphans.reverse none).diagnostics) ∧
    (∃ session ∈ exampleEmptyId, OnCycle (providerParent exampleEmptyId) session ∧
      ∀ root ∈ (deriveAiSessionForest exampleDate (fun _ _ => 0) exampleEmptyId none).roots,
        root.session ≠ session) ∧
    ∃ child ∈ exampleJoinedKeys, ∃ parent ∈ exampleJoinedKeys,
      (deriveAiSessionForest exampleDate (fun _ _ => 0) exampleJoinedKeys none).parentOf
        child.id = some parent.id ∧ parent.agent ≠ child.agent := by
  refine ⟨by decide, ⟨by decide, by decide⟩, ?_, ?_⟩
  · refine ⟨exampleSession "" "pe" (some "pb") "t", by decide, ?_, by decide⟩
    have hup : Edge (providerParent exampleEmptyId) (exampleSession "" "pe" (some "pb") "t")
        (exampleSession "b" "pb" (some "pe") "tt") :=
      show providerParent _ _ = some _ by decide
    have hdown : Edge (providerParent exampleEmptyId) (exampleSession "b" "pb" (some "pe") "tt")
        (exampleSession "" "pe" (some "pb") "t") :=
      show providerParent _ _ = some _ by decide
    exact .tail (.single hup) hdown
  · refine ⟨{ exampleSession "c" "pc" (some "pp") "tt" with agent := "codex\x00pid" }, by decide,
      exampleSession "p" "pid\x00pp" none "t", by decide, by decide, by decide⟩

end TaskHandoff.AiSessions
