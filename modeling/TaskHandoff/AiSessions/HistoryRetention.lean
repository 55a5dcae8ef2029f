import TaskHandoff.AiSessions.ForestTree

/-! # What the session history retains

The history is sorted by activity, each id and each provider identity is kept
once, and of the session forest the first roots up to the limit are retained
with their subtrees. A root that is itself a subagent is retained without being
counted.
-/

namespace TaskHandoff.AiSessions.History

open List
open ForestTraversal (ChildOf InSubtree)

/-- An item of the index; `rest` is what the retention never looks into. -/
structure AiSessionHistoryItem (ρ : Type) where
  id : String
  agent : String
  providerSessionId : String
  lineage : Option AiSessionLineage
  lastActiveAt : String
  archivedAt : String
  rest : ρ
deriving DecidableEq

variable {ρ : Type}

def AI_SESSION_HISTORY_DEFAULT_LIMIT : Nat := 50
def AI_SESSION_HISTORY_MAX_LIMIT : Nat := 500

/-- The limit in use; `none` stands for what is no integer. -/
def historyLimit : Option Int → Nat
  | none => AI_SESSION_HISTORY_DEFAULT_LIMIT
  | some value =>
    if 1 ≤ value ∧ value ≤ AI_SESSION_HISTORY_MAX_LIMIT then value.toNat
    else AI_SESSION_HISTORY_DEFAULT_LIMIT

def providerIdentity (item : AiSessionHistoryItem ρ) : String :=
  item.agent ++ ":" ++ item.providerSessionId

def isSubagent : Option AiSessionLineage → Bool
  | some (.subagent _) => true
  | _ => false

/-! ## Sorting and deduplication -/

/-- The loop over the sorted items: an id or identity seen before is skipped. -/
def keepFirst (deduplicated : List (AiSessionHistoryItem ρ)) (item : AiSessionHistoryItem ρ) :
    List (AiSessionHistoryItem ρ) :=
  if item.id ∈ deduplicated.map (·.id) ∨
      providerIdentity item ∈ deduplicated.map providerIdentity then deduplicated
  else deduplicated ++ [item]

def deduplicate (items : List (AiSessionHistoryItem ρ)) : List (AiSessionHistoryItem ρ) :=
  items.foldl keepFirst []

/-- The record of an item that the forest is derived from. -/
def AiSessionHistoryItem.record (item : AiSessionHistoryItem ρ) : AiSessionHierarchyRecord where
  id := item.id
  instanceId := none
  agent := item.agent
  providerSessionId := some item.providerSessionId
  lineage := item.lineage
  lastUserMessageAt := none
  updatedAt := item.lastActiveAt
  completedAt := none

/-- One root of the loop that counts the roots retained so far. -/
def retainRoot (forest : AiSessionForest) (limit : Nat) (acc : List String × Nat)
    (root : AiSessionNode) : List String × Nat :=
  let subtree := (aiSessionSubtreePostorder forest root.session.id).map (·.session.id)
  if isSubagent root.session.lineage then (acc.1 ++ subtree, acc.2)
  else if limit ≤ acc.2 then acc
  else (acc.1 ++ subtree, acc.2 + 1)

def retainedIds (forest : AiSessionForest) (limit : Nat) : List String :=
  (forest.roots.foldl (retainRoot forest limit) ([], 0)).1

section Retention

variable (dateParse : String → Option Int) (localeCompare : String → String → Int)

/-- `Date.parse(right) - Date.parse(left)`, where a difference that is no number counts as 0. -/
def dateDifference (right left : String) : Int :=
  match dateParse right, dateParse left with
  | some r, some l => r - l
  | _, _ => 0

def compareItems (left right : AiSessionHistoryItem ρ) : Int :=
  let active := dateDifference dateParse right.lastActiveAt left.lastActiveAt
  let archived := dateDifference dateParse right.archivedAt left.archivedAt
  if active ≠ 0 then active
  else if archived ≠ 0 then archived
  else localeCompare left.id right.id

def historyForest (items : List (AiSessionHistoryItem ρ)) : AiSessionForest :=
  deriveAiSessionForest dateParse localeCompare (items.map (·.record)) none

def sortAndLimitAiSessionHistory (items : List (AiSessionHistoryItem ρ)) (limit : Nat) :
    List (AiSessionHistoryItem ρ) :=
  let sorted := items.insertionSort fun left right =>
    compareItems dateParse localeCompare left right ≤ 0
  let deduplicated := deduplicate sorted
  deduplicated.filter fun item =>
    item.id ∈ retainedIds (historyForest dateParse localeCompare deduplicated)
      (historyLimit (some limit))

end Retention

/-! ## Unique items -/

/-- No id and no provider identity occurs twice. -/
structure Unique (items : List (AiSessionHistoryItem ρ)) : Prop where
  ids : (items.map (·.id)).Nodup
  identities : (items.map providerIdentity).Nodup

variable {items : List (AiSessionHistoryItem ρ)}

theorem Unique.filter (h : Unique items) (p : AiSessionHistoryItem ρ → Bool) :
    Unique (items.filter p) where
  ids := h.ids.sublist (filter_sublist.map _)
  identities := h.identities.sublist (filter_sublist.map _)

theorem Unique.perm {items items' : List (AiSessionHistoryItem ρ)} (h : Unique items)
    (hperm : items.Perm items') : Unique items' where
  ids := (hperm.map _).nodup_iff.mp h.ids
  identities := (hperm.map _).nodup_iff.mp h.identities

theorem keepFirst_unique (h : Unique items) (item : AiSessionHistoryItem ρ) :
    Unique (keepFirst items item) := by
  unfold keepFirst
  split
  · exact h
  rename_i hnew
  obtain ⟨hid, hidentity⟩ := not_or.mp hnew
  constructor
  · rw [map_append, map_singleton]
    exact nodup_append.mpr ⟨h.ids, nodup_singleton _, by
      rintro id hin _ hid' rfl
      exact hid (mem_singleton.mp hid' ▸ hin)⟩
  · rw [map_append]
    exact nodup_append.mpr ⟨h.identities, nodup_singleton _, by
      rintro identity hin _ hid' rfl
      exact hidentity (mem_singleton.mp hid' ▸ hin)⟩

theorem foldl_keepFirst_unique (items : List (AiSessionHistoryItem ρ)) :
    ∀ deduplicated, Unique deduplicated → Unique (items.foldl keepFirst deduplicated) := by
  induction items with
  | nil => exact fun _ => id
  | cons item items ih => exact fun _ h => ih _ (keepFirst_unique h item)

theorem deduplicate_unique (items : List (AiSessionHistoryItem ρ)) : Unique (deduplicate items) :=
  foldl_keepFirst_unique items [] ⟨nodup_nil, nodup_nil⟩

theorem foldl_keepFirst_sublist (items : List (AiSessionHistoryItem ρ)) :
    ∀ deduplicated, (items.foldl keepFirst deduplicated).Sublist (deduplicated ++ items) := by
  induction items with
  | nil => exact fun _ => by simp
  | cons first items ih =>
    intro deduplicated
    refine (ih (keepFirst deduplicated first)).trans ?_
    unfold keepFirst
    split
    · exact (sublist_cons_self first items).append_left deduplicated
    · simp

theorem deduplicate_sublist (items : List (AiSessionHistoryItem ρ)) :
    (deduplicate items).Sublist items :=
  foldl_keepFirst_sublist items []

theorem foldl_keepFirst_of_unique (items : List (AiSessionHistoryItem ρ)) :
    ∀ deduplicated, Unique (deduplicated ++ items) →
      items.foldl keepFirst deduplicated = deduplicated ++ items := by
  induction items with
  | nil => exact fun deduplicated _ => (append_nil deduplicated).symm
  | cons item items ih =>
    intro deduplicated h
    have hsplit : deduplicated ++ item :: items = deduplicated ++ [item] ++ items := by simp
    have hids := h.ids
    have hidentities := h.identities
    rw [map_append, nodup_append] at hids hidentities
    have hkeep : keepFirst deduplicated item = deduplicated ++ [item] := by
      unfold keepFirst
      rw [if_neg]
      rintro (hin | hin)
      · exact hids.2.2 _ hin _ mem_cons_self rfl
      · exact hidentities.2.2 _ hin _ mem_cons_self rfl
    rw [foldl_cons, hkeep, ih _ (hsplit ▸ h), hsplit]

theorem deduplicate_of_unique (h : Unique items) : deduplicate items = items :=
  foldl_keepFirst_of_unique items [] h

/-! ## The roots that are retained -/

/-- The loop retains the subtrees of the roots that are subagents, and of the others the first
ones within the limit. -/
theorem foldl_retainRoot (forest : AiSessionForest) (limit : Nat) (roots : List AiSessionNode) :
    ∀ ids count, ∃ kept : List AiSessionNode, kept.Sublist roots ∧
      (roots.foldl (retainRoot forest limit) (ids, count)).1 = ids ++ kept.flatMap (fun root =>
        (aiSessionSubtreePostorder forest root.session.id).map (·.session.id)) ∧
      (kept.filter fun root => isSubagent root.session.lineage) =
        (roots.filter fun root => isSubagent root.session.lineage) ∧
      (kept.filter fun root => !isSubagent root.session.lineage) =
        (roots.filter fun root => !isSubagent root.session.lineage).take (limit - count) := by
  induction roots with
  | nil => exact fun ids count => ⟨[], .slnil, by simp, rfl, by simp⟩
  | cons root roots ih =>
    intro ids count
    cases hsub : isSubagent root.session.lineage with
    | true =>
      obtain ⟨kept, hkept, hids, hsubs, hmains⟩ := ih (ids ++ (aiSessionSubtreePostorder forest
        root.session.id).map (·.session.id)) count
      refine ⟨root :: kept, hkept.cons_cons root, ?_, ?_, ?_⟩
      · simp [retainRoot, hsub, hids]
      · simpa [hsub] using hsubs
      · simpa [hsub] using hmains
    | false =>
      by_cases hfull : limit ≤ count
      · obtain ⟨kept, hkept, hids, hsubs, hmains⟩ := ih ids count
        rw [Nat.sub_eq_zero_of_le hfull] at hmains ⊢
        refine ⟨kept, hkept.cons root, ?_, ?_, hmains⟩
        · simp [retainRoot, hsub, hfull, hids]
        · simpa [hsub] using hsubs
      obtain ⟨kept, hkept, hids, hsubs, hmains⟩ := ih (ids ++ (aiSessionSubtreePostorder
        forest root.session.id).map (·.session.id)) (count + 1)
      have hroom : limit - count = limit - (count + 1) + 1 := by omega
      refine ⟨root :: kept, hkept.cons_cons root, ?_, ?_, ?_⟩
      · simp [retainRoot, hsub, hfull, hids]
      · simpa [hsub] using hsubs
      · simpa [hsub, hroom] using hmains

def mainRoots (forest : AiSessionForest) : List AiSessionNode :=
  forest.roots.filter fun root => !isSubagent root.session.lineage

theorem exists_kept (forest : AiSessionForest) (limit : Nat) :
    ∃ kept : List AiSessionNode, kept.Sublist forest.roots ∧
      (∀ root, root ∈ kept ↔ root ∈ forest.roots ∧
        (isSubagent root.session.lineage ∨ root ∈ (mainRoots forest).take limit)) ∧
      (kept.filter fun root => !isSubagent root.session.lineage).length ≤ limit ∧
      retainedIds forest limit = kept.flatMap fun root =>
        (aiSessionSubtreePostorder forest root.session.id).map (·.session.id) := by
  obtain ⟨kept, hkept, hids, hsubs, hmains⟩ := foldl_retainRoot forest limit forest.roots [] 0
  refine ⟨kept, hkept, fun root => ?_, ?_, hids⟩
  · have hsub := congrArg (root ∈ ·) hsubs
    have hmain := congrArg (root ∈ ·) hmains
    simp only [mem_filter, eq_iff_iff] at hsub hmain
    rw [mainRoots]
    cases hroot : isSubagent root.session.lineage with
    | true => simpa [hroot] using hsub
    | false =>
      simp only [hroot, Bool.not_false, and_true, Nat.sub_zero] at hmain
      simp only [Bool.false_eq_true, false_or, ← hmain]
      exact ⟨fun h => ⟨hkept.subset h, h⟩, And.right⟩
  · rw [hmains]
    exact length_take_le _ _

/-! ## The forest of unique items -/

section Forest

variable (dateParse : String → Option Int) (localeCompare : String → String → Int)
variable {items : List (AiSessionHistoryItem ρ)} (h : Unique items) {item : AiSessionHistoryItem ρ}

/-- The items that count as roots. -/
def mainItems (items : List (AiSessionHistoryItem ρ)) : List (AiSessionHistoryItem ρ) :=
  items.filter fun item => !isSubagent item.lineage

def historyNodes (items : List (AiSessionHistoryItem ρ)) : List AiSessionNode :=
  sessionNodes (items.map (·.record))

theorem historyNodes_nodup (items : List (AiSessionHistoryItem ρ)) : (historyNodes items).Nodup :=
  sessionNodes_nodup _

theorem exists_historyNode (hitem : item ∈ items) :
    ∃ node ∈ historyNodes items, node.session = item.record := by
  have hin : item.record ∈ (historyNodes items).map (·.session) := by
    rw [historyNodes, map_session_sessionNodes]
    exact mem_map_of_mem hitem
  exact mem_map.mp hin

include h

theorem historyNodes_distinct : DistinctIds (historyNodes items) := by
  apply distinctIds_sessionNodes
  rw [map_map]
  exact h.ids

theorem isSubagent_of_candidate {node : AiSessionNode} (hmem : node ∈ historyNodes items)
    {id : String} (hin : parentIn (candidateParents (historyNodes items)) node.session.id = some id) :
    isSubagent node.session.lineage = true := by
  obtain ⟨hget, -⟩ := truthy_eq_some.mp hin
  rw [get?_candidateParents_of_mem (historyNodes_distinct h) hmem] at hget
  obtain ⟨-, -, -, -, pid, hlineage, -⟩ := lookupParent_candidate hget
  rw [hlineage]
  rfl

variable {child parent : AiSessionNode}

theorem childOf_iff :
    ChildOf (historyForest dateParse localeCompare items).children child parent ↔
      child ∈ historyNodes items ∧ parent ∈ historyNodes items ∧
        parentIn (settledParents (historyNodes items)) child.session.id =
          some parent.session.id := by
  have hdistinct := historyNodes_distinct h
  have heq := childOf_forestOfNodes dateParse localeCompare none hdistinct (historyNodes_nodup items)
  refine (iff_of_eq (congrFun (congrFun heq child) parent)).trans ?_
  exact mem_linkedChildren.trans (and_congr_right fun _ => parentNode_eq_some hdistinct)

theorem isSubagent_of_child
    (hchild : ChildOf (historyForest dateParse localeCompare items).children child parent) :
    isSubagent child.session.lineage = true := by
  obtain ⟨hmem, -, hin⟩ := (childOf_iff dateParse localeCompare h).mp hchild
  exact isSubagent_of_candidate h hmem (candidate_of_settled hin).2

theorem mem_subtree {root node : AiSessionNode} (hroot : root ∈ historyNodes items) :
    node ∈ aiSessionSubtreePostorder (historyForest dateParse localeCompare items) root.session.id ↔
      InSubtree (historyForest dateParse localeCompare items).children node root := by
  have hpost := subtree_isPostorder dateParse localeCompare none (historyNodes_distinct h)
    (historyNodes_nodup items) hroot
  refine (hpost.mem_iff node).trans ?_
  simp only [mem_singleton, exists_eq_left]
  rfl

theorem roots_subset {root : AiSessionNode}
    (hroot : root ∈ (historyForest dateParse localeCompare items).roots) :
    root ∈ historyNodes items := by
  have hroots := isRoots_forestOfNodes dateParse localeCompare none (historyNodes_distinct h)
    (historyNodes_nodup items)
  exact ((hroots.mem_iff root).mp hroot).1

theorem mem_retainedIds {limit : Nat} (hroom : (mainItems items).length ≤ limit)
    (hitem : item ∈ items) :
    item.id ∈ retainedIds (historyForest dateParse localeCompare items) limit := by
  have hnodes := historyNodes_nodup items
  have hroots := isRoots_forestOfNodes dateParse localeCompare none (historyNodes_distinct h) hnodes
  obtain ⟨kept, -, hkept, -, hids⟩ := exists_kept (historyForest dateParse localeCompare items) limit
  have hmain : ((historyForest dateParse localeCompare items).roots.filter
      fun root => !isSubagent root.session.lineage).length ≤ (mainItems items).length := by
    have hsub : ((historyForest dateParse localeCompare items).roots.filter
        fun root => !isSubagent root.session.lineage) ⊆
          (historyNodes items).filter fun node => !isSubagent node.session.lineage := by
      intro root hroot
      rw [mem_filter] at hroot ⊢
      exact ⟨roots_subset dateParse localeCompare h hroot.1, hroot.2⟩
    have hle := ((hroots.nodup.filter _).subperm hsub).length_le
    have hsame : ((historyNodes items).filter fun node => !isSubagent node.session.lineage).length =
        (mainItems items).length := by
      have hmap := congrArg length (filter_map (f := AiSessionNode.session)
        (p := fun session => !isSubagent session.lineage) (l := historyNodes items))
      rw [historyNodes, map_session_sessionNodes, filter_map, length_map, length_map] at hmap
      exact hmap.symm
    exact hle.trans hsame.le
  obtain ⟨node, hnode, hsession⟩ := exists_historyNode hitem
  have hsome := (subtrees_perm dateParse localeCompare none (historyNodes_distinct h)
    hnodes).mem_iff.mpr hnode
  obtain ⟨root, hroot, hbelow⟩ := mem_flatMap.mp hsome
  rw [hids, mem_flatMap]
  refine ⟨root, (hkept root).mpr ⟨hroot, ?_⟩, mem_map.mpr ⟨node, hbelow, ?_⟩⟩
  · rw [mainRoots, take_of_length_le (hmain.trans hroom), mem_filter, Bool.not_eq_true']
    exact (Bool.eq_false_or_eq_true _).imp_right (⟨hroot, ·⟩)
  · rw [hsession]
    rfl

theorem length_mainItems_le (limit : Nat) : (mainItems (items.filter fun item =>
      item.id ∈ retainedIds (historyForest dateParse localeCompare items) limit)).length ≤
      limit := by
  have hdistinct := historyNodes_distinct h
  obtain ⟨kept, hkept, -, hlimit, hids⟩ := exists_kept (historyForest dateParse localeCompare items)
    limit
  have hsub : (mainItems (items.filter fun item =>
      item.id ∈ retainedIds (historyForest dateParse localeCompare items) limit)).map (·.id) ⊆
        (kept.filter fun root => !isSubagent root.session.lineage).map (·.session.id) := by
    intro id hid
    obtain ⟨item, hitem, rfl⟩ := mem_map.mp hid
    obtain ⟨hitem, hmain⟩ := mem_filter.mp hitem
    obtain ⟨hin, hretained⟩ := mem_filter.mp hitem
    rw [decide_eq_true_eq, hids] at hretained
    obtain ⟨root, hroot, hbelow⟩ := mem_flatMap.mp hretained
    obtain ⟨node, hnode, hnodeid⟩ := mem_map.mp hbelow
    have hrootin := roots_subset dateParse localeCompare h (hkept.subset hroot)
    have hnodein : node ∈ historyNodes items := by
      have hforest := isForest_forestOfNodes dateParse localeCompare none hdistinct
        (historyNodes_nodup items)
      exact hforest.mem_of_inSubtree hrootin
        ((mem_subtree dateParse localeCompare h hrootin).mp hnode)
    obtain ⟨own, hown, hsession⟩ := exists_historyNode hin
    have hid : node.session.id = own.session.id := by
      rw [hnodeid, hsession]
      rfl
    obtain rfl := hdistinct.eq hnodein hown hid
    have hmain' : isSubagent node.session.lineage = false := by
      rw [hsession]
      exact (Bool.not_eq_true' _).mp hmain
    -- below a root there are only subagents
    have heq : node = root := by
      rcases ((mem_subtree dateParse localeCompare h hrootin).mp hnode).cases_head with
        heq | ⟨parent, hchild, -⟩
      · exact heq
      · rw [isSubagent_of_child dateParse localeCompare h hchild] at hmain'
        cases hmain'
    subst heq
    exact mem_map.mpr ⟨node, mem_filter.mpr ⟨hroot, by simp [hmain']⟩, hnodeid⟩
  have hnodup : ((mainItems (items.filter fun item =>
      item.id ∈ retainedIds (historyForest dateParse localeCompare items) limit)).map
        (·.id)).Nodup := ((h.filter _).filter _).ids
  have hle := (hnodup.subperm hsub).length_le
  rw [length_map, length_map] at hle
  exact hle.trans hlimit

end Forest

/-! ## The retained history -/

section Retained

variable (dateParse : String → Option Int) (localeCompare : String → String → Int)
variable {items : List (AiSessionHistoryItem ρ)} {limit : Nat}

theorem mem_of_mem_sortAndLimit
    (hitem : item ∈ sortAndLimitAiSessionHistory dateParse localeCompare items limit) :
    item ∈ items :=
  (perm_insertionSort _ items).mem_iff.mp ((deduplicate_sublist _).subset (mem_filter.mp hitem).1)

/-- Unique items within the limit. -/
structure Fits (limit : Nat) (items : List (AiSessionHistoryItem ρ)) : Prop where
  unique : Unique items
  room : (mainItems items).length ≤ historyLimit (some limit)

theorem Fits.filter (h : Fits limit items) (p : AiSessionHistoryItem ρ → Bool) :
    Fits limit (items.filter p) where
  unique := h.unique.filter p
  room := ((filter_sublist.filter _).length_le).trans h.room

theorem Fits.nil : Fits limit ([] : List (AiSessionHistoryItem ρ)) :=
  ⟨⟨nodup_nil, nodup_nil⟩, Nat.zero_le _⟩

theorem fits_sortAndLimit (items : List (AiSessionHistoryItem ρ)) (limit : Nat) :
    Fits limit (sortAndLimitAiSessionHistory dateParse localeCompare items limit) where
  unique := (deduplicate_unique _).filter _
  room := length_mainItems_le dateParse localeCompare (deduplicate_unique _) _

theorem Fits.mem_sortAndLimit (h : Fits limit items) :
    item ∈ sortAndLimitAiSessionHistory dateParse localeCompare items limit ↔ item ∈ items := by
  have hperm := perm_insertionSort (fun left right =>
    compareItems dateParse localeCompare left right ≤ 0) items
  have hunique := h.unique.perm hperm.symm
  refine ⟨mem_of_mem_sortAndLimit dateParse localeCompare, fun hitem => ?_⟩
  simp only [sortAndLimitAiSessionHistory, deduplicate_of_unique hunique]
  have hin := hperm.mem_iff.mpr hitem
  refine mem_filter.mpr ⟨hin, decide_eq_true ?_⟩
  apply mem_retainedIds dateParse localeCompare hunique _ hin
  exact ((hperm.filter _).length_eq).le.trans h.room

theorem Fits.length_sortAndLimit (h : Fits limit items) :
    (sortAndLimitAiSessionHistory dateParse localeCompare items limit).length = items.length := by
  have hnodup := (fits_sortAndLimit dateParse localeCompare items limit).unique.ids.of_map
  have hperm := (perm_ext_iff_of_nodup hnodup h.unique.ids.of_map).mpr fun _ =>
    h.mem_sortAndLimit dateParse localeCompare
  exact hperm.length_eq

end Retained

end TaskHandoff.AiSessions.History
