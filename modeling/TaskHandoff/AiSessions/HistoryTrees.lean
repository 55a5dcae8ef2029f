import TaskHandoff.AiSessions.HistoryStore

/-! # Whole trees in the history

Limiting the history drops whole trees only. What is left is the history of its own limit.
-/

namespace TaskHandoff.AiSessions.History

open List
open ForestTraversal (ChildOf InSubtree)
open ParentCycles (OnCycle)
open AiSessionHistoryStore (exampleItem)

variable {ρ : Type} {items : List (AiSessionHistoryItem ρ)} {limit : Nat}
variable (dateParse : String → Option Int) (localeCompare : String → String → Int)

/-! ## Order -/

/-- `localeCompare` orders the texts, equal ones included. -/
structure Orders (localeCompare : String → String → Int) : Prop where
  total : ∀ a b, localeCompare a b ≤ 0 ∨ localeCompare b a ≤ 0
  trans : ∀ a b c, localeCompare a b ≤ 0 → localeCompare b c ≤ 0 → localeCompare a c ≤ 0

def Dated (item : AiSessionHistoryItem ρ) : Prop :=
  (dateParse item.lastActiveAt).isSome ∧ (dateParse item.archivedAt).isSome

variable {dateParse localeCompare}

theorem compareItems_getD {left right : AiSessionHistoryItem ρ} (hleft : Dated dateParse left)
    (hright : Dated dateParse right) : compareItems dateParse localeCompare left right =
      compareItems (fun text => some ((dateParse text).getD 0)) localeCompare left right := by
  obtain ⟨a, ha⟩ := Option.isSome_iff_exists.mp hleft.1
  obtain ⟨b, hb⟩ := Option.isSome_iff_exists.mp hleft.2
  obtain ⟨c, hc⟩ := Option.isSome_iff_exists.mp hright.1
  obtain ⟨d, hd⟩ := Option.isSome_iff_exists.mp hright.2
  simp [compareItems, dateDifference, ha, hb, hc, hd]

/-- With dates the comparison is an order, and the sort keeps to it. -/
theorem pairwise_sorted (hlocale : Orders localeCompare)
    (hdates : ∀ item ∈ items, Dated dateParse item) :
    (items.insertionSort fun left right => compareItems dateParse localeCompare left right ≤ 0).Pairwise
      fun left right => compareItems dateParse localeCompare left right ≤ 0 := by
  let order := fun left right : AiSessionHistoryItem ρ =>
    compareItems (fun text => some ((dateParse text).getD 0)) localeCompare left right ≤ 0
  have htotal : Std.Total order := by
    refine ⟨fun a b => ?_⟩
    have := hlocale.total a.id b.id
    simp only [order, compareItems, dateDifference]
    split_ifs <;> omega
  have htrans : IsTrans _ order := by
    refine ⟨fun a b c => ?_⟩
    have := hlocale.trans a.id b.id c.id
    simp only [order, compareItems, dateDifference]
    split_ifs <;> omega
  have hsame := map_insertionSort
    (fun left right => compareItems dateParse localeCompare left right ≤ 0) order id items
    fun a ha b hb => by rw [compareItems_getD (hdates a ha) (hdates b hb)]; rfl
  rw [map_id, map_id] at hsame
  rw [hsame]
  refine (pairwise_insertionSort order items).imp_of_mem fun ha hb hab => ?_
  have hmem := (perm_insertionSort order items).subset
  rw [compareItems_getD (hdates _ (hmem ha)) (hdates _ (hmem hb))]
  exact hab

theorem pairwise_roots (items : List (AiSessionHistoryItem ρ)) :
    (historyForest dateParse localeCompare items).roots.Pairwise fun a b =>
      timestamp dateParse
          ((historyForest dateParse localeCompare items).fields b).aggregateUpdatedAt ≤
        timestamp dateParse
          ((historyForest dateParse localeCompare items).fields a).aggregateUpdatedAt := by
  let order := fun left right => compareNodes dateParse localeCompare none
    (.ofList ((historyNodes items).map fun node => (node.session.id, node.index)))
    (historyForest dateParse localeCompare items).fields left right ≤ 0
  have htotal : Std.Total order := by
    refine ⟨fun a b => ?_⟩
    simp only [order, compareNodes, hierarchyOrderFallback, reduceCtorEq, if_false]
    split_ifs <;> omega
  have htrans : IsTrans _ order := by
    refine ⟨fun a b c => ?_⟩
    simp only [order, compareNodes, hierarchyOrderFallback, reduceCtorEq, if_false]
    split_ifs <;> omega
  refine (pairwise_insertionSort order (linkedRoots (historyNodes items))).imp fun {a b} hab => ?_
  simp only [order, compareNodes, hierarchyOrderTime, reduceCtorEq, if_false] at hab
  split_ifs at hab <;> omega

/-! ## Trees -/

section Trees

variable (h : Unique items)

include h

variable {node : AiSessionNode}

theorem mem_retained_iff (hnode : node ∈ historyNodes items) :
    node.session.id ∈ retainedIds (historyForest dateParse localeCompare items) limit ↔
      ∃ root ∈ (historyForest dateParse localeCompare items).roots,
        (isSubagent root.session.lineage ∨
          root ∈ (mainRoots (historyForest dateParse localeCompare items)).take limit) ∧
        InSubtree (historyForest dateParse localeCompare items).children node root := by
  have hdistinct := historyNodes_distinct h
  obtain ⟨kept, hsub, hkept, -, hids⟩ :=
    exists_kept (historyForest dateParse localeCompare items) limit
  rw [hids, mem_flatMap]
  constructor
  · rintro ⟨root, hroot, hid⟩
    obtain ⟨found, hfound, hid⟩ := mem_map.mp hid
    have hrootin := roots_subset dateParse localeCompare h (hsub.subset hroot)
    have hbelow := (mem_subtree dateParse localeCompare h hrootin).mp hfound
    have hfoundin := (isForest_forestOfNodes dateParse localeCompare none hdistinct
      (historyNodes_nodup items)).mem_of_inSubtree hrootin hbelow
    obtain rfl := hdistinct.eq hfoundin hnode hid
    exact ⟨root, ((hkept root).mp hroot).1, ((hkept root).mp hroot).2, hbelow⟩
  · rintro ⟨root, hroot, hchosen, hbelow⟩
    have hrootin := roots_subset dateParse localeCompare h hroot
    exact ⟨root, (hkept root).mpr ⟨hroot, hchosen⟩, mem_map.mpr
      ⟨node, (mem_subtree dateParse localeCompare h hrootin).mpr hbelow, rfl⟩⟩

theorem mem_roots_iff {root : AiSessionNode} :
    root ∈ (historyForest dateParse localeCompare items).roots ↔ root ∈ historyNodes items ∧
      ∀ parent, ¬ ChildOf (historyForest dateParse localeCompare items).children root parent :=
  (isRoots_forestOfNodes dateParse localeCompare none (historyNodes_distinct h)
    (historyNodes_nodup items)).mem_iff root

/-- Nodes on a cycle are roots of their own, and subagents. -/
theorem retained_of_cycle (hnode : node ∈ historyNodes items)
    (hcycle : OnCycle (parentIn (candidateParents (historyNodes items))) node.session.id) :
    node.session.id ∈ retainedIds (historyForest dateParse localeCompare items) limit := by
  obtain ⟨parent, hparent, -⟩ := Relation.TransGen.head'_iff.mp hcycle
  have hroot : node ∈ (historyForest dateParse localeCompare items).roots := by
    refine (mem_roots_iff h).mpr ⟨hnode, fun parent hchild => ?_⟩
    obtain ⟨-, -, hsettled⟩ := (childOf_iff dateParse localeCompare h).mp hchild
    exact (candidate_of_settled hsettled).1
      ((mem_cycleMembers (historyNodes_distinct h) _).mpr hcycle)
  exact (mem_retained_iff h hnode).mpr
    ⟨node, hroot, .inl (isSubagent_of_candidate h hnode hparent), .refl⟩

/-- A child is retained with its parent, also where the lineages go round. -/
theorem retained_closed {child parent : AiSessionNode} (hchild : child ∈ historyNodes items)
    (hparent : parent ∈ historyNodes items) (hlink : parentIn
      (candidateParents (historyNodes items)) child.session.id = some parent.session.id) :
    child.session.id ∈ retainedIds (historyForest dateParse localeCompare items) limit ↔
      parent.session.id ∈ retainedIds (historyForest dateParse localeCompare items) limit := by
  by_cases hcycle : OnCycle (parentIn (candidateParents (historyNodes items))) child.session.id
  · have hback := Relation.TransGen.tail' (hcycle.back (.single hlink)) hlink
    exact iff_of_true (retained_of_cycle h hchild hcycle) (retained_of_cycle h hparent hback)
  have hedge : ChildOf (historyForest dateParse localeCompare items).children child parent := by
    refine (childOf_iff dateParse localeCompare h).mpr ⟨hchild, hparent, ?_⟩
    rw [parentIn_settledParents, if_neg, hlink]
    rwa [mem_cycleMembers (historyNodes_distinct h)]
  rw [mem_retained_iff h hchild, mem_retained_iff h hparent]
  constructor
  · rintro ⟨root, hroot, hchosen, hbelow⟩
    rcases hbelow.cases_head with rfl | ⟨other, hother, hbelow⟩
    · exact absurd hedge (((mem_roots_iff h).mp hroot).2 parent)
    obtain rfl := (isForest_forestOfNodes dateParse localeCompare none (historyNodes_distinct h)
      (historyNodes_nodup items)).unique _ _ _ hother hedge
    exact ⟨root, hroot, hchosen, hbelow⟩
  · rintro ⟨root, hroot, hchosen, hbelow⟩
    exact ⟨root, hroot, hchosen, .head hedge hbelow⟩

/-- With a main root and a limit above 0 something is retained. -/
theorem exists_retained {item : AiSessionHistoryItem ρ} (hitem : item ∈ items)
    (hmain : isSubagent item.lineage = false) (hlimit : 0 < limit) : ∃ item ∈ items,
      item.id ∈ retainedIds (historyForest dateParse localeCompare items) limit := by
  obtain ⟨node, hnode, hsession⟩ := exists_historyNode hitem
  have hsubagent : isSubagent node.session.lineage = false := hsession ▸ hmain
  have hroot : node ∈ (historyForest dateParse localeCompare items).roots := by
    refine (mem_roots_iff h).mpr ⟨hnode, fun parent hchild => ?_⟩
    obtain ⟨-, -, hsettled⟩ := (childOf_iff dateParse localeCompare h).mp hchild
    have hcandidate := isSubagent_of_candidate h hnode (candidate_of_settled hsettled).2
    rw [hsubagent] at hcandidate
    cases hcandidate
  have hin : node ∈ mainRoots (historyForest dateParse localeCompare items) :=
    mem_filter.mpr ⟨hroot, by simp [hsubagent]⟩
  cases hroots : mainRoots (historyForest dateParse localeCompare items) with
  | nil =>
    rw [hroots] at hin
    cases hin
  | cons root roots =>
    have hfirst : root ∈ mainRoots (historyForest dateParse localeCompare items) := by simp [hroots]
    have hrootin := ((mem_roots_iff h).mp (mem_filter.mp hfirst).1).1
    have hrecord : root.session ∈ items.map (·.record) := by
      rw [← map_session_sessionNodes (items.map (·.record))]
      exact mem_map_of_mem hrootin
    obtain ⟨first, hfirstin, hsame⟩ := mem_map.mp hrecord
    refine ⟨first, hfirstin, ?_⟩
    have hid : root.session.id = first.id := by rw [← hsame]; rfl
    rw [← hid]
    refine (mem_retained_iff h hrootin).mpr ⟨root, (mem_filter.mp hfirst).1, .inr ?_, .refl⟩
    obtain ⟨n, rfl⟩ := Nat.exists_eq_add_of_lt hlimit
    simp [hroots]

end Trees

/-! ## The limited history -/

theorem Fits.sortAndLimit_eq (h : Fits limit items) (hsorted : items.Pairwise fun left right =>
    compareItems dateParse localeCompare left right ≤ 0) :
    sortAndLimitAiSessionHistory dateParse localeCompare items limit = items := by
  simp only [sortAndLimitAiSessionHistory, hsorted.insertionSort_eq, deduplicate_of_unique h.unique]
  refine filter_eq_self.mpr fun item hitem => decide_eq_true ?_
  exact mem_retainedIds dateParse localeCompare h.unique h.room hitem

/-- What is retained of the deduplicated history: `limit` trees, the latest ones, and those of
subagents whose parent is not found. -/
structure WholeTrees (dateParse : String → Option Int) (localeCompare : String → String → Int)
    (limit : Nat) (deduplicated retained : List (AiSessionHistoryItem ρ)) : Prop where
  sublist : retained.Sublist deduplicated
  unique : Unique retained
  sorted : retained.Pairwise fun a b =>
    dateDifference dateParse b.lastActiveAt a.lastActiveAt ≤ 0
  closed : ∀ child ∈ deduplicated, ∀ parent ∈ deduplicated,
    parentIn (candidateParents (historyNodes deduplicated)) child.id = some parent.id →
      (child ∈ retained ↔ parent ∈ retained)
  trees : ∀ item ∈ deduplicated, ∀ node ∈ historyNodes deduplicated, node.session = item.record →
    (item ∈ retained ↔ ∃ root ∈ (historyForest dateParse localeCompare deduplicated).roots,
      (isSubagent root.session.lineage ∨
        root ∈ (mainRoots (historyForest dateParse localeCompare deduplicated)).take limit) ∧
      InSubtree (historyForest dateParse localeCompare deduplicated).children node root)
  latest : (historyForest dateParse localeCompare deduplicated).roots.Pairwise fun a b =>
    timestamp dateParse
        ((historyForest dateParse localeCompare deduplicated).fields b).aggregateUpdatedAt ≤
      timestamp dateParse
        ((historyForest dateParse localeCompare deduplicated).fields a).aggregateUpdatedAt

def sortAndDeduplicate (dateParse : String → Option Int) (localeCompare : String → String → Int)
    (items : List (AiSessionHistoryItem ρ)) : List (AiSessionHistoryItem ρ) :=
  deduplicate (items.insertionSort fun left right =>
    compareItems dateParse localeCompare left right ≤ 0)

theorem sortAndLimit_trees (hlocale : Orders localeCompare)
    (hdates : ∀ item ∈ items, Dated dateParse item) (limit : Nat) :
    WholeTrees dateParse localeCompare (historyLimit (some limit))
        (sortAndDeduplicate dateParse localeCompare items)
        (sortAndLimitAiSessionHistory dateParse localeCompare items limit) ∧
      sortAndLimitAiSessionHistory dateParse localeCompare
          (sortAndLimitAiSessionHistory dateParse localeCompare items limit) limit =
        sortAndLimitAiSessionHistory dateParse localeCompare items limit := by
  have hsorted : (sortAndLimitAiSessionHistory dateParse localeCompare items limit).Pairwise
      fun left right => compareItems dateParse localeCompare left right ≤ 0 :=
    ((pairwise_sorted hlocale hdates).sublist (deduplicate_sublist _)).sublist filter_sublist
  have hfits := fits_sortAndLimit dateParse localeCompare items limit
  have hunique : Unique (sortAndDeduplicate dateParse localeCompare items) := deduplicate_unique _
  have hmem : ∀ item ∈ sortAndDeduplicate dateParse localeCompare items,
      item ∈ sortAndLimitAiSessionHistory dateParse localeCompare items limit ↔
        item.record.id ∈ retainedIds (historyForest dateParse localeCompare
          (sortAndDeduplicate dateParse localeCompare items)) (historyLimit (some limit)) := by
    intro item hitem
    exact mem_filter.trans ((and_iff_right hitem).trans decide_eq_true_iff)
  refine ⟨⟨filter_sublist, hfits.unique, ?_, ?_, ?_, pairwise_roots _⟩, hfits.sortAndLimit_eq hsorted⟩
  · refine hsorted.imp fun {a b} hab => ?_
    simp only [compareItems] at hab
    split_ifs at hab <;> omega
  · intro child hchild parent hparent hlink
    obtain ⟨childNode, hchildNode, hchildSession⟩ := exists_historyNode hchild
    obtain ⟨parentNode, hparentNode, hparentSession⟩ := exists_historyNode hparent
    rw [hmem child hchild, hmem parent hparent, ← hchildSession, ← hparentSession]
    apply retained_closed hunique hchildNode hparentNode
    rw [hchildSession, hparentSession]
    exact hlink
  · intro item hitem node hnode hsession
    rw [hmem item hitem, ← hsession]
    exact mem_retained_iff hunique hnode

def exampleLocale (left right : String) : Int := left.length - right.length

theorem exampleLocale_orders : Orders exampleLocale where
  total a b := by
    unfold exampleLocale
    omega
  trans a b c := by
    unfold exampleLocale
    omega

def exampleLimit (items : List (AiSessionHistoryItem Unit)) (limit : Nat) :
    List (AiSessionHistoryItem Unit) :=
  sortAndLimitAiSessionHistory AiSessionHistoryStore.exampleDate exampleLocale items limit

/-- Two roots with a subagent each, and an older item of one provider session. -/
def exampleItems : List (AiSessionHistoryItem Unit) :=
  [exampleItem "a" "2024-01-01T00:00:00Z" none, exampleItem "b" "2024-01-01T00:00:00Z" (some "p-a"),
    exampleItem "c" "2024-02-01T00:00:00Z" none,
    exampleItem "d" "2024-01-01T00:00:00Z" (some "p-c"),
    { exampleItem "e" "2024-01-01T00:00:00Z" none with providerSessionId := "p-c" }]

theorem sortAndLimit_trees_example : WholeTrees AiSessionHistoryStore.exampleDate exampleLocale 1
        (sortAndDeduplicate AiSessionHistoryStore.exampleDate exampleLocale exampleItems)
        (exampleLimit exampleItems 1) ∧
      exampleLimit (exampleLimit exampleItems 1) 1 = exampleLimit exampleItems 1 ∧
      (exampleLimit exampleItems 1).map (·.id) = ["c", "d"] := by
  have hdates : ∀ item ∈ exampleItems, Dated AiSessionHistoryStore.exampleDate item := by
    unfold Dated
    decide +kernel
  have htrees := sortAndLimit_trees exampleLocale_orders hdates 1
  exact ⟨htrees.1, htrees.2, by decide +kernel⟩

/-- More roots than the default limit, all of one date. -/
def manyRoots : List (AiSessionHistoryItem Unit) :=
  (range 51).map fun n =>
    exampleItem (String.ofList (replicate n 'a')) "2024-01-01T00:00:00Z" none

theorem manyRoots_unique : Unique manyRoots := by
  have hid : Function.Injective fun n => String.ofList (replicate n 'a') := by
    intro m n heq
    simpa using congrArg String.length heq
  constructor
  · rw [manyRoots, map_map]
    exact nodup_range.map hid
  rw [manyRoots, map_map]
  refine nodup_range.map fun m n heq => hid ?_
  simpa [providerIdentity, exampleItem] using heq

/-- A limit of 0 falls back on the default: neither no root is left nor all of them. -/
theorem limit_zero_retains : exampleLimit manyRoots 0 ≠ [] ∧ (exampleLimit manyRoots 0).length <
      (sortAndDeduplicate AiSessionHistoryStore.exampleDate exampleLocale manyRoots).length := by
  have hmain : ∀ item ∈ manyRoots, isSubagent item.lineage = false := by
    intro item hitem
    obtain ⟨n, -, rfl⟩ := mem_map.mp hitem
    rfl
  have hperm := perm_insertionSort (fun left right =>
    compareItems AiSessionHistoryStore.exampleDate exampleLocale left right ≤ 0) manyRoots
  have hsame := deduplicate_of_unique (manyRoots_unique.perm hperm.symm)
  constructor
  · intro hnone
    have hzero : exampleItem "" "2024-01-01T00:00:00Z" none ∈ manyRoots :=
      mem_map.mpr ⟨0, by simp, rfl⟩
    have hfirst := hperm.mem_iff.mpr hzero
    rw [← hsame] at hfirst
    obtain ⟨item, hitem, hid⟩ := @exists_retained _ _ 50 AiSessionHistoryStore.exampleDate
      exampleLocale (deduplicate_unique _) _ hfirst rfl (by decide)
    have hretained : item ∈ exampleLimit manyRoots 0 := mem_filter.mpr ⟨hitem, decide_eq_true hid⟩
    rw [hnone] at hretained
    cases hretained
  · have hroom := (fits_sortAndLimit AiSessionHistoryStore.exampleDate exampleLocale manyRoots 0).room
    have hall : mainItems (exampleLimit manyRoots 0) = exampleLimit manyRoots 0 :=
      filter_eq_self.mpr fun item hitem => by
        simp [hmain item (mem_of_mem_sortAndLimit _ _ hitem)]
    change (mainItems (exampleLimit manyRoots 0)).length ≤ 50 at hroom
    rw [hall] at hroom
    have hlength : (sortAndDeduplicate AiSessionHistoryStore.exampleDate exampleLocale
        manyRoots).length = 51 := by
      rw [sortAndDeduplicate, hsame, hperm.length_eq]
      simp [manyRoots]
    omega

end TaskHandoff.AiSessions.History
