import TaskHandoff.Lib.KeyedPatch
import Mathlib.Data.List.Perm.Basic
import Mathlib.Data.List.Induction

/-! # The merge of a live timeline into a snapshot

`mergeAiSessionTimelineItems` puts the items that only the live stream has before the next item that
both have. Live items grouped under these anchors give the live stream back, and every law of the
merge is read off that. -/

namespace TaskHandoff.AiSessions.Timeline

open List OrderedMap Keyed

/-- An item of a timeline; the merge reads no field but the id. -/
structure AiSessionTimelineItem (β : Type) where
  id : String
  content : β

variable {β : Type}

/-- What is to go before a snapshot item, and what waits for one. -/
abbrev Anchors (β : Type) :=
  OrderedMap String (List (AiSessionTimelineItem β)) × List (AiSessionTimelineItem β)

/-- One turn of the loop over the live items. -/
def anchor (snapshotIds : List String) (s : Anchors β) (item : AiSessionTimelineItem β) : Anchors β :=
  if item.id ∉ snapshotIds then (s.1, s.2 ++ [item])
  else (if s.2.isEmpty then s.1 else s.1.set item.id s.2, [])

def mergeAiSessionTimelineItems (snapshot liveItems : List (AiSessionTimelineItem β)) :
    List (AiSessionTimelineItem β) :=
  if liveItems.isEmpty then snapshot else
    let liveById := index (·.id) liveItems
    let s := liveById.values.foldl (anchor (snapshot.map (·.id))) (empty, [])
    (snapshot.flatMap fun item =>
      (s.1.get? item.id).getD [] ++ [(liveById.get? item.id).getD item]) ++ s.2

/-- What the merge of a snapshot and a live list is to be. -/
structure Merges (snapshot live merged : List (AiSessionTimelineItem β)) : Prop where
  once : (merged.map (·.id)).Nodup
  union : ∀ item, item ∈ merged ↔ item ∈ live ∨ item ∈ snapshot ∧ item.id ∉ live.map (·.id)
  snapshotOrder : (merged.map (·.id)).filter (· ∈ snapshot.map (·.id)) = snapshot.map (·.id)
  liveOrder : (snapshot.map (·.id)).filter (· ∈ live.map (·.id)) =
      (live.map (·.id)).filter (· ∈ snapshot.map (·.id)) →
    merged.filter (·.id ∈ live.map (·.id)) = live
  again : mergeAiSessionTimelineItems merged live = merged

variable {snapshot live : List (AiSessionTimelineItem β)} {ids : List String}

/-! ## The live version of an item -/

def version (live : List (AiSessionTimelineItem β)) (item : AiSessionTimelineItem β) :
    AiSessionTimelineItem β :=
  ((index (·.id) live).get? item.id).getD item

theorem version_id (item : AiSessionTimelineItem β) : (version live item).id = item.id := by
  unfold version
  cases h : (index (·.id) live).get? item.id with
  | none => rfl
  | some found => exact own_index (·.id) live _ _ h

theorem version_of_mem (h : (live.map (·.id)).Nodup) {item found : AiSessionTimelineItem β}
    (hfound : found ∈ live) (hid : found.id = item.id) : version live item = found := by
  rw [version, ← hid, get?_index_of_mem (·.id) h hfound, Option.getD_some]

theorem version_of_not_mem {item : AiSessionTimelineItem β} (h : item.id ∉ live.map (·.id)) :
    version live item = item := by
  have hnone := get?_index_of_not_mem AiSessionTimelineItem.id h
  rw [version, hnone, Option.getD_none]

/-! ## Anchors -/

def before (s : Anchors β) (id : String) : List (AiSessionTimelineItem β) :=
  (s.1.get? id).getD []

variable {s : Anchors β} {item : AiSessionTimelineItem β}

theorem before_anchor (hcommon : item.id ∈ ids) (hunset : before s item.id = []) (id : String) :
    before (anchor ids s item) id = if id = item.id then s.2 else before s id := by
  rw [anchor, if_neg (not_not.2 hcommon), before]
  by_cases hempty : s.2.isEmpty = true
  · rw [if_pos hempty]
    split
    · next heq => rw [heq, isEmpty_iff.1 hempty]; exact hunset
    · rfl
  · rw [if_neg hempty, get?_set]
    split <;> rfl

/-- The live items so far, each under its anchor or waiting. -/
structure Anchored (ids : List String) (live : List (AiSessionTimelineItem β)) (s : Anchors β) :
    Prop where
  regrouped : ((live.filter (·.id ∈ ids)).flatMap fun item => before s item.id ++ [item]) ++ s.2 = live
  anchors : ∀ id, id ∉ (live.filter (·.id ∈ ids)).map (·.id) → before s id = []
  between : ∀ id, ∀ item ∈ before s id ++ s.2, item ∈ live ∧ item.id ∉ ids

theorem Anchored.anchor (h : Anchored ids live s) (hfresh : item.id ∉ live.map (·.id)) :
    Anchored ids (live ++ [item]) (anchor ids s item) := by
  by_cases hcommon : item.id ∈ ids
  · have hunset := h.anchors item.id fun hmem =>
      hfresh ((filter_sublist.map _).subset hmem)
    have hbefore := before_anchor hcommon hunset
    have hnone : (Timeline.anchor ids s item).2 = [] := by simp [Timeline.anchor, hcommon]
    have hfilter : (live ++ [item]).filter (·.id ∈ ids) = live.filter (·.id ∈ ids) ++ [item] := by
      simp [hcommon]
    refine ⟨?_, ?_, ?_⟩
    · have hold : ((live.filter (·.id ∈ ids)).flatMap fun other =>
          before (Timeline.anchor ids s item) other.id ++ [other]) =
            (live.filter (·.id ∈ ids)).flatMap fun other => before s other.id ++ [other] := by
        apply flatMap_congr
        intro other hother
        rw [hbefore, if_neg]
        exact fun heq => hfresh (heq ▸ mem_map_of_mem (mem_of_mem_filter hother))
      rw [hfilter, flatMap_append, hold, hnone, append_nil, flatMap_singleton, hbefore,
        if_pos rfl, ← append_assoc, h.regrouped]
    · intro id hid
      rw [hfilter, map_append, mem_append, not_or] at hid
      rw [hbefore, if_neg (by simpa using hid.2)]
      exact h.anchors id hid.1
    · intro id other hother
      rw [hnone, append_nil, hbefore] at hother
      have hold : other ∈ before s id ++ s.2 := by
        split at hother
        · exact mem_append_right _ hother
        · exact mem_append_left _ hother
      exact ⟨mem_append_left _ (h.between id other hold).1, (h.between id other hold).2⟩
  · have hanchor : Timeline.anchor ids s item = (s.1, s.2 ++ [item]) := if_pos hcommon
    have hfilter : (live ++ [item]).filter (·.id ∈ ids) = live.filter (·.id ∈ ids) := by
      simp [hcommon]
    rw [hanchor]
    refine ⟨?_, ?_, ?_⟩
    · rw [hfilter, ← append_assoc]
      exact congrArg (· ++ [item]) h.regrouped
    · rw [hfilter]
      exact h.anchors
    · intro id other hother
      rw [← append_assoc, mem_append, mem_singleton] at hother
      rcases hother with hold | rfl
      · exact ⟨mem_append_left _ (h.between id other hold).1, (h.between id other hold).2⟩
      · exact ⟨by simp, hcommon⟩

theorem anchored (ids : List String) (h : (live.map (·.id)).Nodup) :
    Anchored ids live (live.foldl (anchor ids) (empty, [])) := by
  induction live using reverseRecOn with
  | nil => exact ⟨rfl, fun _ _ => rfl, by simp [before]⟩
  | append_singleton live item ih =>
    rw [map_append, nodup_append] at h
    rw [foldl_append]
    exact (ih h.1).anchor fun hmem => h.2.2 _ hmem _ (by simp) rfl

theorem anchor_all (h : ∀ item ∈ live, item.id ∈ ids) :
    live.foldl (anchor ids) (empty, []) = (empty, []) := by
  induction live with
  | nil => rfl
  | cons item live ih =>
    have ⟨hitem, hlive⟩ := forall_mem_cons.1 h
    rw [foldl_cons, anchor, if_neg (not_not.2 hitem)]
    exact ih hlive

/-! ## The merge -/

/-- The live item of an id, with what goes before it. -/
def block (live : List (AiSessionTimelineItem β)) (s : Anchors β) (id : String) :
    List (AiSessionTimelineItem β) :=
  before s id ++ ((index (·.id) live).get? id).toList

/-- The merge behind the loop over the live items. -/
def thread (snapshot live : List (AiSessionTimelineItem β)) (s : Anchors β) :
    List (AiSessionTimelineItem β) :=
  (snapshot.flatMap fun item => before s item.id ++ [version live item]) ++ s.2

variable (snapshot) in
theorem merge_eq (h : (live.map (·.id)).Nodup) : mergeAiSessionTimelineItems snapshot live =
    thread snapshot live (live.foldl (anchor (snapshot.map (·.id))) (empty, [])) := by
  unfold mergeAiSessionTimelineItems
  split
  · next hempty =>
    rw [isEmpty_iff.1 hempty]
    have hversion : ∀ item : AiSessionTimelineItem β, version [] item = item :=
      fun item => version_of_not_mem (by simp)
    simp [thread, before, hversion]
  · simp only [values_index AiSessionTimelineItem.id h]
    rfl

theorem Anchored.live_eq (h : Anchored ids live s) (hlive : (live.map (·.id)).Nodup) :
    ((live.map (·.id)).filter (· ∈ ids)).flatMap (block live s) ++ s.2 = live := by
  conv_rhs => rw [← h.regrouped]
  rw [filter_map, flatMap_map]
  congr 1
  apply flatMap_congr
  intro item hitem
  rw [block, get?_index_of_mem AiSessionTimelineItem.id hlive (mem_of_mem_filter hitem)]
  rfl

theorem flatMap_filter {α γ : Type} (p : α → Bool) (f : α → List γ) (l : List α) :
    (l.filter p).flatMap f = l.flatMap fun a => if p a then f a else [] := by
  induction l with
  | nil => rfl
  | cons a l ih =>
    rw [filter_cons, flatMap_cons, ← ih]
    split <;> rfl

theorem Anchored.segment (h : Anchored ids live s) (hlive : (live.map (·.id)).Nodup)
    (item : AiSessionTimelineItem β) : if item.id ∈ live.map (·.id) then
      before s item.id ++ [version live item] = block live s item.id ∧
        ∀ other ∈ before s item.id ++ [version live item], other.id ∈ live.map (·.id)
    else before s item.id ++ [version live item] = [item] := by
  split
  · next hmem =>
    have ⟨found, hfound, hid⟩ := mem_map.1 hmem
    have hversion : version live item = found := version_of_mem hlive hfound hid
    constructor
    · rw [block, hversion, ← hid, get?_index_of_mem AiSessionTimelineItem.id hlive hfound]
      rfl
    intro other hother
    rcases mem_append.1 hother with hbefore | hself
    · exact mem_map_of_mem (h.between _ other (mem_append_left _ hbefore)).1
    · rw [mem_singleton.1 hself, hversion]
      exact mem_map_of_mem hfound
  · next hnot =>
    rw [version_of_not_mem hnot, h.anchors item.id fun hmem =>
      hnot ((filter_sublist.map _).subset hmem), nil_append]

section

variable (h : Anchored (snapshot.map (·.id)) live s)

include h

theorem Anchored.filter_live
    (hlive : (live.map (·.id)).Nodup) : (thread snapshot live s).filter (·.id ∈ live.map (·.id)) =
      ((snapshot.map (·.id)).filter (· ∈ live.map (·.id))).flatMap (block live s) ++ s.2 := by
  rw [thread, filter_append, filter_flatMap, flatMap_filter, flatMap_map]
  congr 1
  · apply flatMap_congr
    intro item _
    have hsegment := h.segment hlive item
    split at hsegment
    · next hmem =>
      rw [filter_eq_self.2 fun other hother => decide_eq_true (hsegment.2 other hother),
        hsegment.1, if_pos (decide_eq_true hmem)]
    next hnot =>
    rw [hsegment, filter_singleton, decide_eq_false hnot]
    rfl
  · apply filter_eq_self.2
    intro item hitem
    exact decide_eq_true (mem_map_of_mem (h.between "" item (mem_append_right _ hitem)).1)

theorem Anchored.filter_rest
    (hlive : (live.map (·.id)).Nodup) :
    (thread snapshot live s).filter (fun item => !decide (item.id ∈ live.map (·.id))) =
      snapshot.filter fun item => !decide (item.id ∈ live.map (·.id)) := by
  have hpending : s.2.filter (fun item => !decide (item.id ∈ live.map (·.id))) = [] := by
    rw [filter_eq_nil_iff]
    intro item hitem
    have hmem := mem_map_of_mem (f := (·.id)) (h.between "" item (mem_append_right _ hitem)).1
    simpa using hmem
  rw [thread, filter_append, hpending, append_nil, filter_flatMap,
    ← flatMap_singleton' (snapshot.filter _), flatMap_filter]
  apply flatMap_congr
  intro item _
  have hsegment := h.segment hlive item
  split at hsegment
  · next hmem =>
    have hnone : (before s item.id ++ [version live item]).filter
        (fun item => !decide (item.id ∈ live.map (·.id))) = [] := by
      rw [filter_eq_nil_iff]
      intro other hother
      simpa using hsegment.2 other hother
    rw [hnone, decide_eq_true hmem]
    rfl
  · next hnot =>
    rw [hsegment, filter_singleton, decide_eq_false hnot]
    rfl

theorem Anchored.snapshot_order :
    ((thread snapshot live s).map (·.id)).filter (· ∈ snapshot.map (·.id)) =
      snapshot.map (·.id) := by
  have hnone : ∀ id, ∀ l, l ⊆ before s id ++ s.2 →
      (l.map (·.id)).filter (· ∈ snapshot.map (·.id)) = [] := by
    intro id l hl
    simp only [filter_eq_nil_iff, forall_mem_map, decide_eq_true_eq]
    exact fun item hitem => (h.between id item (hl hitem)).2
  rw [thread, map_append, filter_append, hnone "" _ (subset_append_right _ _),
    append_nil, map_flatMap, filter_flatMap]
  conv_rhs => rw [← flatMap_singleton' (snapshot.map _), flatMap_map]
  apply flatMap_congr
  intro item hitem
  rw [map_append, filter_append, hnone item.id _ (subset_append_left _ _),
    map_singleton, version_id, filter_singleton,
    decide_eq_true (mem_map_of_mem hitem)]
  rfl

theorem Anchored.perm
    (hsnapshot : (snapshot.map (·.id)).Nodup) (hlive : (live.map (·.id)).Nodup) :
    (thread snapshot live s).Perm
      (live ++ snapshot.filter fun item => !decide (item.id ∈ live.map (·.id))) := by
  have hids : ((snapshot.map (·.id)).filter (· ∈ live.map (·.id))).Perm
      ((live.map (·.id)).filter (· ∈ snapshot.map (·.id))) := by
    rw [perm_ext_iff_of_nodup (hsnapshot.filter _) (hlive.filter _)]
    intro id
    simp only [mem_filter, decide_eq_true_eq, and_comm]
  refine (filter_append_perm (·.id ∈ live.map (·.id)) _).symm.trans ?_
  rw [h.filter_live hlive, h.filter_rest hlive]
  apply List.Perm.append_right
  conv_rhs => rw [← h.live_eq hlive]
  exact (hids.flatMap_right _).append_right _

end

/-- The merge of two lists of distinct ids has each id of them once, in its live version, in the
order of both; merging it again changes nothing. -/
theorem mergeAiSessionTimelineItems_merges (hsnapshot : (snapshot.map (·.id)).Nodup)
    (hlive : (live.map (·.id)).Nodup) :
    Merges snapshot live (mergeAiSessionTimelineItems snapshot live) := by
  have h := anchored (snapshot.map (·.id)) hlive
  have hmerge := merge_eq snapshot hlive
  generalize live.foldl (anchor (snapshot.map (·.id))) (empty, []) = s at h hmerge
  have hperm := h.perm hsnapshot hlive
  have hunion : ∀ item, item ∈ thread snapshot live s ↔
      item ∈ live ∨ item ∈ snapshot ∧ item.id ∉ live.map (·.id) := by
    intro item
    rw [hperm.mem_iff, mem_append]
    simp
  rw [hmerge]
  refine ⟨?_, hunion, ?_, ?_, ?_⟩
  · rw [(hperm.map _).nodup_iff, map_append, nodup_append]
    refine ⟨hlive, hsnapshot.sublist (filter_sublist.map _), ?_⟩
    rintro id hid other hother rfl
    have ⟨item, hitem, heq⟩ := mem_map.1 hother
    have hnot := (mem_filter.1 hitem).2
    rw [heq, decide_eq_true hid] at hnot
    cases hnot
  · exact h.snapshot_order
  · intro horder
    rw [h.filter_live hlive, horder, h.live_eq hlive]
  · have hall : ∀ item ∈ live, item.id ∈ (thread snapshot live s).map (·.id) :=
      fun item hitem => mem_map_of_mem ((hunion item).2 (.inl hitem))
    rw [merge_eq _ hlive, anchor_all hall, thread, append_nil]
    have hsame : ∀ item ∈ thread snapshot live s, version live item = item := by
      intro item hitem
      rcases (hunion item).1 hitem with hmem | ⟨_, hnot⟩
      · exact version_of_mem hlive hmem rfl
      · exact version_of_not_mem hnot
    calc (thread snapshot live s).flatMap
          (fun item => before (empty, []) item.id ++ [version live item])
        = (thread snapshot live s).flatMap fun item => [item] :=
          flatMap_congr fun item hitem => by rw [hsame item hitem]; rfl
      _ = thread snapshot live s := flatMap_singleton' _

/-- One id is common; the second item of each list comes from one side. -/
theorem mergeAiSessionTimelineItems_merges_example :
    Merges [⟨"a", 0⟩, ⟨"b", 0⟩] [⟨"c", 1⟩, ⟨"b", 1⟩]
      (mergeAiSessionTimelineItems [⟨"a", 0⟩, ⟨"b", 0⟩] [⟨"c", 1⟩, ⟨"b", 1⟩]) :=
  mergeAiSessionTimelineItems_merges (by decide) (by decide)

end TaskHandoff.AiSessions.Timeline
