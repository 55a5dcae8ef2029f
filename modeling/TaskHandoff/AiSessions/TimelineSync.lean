import TaskHandoff.AiSessions.TimelineMerge
import Mathlib.Data.List.Forall2

/-! # The sync of a timeline with a client's cursor

`syncAiSessionTimelineItems` answers the revisions a client holds with what it lacks, and leaves the
order out when the client can tell it. The client's side of the protocol is stated here with it. -/

namespace TaskHandoff.AiSessions.Timeline

open List

variable {β ρ : Type}

structure AiSessionTimelineItemRevision (ρ : Type) where
  id : String
  revision : ρ

structure AiSessionTimelineVersionedItem (β ρ : Type) where
  revision : ρ
  item : AiSessionTimelineItem β

inductive AiSessionTimelineSyncRead (β ρ : Type) where
  | notModified (revision : ρ)
  | snapshot (revision : ρ) (items : List (AiSessionTimelineVersionedItem β ρ))
  | delta (revision : ρ) (upserted : List (AiSessionTimelineVersionedItem β ρ))
      (removed : List String) (order : Option (List String))

/-- No known id comes behind an unknown one. -/
def appendsOnly (knownIds : List String) (seenNewItem : Bool) : List String → Bool
  | [] => true
  | id :: rest =>
    if id ∉ knownIds then appendsOnly knownIds true rest
    else !seenNewItem && appendsOnly knownIds seenNewItem rest

abbrev ids (items : List (AiSessionTimelineItem β)) : List String := items.map (·.id)

section

variable (itemRevision : AiSessionTimelineItem β → ρ)
  (timelineRevision : List (AiSessionTimelineItem β) → ρ)

def syncAiSessionTimelineItems [DecidableEq ρ] (items : List (AiSessionTimelineItem β))
    (knownItems : List (AiSessionTimelineItemRevision ρ)) : AiSessionTimelineSyncRead β ρ :=
  let revision := timelineRevision items
  let versioned : List (AiSessionTimelineVersionedItem β ρ) :=
    items.map fun item => ⟨itemRevision item, item⟩
  if knownItems.isEmpty then .snapshot revision versioned
  else if knownItems.length = versioned.length ∧ (knownItems.zip versioned).all fun (known, entry) =>
      known.id = entry.item.id && known.revision = entry.revision then .notModified revision
  else
    let knownRevisions := Keyed.index (·.id) knownItems
    let currentIds := versioned.map (·.item.id)
    let knownIds := knownItems.map (·.id)
    let removed := knownIds.filter (· ∉ currentIds)
    let survivingKnownOrder := knownIds.filter (· ∉ removed)
    let currentKnownOrder := currentIds.filter (· ∈ knownIds)
    let orderDerivable := appendsOnly knownIds false currentIds &&
      survivingKnownOrder = currentKnownOrder
    .delta revision
      (versioned.filter fun entry =>
        (knownRevisions.get? entry.item.id).map (·.revision) ≠ some entry.revision)
      removed (if orderDerivable then none else some currentIds)

/-- The revisions a client sends for what it holds. -/
def cursor (held : List (AiSessionTimelineItem β)) : List (AiSessionTimelineItemRevision ρ) :=
  held.map fun item => ⟨item.id, itemRevision item⟩

end

/-- What survives in its place, then what is new. -/
def follow (held changed : List (AiSessionTimelineItem β)) (removed : List String) :
    List (AiSessionTimelineItem β) :=
  (held.filter (·.id ∉ removed)).map (version changed) ++ changed.filter (·.id ∉ ids held)

/-- What a client makes of the answer. -/
def applySync (held : List (AiSessionTimelineItem β)) :
    AiSessionTimelineSyncRead β ρ → List (AiSessionTimelineItem β)
  | .notModified _ => held
  | .snapshot _ items => items.map (·.item)
  | .delta _ upserted removed order =>
    let next := follow held (upserted.map (·.item)) removed
    match order with
    | none => next
    | some order => order.filterMap fun id => next.find? (·.id = id)

/-! ## What the server leaves out -/

theorem new_of_appendsOnly {known current : List String} (h : appendsOnly known true current = true) :
    ∀ id ∈ current, id ∉ known := by
  induction current with
  | nil => simp
  | cons id current ih =>
    rw [appendsOnly] at h
    split at h
    next hnew => exact forall_mem_cons.mpr ⟨hnew, ih h⟩
    next => cases h

/-- When nothing new comes first, the known ids come first. -/
theorem partition_of_appendsOnly {known current : List String}
    (h : appendsOnly known false current = true) :
    current.filter (· ∈ known) ++ current.filter (· ∉ known) = current := by
  induction current with
  | nil => rfl
  | cons id current ih =>
    rw [appendsOnly] at h
    split at h
    next hnew =>
      have hrest := new_of_appendsOnly h
      rw [filter_cons_of_neg (by simpa using hnew), filter_cons_of_pos (by simpa using hnew),
        filter_eq_nil_iff.mpr (by simpa using hrest), filter_eq_self.mpr (by simpa using hrest)]
      rfl
    next hknown =>
      rw [filter_cons_of_pos (by simpa using hknown), filter_cons_of_neg (by simpa using hknown),
        cons_append, ih h]

/-! ## The client follows -/

variable {items held list : List (AiSessionTimelineItem β)}

section

variable (hitems : (ids items).Nodup) (hlist : ∀ item, item ∈ list ↔ item ∈ items)

include hitems hlist

theorem reorder : (ids items).filterMap (fun id => list.find? (·.id = id)) = items := by
  rw [filterMap_map]
  refine (filterMap_congr fun item hitem => ?_).trans filterMap_some
  have hmem := (hlist item).mpr hitem
  cases hfound : list.find? (·.id = item.id) with
  | none => simpa using find?_eq_none.mp hfound item hmem
  | some found =>
    have hid : found.id = item.id := by simpa using find?_some hfound
    have hin := (hlist found).mp (mem_of_find?_eq_some hfound)
    exact hfound.trans (congrArg some (inj_on_of_nodup_map hitems hin hitem hid))

theorem eq_of_ids (hids : ids list = ids items) : list = items := by
  have hown : (ids list).filterMap (fun id => list.find? (·.id = id)) = list :=
    reorder (hids ▸ hitems) fun _ => .rfl
  rw [hids] at hown
  exact hown.symm.trans (reorder hitems hlist)

end

section

variable {p : AiSessionTimelineItem β → Bool} {removed : List String}
  (hp : ∀ item ∈ items, p item = true ↔ item ∉ held)
  (hremoved : ∀ id ∈ ids held, id ∉ removed ↔ id ∈ ids items)

include hp

omit hremoved in
theorem filter_changed :
    (items.filter p).filter (·.id ∉ ids held) = items.filter (·.id ∉ ids held) := by
  rw [filter_filter]
  refine filter_congr fun item hitem => ?_
  by_cases hknown : item.id ∈ ids held
  · simp [hknown]
  · simp [hknown, (hp item hitem).mpr fun h => hknown (mem_map_of_mem h)]

include hremoved

theorem mem_follow (hitems : (ids items).Nodup) (hheld : (ids held).Nodup)
    (item : AiSessionTimelineItem β) :
    item ∈ follow held (items.filter p) removed ↔ item ∈ items := by
  have hversion {old item : AiSessionTimelineItem β} (hold : old ∈ held) (h : item ∈ items)
      (hid : old.id = item.id) : version (items.filter p) old = item := by
    by_cases hin : item ∈ held
    · rw [inj_on_of_nodup_map hheld hold hin hid]
      refine version_of_not_mem fun hmem => ?_
      obtain ⟨other, hother, hsame⟩ := mem_map.mp hmem
      obtain ⟨hother, hchanged⟩ := mem_filter.mp hother
      rw [inj_on_of_nodup_map hitems hother h hsame] at hchanged
      exact (hp item h).mp hchanged hin
    · exact version_of_mem ((filter_sublist.map _).nodup hitems)
        (mem_filter.mpr ⟨h, (hp item h).mpr hin⟩) hid.symm
  rw [follow, filter_changed hp, mem_append, mem_filter, decide_eq_true_iff]
  constructor
  · rintro (h | h)
    · obtain ⟨old, hold, rfl⟩ := mem_map.mp h
      obtain ⟨hold, hthere⟩ := mem_filter.mp hold
      obtain ⟨current, hcurrent, hid⟩ := mem_map.mp
        ((hremoved old.id (mem_map_of_mem hold)).mp (of_decide_eq_true hthere))
      rwa [hversion hold hcurrent hid.symm]
    · exact h.1
  · intro h
    by_cases hknown : item.id ∈ ids held
    · obtain ⟨old, hold, hid⟩ := mem_map.mp hknown
      have hthere := (hremoved old.id (mem_map_of_mem hold)).mpr (hid ▸ mem_map_of_mem h)
      exact .inl (mem_map.mpr ⟨old, mem_filter.mpr ⟨hold, decide_eq_true hthere⟩,
        hversion hold h hid⟩)
    · exact .inr ⟨h, hknown⟩

omit hremoved in
theorem ids_follow : ids (follow held (items.filter p) removed) =
    (ids held).filter (· ∉ removed) ++ (ids items).filter (· ∉ ids held) := by
  rw [follow, filter_changed hp, ids, map_append, map_map, filter_map, filter_map]
  exact congrArg (· ++ _) (map_congr_left fun old _ => version_id old)

end

/-- What the client has after the answer are the server's items, in the server's order. -/
theorem applySync_sync [DecidableEq ρ] (itemRevision : AiSessionTimelineItem β → ρ)
    (timelineRevision : List (AiSessionTimelineItem β) → ρ) (hitems : (ids items).Nodup)
    (hheld : (ids held).Nodup) (hrevision : ∀ old ∈ held, ∀ item ∈ items,
      itemRevision old = itemRevision item → old = item) :
    applySync held (syncAiSessionTimelineItems itemRevision timelineRevision items
      (cursor itemRevision held)) = items := by
  have hknown : (cursor itemRevision held).map (·.id) = ids held := by
    rw [cursor, map_map]
    rfl
  have hcurrent : (items.map fun item => (⟨itemRevision item, item⟩ :
      AiSessionTimelineVersionedItem β ρ)).map (·.item.id) = ids items := by
    rw [map_map]
    rfl
  unfold syncAiSessionTimelineItems
  simp only [hknown, hcurrent]
  split
  · rw [applySync, map_map]
    exact map_id _
  split
  next hsame =>
    rw [cursor, zip_map, all_map, all_eq_true, length_map, length_map] at hsame
    refine forall₂_eq_eq_eq ▸ forall₂_iff_zip.mpr ⟨hsame.1, fun hmem => ?_⟩
    have hpair := hsame.2 _ hmem
    simp only [Function.comp, Prod.map, Bool.and_eq_true, decide_eq_true_eq] at hpair
    exact hrevision _ (of_mem_zip hmem).1 _ (of_mem_zip hmem).2 hpair.2
  next =>
    have hp : ∀ item ∈ items, decide (((Keyed.index (·.id) (cursor itemRevision held)).get?
        item.id).map (·.revision) ≠ some (itemRevision item)) = true ↔ item ∉ held := by
      intro item hitem
      rw [decide_eq_true_iff]
      by_cases hin : item.id ∈ ids held
      · obtain ⟨old, hold, hid⟩ := mem_map.mp hin
        have hmem : ⟨old.id, itemRevision old⟩ ∈ cursor itemRevision held := mem_map_of_mem hold
        have hget := Keyed.get?_index_of_mem AiSessionTimelineItemRevision.id (hknown ▸ hheld) hmem
        rw [← hid, hget]
        refine not_congr ⟨fun heq => ?_, fun h => ?_⟩
        · exact hrevision old hold item hitem (Option.some.inj heq) ▸ hold
        · rw [inj_on_of_nodup_map hheld hold h hid]
          rfl
      · rw [← hknown] at hin
        have hnone := Keyed.get?_index_of_not_mem AiSessionTimelineItemRevision.id hin
        rw [hnone]
        exact iff_of_true nofun fun h => hin (hknown ▸ mem_map_of_mem h)
    have hupserted (q : AiSessionTimelineVersionedItem β ρ → Bool) :
        ((items.map fun item => ⟨itemRevision item, item⟩).filter q).map (·.item) =
          items.filter fun item => q ⟨itemRevision item, item⟩ := by
      rw [filter_map, map_map]
      exact map_id _
    have hremoved : ∀ id ∈ ids held, id ∉ (ids held).filter (· ∉ ids items) ↔ id ∈ ids items := by
      intro id hid
      simp [-mem_map, hid]
    have hmem := mem_follow hp hremoved hitems hheld
    simp only [applySync, hupserted]
    generalize hd : (appendsOnly _ _ _ && _) = derivable
    cases derivable with
    | false => exact reorder hitems hmem
    | true =>
      obtain ⟨happends, horder⟩ := Bool.and_eq_true_iff.mp hd
      refine eq_of_ids hitems hmem ((ids_follow hp).trans ?_)
      rw [of_decide_eq_true horder, partition_of_appendsOnly happends]

/-- An item changes, one is inserted before it and one goes. -/
theorem applySync_sync_example :
    applySync [⟨"a", 1⟩, ⟨"b", 2⟩, ⟨"c", 3⟩] (syncAiSessionTimelineItems (·.content) (fun _ => 0)
      [⟨"a", 1⟩, ⟨"d", 4⟩, ⟨"c", 5⟩] (cursor (·.content) [⟨"a", 1⟩, ⟨"b", 2⟩, ⟨"c", 3⟩])) =
        [⟨"a", 1⟩, ⟨"d", 4⟩, ⟨"c", 5⟩] :=
  applySync_sync _ _ (by decide) (by decide) (by simp)

end TaskHandoff.AiSessions.Timeline
