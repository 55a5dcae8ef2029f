import Mathlib.Data.List.Count

/-! # The message queue of an AI session

`AiSessionQueueService` applies queue mutations to a session snapshot. Every
mutation ends in the normalization, which bounds the queue and sorts it by
status, so a queue carries its bound. The normalization comes first, for items
of any kind. In the queue of this module timestamps and attachment payloads,
which decide nothing here, are left out.
-/

namespace TaskHandoff.AiSessions

open List

inductive QueuedMessageStatus where
  | queued
  | sending
  | failed
deriving DecidableEq

def AI_SESSION_QUEUE_LIMIT : Nat := 100

/-! ## Normalized items -/

section

variable {α : Type} (status : α → QueuedMessageStatus)

/-- The stable sort by rank: sending, queued, failed. -/
def sortByStatus (items : List α) : List α :=
  items.filter (fun item => status item = .sending) ++
    items.filter (fun item => status item = .queued) ++
    items.filter fun item => status item = .failed

/-- The items that the normalization keeps, as many as the queue takes, sorted. -/
def normalizedItems (normalize : α → Option α) (items : List α) : List α :=
  sortByStatus status ((items.filterMap normalize).take AI_SESSION_QUEUE_LIMIT)

variable (items : List α)

theorem filter_sortByStatus (rank : QueuedMessageStatus) (p : α → Bool) :
    (sortByStatus status items).filter (fun item => status item = rank && p item) =
      items.filter fun item => status item = rank && p item := by
  simp only [sortByStatus, filter_append, filter_filter]
  have hother : ∀ other, other ≠ rank → (items.filter fun item =>
      (decide (status item = rank) && p item) && decide (status item = other)) = [] := by
    intro other hne
    apply filter_eq_nil_iff.mpr
    intro item _ hitem
    simp only [Bool.and_eq_true, decide_eq_true_eq] at hitem
    exact hne (hitem.2.symm.trans hitem.1.1)
  have hown : (items.filter fun item =>
      (decide (status item = rank) && p item) && decide (status item = rank)) =
        items.filter fun item => status item = rank && p item := by
    apply filter_congr
    intro item _
    cases decide (status item = rank) <;> simp
  cases rank with
  | sending => rw [hown, hother .queued nofun, hother .failed nofun, append_nil, append_nil]
  | queued => rw [hown, hother .sending nofun, hother .failed nofun, append_nil, nil_append]
  | failed => rw [hown, hother .sending nofun, hother .queued nofun, nil_append, nil_append]

theorem filter_status_sortByStatus (rank : QueuedMessageStatus) :
    (sortByStatus status items).filter (fun item => status item = rank) =
      items.filter fun item => status item = rank := by
  simpa using filter_sortByStatus status items rank fun _ => true

theorem sortByStatus_sortByStatus :
    sortByStatus status (sortByStatus status items) = sortByStatus status items := by
  conv_lhs => rw [sortByStatus]
  simp only [filter_status_sortByStatus]
  rfl

theorem sortByStatus_perm : (sortByStatus status items).Perm items := by
  classical
  rw [perm_iff_count]
  intro item
  have hcount : ∀ rank, (items.filter fun i => status i = rank).count item =
      if status item = rank then items.count item else 0 := by
    intro rank
    split
    next heq => exact count_filter (by simpa using heq)
    next hne =>
      apply count_eq_zero.mpr
      intro hin
      exact hne (by simpa using (mem_filter.mp hin).2)
  simp only [sortByStatus, count_append, hcount]
  cases status item <;> simp

variable {status items} {normalize : α → Option α} {item : α}

theorem length_normalizedItems_le :
    (normalizedItems status normalize items).length ≤ AI_SESSION_QUEUE_LIMIT := by
  rw [normalizedItems, (sortByStatus_perm _ _).length_eq]
  exact length_take_le _ _

theorem mem_of_normalizedItems (h : item ∈ normalizedItems status normalize items) :
    ∃ raw ∈ items, normalize raw = some item :=
  mem_filterMap.mp (mem_of_mem_take ((sortByStatus_perm _ _).mem_iff.mp h))

theorem mem_normalizedItems (h : items.length ≤ AI_SESSION_QUEUE_LIMIT) :
    item ∈ normalizedItems status normalize items ↔ ∃ raw ∈ items, normalize raw = some item := by
  rw [normalizedItems, (sortByStatus_perm _ _).mem_iff,
    take_of_length_le (Nat.le_trans (length_filterMap_le _ _) h), mem_filterMap]

end

/-! ## Queues -/

/-- `body` holds what a provider is handed: text, attachments, references and
permission mode, as the schema accepted them. -/
structure AiSessionQueuedMessage (μ : Type) where
  id : Nat
  body : μ
  status : QueuedMessageStatus
  error : Option String

structure AiSessionQueue (μ : Type) where
  revision : Nat
  paused : Bool
  items : List (AiSessionQueuedMessage μ)
  bounded : items.length ≤ AI_SESSION_QUEUE_LIMIT

variable {μ : Type}

namespace AiSessionQueue

def empty : AiSessionQueue μ := ⟨0, false, [], Nat.zero_le _⟩

variable (queue : AiSessionQueue μ)

def ids : List Nat := queue.items.map AiSessionQueuedMessage.id

variable {item : AiSessionQueuedMessage μ} {items : List (AiSessionQueuedMessage μ)}

/-- The schema has accepted every item here, so none is dropped. -/
def normalizeAiSessionQueueItems (items : List (AiSessionQueuedMessage μ)) (revision : Nat)
    (paused : Bool) : AiSessionQueue μ where
  revision := revision
  paused := paused
  items := normalizedItems AiSessionQueuedMessage.status some items
  bounded := length_normalizedItems_le

def withQueue (items : List (AiSessionQueuedMessage μ)) : AiSessionQueue μ :=
  normalizeAiSessionQueueItems items (queue.revision + 1) queue.paused

theorem mem_ids_withQueue {queue : AiSessionQueue μ}
    (h : items.length ≤ AI_SESSION_QUEUE_LIMIT) {id : Nat} :
    id ∈ (queue.withQueue items).ids ↔ id ∈ items.map AiSessionQueuedMessage.id := by
  simp only [withQueue, normalizeAiSessionQueueItems, ids, mem_map, mem_normalizedItems h,
    Option.some.injEq, exists_eq_right]

/-! ## Mutations -/

def newMessage (id : Nat) (body : μ) : AiSessionQueuedMessage μ := ⟨id, body, .queued, none⟩

/-- The queue with the message at its end, if the limit leaves room for it. -/
def enqueueMessage (id : Nat) (body : μ) : Option (AiSessionQueue μ) :=
  let queue' := queue.withQueue (queue.items ++ [newMessage id body])
  if id ∈ queue'.ids then some queue' else none

def nextQueuedMessage : Option (AiSessionQueuedMessage μ) :=
  queue.items.find? fun item => item.status = .queued

def patchQueuedMessage (queueId : Nat) (status : QueuedMessageStatus)
    (error : Option String) : Option (AiSessionQueue μ) :=
  if queueId ∈ queue.ids then
    some <| queue.withQueue <| queue.items.map fun item =>
      if item.id ≠ queueId then item else { item with status := status, error := error }
  else none

def markQueuedMessageSending (queueId : Nat) : Option (AiSessionQueue μ) :=
  queue.patchQueuedMessage queueId .sending none

def markQueuedMessageFailed (queueId : Nat) (error : String) : Option (AiSessionQueue μ) :=
  queue.patchQueuedMessage queueId .failed (some error)

/-- The message moves to the end, whatever its status was. -/
def retryQueuedMessage (queueId : Nat) : Option (AiSessionQueue μ) :=
  match queue.items.find? fun item => item.id = queueId with
  | none => none
  | some item =>
    some <| queue.withQueue <| (queue.items.filter fun item => item.id ≠ queueId) ++
      [{ item with status := .queued, error := none }]

def removeQueuedMessage (queueId : Nat) : Option (AiSessionQueue μ) :=
  if queueId ∈ queue.ids then
    some (queue.withQueue (queue.items.filter fun item => item.id ≠ queueId))
  else none

/-! ## What a mutation does to the messages -/

variable {queue queue' : AiSessionQueue μ} {id queueId : Nat}

theorem enqueueMessage_ids {body : μ} (h : queue.enqueueMessage id body = some queue') :
    (∀ j ∈ queue.ids, j ∈ queue'.ids) ∧ id ∈ queue'.ids ∧
      ∀ j ∈ queue'.ids, j ∈ queue.ids ∨ j = id := by
  simp only [enqueueMessage] at h
  split at h
  swap
  · cases h
  rename_i hroom
  cases h
  have hmem : ∀ item : AiSessionQueuedMessage μ, item ∈ (queue.withQueue
      (queue.items ++ [newMessage id body])).items ↔
      item ∈ (queue.items ++ [newMessage id body]).take AI_SESSION_QUEUE_LIMIT := by
    intro item
    refine (sortByStatus_perm _ _).mem_iff.trans ?_
    rw [filterMap_some]
  refine ⟨?_, hroom, ?_⟩
  · intro j hj
    obtain ⟨item, hitem, rfl⟩ := mem_map.mp hj
    refine mem_map.mpr ⟨item, (hmem item).mpr ?_, rfl⟩
    rw [take_append, take_of_length_le queue.bounded]
    exact mem_append_left _ hitem
  · intro j hj
    obtain ⟨item, hitem, rfl⟩ := mem_map.mp hj
    rcases mem_append.mp (mem_of_mem_take ((hmem item).mp hitem)) with hold | hnew
    · exact .inl (mem_map.mpr ⟨item, hold, rfl⟩)
    · exact .inr (congrArg AiSessionQueuedMessage.id (mem_singleton.mp hnew))

theorem patchQueuedMessage_ids {status : QueuedMessageStatus} {error : Option String}
    (h : queue.patchQueuedMessage queueId status error = some queue') :
    id ∈ queue'.ids ↔ id ∈ queue.ids := by
  obtain ⟨-, h⟩ := Option.ite_none_right_eq_some.mp h
  cases h
  rw [mem_ids_withQueue (by rw [length_map]; exact queue.bounded), map_map]
  have hid : ((AiSessionQueuedMessage.id ∘ fun item : AiSessionQueuedMessage μ =>
      if item.id ≠ queueId then item else { item with status := status, error := error })) =
      AiSessionQueuedMessage.id := by
    funext item
    by_cases hitem : item.id = queueId
    · simp [hitem]
    · simp [hitem]
  rw [hid]
  rfl

theorem removeQueuedMessage_ids (h : queue.removeQueuedMessage queueId = some queue') :
    id ∈ queue'.ids ↔ id ∈ queue.ids ∧ id ≠ queueId := by
  obtain ⟨-, h⟩ := Option.ite_none_right_eq_some.mp h
  cases h
  rw [mem_ids_withQueue (Nat.le_trans (length_filter_le _ _) queue.bounded)]
  simp only [ids, mem_map, mem_filter, decide_eq_true_eq]
  constructor
  · rintro ⟨item, ⟨hitem, hne⟩, rfl⟩
    exact ⟨⟨item, hitem, rfl⟩, hne⟩
  · rintro ⟨⟨item, hitem, rfl⟩, hne⟩
    exact ⟨item, ⟨hitem, hne⟩, rfl⟩

theorem retryQueuedMessage_ids (h : queue.retryQueuedMessage queueId = some queue') :
    id ∈ queue'.ids ↔ id ∈ queue.ids := by
  unfold retryQueuedMessage at h
  split at h
  · cases h
  rename_i item hfind
  cases h
  have hitem : item.id = queueId := by simpa using find?_some hfind
  have hmem := mem_of_find?_eq_some hfind
  have hshorter : (queue.items.filter fun item => item.id ≠ queueId).length <
      queue.items.length :=
    length_filter_lt_length_iff_exists.mpr ⟨item, hmem, by simp [hitem]⟩
  rw [mem_ids_withQueue (by
    have := queue.bounded
    rw [length_append, length_singleton]
    omega)]
  simp only [ids, map_append, mem_append, mem_map, mem_filter,
    decide_eq_true_eq, map_cons, map_nil, mem_singleton]
  constructor
  · rintro (⟨other, ⟨hother, -⟩, rfl⟩ | rfl)
    · exact ⟨other, hother, rfl⟩
    · exact ⟨item, hmem, rfl⟩
  rintro ⟨other, hother, rfl⟩
  by_cases hne : other.id = queueId
  · exact .inr (hne.trans hitem.symm)
  · exact .inl ⟨other, ⟨hother, hne⟩, rfl⟩

theorem nextQueuedMessage_mem (h : queue.nextQueuedMessage = some item) : item.id ∈ queue.ids :=
  mem_map.mpr ⟨item, mem_of_find?_eq_some h, rfl⟩

end AiSessionQueue

end TaskHandoff.AiSessions
