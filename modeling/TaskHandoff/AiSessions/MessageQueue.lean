import Mathlib.Data.List.Perm.Subperm
import Mathlib.Logic.Function.Basic
import TaskHandoff.AiSessions.QueuedMessage
import TaskHandoff.Lib.Machine
import TaskHandoff.Lib.OrderedMap

/-! # The law of the message queues

`AiSessionQueueService` mutates the queue of a session and keeps the attachment
payloads of the queued messages in a map of its own. A call that finds nothing
to do returns no session; otherwise the registry stores the returned queue.
-/

namespace TaskHandoff.AiSessions.MessageQueue

open JsText OrderedMap List Function
open SendMessage (AttachmentKind AiSessionPermissionMode)

/-! ## Queues -/

structure AiSessionQueue where
  revision : Nat
  pendingCount : Nat
  paused : Bool
  items : List AiSessionQueuedMessage

def emptyAiSessionQueue : AiSessionQueue := ⟨0, 0, false, []⟩

def AiSessionQueue.ids (queue : AiSessionQueue) : List Text := queue.items.map (·.id)

variable (items : List AiSessionQueuedMessage)

def pendingCount : Nat :=
  (items.filter fun item => item.status = .queued || item.status = .sending).length

/-- An attachment with its content. -/
structure AiSessionMessageAttachment where
  id : Text
  kind : AttachmentKind
  name : Text
  mime : Text
  size : Nat
  sourceType : AttachmentSourceType
  content : Text

def attachmentMeta (attachment : AiSessionMessageAttachment) : AiSessionMessageAttachmentMeta where
  id := attachment.id
  kind := attachment.kind
  name := attachment.name
  mime := attachment.mime
  size := attachment.size
  sourceType := attachment.sourceType

/-- The metadata of the attachments; one that the schema refuses throws. -/
def aiSessionAttachmentMetas (attachments : List AiSessionMessageAttachment) :
    Option (List AiSessionMessageAttachmentMeta) :=
  (attachments.take AI_SESSION_MAX_MESSAGE_ATTACHMENTS).mapM fun attachment =>
    parseAttachmentMeta (attachmentMeta attachment)

structure AttachmentUpdate where
  attachments : List AiSessionMessageAttachmentMeta
  payloads : List AiSessionMessageAttachment
  messageId : Text

/-- The stored queues and the payload map. `generated` lists the ids handed out, `attached` those
enqueued or last edited with attachments; no method reads them. -/
structure AiSessionQueueService where
  queues : String → AiSessionQueue
  queuedAttachmentPayloads : OrderedMap Text (List AiSessionMessageAttachment)
  generated : List Text
  attached : List Text

-- The date-time check of the schema; a timestamp passes it.
variable (isDateTime : Text → Bool)

abbrev Timestamp := { t : Text // isDateTime t = true }

def normalizeAiSessionQueueItems (items : List AiSessionQueuedMessage) (revision : Nat)
    (paused : Bool) : AiSessionQueue :=
  let items := normalizedItems (·.status) (normalizeQueuedMessage isDateTime) items
  ⟨revision, pendingCount items, paused, items⟩

def withQueue (queue : AiSessionQueue) (items : List AiSessionQueuedMessage) : AiSessionQueue :=
  normalizeAiSessionQueueItems isDateTime items (queue.revision + 1) queue.paused

namespace AiSessionQueueService

def new : AiSessionQueueService := ⟨fun _ => emptyAiSessionQueue, .empty, [], []⟩

def put (s : AiSessionQueueService) (session : String) (queue : AiSessionQueue) :
    AiSessionQueueService :=
  { s with queues := Function.update s.queues session queue }

/-! ## Mutations -/

structure EnqueueInput where
  message : Text
  attachments : List AiSessionMessageAttachment
  references : List AiSessionReference
  permissionMode : Option AiSessionPermissionMode
  messageId : Option Text

def newItem {isDateTime : Text → Bool} (id : Text) (input : EnqueueInput)
    (metas : List AiSessionMessageAttachmentMeta) (now : Timestamp isDateTime) :
    AiSessionQueuedMessage where
  id := id
  messageId := input.messageId.bind fun t => if t = [] then none else some t
  message := messageText input.message
  attachments := metas
  references := input.references
  permissionMode := input.permissionMode
  status := .queued
  createdAt := now.val
  updatedAt := now.val
  error := none

variable (s : AiSessionQueueService)
variable (session : String)

/-- A payload is kept only for an item that the normalized queue represents. -/
def enqueueMessage (id : Text)
    (input : EnqueueInput) (now : Timestamp isDateTime) : AiSessionQueueService :=
  match aiSessionAttachmentMetas input.attachments with
  | none => { s with generated := id :: s.generated }
  | some metas =>
    let queue := withQueue isDateTime (s.queues session)
      ((s.queues session).items ++ [newItem id input metas now])
    if id ∉ queue.ids then { s with generated := id :: s.generated }
    else
      { s.put session queue with
        queuedAttachmentPayloads :=
          if input.attachments.isEmpty then s.queuedAttachmentPayloads
          else s.queuedAttachmentPayloads.set id
            (input.attachments.take AI_SESSION_MAX_MESSAGE_ATTACHMENTS)
        generated := id :: s.generated
        attached := if input.attachments.isEmpty then s.attached else id :: s.attached }

/-- Patch the item with an id; without one nothing is returned. -/
def patchQueuedMessage (queueId : Text)
    (patch : AiSessionQueuedMessage → AiSessionQueuedMessage) : AiSessionQueueService :=
  if queueId ∈ (s.queues session).ids then
    s.put session (withQueue isDateTime (s.queues session)
      ((s.queues session).items.map fun item => if item.id = queueId then patch item else item))
  else s

def markQueuedMessageSending (queueId : Text)
    (now : Timestamp isDateTime) : AiSessionQueueService :=
  s.patchQueuedMessage isDateTime session queueId fun item =>
    { item with status := .sending, error := none, updatedAt := now.val }

def markQueuedMessageFailed (queueId error : Text)
    (now : Timestamp isDateTime) : AiSessionQueueService :=
  s.patchQueuedMessage isDateTime session queueId fun item =>
    { item with status := .failed, error := some (compact error 4000), updatedAt := now.val }

def others (items : List AiSessionQueuedMessage) (queueId : Text) : List AiSessionQueuedMessage :=
  items.filter fun item => item.id ≠ queueId

def retryQueuedMessage (queueId : Text) (now : Timestamp isDateTime) : AiSessionQueueService :=
  match (s.queues session).items.find? fun item => item.id = queueId with
  | none => s
  | some item =>
    s.put session (withQueue isDateTime (s.queues session)
      (others (s.queues session).items queueId ++
        [{ item with status := .queued, error := none, updatedAt := now.val }]))

def removeQueuedMessage (queueId : Text) : AiSessionQueueService :=
  if queueId ∈ (s.queues session).ids then
    { s.put session (withQueue isDateTime (s.queues session)
        (others (s.queues session).items queueId)) with
      queuedAttachmentPayloads := s.queuedAttachmentPayloads.erase queueId }
  else s

def editItem {isDateTime : Text → Bool} (message : Text) (update : Option AttachmentUpdate)
    (now : Timestamp isDateTime) (item : AiSessionQueuedMessage) : AiSessionQueuedMessage :=
  match update with
  | none => { item with message := messageText message, updatedAt := now.val }
  | some update =>
    { item with
      message := messageText message
      attachments := update.attachments
      messageId := some update.messageId
      updatedAt := now.val }

/-- The payloads after an edit that goes through. -/
def editPayloads (queueId : Text) (update : Option AttachmentUpdate) : AiSessionQueueService :=
  match update with
  | none => s
  | some update =>
    if update.payloads.isEmpty then
      { s with
        queuedAttachmentPayloads := s.queuedAttachmentPayloads.erase queueId
        attached := s.attached.filter (· ≠ queueId) }
    else
      { s with
        queuedAttachmentPayloads := s.queuedAttachmentPayloads.set queueId update.payloads
        attached := queueId :: s.attached }

def editQueuedMessage (queueId : Text)
    (expectedRevision : Nat) (message : Text) (update : Option AttachmentUpdate)
    (now : Timestamp isDateTime) : AiSessionQueueService :=
  if (s.queues session).revision ≠ expectedRevision then s
  else
    match (s.queues session).items.find? fun item => item.id = queueId with
    | none => s
    | some item =>
      if item.status ≠ .queued then s
      else if item.message = messageText message && update.isNone then s
      else
        (s.editPayloads queueId update).put session (withQueue isDateTime (s.queues session)
          ((s.queues session).items.map fun entry =>
            if entry.id = queueId then editItem message update now entry else entry))

def queuedItems (queue : AiSessionQueue) : List AiSessionQueuedMessage :=
  queue.items.filter fun item => item.status = .queued

/-- The requested ids are those of the queued items, each once. -/
def isOrderOf (queueIds : List Text) (queue : AiSessionQueue) : Bool :=
  queueIds.Nodup && queueIds.length = (queuedItems queue).length &&
    (queuedItems queue).all fun item => item.id ∈ queueIds

def reorderQueuedMessages (expectedRevision : Nat) (queueIds : List Text) : AiSessionQueueService :=
  let queue := s.queues session
  if queue.revision ≠ expectedRevision then s
  else if !isOrderOf queueIds queue then s
  else if (queuedItems queue).map (·.id) = queueIds then s
  else
    s.put session (withQueue isDateTime queue
      ((queue.items.filter fun item => item.status ≠ .queued) ++
        queueIds.filterMap fun queueId => (queuedItems queue).find? fun item => item.id = queueId))

/-- Pausing keeps the revision. -/
def setQueuePaused (paused : Bool) : AiSessionQueueService :=
  if (s.queues session).paused = paused then s
  else
    s.put session (normalizeAiSessionQueueItems isDateTime (s.queues session).items
      (s.queues session).revision paused)

inductive Action (isDateTime : Text → Bool) where
  | enqueue (session : String) (id : Text) (input : EnqueueInput) (now : Timestamp isDateTime)
  | markSending (session : String) (queueId : Text) (now : Timestamp isDateTime)
  | markFailed (session : String) (queueId error : Text) (now : Timestamp isDateTime)
  | retry (session : String) (queueId : Text) (now : Timestamp isDateTime)
  | remove (session : String) (queueId : Text)
  | edit (session : String) (queueId : Text) (expectedRevision : Nat) (message : Text)
      (update : Option AttachmentUpdate) (now : Timestamp isDateTime)
  | reorder (session : String) (expectedRevision : Nat) (queueIds : List Text)
  | setPaused (session : String) (paused : Bool)

def step : Action isDateTime → Option AiSessionQueueService
  | .enqueue session id input now => some (s.enqueueMessage isDateTime session id input now)
  | .markSending session queueId now =>
    some (s.markQueuedMessageSending isDateTime session queueId now)
  | .markFailed session queueId error now =>
    some (s.markQueuedMessageFailed isDateTime session queueId error now)
  | .retry session queueId now => some (s.retryQueuedMessage isDateTime session queueId now)
  | .remove session queueId => some (s.removeQueuedMessage isDateTime session queueId)
  | .edit session queueId expectedRevision message update now =>
    some (s.editQueuedMessage isDateTime session queueId expectedRevision message update now)
  | .reorder session expectedRevision queueIds =>
    some (s.reorderQueuedMessages isDateTime session expectedRevision queueIds)
  | .setPaused session paused => some (s.setQueuePaused isDateTime session paused)

end AiSessionQueueService

/-! ## Normal queues -/

variable {isDateTime : Text → Bool}

/-- What every stored queue looks like. -/
structure Normal (isDateTime : Text → Bool) (queue : AiSessionQueue) : Prop where
  clean : ∀ item ∈ queue.items, Clean isDateTime item
  bounded : queue.items.length ≤ AI_SESSION_QUEUE_LIMIT
  sorted : sortByStatus (·.status) queue.items = queue.items
  distinct : queue.ids.Nodup
  pending : queue.pendingCount = pendingCount queue.items

theorem normal_empty : Normal isDateTime emptyAiSessionQueue where
  clean := nofun
  bounded := Nat.zero_le _
  sorted := rfl
  distinct := nodup_nil
  pending := rfl

variable {item normalized : AiSessionQueuedMessage}

theorem normalizeQueuedMessage_id (h : normalizeQueuedMessage isDateTime item = some normalized) :
    compactText 120 item.id = some normalized.id := by
  unfold normalizeQueuedMessage at h
  split at h
  next id message hid hmessage =>
    obtain ⟨-, heq⟩ := Option.ite_none_right_eq_some.mp h
    cases heq
    exact hid
  · cases h

/-- What a mutation hands to the normalization: known ids, each once, and compact errors. -/
structure Handed (items : List AiSessionQueuedMessage) : Prop where
  ids : ∀ item ∈ items, compactText 120 item.id = some item.id
  distinct : (items.map (·.id)).Nodup
  errors : ∀ item ∈ items, normalizeError (normalizeError item.error) = normalizeError item.error

variable {items : List AiSessionQueuedMessage}

theorem Handed.normalized_id (h : Handed items) (hitem : item ∈ items)
    (hn : normalizeQueuedMessage isDateTime item = some normalized) : normalized.id = item.id :=
  Option.some.inj ((normalizeQueuedMessage_id hn).symm.trans (h.ids item hitem))

theorem Handed.ids_sublist (h : Handed items) :
    ((items.filterMap (normalizeQueuedMessage isDateTime)).map (·.id)).Sublist
      (items.map (·.id)) := by
  induction items with
  | nil => exact .slnil
  | cons item items ih =>
    have hrest : Handed items :=
      ⟨fun i hi => h.ids i (mem_cons_of_mem _ hi), (nodup_cons.mp h.distinct).2,
        fun i hi => h.errors i (mem_cons_of_mem _ hi)⟩
    cases hn : normalizeQueuedMessage isDateTime item with
    | none =>
      rw [filterMap_cons_none hn]
      exact (ih hrest).cons _
    | some normalized =>
      rw [filterMap_cons_some hn, map_cons, h.normalized_id mem_cons_self hn]
      exact (ih hrest).cons_cons _

theorem Handed.normal (h : Handed items) (revision : Nat) (paused : Bool) :
    Normal isDateTime (normalizeAiSessionQueueItems isDateTime items revision paused) where
  clean := by
    intro item hitem
    obtain ⟨raw, hraw, hn⟩ := mem_of_normalizedItems hitem
    exact normalizeQueuedMessage_clean hn (h.errors raw hraw)
  bounded := length_normalizedItems_le
  sorted := sortByStatus_sortByStatus _ _
  distinct := by
    have hperm := (sortByStatus_perm (·.status)
      ((items.filterMap (normalizeQueuedMessage isDateTime)).take AI_SESSION_QUEUE_LIMIT)).map
        (·.id)
    refine hperm.nodup_iff.mpr (h.distinct.sublist ?_)
    exact ((take_sublist _ _).map _).trans h.ids_sublist
  pending := rfl

variable {item : AiSessionQueuedMessage}

variable {paused : Bool} {revision : Nat}

theorem mem_ids_normalized (h : Handed items) (hlength : items.length ≤ AI_SESSION_QUEUE_LIMIT)
    {id : Text} : id ∈ (normalizeAiSessionQueueItems isDateTime items revision paused).ids ↔
      ∃ raw ∈ items, raw.id = id ∧ (normalizeQueuedMessage isDateTime raw).isSome = true := by
  simp only [AiSessionQueue.ids, normalizeAiSessionQueueItems, mem_map, mem_normalizedItems hlength]
  constructor
  · rintro ⟨normalized, ⟨raw, hraw, hn⟩, rfl⟩
    exact ⟨raw, hraw, (h.normalized_id hraw hn).symm, by rw [hn]; rfl⟩
  rintro ⟨raw, hraw, rfl, hsome⟩
  obtain ⟨normalized, hn⟩ := Option.isSome_iff_exists.mp hsome
  exact ⟨normalized, ⟨raw, hraw, hn⟩, h.normalized_id hraw hn⟩

theorem filter_filterMap {p : AiSessionQueuedMessage → Bool}
    (hclean : ∀ item ∈ items, p item = true → Clean isDateTime item)
    (hnamed : ∀ item ∈ items, p item = false → ∀ normalized,
      normalizeQueuedMessage isDateTime item = some normalized → p normalized = false) :
    (items.filterMap (normalizeQueuedMessage isDateTime)).filter p = items.filter p := by
  induction items with
  | nil => rfl
  | cons item items ih =>
    have hrest := ih (fun i hi => hclean i (mem_cons_of_mem _ hi))
      fun i hi => hnamed i (mem_cons_of_mem _ hi)
    cases hp : p item with
    | true =>
      rw [filterMap_cons_some (hclean item mem_cons_self hp),
        filter_cons_of_pos hp, filter_cons_of_pos hp, hrest]
    | false =>
      have hskip : (item :: items).filter p = items.filter p := filter_cons_of_neg (by simp [hp])
      cases hn : normalizeQueuedMessage isDateTime item with
      | none => rw [filterMap_cons_none hn, hrest, hskip]
      | some normalized =>
        have hp' := hnamed item mem_cons_self hp normalized hn
        rw [filterMap_cons_some hn, filter_cons_of_neg (by simp [hp']), hrest, hskip]

theorem filter_normalized (h : Handed items) (hlength : items.length ≤ AI_SESSION_QUEUE_LIMIT) {named : Text → Bool}
    (hclean : ∀ item ∈ items, named item.id = false → Clean isDateTime item)
    (status : QueuedMessageStatus) (revision : Nat) (paused : Bool) :
    (normalizeAiSessionQueueItems isDateTime items revision paused).items.filter
        (fun item => item.status = status && !named item.id) =
      items.filter fun item => item.status = status && !named item.id := by
  have hkept : (items.filterMap (normalizeQueuedMessage isDateTime)).filter
      (fun item => !named item.id) = items.filter fun item => !named item.id := by
    apply filter_filterMap
    · exact fun item hitem hp => hclean item hitem ((Bool.not_eq_true' _).mp hp)
    intro item hitem hp normalized hn
    rw [h.normalized_id hitem hn]
    exact hp
  simp only [normalizeAiSessionQueueItems, normalizedItems, filter_sortByStatus]
  rw [take_of_length_le ((length_filterMap_le _ _).trans hlength), ← filter_filter,
    hkept, filter_filter]

/-! ## Clean items -/

theorem normalizeQueuedMessage_isSome (item : AiSessionQueuedMessage) :
    (normalizeQueuedMessage isDateTime item).isSome = ((compactText 120 item.id).isSome &&
        (nonEmptyTrimmedText 20000 (messageText item.message)).isSome &&
          (isDateTime item.createdAt && isDateTime item.updatedAt)) := by
  unfold normalizeQueuedMessage
  cases compactText 120 item.id with
  | none => rfl
  | some id =>
    cases nonEmptyTrimmedText 20000 (messageText item.message) with
    | none => rfl
    | some message => cases isDateTime item.createdAt && isDateTime item.updatedAt <;> rfl

section

variable (h : Clean isDateTime item)

include h

theorem Clean.id : compactText 120 item.id = some item.id := normalizeQueuedMessage_id h

theorem Clean.error : normalizeError item.error = item.error := by
  unfold Clean normalizeQueuedMessage at h
  split at h
  · obtain ⟨-, heq⟩ := Option.ite_none_right_eq_some.mp h
    exact congrArg AiSessionQueuedMessage.error (Option.some.inj heq)
  · cases h

theorem Clean.parts : (nonEmptyTrimmedText 20000 (messageText item.message)).isSome = true ∧
      isDateTime item.createdAt = true := by
  have hsome : (normalizeQueuedMessage isDateTime item).isSome = true := by
    rw [h]
    rfl
  rw [normalizeQueuedMessage_isSome] at hsome
  simp only [Bool.and_eq_true] at hsome
  exact ⟨hsome.1.2, hsome.2.1⟩

theorem Clean.isSome : (normalizeQueuedMessage isDateTime item).isSome = true := by
  rw [h]
  rfl

end

section

variable (hclean : ∀ item ∈ items, Clean isDateTime item)

include hclean

theorem handed_of_clean
    (hdistinct : (items.map (·.id)).Nodup) : Handed items where
  ids := fun item hitem => (hclean item hitem).id
  distinct := hdistinct
  errors := fun item hitem => by rw [(hclean item hitem).error, (hclean item hitem).error]

theorem filterMap_of_clean : items.filterMap (normalizeQueuedMessage isDateTime) = items := by
  have h := @filter_filterMap isDateTime items (fun _ => true) (fun item hitem _ => hclean item hitem)
    fun _ _ hp => absurd hp nofun
  simpa using h

end

theorem Normal.items_again {queue : AiSessionQueue} (h : Normal isDateTime queue) (revision : Nat)
    (paused : Bool) :
    (normalizeAiSessionQueueItems isDateTime queue.items revision paused).items = queue.items := by
  simp only [normalizeAiSessionQueueItems, normalizedItems, filterMap_of_clean h.clean,
    take_of_length_le h.bounded, h.sorted]

namespace AiSessionQueueService

/-! ## The invariant of the service -/

structure Inv (isDateTime : Text → Bool) (s : AiSessionQueueService) : Prop where
  normal : ∀ session, Normal isDateTime (s.queues session)
  owner : ∀ a b id, id ∈ (s.queues a).ids → id ∈ (s.queues b).ids → a = b
  generated : ∀ session, ∀ id ∈ (s.queues session).ids, id ∈ s.generated
  attached : ∀ id ∈ s.attached, id ∈ s.generated
  payloads : ∀ id, (s.queuedAttachmentPayloads.get? id).isSome = true ↔
    id ∈ s.attached ∧ ∃ session, id ∈ (s.queues session).ids

theorem Inv.new : Inv isDateTime new where
  normal := fun _ => normal_empty
  owner := fun _ _ _ h => absurd h not_mem_nil
  generated := fun _ _ h => absurd h not_mem_nil
  attached := fun _ h => absurd h not_mem_nil
  payloads := by simp [AiSessionQueueService.new]

/-- What one call does to the items of its session. -/
structure Effect (isDateTime : Text → Bool) (s s' : AiSessionQueueService) (session : String)
    (named : Text → Bool) : Prop where
  inv : Inv isDateTime s'
  frame : ∀ other, other ≠ session → s'.queues other = s.queues other
  unnamed : ∀ status, (s'.queues session).items.filter
      (fun item => item.status = status && !named item.id) =
    (s.queues session).items.filter fun item => item.status = status && !named item.id
  revision : (s'.queues session).items ≠ (s.queues session).items →
    (s.queues session).revision < (s'.queues session).revision

variable {s : AiSessionQueueService}

theorem Effect.refl (h : Inv isDateTime s) (session : String) (named : Text → Bool) :
    Effect isDateTime s s session named :=
  ⟨h, fun _ _ => rfl, fun _ => rfl, absurd rfl⟩

variable {queue : AiSessionQueue} {s' : AiSessionQueueService}

theorem Inv.replace (h : Inv isDateTime s) {session : String}
    (hqueues : s'.queues = update s.queues session queue) (hnormal : Normal isDateTime queue)
    (hids : ∀ id ∈ queue.ids, id ∈ (s.queues session).ids ∨ id ∉ s.generated)
    (hgenerated : ∀ id, id ∈ s.generated ∨ id ∈ queue.ids → id ∈ s'.generated)
    (hattached : ∀ id ∈ s'.attached, id ∈ s'.generated)
    (hpayloads : ∀ id, (s'.queuedAttachmentPayloads.get? id).isSome = true ↔
      id ∈ s'.attached ∧ (id ∈ queue.ids ∨ ∃ other, other ≠ session ∧ id ∈ (s.queues other).ids)) :
    Inv isDateTime s' := by
  have hself : s'.queues session = queue := by rw [hqueues, update_self]
  have hother : ∀ other, other ≠ session → s'.queues other = s.queues other := fun other hne => by
    rw [hqueues, update_of_ne hne]
  have hapart : ∀ other id, other ≠ session → id ∈ (s.queues other).ids → id ∉ queue.ids := by
    intro other id hne hin hqueue
    rcases hids id hqueue with hown | hnew
    · exact hne (h.owner other session id hin hown)
    · exact hnew (h.generated other id hin)
  constructor
  · intro other
    by_cases heq : other = session
    · rw [heq, hself]
      exact hnormal
    · rw [hother other heq]
      exact h.normal other
  · intro a b id ha hb
    by_cases hsa : a = session
    · by_cases hsb : b = session
      · exact hsa.trans hsb.symm
      · rw [hsa, hself] at ha
        rw [hother b hsb] at hb
        exact absurd ha (hapart b id hsb hb)
    rw [hother a hsa] at ha
    by_cases hsb : b = session
    · rw [hsb, hself] at hb
      exact absurd hb (hapart a id hsa ha)
    · rw [hother b hsb] at hb
      exact h.owner a b id ha hb
  · intro other id hid
    by_cases heq : other = session
    · rw [heq, hself] at hid
      exact hgenerated id (.inr hid)
    · rw [hother other heq] at hid
      exact hgenerated id (.inl (h.generated other id hid))
  · exact hattached
  · intro id
    rw [hpayloads id]
    refine and_congr_right fun _ => ?_
    constructor
    · rintro (hin | ⟨other, hne, hin⟩)
      · exact ⟨session, hself.symm ▸ hin⟩
      · exact ⟨other, (hother other hne).symm ▸ hin⟩
    rintro ⟨other, hin⟩
    by_cases heq : other = session
    · rw [heq, hself] at hin
      exact .inl hin
    · rw [hother other heq] at hin
      exact .inr ⟨other, heq, hin⟩

theorem Inv.payloads_split (h : Inv isDateTime s) (session : String) (id : Text) :
    (s.queuedAttachmentPayloads.get? id).isSome = true ↔ id ∈ s.attached ∧
      (id ∈ (s.queues session).ids ∨ ∃ other, other ≠ session ∧ id ∈ (s.queues other).ids) := by
  rw [h.payloads id]
  refine and_congr_right fun _ => ?_
  constructor
  · rintro ⟨other, hin⟩
    by_cases heq : other = session
    · exact .inl (heq ▸ hin)
    · exact .inr ⟨other, heq, hin⟩
  · rintro (hin | ⟨other, -, hin⟩)
    · exact ⟨session, hin⟩
    · exact ⟨other, hin⟩

theorem Inv.put (h : Inv isDateTime s) {session : String}
    (hnormal : Normal isDateTime queue) (hids : ∀ id, id ∈ queue.ids ↔ id ∈
    (s.queues session).ids) : Inv isDateTime (s.put session queue) := by
  refine h.replace rfl hnormal (fun id hid => .inl ((hids id).mp hid)) ?_ h.attached fun id => ?_
  · rintro id (hold | hin)
    · exact hold
    · exact h.generated session id ((hids id).mp hin)
  · rw [hids id]
    exact h.payloads_split session id

theorem put_queues (s : AiSessionQueueService) (session : String) (queue : AiSessionQueue) :
    (s.put session queue).queues session = queue :=
  update_self ..

/-- A list handed to the normalization, with the unnamed items as they were. -/
theorem Effect.handed {session : String} {next : List AiSessionQueuedMessage} {named : Text → Bool}
    (hinv : Inv isDateTime s') (hqueues : s'.queues = update s.queues session
      (withQueue isDateTime (s.queues session) next)) (hhanded : Handed next)
    (hlength : next.length ≤ AI_SESSION_QUEUE_LIMIT)
    (hclean : ∀ item ∈ next, named item.id = false → Clean isDateTime item)
    (hsame : (next.filter fun item => !named item.id) =
      (s.queues session).items.filter fun item => !named item.id) :
    Effect isDateTime s s' session named where
  inv := hinv
  frame := fun other hne => by rw [hqueues, update_of_ne hne]
  unnamed := by
    intro status
    rw [hqueues, update_self]
    refine (filter_normalized hhanded hlength hclean status _ _).trans ?_
    rw [← filter_filter, hsame, filter_filter]
  revision := by
    intro _
    rw [hqueues, update_self]
    exact Nat.lt_succ_self _

/-! ## Patches -/

/-- The items with one of them patched. -/
def patched (items : List AiSessionQueuedMessage) (queueId : Text)
    (patch : AiSessionQueuedMessage → AiSessionQueuedMessage) : List AiSessionQueuedMessage :=
  items.map fun item => if item.id = queueId then patch item else item

/-- A patch keeps the id, and leaves an error that is compact or none. -/
structure Patches (isDateTime : Text → Bool)
    (patch : AiSessionQueuedMessage → AiSessionQueuedMessage) : Prop where
  id : ∀ item, (patch item).id = item.id
  error : ∀ item, Clean isDateTime item →
    normalizeError (normalizeError (patch item).error) = normalizeError (patch item).error

section Patch

variable {queue : AiSessionQueue} {queueId : Text}
variable {patch : AiSessionQueuedMessage → AiSessionQueuedMessage}

theorem patched_ids (hpatch : Patches isDateTime patch) (items : List AiSessionQueuedMessage) :
    (patched items queueId patch).map (·.id) = items.map (·.id) := by
  rw [patched, map_map]
  apply map_congr_left
  intro item _
  simp only [comp_apply]
  split
  · exact hpatch.id item
  · rfl

theorem patched_others (hpatch : Patches isDateTime patch) (items : List AiSessionQueuedMessage) :
    ((patched items queueId patch).filter fun item => !decide (item.id = queueId)) =
      items.filter fun item => !decide (item.id = queueId) := by
  induction items with
  | nil => rfl
  | cons item items ih =>
    rw [patched] at ih ⊢
    by_cases heq : item.id = queueId
    · simp [heq, hpatch.id, ih]
    · simp [heq, ih]

variable (h : Normal isDateTime queue)

include h

variable (hpatch : Patches isDateTime patch)

include hpatch

theorem patched_handed : Handed (patched queue.items queueId patch) where
  ids := by
    intro item hitem
    obtain ⟨old, hold, rfl⟩ := mem_map.mp hitem
    split
    · rw [hpatch.id old]
      exact (h.clean old hold).id
    · exact (h.clean old hold).id
  distinct := (patched_ids hpatch queue.items).symm ▸ h.distinct
  errors := by
    intro item hitem
    obtain ⟨old, hold, rfl⟩ := mem_map.mp hitem
    split
    · exact hpatch.error old (h.clean old hold)
    · rw [(h.clean old hold).error, (h.clean old hold).error]

theorem patched_clean : ∀ item ∈ patched queue.items queueId patch,
    decide (item.id = queueId) = false → Clean isDateTime item := by
  intro item hitem hunnamed
  obtain ⟨old, hold, rfl⟩ := mem_map.mp hitem
  split
  next heq =>
    rw [if_pos heq, hpatch.id old] at hunnamed
    exact absurd heq (by simpa using hunnamed)
  · exact h.clean old hold

theorem patched_ids_iff (hsome : ∀ item ∈ queue.items,
      (normalizeQueuedMessage isDateTime (patch item)).isSome = true)
    {revision : Nat} {paused : Bool} (id : Text) :
    id ∈ (normalizeAiSessionQueueItems isDateTime (patched queue.items queueId patch) revision
        paused).ids ↔ id ∈ queue.ids := by
  have hids : (patched queue.items queueId patch).map (·.id) = queue.ids := patched_ids hpatch _
  rw [mem_ids_normalized (patched_handed h hpatch) (by simpa [patched] using h.bounded), ← hids,
    mem_map]
  refine exists_congr fun raw => and_congr_right fun hraw => ?_
  obtain ⟨old, hold, rfl⟩ := mem_map.mp hraw
  refine and_iff_left ?_
  split
  · exact hsome old hold
  · exact (h.clean old hold).isSome

end Patch

/-! ## The effect of each mutation -/

section Effects

variable {s : AiSessionQueueService} {session : String} {queueId : Text}

variable {queue : AiSessionQueue}

theorem mem_ids {id : Text} : id ∈ queue.ids ↔ ∃ item ∈ queue.items, item.id = id := mem_map

theorem patchQueuedMessage_effect (h : Inv isDateTime s)
    {patch : AiSessionQueuedMessage → AiSessionQueuedMessage} (hpatch : Patches isDateTime patch)
    (hsome : ∀ item, Clean isDateTime item →
      (normalizeQueuedMessage isDateTime (patch item)).isSome = true) :
    Effect isDateTime s (s.patchQueuedMessage isDateTime session queueId patch) session
      fun id => id = queueId := by
  unfold patchQueuedMessage
  split
  · have hnormal := h.normal session
    have hhanded := @patched_handed isDateTime _ queueId _ hnormal hpatch
    exact .handed (h.put (hhanded.normal _ _) (patched_ids_iff hnormal hpatch fun item hitem =>
      hsome item (hnormal.clean item hitem))) rfl hhanded
      (by simpa [patched] using hnormal.bounded) (patched_clean hnormal hpatch)
      (patched_others hpatch _)
  · exact Effect.refl h session _

variable {item : AiSessionQueuedMessage}

theorem isSome_of_status (h : Clean isDateTime item) (status : QueuedMessageStatus)
    (error : Option Text) (now : Timestamp isDateTime) : (normalizeQueuedMessage isDateTime
      { item with status := status, error := error, updatedAt := now.val }).isSome = true := by
  rw [normalizeQueuedMessage_isSome, h.id, h.parts.1, h.parts.2, now.property]
  rfl

theorem markQueuedMessageSending_effect (h : Inv isDateTime s) (now : Timestamp isDateTime) :
    Effect isDateTime s (s.markQueuedMessageSending isDateTime session queueId now) session
      fun id => id = queueId :=
  patchQueuedMessage_effect h ⟨fun _ => rfl, fun _ _ => rfl⟩
    fun _ hclean => isSome_of_status hclean _ _ now

theorem markQueuedMessageFailed_effect (h : Inv isDateTime s) (error : Text)
    (now : Timestamp isDateTime) :
    Effect isDateTime s (s.markQueuedMessageFailed isDateTime session queueId error now) session
      fun id => id = queueId :=
  patchQueuedMessage_effect h ⟨fun _ => rfl, fun _ _ => normalizeError_again error⟩
    fun _ hclean => isSome_of_status hclean _ _ now

theorem others_handed (h : Normal isDateTime queue) (hid : compactText 120 item.id = some item.id)
    (herror : normalizeError (normalizeError item.error) = normalizeError item.error) :
    Handed (others queue.items item.id ++ [item]) where
  ids := by
    intro entry hentry
    rcases mem_concat.mp hentry with hin | rfl
    · exact (h.clean entry (mem_filter.mp hin).1).id
    · exact hid
  distinct := by
    rw [map_append]
    refine nodup_append.mpr ⟨h.distinct.sublist (filter_sublist.map _), nodup_singleton _, ?_⟩
    rintro id hin _ hlast rfl
    obtain ⟨entry, hentry, rfl⟩ := mem_map.mp hin
    exact (of_decide_eq_true (mem_filter.mp hentry).2) (mem_singleton.mp hlast)
  errors := by
    intro entry hentry
    rcases mem_concat.mp hentry with hin | rfl
    · have hclean := h.clean entry (mem_filter.mp hin).1
      rw [hclean.error, hclean.error]
    · exact herror

theorem length_others (hitem : item ∈ items) : (others items item.id).length < items.length :=
  length_filter_lt_length_iff_exists.mpr ⟨item, hitem, by simp⟩

theorem filter_others (items : List AiSessionQueuedMessage) (queueId : Text) :
    ((others items queueId).filter fun item => !decide (item.id = queueId)) =
      items.filter fun item => !decide (item.id = queueId) := by
  simp [others, filter_filter]

theorem retryQueuedMessage_effect (h : Inv isDateTime s) (now : Timestamp isDateTime) :
    Effect isDateTime s (s.retryQueuedMessage isDateTime session queueId now) session
      fun id => id = queueId := by
  unfold retryQueuedMessage
  split
  · exact Effect.refl h session _
  rename_i item hfind
  have hnormal := h.normal session
  have hitem := mem_of_find?_eq_some hfind
  obtain rfl : item.id = queueId := by simpa using find?_some hfind
  have hclean := hnormal.clean item hitem
  have hhanded := @others_handed isDateTime _
    { item with status := .queued, error := none, updatedAt := now.val } hnormal hclean.id rfl
  have hlength : (others (s.queues session).items item.id ++
      [{ item with status := .queued, error := none, updatedAt := now.val }]).length ≤ AI_SESSION_QUEUE_LIMIT := by
    have := length_others hitem
    have := hnormal.bounded
    rw [length_append, length_singleton]
    omega
  refine .handed (h.put (hhanded.normal _ _) fun id => ?_) rfl hhanded hlength ?_ ?_
  · refine (mem_ids_normalized hhanded hlength).trans ?_
    rw [mem_ids]
    constructor
    · rintro ⟨raw, hraw, rfl, -⟩
      rcases mem_concat.mp hraw with hin | rfl
      · exact ⟨raw, (mem_filter.mp hin).1, rfl⟩
      · exact ⟨item, hitem, rfl⟩
    · rintro ⟨entry, hentry, rfl⟩
      by_cases heq : entry.id = item.id
      · exact ⟨_, mem_append_right _ mem_cons_self, heq.symm, isSome_of_status hclean _ _ now⟩
      · exact ⟨entry, mem_append_left _ (mem_filter.mpr ⟨hentry, by simpa using heq⟩),
          rfl, (hnormal.clean entry hentry).isSome⟩
  · intro entry hentry hunnamed
    rcases mem_concat.mp hentry with hin | rfl
    · exact hnormal.clean entry (mem_filter.mp hin).1
    · simp at hunnamed
  · rw [filter_append, filter_others]
    simp

theorem removeQueuedMessage_effect (h : Inv isDateTime s) :
    Effect isDateTime s (s.removeQueuedMessage isDateTime session queueId) session
      fun id => id = queueId := by
  unfold removeQueuedMessage
  split
  swap
  · exact Effect.refl h session _
  rename_i hin
  have hnormal := h.normal session
  have hclean : ∀ item ∈ others (s.queues session).items queueId, Clean isDateTime item :=
    fun item hitem => hnormal.clean item (mem_filter.mp hitem).1
  have hhanded := handed_of_clean hclean
    (hnormal.distinct.sublist (filter_sublist.map AiSessionQueuedMessage.id))
  have hlength : (others (s.queues session).items queueId).length ≤ AI_SESSION_QUEUE_LIMIT :=
    (length_filter_le _ _).trans hnormal.bounded
  have hids : ∀ id, id ∈ (withQueue isDateTime (s.queues session)
      (others (s.queues session).items queueId)).ids ↔
        id ∈ (s.queues session).ids ∧ id ≠ queueId := by
    intro id
    refine (mem_ids_normalized hhanded hlength).trans ?_
    rw [mem_ids]
    constructor
    · rintro ⟨item, hitem, rfl, -⟩
      obtain ⟨hold, hne⟩ := mem_filter.mp hitem
      exact ⟨⟨item, hold, rfl⟩, of_decide_eq_true hne⟩
    rintro ⟨⟨item, hitem, rfl⟩, hne⟩
    exact ⟨item, mem_filter.mpr ⟨hitem, decide_eq_true hne⟩, rfl,
      (hnormal.clean item hitem).isSome⟩
  refine .handed (h.replace rfl (hhanded.normal _ _) (fun id hid => .inl ((hids id).mp hid).1) ?_
    h.attached fun id => ?_) rfl hhanded hlength (fun item hitem _ => hclean item hitem)
    (filter_others _ _)
  · rintro id (hold | hnew)
    · exact hold
    · exact h.generated session id ((hids id).mp hnew).1
  by_cases heq : id = queueId
  · have hgone : ¬ ∃ other, other ≠ session ∧ queueId ∈ (s.queues other).ids := by
      rintro ⟨other, hne, hother⟩
      exact hne (h.owner other session queueId hother hin)
    rw [hids id, heq]
    simp [hgone]
  · rw [hids id]
    simp only [get?_erase_ne _ heq]
    rw [h.payloads_split session id]
    simp [heq, put]

theorem setQueuePaused_effect (h : Inv isDateTime s) (paused : Bool) :
    Effect isDateTime s (s.setQueuePaused isDateTime session paused) session fun _ => false := by
  unfold setQueuePaused
  split
  · exact Effect.refl h session _
  have hnormal := h.normal session
  have hitems := hnormal.items_again (s.queues session).revision paused
  have hhanded := handed_of_clean hnormal.clean hnormal.distinct
  constructor
  · refine h.put (hhanded.normal _ _) fun id => ?_
    simp only [AiSessionQueue.ids, hitems]
  · exact fun other hne => update_of_ne hne ..
  · intro status
    rw [put_queues, hitems]
  · intro hne
    rw [put_queues] at hne
    exact absurd hitems hne

/-- The queued items in the requested order. -/
def ordered (queueIds : List Text) (queue : AiSessionQueue) : List AiSessionQueuedMessage :=
  queueIds.filterMap fun queueId => (queuedItems queue).find? fun item => item.id = queueId

variable {queueIds : List Text}

theorem mem_ordered (h : item ∈ ordered queueIds queue) : item ∈ queuedItems queue := by
  obtain ⟨_, -, hfind⟩ := mem_filterMap.mp h
  exact mem_of_find?_eq_some hfind

theorem isOrderOf_iff : isOrderOf queueIds queue = true ↔ queueIds.Nodup ∧
      queueIds.length = (queuedItems queue).length ∧
        ∀ item ∈ queuedItems queue, item.id ∈ queueIds := by
  simp [isOrderOf, and_assoc]

section

variable (h : Normal isDateTime queue)

include h

theorem queued_ids_nodup : ((queuedItems queue).map (·.id)).Nodup :=
  h.distinct.sublist (filter_sublist.map AiSessionQueuedMessage.id)

variable (horder : isOrderOf queueIds queue = true)

include horder

theorem mem_queued_ids : queueId ∈ queueIds ↔ queueId ∈ (queuedItems queue).map (·.id) := by
  obtain ⟨hnodup, hlength, hall⟩ := isOrderOf_iff.mp horder
  have hsub : (queuedItems queue).map (·.id) ⊆ queueIds := by
    intro id hid
    obtain ⟨item, hitem, rfl⟩ := mem_map.mp hid
    exact hall item hitem
  have hperm : ((queuedItems queue).map (·.id)).Perm queueIds :=
    ((queued_ids_nodup h).subperm hsub).perm_of_length_le (by simp [hlength])
  exact hperm.mem_iff.symm

theorem ordered_ids : (ordered queueIds queue).map (·.id) = queueIds := by
  have hfound : ∀ queueId ∈ queueIds, ∃ item, (queuedItems queue).find?
      (fun item => item.id = queueId) = some item ∧ item.id = queueId := by
    intro queueId hid
    obtain ⟨item, hitem, rfl⟩ := mem_map.mp ((mem_queued_ids h horder).mp hid)
    cases hfind : (queuedItems queue).find? fun entry => entry.id = item.id with
    | none => exact absurd (find?_eq_none.mp hfind item hitem) (by simp)
    | some found => exact ⟨found, rfl, by simpa using find?_some hfind⟩
  clear horder
  unfold ordered
  induction queueIds with
  | nil => rfl
  | cons queueId queueIds ih =>
    obtain ⟨item, hfind, hid⟩ := hfound queueId mem_cons_self
    rw [filterMap_cons, hfind, map_cons, hid, ih fun id hid => hfound id (mem_cons_of_mem _ hid)]

theorem ordered_perm : (ordered queueIds queue).Perm (queuedItems queue) := by
  have hids := ordered_ids h horder
  obtain ⟨hnodup, hlength, -⟩ := isOrderOf_iff.mp horder
  have hdistinct : (ordered queueIds queue).Nodup := by
    rw [← hids] at hnodup
    exact hnodup.of_map _
  refine (hdistinct.subperm fun _ => mem_ordered).perm_of_length_le ?_
  have hcount : (ordered queueIds queue).length = queueIds.length := by
    rw [← length_map (·.id), hids]
  omega

/-- What the items of a reordered queue are. -/
structure Reordered (queueIds : List Text) (queue queue' : AiSessionQueue) : Prop where
  requested : (queuedItems queue').map (·.id) = queueIds
  permuted : (queuedItems queue').Perm (queuedItems queue)

/-- The items as `reorderQueuedMessages` hands them to the normalization. -/
def rearranged (queueIds : List Text) (queue : AiSessionQueue) : List AiSessionQueuedMessage :=
  (queue.items.filter fun item => item.status ≠ .queued) ++ ordered queueIds queue

theorem rearranged_perm : (rearranged queueIds queue).Perm queue.items := by
  refine ((ordered_perm h horder).append_left _).trans ?_
  have hsplit := filter_append_perm (fun item => item.status ≠ .queued) queue.items
  simpa [queuedItems] using hsplit

theorem rearranged_items
    (revision : Nat) (paused : Bool) :
    (normalizeAiSessionQueueItems isDateTime (rearranged queueIds queue) revision
      paused).items = sortByStatus (·.status) (rearranged queueIds queue) := by
  have hperm := rearranged_perm h horder
  have hclean : ∀ item ∈ rearranged queueIds queue, Clean isDateTime item :=
    fun item hitem => h.clean item (hperm.mem_iff.mp hitem)
  have hlength : (rearranged queueIds queue).length ≤ AI_SESSION_QUEUE_LIMIT := hperm.length_eq ▸ h.bounded
  simp only [normalizeAiSessionQueueItems, normalizedItems, filterMap_of_clean hclean,
    take_of_length_le hlength]

end

theorem filter_rearranged (horder : isOrderOf queueIds queue = true) :
    ((rearranged queueIds queue).filter fun item => !decide (item.id ∈ queueIds)) =
      queue.items.filter fun item => !decide (item.id ∈ queueIds) := by
  obtain ⟨-, -, hall⟩ := isOrderOf_iff.mp horder
  have hordered : ((ordered queueIds queue).filter fun item => !decide (item.id ∈ queueIds)) = [] := by
    apply filter_eq_nil_iff.mpr
    intro item hitem
    simp [hall item (mem_ordered hitem)]
  rw [rearranged, filter_append, hordered, append_nil, filter_filter]
  apply filter_congr
  intro item hitem
  by_cases hqueued : item.status = .queued
  · have hin := hall item (mem_filter.mpr ⟨hitem, decide_eq_true hqueued⟩)
    simp [hin]
  · simp [hqueued]

theorem reorderQueuedMessages_effect (h : Inv isDateTime s) (expectedRevision : Nat)
    (queueIds : List Text) :
    Effect isDateTime s (s.reorderQueuedMessages isDateTime session expectedRevision queueIds)
      session fun id => id ∈ queueIds := by
  unfold reorderQueuedMessages
  simp only
  split
  · exact Effect.refl h session _
  split
  · exact Effect.refl h session _
  rename_i horder
  have horder : isOrderOf queueIds (s.queues session) = true := by simpa using horder
  split
  · exact Effect.refl h session _
  have hnormal := h.normal session
  have hperm := rearranged_perm hnormal horder
  have hclean : ∀ item ∈ rearranged queueIds (s.queues session), Clean isDateTime item :=
    fun item hitem => hnormal.clean item (hperm.mem_iff.mp hitem)
  have hhanded := handed_of_clean hclean
    ((hperm.map AiSessionQueuedMessage.id).nodup_iff.mpr hnormal.distinct)
  refine .handed (h.put (hhanded.normal _ _) fun id => ?_) rfl hhanded
    (hperm.length_eq ▸ hnormal.bounded) (fun item hitem _ => hclean item hitem)
    (filter_rearranged horder)
  have hids := ((sortByStatus_perm (·.status) _).trans hperm).map AiSessionQueuedMessage.id
  rw [← rearranged_items hnormal horder] at hids
  exact hids.mem_iff

theorem reorderQueuedMessages_reordered (h : Inv isDateTime s)
    (horder : isOrderOf queueIds (s.queues session) = true) :
    Reordered queueIds (s.queues session) ((s.reorderQueuedMessages isDateTime session
      (s.queues session).revision queueIds).queues session) := by
  unfold reorderQueuedMessages
  rw [if_neg (by simp), if_neg (by simp [horder])]
  split
  next hsame => exact ⟨hsame, .refl _⟩
  · have hnormal := h.normal session
    have hitems := rearranged_items hnormal horder ((s.queues session).revision + 1)
      (s.queues session).paused
    have hqueued : queuedItems (withQueue isDateTime (s.queues session)
        (rearranged queueIds (s.queues session))) = ordered queueIds (s.queues session) := by
      refine (congrArg (filter _) hitems).trans ?_
      rw [filter_status_sortByStatus, rearranged, filter_append, filter_filter]
      have hnone : ((s.queues session).items.filter fun item =>
          decide (item.status = .queued) && decide (item.status ≠ .queued)) = [] := by simp
      have hall : (ordered queueIds (s.queues session)).filter (fun item => item.status = .queued) =
          ordered queueIds (s.queues session) :=
        filter_eq_self.mpr fun item hitem => (mem_filter.mp (mem_ordered hitem)).2
      rw [hnone, hall, nil_append]
    rw [put_queues]
    exact ⟨(congrArg (map (·.id)) hqueued).trans (ordered_ids hnormal horder),
      hqueued ▸ ordered_perm hnormal horder⟩

theorem Effect.generate (h : Inv isDateTime s) (id : Text) (named : Text → Bool) :
    Effect isDateTime s { s with generated := id :: s.generated } session named where
  inv :=
    { h with
      generated := fun other k hk => mem_cons_of_mem _ (h.generated other k hk)
      attached := fun k hk => mem_cons_of_mem _ (h.attached k hk) }
  frame := fun _ _ => rfl
  unnamed := fun _ => rfl
  revision := absurd rfl

theorem enqueued_handed (h : Normal isDateTime queue) (hid : compactText 120 item.id = some item.id)
    (hfresh : item.id ∉ queue.ids) (herror : item.error = none) :
    Handed (queue.items ++ [item]) where
  ids := by
    intro entry hentry
    rcases mem_concat.mp hentry with hin | rfl
    · exact (h.clean entry hin).id
    · exact hid
  distinct := by
    rw [map_append, map_singleton]
    refine nodup_append.mpr ⟨h.distinct, nodup_singleton _, ?_⟩
    rintro id hin _ hlast rfl
    exact hfresh (mem_singleton.mp hlast ▸ hin)
  errors := by
    intro entry hentry
    rcases mem_concat.mp hentry with hin | rfl
    · rw [(h.clean entry hin).error, (h.clean entry hin).error]
    · rw [herror]
      rfl

theorem withQueue_full (h : Normal isDateTime queue) (hfull : AI_SESSION_QUEUE_LIMIT ≤ queue.items.length)
    (item : AiSessionQueuedMessage) :
    (withQueue isDateTime queue (queue.items ++ [item])).items = queue.items := by
  have hlength : queue.items.length = AI_SESSION_QUEUE_LIMIT := Nat.le_antisymm h.bounded hfull
  simp only [withQueue, normalizeAiSessionQueueItems, normalizedItems, filterMap_append,
    filterMap_of_clean h.clean]
  rw [← hlength, take_left', h.sorted]
  rfl

theorem enqueueMessage_effect (h : Inv isDateTime s) {id : Text} (hfresh : id ∉ s.generated)
    (hid : compactText 120 id = some id) (input : EnqueueInput) (now : Timestamp isDateTime) :
    Effect isDateTime s (s.enqueueMessage isDateTime session id input now) session
      fun k => k = id := by
  unfold enqueueMessage
  split
  · exact Effect.generate h id _
  rename_i metas hmetas
  have hnormal := h.normal session
  have hnew : id ∉ (s.queues session).ids := fun hin => hfresh (h.generated session id hin)
  simp only
  split
  · exact Effect.generate h id _
  rename_i hkept
  have hkept := Decidable.not_not.mp hkept
  have hroom : (s.queues session).items.length < AI_SESSION_QUEUE_LIMIT := by
    by_contra hfull
    have hitems := withQueue_full hnormal (Nat.le_of_not_lt hfull) (newItem id input metas now)
    exact hnew (by rwa [AiSessionQueue.ids, hitems] at hkept)
  have hlength : ((s.queues session).items ++ [newItem id input metas now]).length ≤ AI_SESSION_QUEUE_LIMIT := by
    rw [length_append, length_singleton]
    omega
  have hhanded : Handed ((s.queues session).items ++ [newItem id input metas now]) :=
    enqueued_handed hnormal hid hnew rfl
  have hids : ∀ k, k ∈ (withQueue isDateTime (s.queues session)
      ((s.queues session).items ++ [newItem id input metas now])).ids ↔
        k ∈ (s.queues session).ids ∨ k = id := by
    intro k
    constructor
    · intro hk
      obtain ⟨raw, hraw, rfl, -⟩ := (mem_ids_normalized hhanded hlength).mp hk
      rcases mem_concat.mp hraw with hin | hlast
      · exact .inl (mem_map_of_mem hin)
      · exact .inr (hlast ▸ rfl)
    · rintro (hold | rfl)
      · obtain ⟨item, hitem, rfl⟩ := mem_ids.mp hold
        exact (mem_ids_normalized hhanded hlength).mpr ⟨item, mem_append_left _ hitem, rfl,
          (hnormal.clean item hitem).isSome⟩
      · exact hkept
  have hunattached : id ∉ s.attached := fun hin => hfresh (h.attached id hin)
  refine .handed (h.replace rfl (hhanded.normal _ _) (fun k hk => ?_) ?_ ?_ fun k => ?_) rfl
    hhanded hlength ?_ ?_
  · rcases (hids k).mp hk with hold | rfl
    · exact .inl hold
    · exact .inr hfresh
  · rintro k (hold | hk)
    · exact mem_cons_of_mem _ hold
    · rcases (hids k).mp hk with hin | rfl
      · exact mem_cons_of_mem _ (h.generated session k hin)
      · exact mem_cons_self
  · intro k hk
    split at hk
    · exact mem_cons_of_mem _ (h.attached k hk)
    rcases mem_cons.mp hk with rfl | hold
    · exact mem_cons_self
    · exact mem_cons_of_mem _ (h.attached k hold)
  · rw [hids k]
    have hsplit := h.payloads_split session k
    by_cases heq : k = id
    · subst heq
      split
      · simpa [hunattached] using hsplit
      · simp
    · split
      · simpa [heq] using hsplit
      · rw [get?_set_ne _ _ heq]
        simpa [heq] using hsplit
  · intro item hitem hunnamed
    rcases mem_concat.mp hitem with hin | rfl
    · exact hnormal.clean item hin
    · simp [newItem] at hunnamed
  · simp [newItem]

theorem editItem_patches (message : Text) (update : Option AttachmentUpdate)
    (now : Timestamp isDateTime) : Patches isDateTime (editItem message update now) := by
  constructor
  · intro item
    cases update <;> rfl
  intro item hclean
  have herror : (editItem message update now item).error = item.error := by cases update <;> rfl
  rw [herror, hclean.error, hclean.error]

theorem isSome_editItem (h : Clean isDateTime item) {message : Text}
    (hmessage : nonEmptyTrimmedText 20000 message = some message)
    (update : Option AttachmentUpdate) (now : Timestamp isDateTime) :
    (normalizeQueuedMessage isDateTime (editItem message update now item)).isSome = true := by
  have htrim : messageText message = message := (nonEmptyTrimmedText_eq_some.mp hmessage).1.symm
  cases update <;>
    simp [normalizeQueuedMessage_isSome, editItem, h.id, h.parts.2, now.property, htrim, hmessage]

theorem editPayloads_queues (update : Option AttachmentUpdate) :
    (s.editPayloads queueId update).queues = s.queues := by
  unfold editPayloads
  cases update with
  | none => rfl
  | some update => simp only; split <;> rfl

theorem editPayloads_generated (update : Option AttachmentUpdate) :
    (s.editPayloads queueId update).generated = s.generated := by
  unfold editPayloads
  cases update with
  | none => rfl
  | some update => simp only; split <;> rfl

theorem editPayloads_attached (h : Inv isDateTime s) (hin : queueId ∈ s.generated)
    (update : Option AttachmentUpdate) :
    ∀ k ∈ (s.editPayloads queueId update).attached, k ∈ s.generated := by
  intro k hk
  unfold editPayloads at hk
  cases update with
  | none => exact h.attached k hk
  | some update =>
    simp only at hk
    split at hk
    · exact h.attached k (mem_filter.mp hk).1
    rcases mem_cons.mp hk with rfl | hold
    · exact hin
    · exact h.attached k hold

theorem editPayloads_ne (update : Option AttachmentUpdate) {k : Text} (hne : k ≠ queueId) :
    (s.editPayloads queueId update).queuedAttachmentPayloads.get? k =
        s.queuedAttachmentPayloads.get? k ∧
      (k ∈ (s.editPayloads queueId update).attached ↔ k ∈ s.attached) := by
  unfold editPayloads
  cases update with
  | none => exact ⟨rfl, .rfl⟩
  | some update =>
    simp only
    split
    · exact ⟨get?_erase_ne _ hne, by simp [hne]⟩
    · exact ⟨get?_set_ne _ _ hne, by simp [hne]⟩

variable (h : Inv isDateTime s)

include h

theorem editPayloads_self (hin : queueId ∈ (s.queues session).ids)
    (update : Option AttachmentUpdate) :
    ((s.editPayloads queueId update).queuedAttachmentPayloads.get? queueId).isSome = true ↔
      queueId ∈ (s.editPayloads queueId update).attached := by
  unfold editPayloads
  cases update with
  | none =>
    refine (h.payloads queueId).trans ?_
    exact ⟨And.left, fun hattached => ⟨hattached, session, hin⟩⟩
  | some update =>
    simp only
    cases update.payloads.isEmpty <;> simp

/-- The schema accepts the edited item, so the queue keeps it. -/
theorem Inv.edited (hin : queueId ∈ (s.queues session).ids)
    (update : Option AttachmentUpdate) (hnormal : Normal isDateTime queue)
    (hids : ∀ k, k ∈ queue.ids ↔ k ∈ (s.queues session).ids) :
    Inv isDateTime ((s.editPayloads queueId update).put session queue) := by
  have hgenerated : (s.editPayloads queueId update).generated = s.generated :=
    editPayloads_generated update
  refine h.replace ?_ hnormal (fun k hk => .inl ((hids k).mp hk)) ?_ ?_ fun k => ?_
  · rw [AiSessionQueueService.put, editPayloads_queues]
  · rintro k (hold | hk)
    · exact hgenerated.symm ▸ hold
    · exact hgenerated.symm ▸ h.generated session k ((hids k).mp hk)
  · exact hgenerated.symm ▸ editPayloads_attached h (h.generated session queueId hin) update
  · rw [hids k]
    change ((s.editPayloads queueId update).queuedAttachmentPayloads.get? k).isSome = true ↔
      k ∈ (s.editPayloads queueId update).attached ∧ _
    by_cases heq : k = queueId
    · subst heq
      simpa [hin] using editPayloads_self h hin update
    obtain ⟨hget, hattached⟩ := @editPayloads_ne s queueId update k heq
    rw [hget, hattached]
    exact h.payloads_split session k

theorem editQueuedMessage_effect (expectedRevision : Nat) {message : Text}
    (update : Option AttachmentUpdate) (now : Timestamp isDateTime)
    (hmessage : nonEmptyTrimmedText 20000 message = some message) :
    Effect isDateTime s (s.editQueuedMessage isDateTime session queueId expectedRevision message
      update now) session fun k => k = queueId := by
  unfold editQueuedMessage
  split
  · exact Effect.refl h session _
  split
  · exact Effect.refl h session _
  rename_i item hfind
  have hitem := mem_of_find?_eq_some hfind
  have hitemid : item.id = queueId := by simpa using find?_some hfind
  split
  · exact Effect.refl h session _
  split
  · exact Effect.refl h session _
  have hnormal := h.normal session
  have hpatch : Patches isDateTime (editItem message update now) :=
    editItem_patches message update now
  have hhanded := @patched_handed isDateTime _ queueId _ hnormal hpatch
  have hin : queueId ∈ (s.queues session).ids := mem_ids.mpr ⟨item, hitem, hitemid⟩
  have hsome := fun old hold =>
    isSome_editItem (hnormal.clean old hold) hmessage update now
  refine .handed (h.edited hin update (hhanded.normal _ _)
    (patched_ids_iff hnormal hpatch hsome)) ?_ hhanded
    (by simpa [patched] using hnormal.bounded) (patched_clean hnormal hpatch)
    (patched_others hpatch _)
  rw [put, editPayloads_queues]
  rfl

end Effects

/-! ## The law -/

namespace Action

def session : Action isDateTime → String
  | enqueue session .. => session
  | markSending session .. => session
  | markFailed session .. => session
  | retry session .. => session
  | remove session .. => session
  | edit session .. => session
  | reorder session .. => session
  | setPaused session .. => session

/-- The items an operation names. -/
def names : Action isDateTime → Text → Bool
  | enqueue _ id _ _ => fun k => k = id
  | markSending _ queueId _ => fun k => k = queueId
  | markFailed _ queueId _ _ => fun k => k = queueId
  | retry _ queueId _ => fun k => k = queueId
  | remove _ queueId => fun k => k = queueId
  | edit _ queueId _ _ _ _ => fun k => k = queueId
  | reorder _ _ queueIds => fun k => k ∈ queueIds
  | setPaused _ _ => fun _ => false

def expectedRevision : Action isDateTime → Option Nat
  | edit _ _ expectedRevision _ _ _ => some expectedRevision
  | reorder _ expectedRevision _ => some expectedRevision
  | _ => none

end Action

/-- The law of the message queues, for one call. -/
structure Lawful (s : AiSessionQueueService) (action : Action isDateTime)
    (s' : AiSessionQueueService) : Prop where
  distinct : ∀ session, (s'.queues session).ids.Nodup
  frame : ∀ session, session ≠ action.session → s'.queues session = s.queues session
  unnamed : ∀ status, (s'.queues action.session).items.filter
      (fun item => item.status = status && !action.names item.id) =
    (s.queues action.session).items.filter
      fun item => item.status = status && !action.names item.id
  reordered : ∀ session expectedRevision queueIds,
    action = .reorder session expectedRevision queueIds →
    (s.queues session).revision = expectedRevision →
    isOrderOf queueIds (s.queues session) = true →
    Reordered queueIds (s.queues session) (s'.queues session)
  pending : ∀ session, (s'.queues session).pendingCount = pendingCount (s'.queues session).items
  revision : (s'.queues action.session).items ≠ (s.queues action.session).items →
    (s.queues action.session).revision < (s'.queues action.session).revision
  stale : ∀ expectedRevision, action.expectedRevision = some expectedRevision →
    (s.queues action.session).revision ≠ expectedRevision → s' = s
  payloads : ∀ id, (s'.queuedAttachmentPayloads.get? id).isSome = true ↔
    id ∈ s'.attached ∧ ∃ session, id ∈ (s'.queues session).ids

/-- A new id, and for an edit a text as the schema of its only caller returns it. -/
def Acceptable (s : AiSessionQueueService) : Action isDateTime → Prop
  | .enqueue _ id _ _ => id ∉ s.generated ∧ compactText 120 id = some id
  | .edit _ _ _ message _ _ => nonEmptyTrimmedText 20000 message = some message
  | _ => True

instance (s : AiSessionQueueService) (action : Action isDateTime) :
    Decidable (s.Acceptable action) := by
  cases action <;> unfold Acceptable <;> infer_instance

variable {action : Action isDateTime}

theorem step_effect (h : Inv isDateTime s)
    (hcond : s.Acceptable action) (hstep : step isDateTime s action = some s') :
    Effect isDateTime s s' action.session action.names := by
  cases action with
  | enqueue session id input now =>
    exact Option.some.inj hstep ▸ enqueueMessage_effect h hcond.1 hcond.2 input now
  | markSending session queueId now =>
    exact Option.some.inj hstep ▸ markQueuedMessageSending_effect h now
  | markFailed session queueId error now =>
    exact Option.some.inj hstep ▸ markQueuedMessageFailed_effect h error now
  | retry session queueId now => exact Option.some.inj hstep ▸ retryQueuedMessage_effect h now
  | remove session queueId => exact Option.some.inj hstep ▸ removeQueuedMessage_effect h
  | edit session queueId expectedRevision message update now =>
    exact Option.some.inj hstep ▸ editQueuedMessage_effect h expectedRevision update now hcond
  | reorder session expectedRevision queueIds =>
    exact Option.some.inj hstep ▸ reorderQueuedMessages_effect h expectedRevision queueIds
  | setPaused session paused => exact Option.some.inj hstep ▸ setQueuePaused_effect h paused

theorem step_stale (hstep : step isDateTime s action = some s')
    (expectedRevision : Nat) (hexpected : action.expectedRevision = some expectedRevision)
    (hstale : (s.queues action.session).revision ≠ expectedRevision) : s' = s := by
  cases action with
  | edit session queueId revision message update now =>
    cases hexpected
    exact (Option.some.inj hstep).symm.trans (if_pos hstale)
  | reorder session revision queueIds =>
    cases hexpected
    exact (Option.some.inj hstep).symm.trans (if_pos hstale)
  | enqueue session id input now => cases hexpected
  | markSending session queueId now => cases hexpected
  | markFailed session queueId error now => cases hexpected
  | retry session queueId now => cases hexpected
  | remove session queueId => cases hexpected
  | setPaused session paused => cases hexpected

theorem step_lawful (h : Inv isDateTime s)
    (hcond : s.Acceptable action) (hstep : step isDateTime s action = some s') :
    Lawful s action s' := by
  have heffect := step_effect h hcond hstep
  constructor
  · exact fun session => (heffect.inv.normal session).distinct
  · exact heffect.frame
  · exact heffect.unnamed
  · rintro session expectedRevision queueIds rfl rfl horder
    exact Option.some.inj hstep ▸ reorderQueuedMessages_reordered h horder
  · exact fun session => (heffect.inv.normal session).pending
  · exact heffect.revision
  · exact step_stale hstep
  · exact heffect.inv.payloads

/-- Every call on queues the service produced obeys the law, if the ids are new and the texts of
edits are what the schema returns. -/
theorem queue_lawful {actions : List (Action isDateTime)} {s s' : AiSessionQueueService}
    (hrun : Machine.run (step isDateTime) new actions = some s)
    (hcond : Machine.AllSteps (step isDateTime) Acceptable new actions)
    {action : Action isDateTime} (hlast : s.Acceptable action)
    (hstep : step isDateTime s action = some s') : Lawful s action s' := by
  have hinv : Inv isDateTime s := Machine.run_invariant_of_steps
    (fun _ _ _ hs ha hi => (step_effect hi ha hs).inv) hrun hcond Inv.new
  exact step_lawful hinv hlast hstep

def exampleNow : Timestamp fun _ => true := ⟨text "2024-01-01T00:00:00Z", rfl⟩

def exampleInput (message : String) (attachments : List AiSessionMessageAttachment) :
    EnqueueInput where
  message := text message
  attachments := attachments
  references := []
  permissionMode := none
  messageId := none

def exampleAttachment : AiSessionMessageAttachment where
  id := text "file"
  kind := .file
  name := text "a.txt"
  mime := text "text/plain"
  size := 1
  sourceType := .inline
  content := text "YQ=="

/-- Three messages, one of them with an attachment, are enqueued, edited, sent and reordered. -/
theorem queue_lawful_example : ∃ s s' : AiSessionQueueService, Machine.run (step fun _ => true) new
        [.enqueue "s" (text "a") (exampleInput "one" [exampleAttachment]) exampleNow,
          .enqueue "s" (text "b") (exampleInput "two" []) exampleNow,
          .enqueue "s" (text "c") (exampleInput "three" []) exampleNow,
          .markSending "s" (text "b") exampleNow,
          .edit "s" (text "a") 4 (text "first") none exampleNow] = some s ∧
        step (fun _ => true) s (.reorder "s" 5 [text "c", text "a"]) = some s' ∧
        (s'.queues "s").ids = [text "b", text "c", text "a"] ∧
        Lawful s (.reorder "s" 5 [text "c", text "a"] : Action fun _ => true) s' := by
  refine ⟨_, _, rfl, rfl, by decide, ?_⟩
  exact @queue_lawful (fun _ => true)
    [.enqueue "s" (text "a") (exampleInput "one" [exampleAttachment]) exampleNow,
      .enqueue "s" (text "b") (exampleInput "two" []) exampleNow,
      .enqueue "s" (text "c") (exampleInput "three" []) exampleNow,
      .markSending "s" (text "b") exampleNow,
      .edit "s" (text "a") 4 (text "first") none exampleNow] _ _ rfl (by decide) _ trivial rfl

end AiSessionQueueService

end TaskHandoff.AiSessions.MessageQueue
