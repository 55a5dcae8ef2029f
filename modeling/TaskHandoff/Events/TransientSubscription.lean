import Mathlib.Data.List.Basic

/-! # Subscriptions to the transient AI-session stream

Message deltas and Timeline items are sent only to consumers that subscribed to
them. A subscription selects deltas by instance and Timeline items by session,
each with a wildcard. An event holds the fields that the filters read.
-/

namespace TaskHandoff.Events

/-! ## Sets of strings -/

variable {α : Type} [DecidableEq α]

/-- Add the values to a set that keeps the order of first insertion. -/
def addAll (s values : List α) : List α :=
  values.foldl (fun s v => if v ∈ s then s else s ++ [v]) s

@[simp] theorem mem_addAll {s values : List α} {v : α} :
    v ∈ addAll s values ↔ v ∈ s ∨ v ∈ values := by
  induction values generalizing s with
  | nil => simp [addAll]
  | cons w ws ih =>
    have hstep : addAll s (w :: ws) = addAll (if w ∈ s then s else s ++ [w]) ws := rfl
    rw [hstep, ih]
    by_cases hw : w ∈ s
    · rw [if_pos hw, List.mem_cons]
      constructor
      · rintro (h | h)
        · exact .inl h
        · exact .inr (.inr h)
      rintro (h | rfl | h)
      · exact .inl h
      · exact .inl hw
      · exact .inr h
    · rw [if_neg hw, List.mem_append, List.mem_singleton, List.mem_cons, or_assoc]

/-! ## Events -/

/-- A text that is present and not empty, as `||` tests it. -/
def truthy : Option String → Option String
  | some s => if s = "" then none else some s
  | none => none

structure EventScope where
  nodeId : Option String
  instanceId : Option String
  instanceIds : List String

structure EventPayload where
  instanceId : Option String
  sessionId : Option String

/-- An event without a scope has one without entries. -/
structure EventEnvelope where
  type : String
  topic : String
  payload : EventPayload
  scope : EventScope

def AiSessionEventTopic : String := "ai.sessions"

def AiSessionEventType.MessageDelta : String := "ai-session.message-delta"

def AiSessionEventType.TimelineItem : String := "ai-session.timeline-item"

def AiSessionEventType.TimelineItemDelta : String := "ai-session.timeline-item-delta"

/-- The kinds of event that subscriptions gate. -/
def isAiSessionTransient (type : String) : Bool :=
  type = AiSessionEventType.MessageDelta || type = AiSessionEventType.TimelineItem ||
    type = AiSessionEventType.TimelineItemDelta

/-- The instance the filters compare with. -/
def EventEnvelope.instanceId (event : EventEnvelope) : String :=
  ((truthy event.payload.instanceId).or (truthy event.scope.instanceId)).getD ""

/-- No topic set, the wildcard, the topic or the type selects an event. -/
def subscribed (topics : Option (List String)) (topic type : String) : Bool :=
  match topics with
  | none => true
  | some topics => "*" ∈ topics || topic ∈ topics || type ∈ topics

/-! ## Subscriptions -/

structure TimelineSession where
  instanceId : String
  sessionId : String
deriving DecidableEq

structure MessageDeltaSelection where
  allInstances : Bool
  instanceIds : List String
deriving DecidableEq

structure AiSessionTransientSubscription where
  replaySince : Option String
  messageDeltas : MessageDeltaSelection
  timelineAllSessions : Bool
  timelineSessions : List TimelineSession
deriving DecidableEq

/-- The schema's parse of an empty object. -/
def AiSessionTransientSubscription.empty : AiSessionTransientSubscription :=
  ⟨none, ⟨false, []⟩, false, []⟩

/-- Absence of a subscription selects the full stream. -/
def aiSessionTransientSubscriptionAccepts (subscription : Option AiSessionTransientSubscription)
    (event : EventEnvelope) : Bool :=
  match subscription with
  | none => true
  | some subscription =>
    if isAiSessionTransient event.type = false then true
    else if event.type = AiSessionEventType.MessageDelta then
      subscription.messageDeltas.allInstances ||
        event.instanceId ∈ subscription.messageDeltas.instanceIds
    else
      subscription.timelineAllSessions ||
        subscription.timelineSessions.any fun entry =>
          entry.instanceId = event.instanceId ∧ some entry.sessionId = event.payload.sessionId

@[simp] theorem accepts_none (event : EventEnvelope) :
    aiSessionTransientSubscriptionAccepts none event = true := rfl

/-! ## Wider subscriptions -/

namespace AiSessionTransientSubscription

/-- `wide` selects everything that `narrow` does, part by part. -/
structure Widens (wide narrow : AiSessionTransientSubscription) : Prop where
  allInstances : narrow.messageDeltas.allInstances = true → wide.messageDeltas.allInstances = true
  instanceIds : ∀ id ∈ narrow.messageDeltas.instanceIds,
    wide.messageDeltas.allInstances = true ∨ id ∈ wide.messageDeltas.instanceIds
  timelineAllSessions : narrow.timelineAllSessions = true → wide.timelineAllSessions = true
  timelineSessions : ∀ entry ∈ narrow.timelineSessions,
    wide.timelineAllSessions = true ∨ entry ∈ wide.timelineSessions

theorem Widens.refl (s : AiSessionTransientSubscription) : Widens s s :=
  ⟨id, fun _ h => .inr h, id, fun _ h => .inr h⟩

theorem Widens.trans {wide mid narrow : AiSessionTransientSubscription} (h : Widens wide mid)
    (hm : Widens mid narrow) : Widens wide narrow where
  allInstances ha := h.allInstances (hm.allInstances ha)
  instanceIds id hid := by
    rcases hm.instanceIds id hid with hall | hmem
    · exact .inl (h.allInstances hall)
    · exact h.instanceIds id hmem
  timelineAllSessions ha := h.timelineAllSessions (hm.timelineAllSessions ha)
  timelineSessions entry hentry := by
    rcases hm.timelineSessions entry hentry with hall | hmem
    · exact .inl (h.timelineAllSessions hall)
    · exact h.timelineSessions entry hmem

theorem Widens.accepts {wide narrow : AiSessionTransientSubscription} (h : Widens wide narrow)
    {event : EventEnvelope}
    (ha : aiSessionTransientSubscriptionAccepts (some narrow) event = true) :
    aiSessionTransientSubscriptionAccepts (some wide) event = true := by
  simp only [aiSessionTransientSubscriptionAccepts] at ha ⊢
  split
  · rfl
  rename_i htransient
  rw [if_neg htransient] at ha
  split
  next hdelta =>
    simp only [if_pos hdelta, Bool.or_eq_true, decide_eq_true_eq] at ha ⊢
    rcases ha with hall | hid
    · exact .inl (h.allInstances hall)
    · exact h.instanceIds _ hid
  next hdelta =>
    simp only [if_neg hdelta, Bool.or_eq_true, List.any_eq_true, decide_eq_true_eq] at ha ⊢
    rcases ha with hall | ⟨entry, hentry, hmatch⟩
    · exact .inl (h.timelineAllSessions hall)
    rcases h.timelineSessions entry hentry with hall | hmem
    · exact .inl hall
    · exact .inr ⟨entry, hmem, hmatch⟩

theorem accepts_of_wildcards {subscription : AiSessionTransientSubscription}
    (hdeltas : subscription.messageDeltas.allInstances = true)
    (htimeline : subscription.timelineAllSessions = true) (event : EventEnvelope) :
    aiSessionTransientSubscriptionAccepts (some subscription) event = true := by
  simp [aiSessionTransientSubscriptionAccepts, hdeltas, htimeline]

end AiSessionTransientSubscription

end TaskHandoff.Events
