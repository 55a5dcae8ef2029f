import TaskHandoff.Events.ReplayLog

/-! # Replaying the log to a client

A client that subscribes with a cursor is sent the retained events that its
topics and its subscription select. Message deltas are sent whatever their age,
Timeline events only from the cutoff on. The text of an item is what a reader
folds out of the item's events: a Timeline item sets it, a delta extends it.
-/

namespace TaskHandoff.Events.ReplayLog

open CompactedLog Machine List AiSessionEventType

/-! ## The client's side of a replay -/

structure WebEventClient where
  topics : Option (List String)
  aiSessionTransient : Option AiSessionTransientSubscription

/-- What the socket does when a frame reaches it. -/
structure SocketReading where
  isOpen : Bool
  bufferedAmount : Nat
  throws : Bool

def sendClient (socket : SocketReading) (bytes : Nat) : Bool :=
  if socket.isOpen = false then false
  else if socket.bufferedAmount + bytes > MAX_EVENT_CLIENT_BUFFERED_BYTES then false
  else !socket.throws

/-- A cursor that does not parse counts as the epoch. -/
def replayCutoff (requestedAt : Option Int) (now : Int) : Int :=
  max (requestedAt.getD 0) (now - TRANSIENT_REPLAY_LOOKBACK_MS)

def WebEventClient.accepts (client : WebEventClient) (event : WebEvent) : Bool :=
  subscribed client.topics event.topic event.type &&
    aiSessionTransientSubscriptionAccepts client.aiSessionTransient event.envelope

/-- The events that reach the client. `frameBytes` is the length of an event's
replay frame in the client's envelope. -/
def replayTransient (frameBytes : WebEvent → Nat) (client : WebEventClient) (cutoff : Int)
    (socket : WebEvent → SocketReading) : List WebEvent → List WebEvent
  | [] => []
  | event :: rest =>
    if event.type ≠ MessageDelta ∧ event.createdAt < cutoff then
      replayTransient frameBytes client cutoff socket rest
    else if client.accepts event = false then
      replayTransient frameBytes client cutoff socket rest
    else if sendClient (socket event) (frameBytes event) then
      event :: replayTransient frameBytes client cutoff socket rest
    else []

variable {frameBytes : WebEvent → Nat} {client : WebEventClient} {cutoff : Int}
  {socket : WebEvent → SocketReading}

theorem replayTransient_sublist (log : List WebEvent) :
    (replayTransient frameBytes client cutoff socket log).Sublist log := by
  induction log with
  | nil => exact .refl _
  | cons event rest ih =>
    unfold replayTransient
    split
    · exact ih.cons _
    split
    · exact ih.cons _
    split
    · exact ih.cons_cons _
    · exact nil_sublist _

theorem mem_replayTransient {log : List WebEvent}
    (hsent : ∀ e ∈ log, sendClient (socket e) (frameBytes e) = true) {e : WebEvent}
    (he : e ∈ log) (haccepts : client.accepts e = true)
    (hrecent : e.type = MessageDelta ∨ cutoff ≤ e.createdAt) :
    e ∈ replayTransient frameBytes client cutoff socket log := by
  induction log with
  | nil => cases he
  | cons event rest ih =>
    have hrest := ih fun e he => hsent e (mem_cons_of_mem _ he)
    unfold replayTransient
    split
    next hold =>
      rcases mem_cons.mp he with rfl | he
      · rcases hrecent with hdelta | hcutoff
        · exact (hold.1 hdelta).elim
        · omega
      · exact hrest he
    · split
      next hrefused =>
        rcases mem_cons.mp he with rfl | he
        · rw [haccepts] at hrefused
          cases hrefused
        · exact hrest he
      · rw [if_pos (hsent event mem_cons_self)]
        rcases mem_cons.mp he with rfl | he
        · exact mem_cons_self
        · exact mem_cons_of_mem _ (hrest he)

/-! ## The text of an item -/

variable (key : String) {event : WebEvent}

/-- A streamed message grows by its deltas. -/
def readMessage (text : String) (event : WebEvent) : String :=
  if itemKey event = some key ∧ event.type = MessageDelta then
    text ++ event.payload.delta
  else text

/-- A Timeline item replaces what was known of it, its deltas extend it. -/
def readTimeline (text : String) (event : WebEvent) : String :=
  if itemKey event = some key ∧ event.type ≠ MessageDelta then
    if event.type = TimelineItem then
      (event.payload.item.map StreamItem.text).getD ""
    else text ++ event.payload.delta
  else text

def messageText (events : List WebEvent) : String :=
  events.foldl (readMessage key) ""

def timelineText (events : List WebEvent) : String :=
  events.foldl (readTimeline key) ""

theorem readMessage_of_ne {key : String}
    (h : ¬ (itemKey event = some key ∧ event.type = MessageDelta)) (text : String) :
    readMessage key text event = text :=
  if_neg h

theorem readTimeline_of_ne {key : String}
    (h : ¬ (itemKey event = some key ∧ event.type ≠ MessageDelta)) (text : String) :
    readTimeline key text event = text :=
  if_neg h

theorem readTimeline_overwrites {key : String} (hkey : itemKey event = some key)
    (htype : event.type = TimelineItem) : Overwrites (readTimeline key) event := by
  intro text text'
  have hne : event.type ≠ MessageDelta := by
    rw [htype]
    decide
  unfold readTimeline
  rw [if_pos ⟨hkey, hne⟩, if_pos htype, if_pos ⟨hkey, hne⟩, if_pos htype]

/-! ## Conditions on an item -/

namespace WebEventBus

/-- No publication settled an event of the item that was published by then. -/
def Unsettled (key : String) (bus : WebEventBus) : Prop :=
  ∀ a ∈ bus.history, ∀ f ∈ bus.history, itemKey f = some key → f.seq ≤ a.seq → settles a f = false

def Unevicted (key : String) (bus : WebEventBus) : Prop :=
  ∀ e ∈ bus.history, itemKey e = some key → bus.evictedThrough < e.seq

/-- The client's topics and subscription let the item's events through. -/
def SelectedBy (client : WebEventClient) (key : String) (bus : WebEventBus) : Prop :=
  ∀ e ∈ bus.events, itemKey e = some key → client.accepts e = true

/-- The retained Timeline events of the item are not older than the cutoff. -/
def Recent (cutoff : Int) (key : String) (bus : WebEventBus) : Prop :=
  ∀ e ∈ bus.events, itemKey e = some key → e.type ≠ MessageDelta →
    cutoff ≤ e.createdAt

instance (key : String) (bus : WebEventBus) : Decidable (Unsettled key bus) := by
  unfold Unsettled
  infer_instance

instance (key : String) (bus : WebEventBus) : Decidable (Unevicted key bus) := by
  unfold Unevicted
  infer_instance

instance (client : WebEventClient) (key : String) (bus : WebEventBus) :
    Decidable (SelectedBy client key bus) := by
  unfold SelectedBy
  infer_instance

instance (cutoff : Int) (key : String) (bus : WebEventBus) : Decidable (Recent cutoff key bus) := by
  unfold Recent
  infer_instance

variable {encodedBytes : WebEvent → Nat} {bus : WebEventBus} {key : String}

variable (h : Inv encodedBytes bus)

include h

section

variable (hset : Unsettled key bus)

include hset

/-- What the log lacks of an unsettled, unevicted item is superseded. -/
theorem Inv.superseded_of_missing
    (hev : Unevicted key bus) {e : WebEvent} (he : e ∈ bus.history)
    (hkey : itemKey e = some key) (hgone : e ∉ bus.events) :
    ∃ s ∈ bus.events, replayShape.Supersedes bus.history s e := by
  rcases h.accounted e he (isAiSessionTransient_of_itemKey hkey) with hmem | hsettled | hsup | hle
  · exact (hgone hmem).elim
  · obtain ⟨a, ha, f, hf, hsame, hsettles, -, hfa⟩ := hsettled
    have hfkey : itemKey f = some key := by
      rcases hsame with rfl | ⟨k, hek, hfk⟩
      · exact hkey
      · have hkk : some k = some key := hek.symm.trans hkey
        exact hfk.trans hkk
    have := hset a ha f hf hfkey hfa
    rw [replayShape_settles, this] at hsettles
    cases hsettles
  · exact hsup
  · have hlt := hev e he hkey
    have hle' : e.seq ≤ bus.evictedThrough := hle
    omega

theorem Inv.messageText_replay
    (hev : Unevicted key bus) (hselected : SelectedBy client key bus)
    (hsent : ∀ e ∈ bus.events, sendClient (socket e) (frameBytes e) = true) :
    messageText key (replayTransient frameBytes client cutoff socket bus.events) =
      messageText key bus.history := by
  refine foldl_sublist ((replayTransient_sublist _).trans h.ordered) h.numbered ?_ _
  intro e he
  by_cases hread : itemKey e = some key ∧ e.type = MessageDelta
  · obtain ⟨hkey, htype⟩ := hread
    by_cases hmem : e ∈ bus.events
    · exact .inl (mem_replayTransient hsent hmem (hselected e hmem hkey) (.inl htype))
    obtain ⟨s, -, hsup⟩ := h.superseded_of_missing hset hev he hkey hmem
    have hitem := hsup.earlier
    rw [replayShape_replaces, htype] at hitem
    exact absurd hitem (by decide)
  · exact .inr (.inl (readMessage_of_ne hread))

theorem Inv.timelineText_replay
    (hev : Unevicted key bus) (hselected : SelectedBy client key bus)
    (hsent : ∀ e ∈ bus.events, sendClient (socket e) (frameBytes e) = true)
    (hrecent : Recent cutoff key bus) :
    timelineText key (replayTransient frameBytes client cutoff socket bus.events) =
      timelineText key bus.history := by
  refine foldl_sublist ((replayTransient_sublist _).trans h.ordered) h.numbered ?_ _
  have hreplayed : ∀ e ∈ bus.events, itemKey e = some key → e.type ≠ MessageDelta →
      e ∈ replayTransient frameBytes client cutoff socket bus.events := fun e hmem hkey htype =>
    mem_replayTransient hsent hmem (hselected e hmem hkey) (.inr (hrecent e hmem hkey htype))
  intro e he
  by_cases hread : itemKey e = some key ∧ e.type ≠ MessageDelta
  · obtain ⟨hkey, htype⟩ := hread
    by_cases hmem : e ∈ bus.events
    · exact .inl (hreplayed e hmem hkey htype)
    obtain ⟨s, hs, hsup⟩ := h.superseded_of_missing hset hev he hkey hmem
    have hstype : s.type = TimelineItem := by simpa using hsup.later
    have hskey : itemKey s = some key := by
      obtain ⟨k, hek, hsk⟩ := hsup.key
      have hkk : some k = some key := hek.symm.trans hkey
      exact hsk.trans hkk
    have hsne : s.type ≠ MessageDelta := by
      rw [hstype]
      decide
    exact .inr (.inr ⟨s, hreplayed s hs hskey hsne, hsup.seq_lt,
      readTimeline_overwrites hskey hstype⟩)
  · exact .inr (.inl (readTimeline_of_ne hread))

end

/-- The log is counted, within its caps, in publication order, and lacks only
what is settled, superseded from within it, or in the evicted prefix. -/
structure Sound (encodedBytes : WebEvent → Nat) (bus : WebEventBus) : Prop where
  counted : bus.transientReplayBytes = (bus.events.map encodedBytes).sum
  bytes_le : bus.transientReplayBytes ≤ MAX_TRANSIENT_REPLAY_BYTES
  length_le : bus.events.length ≤ MAX_TRANSIENT_REPLAY_EVENTS
  ordered : bus.events.Sublist bus.history
  missing : ∀ e ∈ bus.history, isAiSessionTransient e.type = true → e ∉ bus.events →
    replayShape.Settled bus.history e ∨
      (∃ s ∈ bus.events, replayShape.Supersedes bus.history s e) ∨ e.seq ≤ bus.evictedThrough
  evicted_before : ∀ e ∈ bus.events, bus.evictedThrough < e.seq

theorem Inv.sound : Sound encodedBytes bus where
  __ := h
  counted := by
    rw [h.counted, events, map_map]
    exact congrArg sum (map_congr_left h.sized)
  length_le := by
    rw [events, length_map]
    exact h.length_le
  missing e he htransient hgone := by
    rcases h.accounted e he htransient with hmem | hrest
    · exact (hgone hmem).elim
    · exact hrest
  evicted_before := h.remaining

end WebEventBus

open WebEventBus

/-- After every sequence of publications the log is sound, and a replay that is
sent in full rebuilds the streamed text of each unsettled, unevicted item that
the client selects, and its Timeline text when the item's retained Timeline
events are not older than the cutoff. -/
theorem replay_rebuilds {encodedBytes : WebEvent → Nat} {as : List Action} {bus : WebEventBus}
    (h : run (step encodedBytes) new as = some bus) : Sound encodedBytes bus ∧
      ∀ (frameBytes : WebEvent → Nat) (client : WebEventClient) (requestedAt : Option Int)
        (now : Int) (socket : WebEvent → SocketReading) (key : String),
        Unsettled key bus → Unevicted key bus → SelectedBy client key bus →
        (∀ e ∈ bus.events, sendClient (socket e) (frameBytes e) = true) →
        messageText key
            (replayTransient frameBytes client (replayCutoff requestedAt now) socket bus.events) =
          messageText key bus.history ∧
        (Recent (replayCutoff requestedAt now) key bus → timelineText key
              (replayTransient frameBytes client (replayCutoff requestedAt now) socket bus.events) =
            timelineText key bus.history) := by
  have hinv := inv_of_run h
  refine ⟨hinv.sound, ?_⟩
  intro frameBytes client requestedAt now socket key hset hev hselected hsent
  exact ⟨hinv.messageText_replay hset hev hselected hsent,
    hinv.timelineText_replay hset hev hselected hsent⟩

/-- A running activity of one session. -/
def activityPayload (output : String) : WebPayload where
  instanceId := some "instance-a"
  sessionId := some "session-a"
  item := some ⟨some "item-a", some "turn-a", some "running", output⟩
  itemId := none
  turnId := none
  delta := ""
  sessionIds := none
  snapshotSessions := none
  upserted := none

def activityDeltaPayload (delta : String) : WebPayload :=
  { activityPayload "" with
    item := none
    itemId := some "item-a"
    turnId := some "turn-a"
    delta := delta }

def publishActivity (output : String) (now : Int) : Action :=
  .publish TimelineItem AiSessionEventTopic (activityPayload output) now

def publishActivityDelta (delta : String) (now : Int) : Action :=
  .publish TimelineItemDelta AiSessionEventTopic (activityDeltaPayload delta) now

/-- The client of a transcript: every topic, the Timeline of the one session. -/
def transcriptClient : WebEventClient :=
  ⟨some ["*"], some ⟨none, ⟨false, []⟩, false, [⟨"instance-a", "session-a"⟩]⟩⟩

/-- The third snapshot replaces the second one, not the one under the delta. -/
theorem replay_rebuilds_collapsed : ∃ bus, run (step fun _ => 10) new [publishActivity "partial" 0,
        publishActivityDelta "more" 1, publishActivity "partial more" 2,
        publishActivity "partial more again" 3] = some bus ∧
      bus.transientReplay.length = 3 ∧ bus.transientReplayBytes = 30 ∧
      timelineText (joined "session-a" "item-a")
          (replayTransient (fun _ => 10) transcriptClient (replayCutoff none 4)
            (fun _ => ⟨true, 0, false⟩) bus.events) =
        timelineText (joined "session-a" "item-a") bus.history := by
  have htext := (@replay_rebuilds (fun _ => 10) [publishActivity "partial" 0,
    publishActivityDelta "more" 1, publishActivity "partial more" 2,
    publishActivity "partial more again" 3] _ rfl).2 (fun _ => 10) transcriptClient none 4
    (fun _ => ⟨true, 0, false⟩) (joined "session-a" "item-a") (by decide) (by decide) (by decide)
    (by decide)
  exact ⟨_, rfl, by decide, by decide, htext.2 (by decide)⟩

/-- A running item older than the window stays retained, but a new client that
asks for everything since the epoch is not sent it. -/
theorem old_item_not_replayed :
    ∃ bus, run (step fun _ => 10) new [publishActivity "output" 0] = some bus ∧
      (∀ e ∈ bus.history, e ∈ bus.events) ∧
      Unsettled (joined "session-a" "item-a") bus ∧
      Unevicted (joined "session-a" "item-a") bus ∧
      SelectedBy transcriptClient (joined "session-a" "item-a") bus ∧
      timelineText (joined "session-a" "item-a")
          (replayTransient (fun _ => 10) transcriptClient (replayCutoff (some 0) 300001)
            (fun _ => ⟨true, 0, false⟩) bus.events) ≠
        timelineText (joined "session-a" "item-a") bus.history := by
  decide

end TaskHandoff.Events.ReplayLog
