import Mathlib.Algebra.GroupWithZero.Nat
import TaskHandoff.Events.TransientSubscription
import TaskHandoff.Lib.CompactedLog
import TaskHandoff.Lib.Machine

/-! # The replay log of the web event bus

`WebEventBus` retains transient AI-session events and replays them to a client
that subscribes with a cursor. The log drops what an authority event or a
finished activity settles, snapshots that a newer snapshot of the same item
replaces, and its oldest events when a cap is exceeded. Every method runs on
one thread, so a publication is one step; live delivery to the connected
clients does not touch the log and is left out.
-/

namespace TaskHandoff.Events.ReplayLog

open CompactedLog Machine List AiSessionEventType

def MAX_EVENT_CLIENT_BUFFERED_BYTES : Nat := 16 * 1024 * 1024

def MAX_TRANSIENT_REPLAY_BYTES : Nat := 32 * 1024 * 1024

def MAX_TRANSIENT_REPLAY_EVENTS : Nat := 20000

def TRANSIENT_REPLAY_LOOKBACK_MS : Int := 5 * 60000

def SETTLED_TIMELINE_ACTIVITY_STATUSES : List String := ["completed", "failed"]

/-! ## Events -/

/-- `text` is the body a reader shows: the text of a message, the output of an activity. -/
structure StreamItem where
  id : Option String
  turnId : Option String
  status : Option String
  text : String
deriving DecidableEq

structure TurnRecord where
  id : Option String
  providerTurnId : Option String
  status : Option String
deriving DecidableEq

structure SessionRecord where
  id : Option String
  lastMessageItemId : Option String
  status : Option String
  turns : List TurnRecord
deriving DecidableEq

/-- The fields of a payload that the log reads; absent or of another type is `none`. -/
structure WebPayload where
  instanceId : Option String
  sessionId : Option String
  item : Option StreamItem
  itemId : Option String
  turnId : Option String
  delta : String
  sessionIds : Option (List String)
  snapshotSessions : Option (List SessionRecord)
  upserted : Option (List SessionRecord)
deriving DecidableEq

/-- `createdAt` in milliseconds. The source compares the ISO texts, which stand
in the same order for the years 0 to 9999. -/
structure WebEvent where
  seq : Nat
  type : String
  topic : String
  createdAt : Int
  payload : WebPayload
deriving DecidableEq

def WebEvent.envelope (event : WebEvent) : EventEnvelope where
  type := event.type
  topic := event.topic
  payload := ⟨event.payload.instanceId, event.payload.sessionId⟩
  scope := ⟨none, none, []⟩

structure TransientEventIdentity where
  sessionId : String
  itemId : Option String
  turnId : Option String
  settledTimelineItem : Bool

def transientEventIdentity (event : WebEvent) : Option TransientEventIdentity :=
  if isAiSessionTransient event.type = false then none
  else
    match event.payload.sessionId with
    | none => none
    | some sessionId =>
      let status := event.payload.item.bind StreamItem.status
      some {
        sessionId := sessionId
        itemId := (event.payload.item.bind StreamItem.id).or event.payload.itemId
        turnId := (event.payload.item.bind StreamItem.turnId).or event.payload.turnId
        settledTimelineItem := event.type ≠ MessageDelta &&
          status.any fun s => s ∈ SETTLED_TIMELINE_ACTIVITY_STATUSES }

/-- Two parts of a key with the separator of the source between them. -/
def joined (sessionId id : String) : String := sessionId ++ "\x00" ++ id

def transientItemKey (identity : Option TransientEventIdentity) : Option String :=
  identity.bind fun identity => (truthy identity.itemId).map (joined identity.sessionId)

def transientTurnKey (identity : Option TransientEventIdentity) : Option String :=
  identity.bind fun identity => (truthy identity.turnId).map (joined identity.sessionId)

/-- The item that the log files an event under. -/
def itemKey (event : WebEvent) : Option String := transientItemKey (transientEventIdentity event)

def settledTimelineItem (event : WebEvent) : Bool :=
  (transientEventIdentity event).any TransientEventIdentity.settledTimelineItem

/-! ## What authority events settle -/

/-- The three sets that `pruneSettledMessageReplay` collects. -/
structure Settlement where
  removedSessionIds : List String
  settledTurns : List String
  settledItems : List String

def isAuthority (type : String) : Bool :=
  type = "ai-session.snapshot" || type = "ai-session.patch" || type = "ai-session.removed"

def SessionRecord.sessionId (session : SessionRecord) : String := (truthy session.id).getD ""

def SessionRecord.settledItems (session : SessionRecord) : List String :=
  match truthy session.lastMessageItemId with
  | some itemId =>
    if session.sessionId = "" then [] else [joined session.sessionId itemId]
  | none => []

def TurnRecord.settledTurns (sessionId : String) (turn : TurnRecord) : List String :=
  if turn.status = some "completed" ∨ turn.status = some "failed" then
    joined sessionId ((truthy turn.id).getD "") ::
      ((truthy turn.providerTurnId).map (joined sessionId)).toList
  else []

def SessionRecord.removedSessionIds (session : SessionRecord) : List String :=
  if session.turns = [] ∧ session.sessionId ≠ "" ∧ session.status ≠ some "running" ∧
      session.status ≠ some "waiting" then
    [session.sessionId]
  else []

def settlement (type : String) (payload : WebPayload) : Settlement :=
  let sessions := (payload.snapshotSessions.or payload.upserted).getD []
  { removedSessionIds :=
      (if type = "ai-session.removed" then payload.sessionIds.getD [] else []) ++
        sessions.flatMap SessionRecord.removedSessionIds
    settledTurns := sessions.flatMap fun session =>
      session.turns.flatMap (TurnRecord.settledTurns session.sessionId)
    settledItems := sessions.flatMap SessionRecord.settledItems }

/-- The session, the turn or the item of the event is in the sets. -/
def Settlement.covers (s : Settlement) (event : WebEvent) : Bool :=
  match transientEventIdentity event with
  | none => false
  | some identity =>
    identity.sessionId ∈ s.removedSessionIds ||
      (transientTurnKey (some identity)).any (fun key => key ∈ s.settledTurns) ||
      (transientItemKey (some identity)).any (fun key => key ∈ s.settledItems)

/-! ## The bus -/

structure RetainedTransientEvent where
  event : WebEvent
  bytes : Nat

/-- `history` records the published events and `evictedThrough` the number of
the last event that a cap shifted out; no method reads them. -/
structure WebEventBus where
  transientReplay : List RetainedTransientEvent
  transientReplayBytes : Nat
  seq : Nat
  history : List WebEvent
  evictedThrough : Nat

namespace WebEventBus

def new : WebEventBus := ⟨[], 0, 0, [], 0⟩

variable (bus : WebEventBus)

/-- The retained events, without their sizes. -/
def events : List WebEvent :=
  bus.transientReplay.map RetainedTransientEvent.event

def replaceTransientReplay (retained : List RetainedTransientEvent) : WebEventBus :=
  { bus with
    transientReplay := retained
    transientReplayBytes := (retained.map RetainedTransientEvent.bytes).sum }

/-- The log is replaced only when the filter dropped something. -/
def replaceIfShorter (retained : List RetainedTransientEvent) : WebEventBus :=
  if retained.length = bus.transientReplay.length then bus
  else bus.replaceTransientReplay retained

def pruneSettledMessageReplay (type : String) (payload : WebPayload) : WebEventBus :=
  if isAuthority type = false then bus
  else
    let s := settlement type payload
    if s.removedSessionIds = [] ∧ s.settledTurns = [] ∧ s.settledItems = [] then bus
    else
      bus.replaceIfShorter <| bus.transientReplay.filter fun entry =>
        !settledTimelineItem entry.event && !s.covers entry.event

/-- The indices of the item's last snapshot and last delta, counted from `index`. -/
def lastIndices (key : String) : List RetainedTransientEvent → Nat → Int × Int → Int × Int
  | [], _, found => found
  | entry :: rest, index, found =>
    if itemKey entry.event ≠ some key then lastIndices key rest (index + 1) found
    else if entry.event.type = TimelineItem then
      lastIndices key rest (index + 1) (index, found.2)
    else lastIndices key rest (index + 1) (found.1, index)

def dropSupersededItemSnapshots (key : String) : WebEventBus :=
  let found := lastIndices key bus.transientReplay 0 (-1, -1)
  if found.1 ≤ found.2 then bus
  else
    bus.replaceIfShorter <| (bus.transientReplay.zipIdx.filter fun entry =>
      (entry.2 : Int) ≤ found.2 || found.1 ≤ (entry.2 : Int) ||
        (entry.1.event.type ≠ TimelineItem ||
          itemKey entry.1.event ≠ some key)).map Prod.fst

def dropRetainedTransientItem (key : Option String) : WebEventBus :=
  match key with
  | none => bus
  | some key =>
    bus.replaceIfShorter <| bus.transientReplay.filter fun entry =>
      itemKey entry.event ≠ some key

/-- The loop over the caps. The source never shifts an empty log: its counter is zero. -/
def shiftOverCaps : List RetainedTransientEvent → Nat → Nat →
    List RetainedTransientEvent × Nat × Nat
  | [], bytes, evicted => ([], bytes, evicted)
  | entry :: rest, bytes, evicted =>
    if (entry :: rest).length > MAX_TRANSIENT_REPLAY_EVENTS ∨
        bytes > MAX_TRANSIENT_REPLAY_BYTES then
      shiftOverCaps rest (bytes - entry.bytes) entry.event.seq
    else (entry :: rest, bytes, evicted)

def evictOverCaps : WebEventBus :=
  let shifted := shiftOverCaps bus.transientReplay bus.transientReplayBytes bus.evictedThrough
  { bus with
    transientReplay := shifted.1
    transientReplayBytes := shifted.2.1
    evictedThrough := shifted.2.2 }

def push (bus : WebEventBus) (event : WebEvent) (bytes : Nat) : WebEventBus :=
  { bus with
    transientReplay := bus.transientReplay ++ [⟨event, bytes⟩]
    transientReplayBytes := bus.transientReplayBytes + bytes }

def retainTransient (event : WebEvent) (bytes : Nat) : WebEventBus :=
  if isAiSessionTransient event.type = false then bus
  else if settledTimelineItem event then bus.dropRetainedTransientItem (itemKey event)
  else
    let pushed := bus.push event bytes
    match itemKey event with
    | some key =>
      if event.type = TimelineItem then
        (pushed.dropSupersededItemSnapshots key).evictOverCaps
      else pushed.evictOverCaps
    | none => pushed.evictOverCaps

/-- The event that takes the next number. -/
def createEvent (type topic : String) (payload : WebPayload) (now : Int) : WebEvent :=
  ⟨bus.seq + 1, type, topic, now, payload⟩

/-- `encodedBytes` is the length of an event's encoding. -/
def publish (encodedBytes : WebEvent → Nat) (bus : WebEventBus) (type topic : String)
    (payload : WebPayload) (now : Int) : WebEventBus :=
  let pruned := bus.pruneSettledMessageReplay type payload
  let event := pruned.createEvent type topic payload now
  { pruned with seq := event.seq, history := pruned.history ++ [event] }.retainTransient event
    (encodedBytes event)

end WebEventBus

open WebEventBus

/-- `send` writes one event to one socket and takes a number for it. -/
inductive Action where
  | publish (type topic : String) (payload : WebPayload) (now : Int)
  | send

def step (encodedBytes : WebEvent → Nat) (bus : WebEventBus) : Action → Option WebEventBus
  | .publish type topic payload now => some (bus.publish encodedBytes type topic payload now)
  | .send => some { bus with seq := bus.seq + 1 }

/-! ## Entries as the log sees them -/

/-- Publishing `a` settles the entry `e`: an authority event those it covers, a
finished activity itself and the entries of its item. -/
def settles (a e : WebEvent) : Bool :=
  (isAuthority a.type && (settlement a.type a.payload).covers e) ||
    (settledTimelineItem a && (a = e || ((itemKey a).isSome && itemKey a = itemKey e)))

def replayShape : Shape WebEvent String where
  seq := WebEvent.seq
  key := itemKey
  replaces event := event.type = TimelineItem
  settles := settles

@[simp] theorem replayShape_replaces (e : WebEvent) :
    replayShape.replaces e = decide (e.type = TimelineItem) := rfl

@[simp] theorem replayShape_settles (a e : WebEvent) : replayShape.settles a e = settles a e := rfl

variable {event : WebEvent}

theorem isAiSessionTransient_of_identity {identity : TransientEventIdentity}
    (h : transientEventIdentity event = some identity) :
    isAiSessionTransient event.type = true := by
  unfold transientEventIdentity at h
  split at h
  · cases h
  next ht => simpa using ht

theorem isAiSessionTransient_of_itemKey {key : String}
    (h : itemKey event = some key) : isAiSessionTransient event.type = true := by
  cases hid : transientEventIdentity event with
  | none => simp [itemKey, transientItemKey, hid] at h
  | some identity => exact isAiSessionTransient_of_identity hid

/-! ## Dropping entries -/

namespace WebEventBus

/-- The counter, the order and the numbers of the log. -/
structure Ordered (encodedBytes : WebEvent → Nat) (bus : WebEventBus) : Prop where
  counted : bus.transientReplayBytes = (bus.transientReplay.map RetainedTransientEvent.bytes).sum
  sized : ∀ entry ∈ bus.transientReplay, entry.bytes = encodedBytes entry.event
  ordered : bus.events.Sublist bus.history
  numbered : Numbered WebEvent.seq bus.history
  seq_le : ∀ e ∈ bus.history, e.seq ≤ bus.seq
  evicted_le : bus.evictedThrough ≤ bus.seq
  remaining : ∀ e ∈ bus.events, bus.evictedThrough < e.seq
  active : ∀ e ∈ bus.events, settledTimelineItem e = false

/-- Where the entries of the old log are after a method that only drops some. -/
structure Drops (bus bus' : WebEventBus) : Prop where
  sublist : bus'.transientReplay.Sublist bus.transientReplay
  counted : bus.transientReplayBytes = (bus.transientReplay.map RetainedTransientEvent.bytes).sum →
    bus'.transientReplayBytes = (bus'.transientReplay.map RetainedTransientEvent.bytes).sum
  seq_eq : bus'.seq = bus.seq
  history_eq : bus'.history = bus.history
  evictedThrough_eq : bus'.evictedThrough = bus.evictedThrough

theorem Drops.refl (bus : WebEventBus) : Drops bus bus := ⟨.refl _, id, rfl, rfl, rfl⟩

variable {encodedBytes : WebEvent → Nat} {bus bus' : WebEventBus}

theorem Drops.events_sublist (h : Drops bus bus') : bus'.events.Sublist bus.events :=
  h.sublist.map _

theorem Drops.ordered (h : Drops bus bus') (ho : Ordered encodedBytes bus) :
    Ordered encodedBytes bus' where
  counted := h.counted ho.counted
  sized entry he := ho.sized entry (h.sublist.subset he)
  ordered := h.history_eq ▸ h.events_sublist.trans ho.ordered
  numbered := h.history_eq ▸ ho.numbered
  seq_le := by
    rw [h.history_eq, h.seq_eq]
    exact ho.seq_le
  evicted_le := by
    rw [h.evictedThrough_eq, h.seq_eq]
    exact ho.evicted_le
  remaining e he := by
    rw [h.evictedThrough_eq]
    exact ho.remaining e (h.events_sublist.subset he)
  active e he := ho.active e (h.events_sublist.subset he)

variable {retained : List RetainedTransientEvent} {e : WebEvent}
  {p q : RetainedTransientEvent × Nat}

theorem replaceIfShorter_drops
    (h : retained.Sublist bus.transientReplay) : Drops bus (bus.replaceIfShorter retained) := by
  unfold replaceIfShorter
  split
  · exact .refl bus
  · exact ⟨h, fun _ => rfl, rfl, rfl, rfl⟩

theorem replaceIfShorter_transientReplay (h : retained.Sublist bus.transientReplay) :
    (bus.replaceIfShorter retained).transientReplay = retained := by
  unfold replaceIfShorter
  split
  next hlen => exact (h.eq_of_length hlen).symm
  · rfl

/-! ### Settled entries -/

theorem pruneSettledMessageReplay_drops (bus : WebEventBus) (type : String)
    (payload : WebPayload) : Drops bus (bus.pruneSettledMessageReplay type payload) := by
  simp only [pruneSettledMessageReplay]
  split
  · exact .refl bus
  split
  · exact .refl bus
  · exact replaceIfShorter_drops filter_sublist

theorem mem_pruneSettledMessageReplay {type : String} {payload : WebPayload}
    (ho : Ordered encodedBytes bus) (he : e ∈ bus.events)
    (hgone : e ∉ (bus.pruneSettledMessageReplay type payload).events) :
    isAuthority type = true ∧ (settlement type payload).covers e = true := by
  simp only [pruneSettledMessageReplay] at hgone
  split at hgone
  · exact (hgone he).elim
  rename_i hauth
  split at hgone
  · exact (hgone he).elim
  refine ⟨by simpa using hauth, ?_⟩
  rw [events, replaceIfShorter_transientReplay filter_sublist] at hgone
  by_contra hcov
  obtain ⟨entry, hentry, rfl⟩ := mem_map.mp he
  refine hgone (mem_map.mpr ⟨entry, mem_filter.mpr ⟨hentry, ?_⟩, rfl⟩)
  simp [ho.active _ he, hcov]

theorem dropRetainedTransientItem_drops (bus : WebEventBus) (key : Option String) :
    Drops bus (bus.dropRetainedTransientItem key) := by
  cases key with
  | none => exact .refl bus
  | some key => exact replaceIfShorter_drops filter_sublist

theorem mem_dropRetainedTransientItem {key : Option String} (he : e ∈ bus.events)
    (hgone : e ∉ (bus.dropRetainedTransientItem key).events) :
    ∃ k, key = some k ∧ itemKey e = some k := by
  unfold dropRetainedTransientItem at hgone
  cases key with
  | none => exact (hgone he).elim
  | some k =>
    rw [events, replaceIfShorter_transientReplay filter_sublist] at hgone
    by_contra hk
    obtain ⟨entry, hentry, rfl⟩ := mem_map.mp he
    exact hgone (mem_map.mpr ⟨entry, mem_filter.mpr ⟨hentry, by simpa using hk⟩, rfl⟩)

/-! ### Superseded snapshots -/

theorem lastIndices_delta (key : String) (log : List RetainedTransientEvent) (index : Nat)
    (found : Int × Int) (hfound : found.2 < index) : found.2 ≤ (lastIndices key log index found).2 ∧
      ∀ entry ∈ log.zipIdx index, itemKey entry.1.event = some key →
        entry.1.event.type ≠ TimelineItem →
        (entry.2 : Int) ≤ (lastIndices key log index found).2 := by
  induction log generalizing index found with
  | nil => exact ⟨Int.le_refl _, fun _ h => by cases h⟩
  | cons r rest ih =>
    unfold lastIndices
    split
    next hkey =>
      obtain ⟨hle, hrest⟩ := ih (index + 1) found (by omega)
      refine ⟨hle, ?_⟩
      intro entry hentry hk
      rcases mem_cons.mp hentry with rfl | hentry
      · exact (hkey hk).elim
      · exact hrest entry hentry hk
    next hkey =>
      split
      next hitem =>
        obtain ⟨hle, hrest⟩ := ih (index + 1) (index, found.2) (by omega)
        refine ⟨hle, ?_⟩
        intro entry hentry hk hdelta
        rcases mem_cons.mp hentry with rfl | hentry
        · exact (hdelta hitem).elim
        · exact hrest entry hentry hk hdelta
      next hitem =>
        obtain ⟨hle, hrest⟩ := ih (index + 1) (found.1, index) (by omega)
        refine ⟨by omega, ?_⟩
        intro entry hentry hk hdelta
        rcases mem_cons.mp hentry with rfl | hentry
        · exact hle
        · exact hrest entry hentry hk hdelta

theorem lastIndices_snapshot (key : String) (log : List RetainedTransientEvent) (index : Nat)
    (found : Int × Int) : (lastIndices key log index found).1 = found.1 ∨
      ∃ entry ∈ log.zipIdx index, (lastIndices key log index found).1 = entry.2 ∧
        itemKey entry.1.event = some key ∧
        entry.1.event.type = TimelineItem := by
  induction log generalizing index found with
  | nil => exact .inl rfl
  | cons r rest ih =>
    unfold lastIndices
    split
    next hkey =>
      rcases ih (index + 1) found with hsame | ⟨entry, hentry, hlast⟩
      · exact .inl hsame
      · exact .inr ⟨entry, mem_cons_of_mem _ hentry, hlast⟩
    rename_i hkey
    split
    next hitem =>
      rcases ih (index + 1) (index, found.2) with hsame | ⟨entry, hentry, hlast⟩
      · exact .inr ⟨(r, index), mem_cons_self, hsame, by simpa using hkey, hitem⟩
      · exact .inr ⟨entry, mem_cons_of_mem _ hentry, hlast⟩
    next hitem =>
      rcases ih (index + 1) (found.1, index) with hsame | ⟨entry, hentry, hlast⟩
      · exact .inl hsame
      · exact .inr ⟨entry, mem_cons_of_mem _ hentry, hlast⟩

theorem Ordered.seq_lt_of_index_lt (ho : Ordered encodedBytes bus)
    (hp : p ∈ bus.transientReplay.zipIdx)
    (hq : q ∈ bus.transientReplay.zipIdx) (h : p.2 < q.2) : p.1.event.seq < q.1.event.seq := by
  have hnum : Numbered WebEvent.seq bus.events := ho.numbered.sublist ho.ordered
  have hpair := pairwise_map.mp hnum
  rw [List.mk_mem_zipIdx_iff_getElem?] at hp hq
  obtain ⟨hpl, hpe⟩ := List.getElem?_eq_some_iff.mp hp
  obtain ⟨hql, hqe⟩ := List.getElem?_eq_some_iff.mp hq
  have hlt := pairwise_iff_getElem.mp hpair p.2 q.2 hpl hql h
  rwa [hpe, hqe] at hlt

theorem Ordered.index_lt_of_seq_lt (ho : Ordered encodedBytes bus)
    (hp : p ∈ bus.transientReplay.zipIdx)
    (hq : q ∈ bus.transientReplay.zipIdx) (h : p.1.event.seq < q.1.event.seq) : p.2 < q.2 := by
  rcases Nat.lt_trichotomy p.2 q.2 with hlt | heq | hgt
  · exact hlt
  · rw [mk_mem_zipIdx_iff_getElem?] at hp hq
    rw [heq, hq] at hp
    rw [Option.some.inj hp] at h
    omega
  · have := ho.seq_lt_of_index_lt hq hp hgt
    omega

theorem zipIdx_filter_sublist (log : List RetainedTransientEvent)
    (keep : RetainedTransientEvent × Nat → Bool) :
    ((log.zipIdx.filter keep).map Prod.fst).Sublist log := by
  have h := (filter_sublist (p := keep) (l := log.zipIdx)).map Prod.fst
  rwa [zipIdx_map_fst] at h

theorem dropSupersededItemSnapshots_drops (bus : WebEventBus) (key : String) :
    Drops bus (bus.dropSupersededItemSnapshots key) := by
  simp only [dropSupersededItemSnapshots]
  split
  · exact .refl bus
  · exact replaceIfShorter_drops (zipIdx_filter_sublist _ _)

/-- A dropped snapshot has a newer one in the log, and no delta of the item
that the log holds lies between them. -/
theorem mem_dropSupersededItemSnapshots (ho : Ordered encodedBytes bus) {key : String}
    (he : e ∈ bus.events) (hgone : e ∉ (bus.dropSupersededItemSnapshots key).events) :
    e.type = TimelineItem ∧ itemKey e = some key ∧
      ∃ s ∈ (bus.dropSupersededItemSnapshots key).events,
        s.type = TimelineItem ∧ itemKey s = some key ∧ e.seq < s.seq ∧
        ∀ d ∈ bus.events, itemKey d = some key → e.seq < d.seq → d.seq < s.seq →
          d.type = TimelineItem := by
  obtain ⟨-, hdeltas⟩ := lastIndices_delta key bus.transientReplay 0 (-1, -1) (by simp)
  have hlast := lastIndices_snapshot key bus.transientReplay 0 (-1, -1)
  simp only [dropSupersededItemSnapshots] at hgone ⊢
  generalize lastIndices key bus.transientReplay 0 (-1, -1) = found at *
  split at hgone
  · exact (hgone he).elim
  rename_i hfound
  rw [if_neg hfound]
  rw [events, replaceIfShorter_transientReplay (zipIdx_filter_sublist _ _)] at hgone ⊢
  obtain ⟨entry, hentry, rfl⟩ := mem_map.mp he
  obtain ⟨i, hi, hie⟩ := getElem_of_mem hentry
  have hmem : (entry, i) ∈ bus.transientReplay.zipIdx :=
    List.mk_mem_zipIdx_iff_getElem?.mpr (List.getElem?_eq_some_iff.mpr ⟨hi, hie⟩)
  have hdropped : ¬ ((i : Int) ≤ found.2 ∨ found.1 ≤ (i : Int) ∨
      (entry.event.type ≠ TimelineItem ∨ itemKey entry.event ≠ some key)) := by
    intro hkeep
    refine hgone (mem_map.mpr ⟨entry, mem_map.mpr ⟨(entry, i), ?_, rfl⟩, rfl⟩)
    exact mem_filter.mpr ⟨hmem, by simpa [or_assoc] using hkeep⟩
  simp only [not_or, Int.not_le, not_not, ne_eq] at hdropped
  obtain ⟨hafter, hbefore, htype, hkey⟩ := hdropped
  refine ⟨htype, hkey, ?_⟩
  rcases hlast with hnone | ⟨last, hlastmem, hlasti, hlastkey, hlasttype⟩
  · omega
  have hlt : entry.event.seq < last.1.event.seq :=
    ho.seq_lt_of_index_lt hmem hlastmem (by omega)
  refine ⟨last.1.event, ?_, hlasttype, hlastkey, hlt, ?_⟩
  · refine mem_map.mpr ⟨last.1, mem_map.mpr ⟨last, ?_, rfl⟩, rfl⟩
    exact mem_filter.mpr ⟨hlastmem, by simp [hlasti]⟩
  intro d hd hdkey hed hds
  by_contra hdelta
  obtain ⟨dentry, hdentry, rfl⟩ := mem_map.mp hd
  obtain ⟨j, hj, hje⟩ := getElem_of_mem hdentry
  have hdmem : (dentry, j) ∈ bus.transientReplay.zipIdx :=
    List.mk_mem_zipIdx_iff_getElem?.mpr (List.getElem?_eq_some_iff.mpr ⟨hj, hje⟩)
  have hij := ho.index_lt_of_seq_lt hmem hdmem hed
  have hjd := hdeltas _ hdmem hdkey hdelta
  omega

/-! ### The caps -/

theorem sum_bytes_le {log log' : List RetainedTransientEvent} (h : log'.Sublist log) :
    (log'.map RetainedTransientEvent.bytes).sum ≤ (log.map RetainedTransientEvent.bytes).sum := by
  induction h with
  | slnil => exact Nat.le_refl _
  | cons entry _ ih =>
    simp only [map_cons, sum_cons]
    omega
  | cons_cons entry _ ih =>
    simp only [map_cons, sum_cons]
    omega

/-- What the loop leaves of a counted log with ascending numbers. -/
structure Shifted (log : List RetainedTransientEvent) (evicted : Nat)
    (out : List RetainedTransientEvent × Nat × Nat) : Prop where
  suffix : out.1.Sublist log
  counted : out.2.1 = (out.1.map RetainedTransientEvent.bytes).sum
  length_le : out.1.length ≤ MAX_TRANSIENT_REPLAY_EVENTS
  bytes_le : out.2.1 ≤ MAX_TRANSIENT_REPLAY_BYTES
  evicted_le : evicted ≤ out.2.2
  remaining : ∀ entry ∈ out.1, out.2.2 < entry.event.seq
  dropped : ∀ entry ∈ log, entry ∈ out.1 ∨ entry.event.seq ≤ out.2.2
  known : out.2.2 = evicted ∨ ∃ entry ∈ log, out.2.2 = entry.event.seq

theorem shiftOverCaps_spec (log : List RetainedTransientEvent) (evicted : Nat)
    (hnum : log.Pairwise fun p q => p.event.seq < q.event.seq)
    (hev : ∀ entry ∈ log, evicted < entry.event.seq) : Shifted log evicted
      (shiftOverCaps log (log.map RetainedTransientEvent.bytes).sum evicted) := by
  induction log generalizing evicted with
  | nil =>
    exact ⟨.refl _, rfl, by simp [shiftOverCaps], by simp [shiftOverCaps],
      Nat.le_refl _, by simp [shiftOverCaps], by simp, .inl rfl⟩
  | cons entry rest ih =>
    obtain ⟨hhead, htail⟩ := pairwise_cons.mp hnum
    unfold shiftOverCaps
    split
    next hover =>
      have hsum : ((entry :: rest).map RetainedTransientEvent.bytes).sum - entry.bytes =
          (rest.map RetainedTransientEvent.bytes).sum := by
        simp
      rw [hsum]
      have h := ih entry.event.seq htail hhead
      have hentry := hev entry mem_cons_self
      refine ⟨h.suffix.cons _, h.counted, h.length_le, h.bytes_le, ?_, h.remaining, ?_, ?_⟩
      · have := h.evicted_le
        omega
      · intro r hr
        rcases mem_cons.mp hr with rfl | hr
        · exact .inr h.evicted_le
        · exact h.dropped r hr
      · rcases h.known with hk | ⟨r, hr, hk⟩
        · exact .inr ⟨entry, mem_cons_self, hk⟩
        · exact .inr ⟨r, mem_cons_of_mem _ hr, hk⟩
    next hunder =>
      obtain ⟨hlength, hbytes⟩ := not_or.mp hunder
      exact ⟨.refl _, rfl, Nat.not_lt.mp hlength, Nat.not_lt.mp hbytes, Nat.le_refl _, hev,
        fun r hr => .inl hr, .inl rfl⟩

/-! ### One publication -/

/-- Every published transient event is in the log or has a reason not to be. -/
def AllAccounted (bus : WebEventBus) : Prop :=
  ∀ e ∈ bus.history, isAiSessionTransient e.type = true →
    replayShape.Accounted bus.history bus.events bus.evictedThrough e

structure Inv (encodedBytes : WebEvent → Nat) (bus : WebEventBus) : Prop
    extends Ordered encodedBytes bus where
  bytes_le : bus.transientReplayBytes ≤ MAX_TRANSIENT_REPLAY_BYTES
  length_le : bus.transientReplay.length ≤ MAX_TRANSIENT_REPLAY_EVENTS
  accounted : AllAccounted bus

theorem inv_new (encodedBytes : WebEvent → Nat) : Inv encodedBytes new where
  counted := rfl
  sized := by simp [new]
  ordered := .refl _
  numbered := .nil
  seq_le := by simp [new]
  evicted_le := Nat.le_refl _
  remaining := by simp [new, events]
  active := by simp [new, events]
  bytes_le := Nat.zero_le _
  length_le := Nat.zero_le _
  accounted := by simp [AllAccounted, new]

theorem Drops.allAccounted (h : Drops bus bus') (ho : Ordered encodedBytes bus)
    (hacc : AllAccounted bus) (hgone : ∀ s ∈ bus.events, s ∉ bus'.events →
      replayShape.Accounted bus.history bus'.events bus.evictedThrough s) : AllAccounted bus' := by
  intro e he htransient
  rw [h.history_eq] at he ⊢
  rw [h.evictedThrough_eq]
  refine (hacc e he htransient).step ho.numbered ho.ordered (Nat.le_refl _) ?_
  intro s hs
  by_cases hmem : s ∈ bus'.events
  · exact .inl hmem
  · exact hgone s hs hmem

theorem evictOverCaps_inv (ho : Ordered encodedBytes bus) (hacc : AllAccounted bus) :
    Inv encodedBytes bus.evictOverCaps := by
  have hpair := pairwise_map.mp (ho.numbered.sublist ho.ordered)
  have hremaining : ∀ entry ∈ bus.transientReplay, bus.evictedThrough < entry.event.seq :=
    fun entry hentry => ho.remaining _ (mem_map.mpr ⟨entry, hentry, rfl⟩)
  have h := shiftOverCaps_spec bus.transientReplay bus.evictedThrough hpair hremaining
  rw [← ho.counted] at h
  refine ⟨⟨h.counted, ?_, (h.suffix.map _).trans ho.ordered, ho.numbered, ho.seq_le, ?_, ?_, ?_⟩,
    h.bytes_le, h.length_le, ?_⟩
  · exact fun entry hentry => ho.sized entry (h.suffix.subset hentry)
  · rcases h.known with hk | ⟨entry, hentry, hk⟩
    · exact Nat.le_trans (Nat.le_of_eq hk) ho.evicted_le
    · have hmem := ho.ordered.subset (mem_map.mpr ⟨entry, hentry, rfl⟩)
      exact Nat.le_trans (Nat.le_of_eq hk) (ho.seq_le _ hmem)
  · intro e he
    obtain ⟨entry, hentry, rfl⟩ := mem_map.mp he
    exact h.remaining entry hentry
  · intro e he
    obtain ⟨entry, hentry, rfl⟩ := mem_map.mp he
    exact ho.active _ (mem_map.mpr ⟨entry, h.suffix.subset hentry, rfl⟩)
  · intro e he htransient
    refine (hacc e he htransient).step ho.numbered ho.ordered h.evicted_le ?_
    intro s hs
    obtain ⟨entry, hentry, rfl⟩ := mem_map.mp hs
    rcases h.dropped entry hentry with hkept | hle
    · exact .inl (mem_map.mpr ⟨entry, hkept, rfl⟩)
    · exact .inr (.inr (.inr hle))

/-- The published deltas between two snapshots that the log no longer holds are
settled, so a snapshot dropped for want of a delta in the log is accounted for. -/
theorem dropSupersededItemSnapshots_accounted (ho : Ordered encodedBytes bus)
    (hacc : AllAccounted bus) (key : String) :
    AllAccounted (bus.dropSupersededItemSnapshots key) := by
  have hd := dropSupersededItemSnapshots_drops bus key
  refine hd.allAccounted ho hacc ?_
  intro e he hgone
  obtain ⟨htype, hkey, s, hs, hstype, hskey, hlt, hbetween⟩ :=
    mem_dropSupersededItemSnapshots ho he hgone
  by_cases hpublished : ∀ d ∈ bus.history, itemKey d = some key → e.seq < d.seq →
      d.seq < s.seq → d.type = TimelineItem
  · refine .inr (.inr (.inl ⟨s, hs, ?_⟩))
    refine ⟨by simpa using hstype, by simpa using htype, ⟨key, hkey, hskey⟩, hlt, ?_⟩
    intro d hdmem hdkey hed hds
    have hdtype := hpublished d hdmem (hdkey.trans hkey) hed hds
    simpa using hdtype
  push Not at hpublished
  obtain ⟨d, hdmem, hdkey, hed, hds, hdtype⟩ := hpublished
  have hsame : replayShape.SameItem e d := .inr ⟨key, hkey, hdkey⟩
  rcases hacc d hdmem (isAiSessionTransient_of_itemKey hdkey) with
    hmem | hset | ⟨t, ht, hsup⟩ | hle
  · exact (hdtype (hbetween d hmem hdkey hed hds)).elim
  · exact .inr (.inl (hset.of_sameItem hsame (Nat.le_of_lt hed)))
  · exact (hdtype (by simpa using hsup.earlier)).elim
  · exact .inr (.inr (.inr (Nat.le_trans (Nat.le_of_lt hed) hle)))

/-- The bus right after `createEvent`: the event is the last one published and
not in the log yet. -/
structure Created (encodedBytes : WebEvent → Nat) (before : List WebEvent) (event : WebEvent)
    (bus : WebEventBus) : Prop extends Ordered encodedBytes bus where
  history_eq : bus.history = before ++ [event]
  earlier : bus.events.Sublist before
  evicted_lt : bus.evictedThrough < event.seq
  bytes_le : bus.transientReplayBytes ≤ MAX_TRANSIENT_REPLAY_BYTES
  length_le : bus.transientReplay.length ≤ MAX_TRANSIENT_REPLAY_EVENTS
  accounted : ∀ e ∈ before, isAiSessionTransient e.type = true →
    replayShape.Accounted bus.history bus.events bus.evictedThrough e

variable {before : List WebEvent} {event : WebEvent}

section

variable (h : Created encodedBytes before event bus)

include h

theorem Created.allAccounted
    (hevent : isAiSessionTransient event.type = true →
      replayShape.Accounted bus.history bus.events bus.evictedThrough event) :
    AllAccounted bus := by
  intro e he htransient
  rw [h.history_eq] at he
  rcases mem_concat.mp he with he | rfl
  · exact h.accounted e he htransient
  · exact hevent htransient

theorem Created.inv
    (htransient : isAiSessionTransient event.type = false) : Inv encodedBytes bus where
  __ := h
  accounted := by
    refine h.allAccounted ?_
    intro ht
    rw [htransient] at ht
    cases ht

theorem Created.dropRetainedTransientItem_inv
    (hset : settledTimelineItem event = true) :
    Inv encodedBytes (bus.dropRetainedTransientItem (itemKey event)) := by
  have hd := dropRetainedTransientItem_drops bus (itemKey event)
  have hmem : event ∈ bus.history := by
    rw [h.history_eq]
    simp
  have hself : AllAccounted bus := by
    refine h.allAccounted ?_
    intro _
    refine .inr (.inl ⟨event, hmem, event, hmem, .inl rfl, ?_, Nat.le_refl _, Nat.le_refl _⟩)
    simp [settles, hset]
  have hbytes : (bus.dropRetainedTransientItem (itemKey event)).transientReplayBytes ≤
      bus.transientReplayBytes := by
    rw [hd.counted h.counted, h.counted]
    exact sum_bytes_le hd.sublist
  refine ⟨hd.ordered h.toOrdered, Nat.le_trans hbytes h.bytes_le,
    Nat.le_trans hd.sublist.length_le h.length_le, ?_⟩
  refine hd.allAccounted h.toOrdered hself ?_
  intro e he hgone
  obtain ⟨k, hk, hek⟩ := mem_dropRetainedTransientItem he hgone
  have hehist := h.ordered.subset he
  have hle : e.seq ≤ event.seq := by
    have hnum := h.numbered
    rw [h.history_eq] at hnum
    have := (pairwise_append.mp hnum).2.2 e (h.earlier.subset he) event (by simp)
    omega
  refine .inr (.inl ⟨event, hmem, e, hehist, .inl rfl, ?_, hle, hle⟩)
  simp [settles, hset, hk, hek]

theorem Created.push
    (hset : settledTimelineItem event = false) :
    Ordered encodedBytes (bus.push event (encodedBytes event)) ∧
      AllAccounted (bus.push event (encodedBytes event)) := by
  have hevents : (bus.push event (encodedBytes event)).events = bus.events ++ [event] := by
    simp [WebEventBus.push, events]
  have hsub : (bus.events ++ [event]).Sublist bus.history := by
    rw [h.history_eq]
    exact h.earlier.append (.refl _)
  constructor
  · constructor
    · simp [WebEventBus.push, h.counted]
    · intro entry hentry
      rcases mem_concat.mp hentry with hentry | hentry
      · exact h.sized entry hentry
      · rw [hentry]
    · exact hevents ▸ hsub
    · exact h.numbered
    · exact h.seq_le
    · exact h.evicted_le
    · intro e he
      rw [hevents] at he
      rcases mem_concat.mp he with he | rfl
      · exact h.remaining e he
      · exact h.evicted_lt
    · intro e he
      rw [hevents] at he
      rcases mem_concat.mp he with he | rfl
      · exact h.active e he
      · exact hset
  · intro e he htransient
    rw [hevents]
    rcases mem_append.mp (h.history_eq ▸ he) with he | he
    · refine (h.accounted e he htransient).step h.numbered h.ordered (Nat.le_refl _) ?_
      exact fun s hs => .inl (mem_append_left _ hs)
    · exact .inl (mem_append_right _ he)

theorem Created.retainTransient_inv :
    Inv encodedBytes (bus.retainTransient event (encodedBytes event)) := by
  simp only [retainTransient]
  split
  next htransient => exact h.inv htransient
  · split
    next hset => exact h.dropRetainedTransientItem_inv hset
    next hset =>
      obtain ⟨hordered, hacc⟩ := h.push (by simpa using hset)
      split
      next key hkey =>
        split
        · exact evictOverCaps_inv ((dropSupersededItemSnapshots_drops _ key).ordered hordered)
            (dropSupersededItemSnapshots_accounted hordered hacc key)
        · exact evictOverCaps_inv hordered hacc
      · exact evictOverCaps_inv hordered hacc

end

/-- Pruning comes before the event exists; what it drops, the event settles. -/
theorem Inv.created (h : Inv encodedBytes bus) (type topic : String) (payload : WebPayload)
    (now : Int) : let pruned := bus.pruneSettledMessageReplay type payload
    let event := pruned.createEvent type topic payload now
    Created encodedBytes bus.history event
      { pruned with seq := event.seq, history := pruned.history ++ [event] } := by
  intro pruned event
  have hd : Drops bus pruned := pruneSettledMessageReplay_drops bus type payload
  have ho := hd.ordered h.toOrdered
  have hseq : event.seq = bus.seq + 1 := congrArg (· + 1) hd.seq_eq
  have hlt : ∀ e ∈ pruned.history, e.seq < event.seq := by
    intro e he
    have := ho.seq_le e he
    have := hd.seq_eq
    omega
  have hnum : Numbered WebEvent.seq (pruned.history ++ [event]) := ho.numbered.append_singleton hlt
  have hevents : bus.events.Sublist (pruned.history ++ [event]) := by
    rw [hd.history_eq]
    exact h.ordered.trans (sublist_append_left _ _)
  refine ⟨⟨ho.counted, ho.sized, ho.ordered.trans (sublist_append_left _ _), hnum, ?_, ?_,
    ho.remaining, ho.active⟩, ?_, ?_, ?_, ?_, ?_, ?_⟩
  · intro e he
    rcases mem_concat.mp he with he | rfl
    · exact Nat.le_of_lt (hlt e he)
    · exact Nat.le_refl _
  · have := ho.evicted_le
    have := hd.seq_eq
    show pruned.evictedThrough ≤ event.seq
    omega
  · exact congrArg (· ++ [event]) hd.history_eq
  · exact hd.events_sublist.trans h.ordered
  · have := ho.evicted_le
    have := hd.seq_eq
    show pruned.evictedThrough < event.seq
    omega
  · have hbytes := sum_bytes_le hd.sublist
    rw [← ho.counted, ← h.counted] at hbytes
    exact Nat.le_trans hbytes h.bytes_le
  · exact Nat.le_trans hd.sublist.length_le h.length_le
  · intro e he htransient
    have hacc := h.accounted e he htransient
    rw [← hd.history_eq, ← hd.evictedThrough_eq] at hacc
    have hlast : ∀ s ∈ bus.events, replayShape.seq s < replayShape.seq event := by
      intro s hs
      exact hlt s (hd.history_eq ▸ h.ordered.subset hs)
    refine (hacc.append hlast).step hnum hevents (Nat.le_refl _) ?_
    intro s hs
    by_cases hkept : s ∈ pruned.events
    · exact .inl hkept
    obtain ⟨hauth, hcovers⟩ := mem_pruneSettledMessageReplay h.toOrdered hs hkept
    have hle := Nat.le_of_lt (hlast s hs)
    refine .inr (.inl ⟨event, by simp, s, hevents.subset hs, .inl rfl, ?_, hle, hle⟩)
    have hsettles : settles event s = true := by
      rw [settles, show isAuthority event.type = true from hauth,
        show (settlement event.type event.payload).covers s = true from hcovers]
      rfl
    exact hsettles

theorem Inv.step {action : Action} (h : Inv encodedBytes bus)
    (hstep : step encodedBytes bus action = some bus') : Inv encodedBytes bus' := by
  cases action with
  | publish type topic payload now =>
    cases hstep
    exact (h.created type topic payload now).retainTransient_inv
  | send =>
    cases hstep
    refine ⟨⟨h.counted, h.sized, h.ordered, h.numbered, ?_, ?_, h.remaining, h.active⟩,
      h.bytes_le, h.length_le, h.accounted⟩
    · exact fun e he => Nat.le_succ_of_le (h.seq_le e he)
    · exact Nat.le_succ_of_le h.evicted_le

theorem inv_of_run {as : List Action} (h : run (step encodedBytes) new as = some bus) :
    Inv encodedBytes bus :=
  run_invariant (fun _ _ _ ha hs => hs.step ha) h (inv_new encodedBytes)

end WebEventBus

end TaskHandoff.Events.ReplayLog
