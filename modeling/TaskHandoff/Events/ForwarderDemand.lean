import TaskHandoff.Events.TransientSubscription
import TaskHandoff.Lib.Machine
import TaskHandoff.Lib.OrderedMap

/-! # Upstream subscriptions of the node-agent event forwarder

`NodeAgentInstanceEventForwarder` keeps one event socket to every running
instance and passes what it receives on to its outputs. To each instance it
sends the union of what its outputs subscribed to. The model has the outputs
with their subscriptions and the instance sockets with the frame last sent on
each; replay, coalescing and metrics scopes of the outputs are left out. The
compact envelope version and the hierarchy capability, the same in every frame,
are left out too.
-/

namespace TaskHandoff.Events

open OrderedMap List AiSessionEventType

/-- A `subscribe` frame to an instance. -/
structure SubscribeFrame where
  topics : List String
  aiSessionTransient : Option AiSessionTransientSubscription

/-- The delivery condition of the instance for a client with this frame. -/
def SubscribeFrame.admits (frame : SubscribeFrame) (event : EventEnvelope) : Bool :=
  subscribed (some frame.topics) event.topic event.type &&
    aiSessionTransientSubscriptionAccepts frame.aiSessionTransient event

inductive ReadyState where
  | connecting
  | opened
  | closing
  | closed
deriving DecidableEq

/-- The socket is open or will open. -/
def ReadyState.live : ReadyState → Bool
  | .connecting => true
  | .opened => true
  | .closing => false
  | .closed => false

/-- A socket to an instance with the entry of `sentInstanceSubscriptions` for it. -/
structure InstanceSocket where
  instanceId : String
  url : String
  readyState : ReadyState
  sent : Option SubscribeFrame

/-- A reconnect timer with the URL it was last given. -/
structure InstanceRetry where
  pending : Bool
  url : Option String

structure OutputOptions where
  expectsTransientSubscription : Bool
  legacyFallback : Bool

/-- `outputs` joins the set of outputs with the map of their subscriptions,
which change together. `instances` lists what the node's state lists, each with
its event URL if it accepts traffic. -/
structure InstanceEventForwarder where
  outputs : OrderedMap Nat (Option AiSessionTransientSubscription)
  instances : List (String × Option String)
  sockets : OrderedMap String Nat
  socketUrls : OrderedMap String String
  retries : OrderedMap String InstanceRetry
  connections : OrderedMap Nat InstanceSocket
  nextSocket : Nat
  stopped : Bool

namespace InstanceEventForwarder

def new : InstanceEventForwarder where
  outputs := empty
  instances := []
  sockets := empty
  socketUrls := empty
  retries := empty
  connections := empty
  nextSocket := 0
  stopped := false

/-! ## The frame -/

/-- The earliest of the cursors that are present. -/
def earliestReplaySince (values : List (Option String)) : Option String :=
  (values.filterMap truthy).foldl
    (fun earliest value =>
      match earliest with
      | none => some value
      | some e => if value < e then some value else some e)
    none

def legacyFrame : SubscribeFrame :=
  ⟨[AiSessionEventTopic, "app.sessions", "apps", "instances"], none⟩

def scopedFrame (instanceId : String) (subscriptions : List AiSessionTransientSubscription) :
    SubscribeFrame :=
  let messageDeltas := subscriptions.any fun entry =>
    entry.messageDeltas.allInstances || instanceId ∈ entry.messageDeltas.instanceIds
  let timelineAllSessions := subscriptions.any (·.timelineAllSessions)
  let timelineSessionIds := addAll [] (subscriptions.flatMap fun entry =>
    (entry.timelineSessions.filter fun session => session.instanceId = instanceId).map
      (·.sessionId))
  { topics :=
      ["ai-session.snapshot", "ai-session.patch", "ai-session.removed"] ++
        (if messageDeltas then [MessageDelta] else []) ++
        (if timelineAllSessions || !timelineSessionIds.isEmpty then
          [TimelineItem, TimelineItemDelta] else []) ++
        ["app.sessions", "apps", "instances"]
    aiSessionTransient := some
      { replaySince := earliestReplaySince (subscriptions.map (·.replaySince))
        messageDeltas := ⟨messageDeltas, []⟩
        timelineAllSessions := timelineAllSessions
        timelineSessions := timelineSessionIds.map fun sessionId => ⟨instanceId, sessionId⟩ } }

/-- The frame for an instance: one output without a subscription asks for everything. -/
def instanceFrame (outputs : OrderedMap Nat (Option AiSessionTransientSubscription))
    (instanceId : String) : SubscribeFrame :=
  if outputs.values.any (·.isNone) then legacyFrame
  else scopedFrame instanceId (outputs.values.filterMap id)

/-- An unchanged frame is not sent again. -/
def sendInstanceSubscription (f : InstanceEventForwarder) (instanceId : String) (socket : Nat) :
    InstanceEventForwarder :=
  match f.connections.get? socket with
  | none => f
  | some c =>
    if c.readyState = .opened then
      { f with
        connections := f.connections.set socket
          { c with sent := some (instanceFrame f.outputs instanceId) } }
    else f

/-! ## Sockets -/

/-- `socket.close()`: a socket that is not closed yet leaves `OPEN` at once. -/
def closeSocket (f : InstanceEventForwarder) (socket : Nat) : InstanceEventForwarder :=
  match f.connections.get? socket with
  | none => f
  | some c =>
    if c.readyState = .closed then f
    else { f with connections := f.connections.set socket { c with readyState := .closing } }

/-- Close the socket of an instance and forget it. -/
def dropSocket (f : InstanceEventForwarder) (instanceId : String) : InstanceEventForwarder :=
  match f.sockets.get? instanceId with
  | none => f
  | some socket => { f.closeSocket socket with sockets := f.sockets.erase instanceId }

def connect (f : InstanceEventForwarder) (instanceId url : String) : InstanceEventForwarder :=
  { f with
    connections := f.connections.set f.nextSocket ⟨instanceId, url, .connecting, none⟩
    nextSocket := f.nextSocket + 1
    sockets := f.sockets.set instanceId f.nextSocket
    socketUrls := f.socketUrls.set instanceId url }

def retryPending (f : InstanceEventForwarder) (instanceId : String) : Bool :=
  match f.retries.get? instanceId with
  | some retry => retry.pending
  | none => false

/-- One round of `sync` over the instances. -/
def syncInstance (f : InstanceEventForwarder) (instanceId url : String) : InstanceEventForwarder :=
  let f :=
    match f.retries.get? instanceId with
    | some retry =>
      if retry.pending ∧ retry.url ≠ some url then
        { f with retries := f.retries.erase instanceId } else f
    | none => f
  let f := if f.socketUrls.get? instanceId ≠ some url then f.dropSocket instanceId else f
  if (f.sockets.get? instanceId).isNone && !f.retryPending instanceId then
    f.connect instanceId url
  else f

def syncInstances (f : InstanceEventForwarder) :
    List (String × Option String) → InstanceEventForwarder
  | [] => f
  | (_, none) :: rest => syncInstances f rest
  | (instanceId, some url) :: rest => syncInstances (f.syncInstance instanceId url) rest

/-- Drop the sockets of the instances that are not `active`. -/
def dropInactive (f : InstanceEventForwarder) (active : List String) :
    List String → InstanceEventForwarder
  | [] => f
  | instanceId :: rest =>
    if instanceId ∈ active then dropInactive f active rest
    else
      let f := f.dropSocket instanceId
      dropInactive
        { f with
          socketUrls := f.socketUrls.erase instanceId
          retries := f.retries.erase instanceId } active rest

def dropAll (f : InstanceEventForwarder) : List String → InstanceEventForwarder
  | [] => f
  | instanceId :: rest => dropAll (f.dropSocket instanceId) rest

def forgetRetries (f : InstanceEventForwarder) (active : List String) : InstanceEventForwarder :=
  let inactive := f.retries.keys.filter fun id => id ∉ active
  { f with
    retries := inactive.foldl (fun retries id => retries.erase id) f.retries
    socketUrls := inactive.foldl (fun urls id => urls.erase id) f.socketUrls }

/-- Close every socket and cancel every timer. -/
def clear (f : InstanceEventForwarder) : InstanceEventForwarder :=
  { f.dropAll f.sockets.keys with
    sockets := empty
    socketUrls := empty
    retries := empty }

def sync (f : InstanceEventForwarder) : InstanceEventForwarder :=
  if f.outputs.keys.isEmpty then f.clear
  else
    let active := (f.instances.filter fun i => i.2.isSome).map Prod.fst
    let f := f.syncInstances f.instances
    (f.dropInactive active f.sockets.keys).forgetRetries active

def scheduleReconnect (f : InstanceEventForwarder) (instanceId : String) : InstanceEventForwarder :=
  match f.instances.find? fun i => i.1 = instanceId with
  | some (_, some url) =>
    if f.outputs.keys.isEmpty || f.retryPending instanceId then f
    else { f with retries := f.retries.set instanceId ⟨true, some url⟩ }
  | _ => f

/-! ## Methods -/

def start (f : InstanceEventForwarder) : InstanceEventForwarder :=
  sync { f with stopped := false }

def stop (f : InstanceEventForwarder) : InstanceEventForwarder :=
  { f.clear with stopped := true, outputs := empty }

/-- With a legacy fallback the first `sync` waits for its timer. -/
def addOutput (f : InstanceEventForwarder) (output : Nat) (options : OutputOptions) :
    InstanceEventForwarder :=
  let f := { f with
    outputs := f.outputs.set output
      (if options.expectsTransientSubscription then some .empty else none) }
  if options.expectsTransientSubscription || !options.legacyFallback then f.sync else f

def legacyFallback (f : InstanceEventForwarder) (output : Nat) : InstanceEventForwarder :=
  if f.outputs.get? output = some none then f.sync else f

def sendAll (f : InstanceEventForwarder) : List (String × Nat) → InstanceEventForwarder
  | [] => f
  | (instanceId, socket) :: rest => sendAll (f.sendInstanceSubscription instanceId socket) rest

/-- An input that does not parse is refused before this. -/
def setOutputSubscription (f : InstanceEventForwarder) (output : Nat)
    (subscription : AiSessionTransientSubscription) : InstanceEventForwarder :=
  if (f.outputs.get? output).isSome then
    let f := sync { f with outputs := f.outputs.set output (some subscription) }
    f.sendAll f.sockets.entries
  else f

def removeOutput (f : InstanceEventForwarder) (output : Nat) : InstanceEventForwarder :=
  let f := { f with outputs := f.outputs.erase output }
  if f.stopped then f else f.sync

def outputAccepts (f : InstanceEventForwarder) (output : Nat) (event : EventEnvelope) : Bool :=
  match f.outputs.get? output with
  | some subscription => aiSessionTransientSubscriptionAccepts subscription event
  | none => true

/-- The `open` event of a socket that is still connecting. -/
def socketOpened (f : InstanceEventForwarder) (socket : Nat) (c : InstanceSocket) :
    InstanceEventForwarder :=
  let retry := (f.retries.get? c.instanceId).getD ⟨false, none⟩
  sendInstanceSubscription
    { f with
      connections := f.connections.set socket { c with readyState := .opened }
      retries := f.retries.set c.instanceId { retry with url := some c.url } }
    c.instanceId socket

/-- The `close` event: only the current socket of the instance is reconnected. -/
def socketClosed (f : InstanceEventForwarder) (socket : Nat) (c : InstanceSocket) :
    InstanceEventForwarder :=
  let f := { f with connections := f.connections.set socket { c with readyState := .closed } }
  if f.sockets.get? c.instanceId = some socket then
    scheduleReconnect
      { f with
        sockets := f.sockets.erase c.instanceId
        socketUrls := f.socketUrls.erase c.instanceId } c.instanceId
  else f

/-- A reconnect timer fires. -/
def retryTimer (f : InstanceEventForwarder) (instanceId url : String) (retry : InstanceRetry) :
    InstanceEventForwarder :=
  let f := { f with retries := f.retries.set instanceId { retry with pending := false } }
  if (f.sockets.get? instanceId).isNone then f.connect instanceId url else f

/-! ## Runs -/

inductive Action where
  | instances (instances : List (String × Option String))
  | start
  | stop
  | sync
  | addOutput (output : Nat) (options : OutputOptions)
  | legacyFallback (output : Nat)
  | setOutputSubscription (output : Nat) (subscription : AiSessionTransientSubscription)
  | removeOutput (output : Nat)
  | opened (socket : Nat)
  | close (socket : Nat)
  | closed (socket : Nat)
  | retryTimer (instanceId : String)

/-- `close` is the close after a socket error or a rejected handshake message. -/
def step (f : InstanceEventForwarder) : Action → Option InstanceEventForwarder
  | .instances instances => some { f with instances := instances }
  | .start => some f.start
  | .stop => some f.stop
  | .sync => some f.sync
  | .addOutput output options => some (f.addOutput output options)
  | .legacyFallback output => some (f.legacyFallback output)
  | .setOutputSubscription output subscription => some (f.setOutputSubscription output subscription)
  | .removeOutput output => some (f.removeOutput output)
  | .opened socket =>
    match f.connections.get? socket with
    | some c => if c.readyState = .connecting then some (f.socketOpened socket c) else none
    | none => none
  | .close socket =>
    match f.connections.get? socket with
    | some _ => some (f.closeSocket socket)
    | none => none
  | .closed socket =>
    match f.connections.get? socket with
    | some c => if c.readyState ≠ .closed then some (f.socketClosed socket c) else none
    | none => none
  | .retryTimer instanceId =>
    match f.retries.get? instanceId with
    | some ⟨true, some url⟩ => some (f.retryTimer instanceId url ⟨true, some url⟩)
    | _ => none

/-! ## Frames cover what the outputs accept -/

/-- A transient event as an instance publishes it. -/
structure FromInstance (instanceId : String) (event : EventEnvelope) : Prop where
  transient : isAiSessionTransient event.type = true
  topic : event.topic = AiSessionEventTopic
  instanceId : event.instanceId = instanceId

/-- The frame admits every transient event of the instance that an output accepts. -/
def Covers (outputs : OrderedMap Nat (Option AiSessionTransientSubscription))
    (instanceId : String) (frame : SubscribeFrame) : Prop :=
  ∀ output subscription, outputs.get? output = some subscription →
    ∀ event, FromInstance instanceId event →
      aiSessionTransientSubscriptionAccepts subscription event = true → frame.admits event = true

variable {instanceId : String} {event : EventEnvelope}

theorem legacyFrame_admits (h : FromInstance instanceId event) :
    legacyFrame.admits event = true := by
  simp [SubscribeFrame.admits, legacyFrame, subscribed, h.topic]

theorem scopedFrame_admits (h : FromInstance instanceId event)
    {subscription : AiSessionTransientSubscription}
    {subscriptions : List AiSessionTransientSubscription} (hmem : subscription ∈ subscriptions)
    (ha : aiSessionTransientSubscriptionAccepts (some subscription) event = true) :
    (scopedFrame instanceId subscriptions).admits event = true := by
  have hgated : ¬ isAiSessionTransient event.type = false := by simp [h.transient]
  simp only [aiSessionTransientSubscriptionAccepts, if_neg hgated] at ha
  by_cases hdelta : event.type = MessageDelta
  · simp only [if_pos hdelta, Bool.or_eq_true, decide_eq_true_eq, h.instanceId] at ha
    have hany : (subscriptions.any fun entry => entry.messageDeltas.allInstances ||
        instanceId ∈ entry.messageDeltas.instanceIds) = true := by
      rw [any_eq_true]
      exact ⟨subscription, hmem, by simpa using ha⟩
    simp [SubscribeFrame.admits, scopedFrame, hany, subscribed,
      aiSessionTransientSubscriptionAccepts, hdelta]
  · simp only [if_neg hdelta, Bool.or_eq_true, any_eq_true, decide_eq_true_eq, h.instanceId] at ha
    -- Both Timeline types are in the topics as soon as one output asks for either.
    have htype : event.type ∈ [TimelineItem, TimelineItemDelta] := by
      have htransient := h.transient
      simp only [isAiSessionTransient, Bool.or_eq_true, decide_eq_true_eq] at htransient
      rcases htransient with (hd | hi) | ht
      · exact absurd hd hdelta
      · simp [hi]
      · simp [ht]
    rcases ha with hall | ⟨entry, hentry, hinstance, hsession⟩
    · have hany : (subscriptions.any (·.timelineAllSessions)) = true := by
        rw [any_eq_true]
        exact ⟨subscription, hmem, hall⟩
      simp only [SubscribeFrame.admits, scopedFrame, hany, Bool.true_or, if_true, subscribed,
        Bool.and_eq_true, Bool.or_eq_true, decide_eq_true_eq]
      refine ⟨.inr ?_, ?_⟩
      · exact mem_append_left _ (mem_append_right _ htype)
      · simp [aiSessionTransientSubscriptionAccepts, hdelta]
    · have hid : entry.sessionId ∈ addAll [] (subscriptions.flatMap fun e =>
          (e.timelineSessions.filter fun session => session.instanceId = instanceId).map
            (·.sessionId)) := by
        rw [mem_addAll, mem_flatMap]
        refine .inr ⟨subscription, hmem, mem_map.mpr ⟨entry, ?_, rfl⟩⟩
        simp [hentry, hinstance]
      have hsome : (addAll [] (subscriptions.flatMap fun e =>
          (e.timelineSessions.filter fun session => session.instanceId = instanceId).map
            (·.sessionId))).isEmpty = false := by
        rw [isEmpty_eq_false_iff]
        exact ne_nil_of_mem hid
      simp only [SubscribeFrame.admits, scopedFrame, hsome, Bool.not_false, Bool.or_true, if_true,
        subscribed, Bool.and_eq_true, Bool.or_eq_true, decide_eq_true_eq]
      refine ⟨.inr ?_, ?_⟩
      · exact mem_append_left _ (mem_append_right _ htype)
      simp only [aiSessionTransientSubscriptionAccepts, if_neg hgated, if_neg hdelta,
        Bool.or_eq_true, any_eq_true, decide_eq_true_eq]
      exact .inr ⟨⟨instanceId, entry.sessionId⟩, mem_map.mpr ⟨_, hid, rfl⟩,
        h.instanceId.symm, hsession⟩

theorem instanceFrame_covers (outputs : OrderedMap Nat (Option AiSessionTransientSubscription))
    (instanceId : String) : Covers outputs instanceId (instanceFrame outputs instanceId) := by
  intro output subscription hget event hevent ha
  have hvalue : subscription ∈ outputs.values := mem_values.mpr ⟨output, hget⟩
  unfold instanceFrame
  cases hlegacy : outputs.values.any (·.isNone) with
  | true => exact legacyFrame_admits hevent
  | false =>
    cases subscription with
    | none =>
      have hnone := any_eq_false.mp hlegacy none hvalue
      simp at hnone
    | some s => exact scopedFrame_admits hevent (mem_filterMap.mpr ⟨_, hvalue, rfl⟩) ha

/-! ## Sockets and frames -/

/-- The sockets by instance and the connections agree; a live connection is the
current one of its instance. -/
structure Linked (f : InstanceEventForwarder) : Prop where
  fresh : ∀ socket c, f.connections.get? socket = some c → socket < f.nextSocket
  keyed : ∀ instanceId socket, f.sockets.get? instanceId = some socket →
    ∃ c, f.connections.get? socket = some c ∧ c.instanceId = instanceId
  current : ∀ socket c, f.connections.get? socket = some c → c.readyState.live = true →
    f.sockets.get? c.instanceId = some socket

/-- Every open connection was sent a frame that covers the outputs. -/
def Covered (f : InstanceEventForwarder) : Prop :=
  ∀ socket c, f.connections.get? socket = some c → c.readyState = .opened →
    ∃ frame, c.sent = some frame ∧ Covers f.outputs c.instanceId frame

/-- `g` differs from `f` in sockets that are new or not open, and in timers. -/
structure Settles (f g : InstanceEventForwarder) : Prop where
  outputs : g.outputs = f.outputs
  open_of_open : ∀ socket c, g.connections.get? socket = some c → c.readyState = .opened →
    f.connections.get? socket = some c
  linked : Linked f → Linked g

theorem Settles.refl (f : InstanceEventForwarder) : Settles f f := ⟨rfl, fun _ _ h _ => h, id⟩

theorem Settles.trans {f g h : InstanceEventForwarder} (hfg : Settles f g) (hgh : Settles g h) :
    Settles f h where
  outputs := hgh.outputs.trans hfg.outputs
  open_of_open socket c hget hopen :=
    hfg.open_of_open socket c (hgh.open_of_open socket c hget hopen) hopen
  linked hf := hgh.linked (hfg.linked hf)

theorem Settles.of_timers (f : InstanceEventForwarder) (urls : OrderedMap String String)
    (retries : OrderedMap String InstanceRetry) :
    Settles f { f with socketUrls := urls, retries := retries } :=
  ⟨rfl, fun _ _ h _ => h, fun hf => { hf with }⟩

variable {f g : InstanceEventForwarder}

theorem Settles.covered (h : Settles f g) (hf : Covered f) : Covered g := by
  intro socket c hget hopen
  rw [h.outputs]
  exact hf socket c (h.open_of_open socket c hget hopen) hopen

theorem closeSocket_cases (f : InstanceEventForwarder) (socket : Nat) :
    f.closeSocket socket = f ∨ ∃ c, f.connections.get? socket = some c ∧ f.closeSocket socket =
        { f with connections := f.connections.set socket { c with readyState := .closing } } := by
  unfold closeSocket
  cases hget : f.connections.get? socket with
  | none => exact .inl rfl
  | some c =>
    by_cases hclosed : c.readyState = .closed
    · exact .inl (by simp [hclosed])
    · exact .inr ⟨c, rfl, by simp [hclosed]⟩

variable {f : InstanceEventForwarder} {socket : Nat}

theorem settles_ended {c d : InstanceSocket} (hget : f.connections.get? socket = some c)
    (hsame : d.instanceId = c.instanceId) (hd : d.readyState.live = false) :
    Settles f { f with connections := f.connections.set socket d } where
  outputs := rfl
  open_of_open other e he hopen := by
    obtain ⟨-, rfl⟩ | ⟨-, hold⟩ := get?_set_eq_some he
    · rw [hopen] at hd
      cases hd
    · exact hold
  linked hf := by
    refine ⟨?_, ?_, ?_⟩
    · intro other e he
      obtain ⟨rfl, -⟩ | ⟨-, hold⟩ := get?_set_eq_some he
      · exact hf.fresh _ _ hget
      · exact hf.fresh _ _ hold
    · intro instanceId other hother
      obtain ⟨e, he, hkey⟩ := hf.keyed instanceId other hother
      by_cases hsocket : other = socket
      · subst hsocket
        rw [hget, Option.some.injEq] at he
        exact ⟨d, get?_set_self _ _ _, by rw [hsame, he, hkey]⟩
      · exact ⟨e, by rw [get?_set_ne _ _ hsocket]; exact he, hkey⟩
    · intro other e he hlive
      obtain ⟨-, rfl⟩ | ⟨-, hold⟩ := get?_set_eq_some he
      · rw [hlive] at hd
        cases hd
      · exact hf.current other e hold hlive

theorem settles_closeSocket (f : InstanceEventForwarder) (socket : Nat) :
    Settles f (f.closeSocket socket) := by
  obtain hsame | ⟨c, hget, hclose⟩ := closeSocket_cases f socket
  · rw [hsame]
    exact Settles.refl f
  · rw [hclose]
    exact settles_ended hget rfl rfl

variable {c : InstanceSocket}

theorem closeSocket_not_live (hget : (f.closeSocket socket).connections.get? socket = some c) :
    c.readyState.live = false := by
  unfold closeSocket at hget
  cases hold : f.connections.get? socket with
  | none =>
    simp only [hold] at hget
    cases hget
  | some d =>
    simp only [hold] at hget
    by_cases hclosed : d.readyState = .closed
    · simp only [hclosed, if_true, hold, Option.some.injEq] at hget
      rw [← hget, hclosed]
      rfl
    simp only [hclosed, if_false, get?_set_self, Option.some.injEq] at hget
    rw [← hget]
    rfl

@[simp] theorem closeSocket_sockets (f : InstanceEventForwarder) (socket : Nat) :
    (f.closeSocket socket).sockets = f.sockets := by
  obtain hsame | ⟨c, -, hclose⟩ := closeSocket_cases f socket
  · rw [hsame]
  · rw [hclose]

theorem settles_dropSocket (f : InstanceEventForwarder) (instanceId : String) :
    Settles f (f.dropSocket instanceId) := by
  unfold dropSocket
  cases hsocket : f.sockets.get? instanceId with
  | none => exact Settles.refl f
  | some socket =>
    have hclose := settles_closeSocket f socket
    refine ⟨hclose.outputs, hclose.open_of_open, fun hf => ?_⟩
    have hlinked := hclose.linked hf
    refine ⟨hlinked.fresh, ?_, ?_⟩
    · intro other n hother
      have hold := (get?_erase_eq_some hother).2
      exact hlinked.keyed other n (by rw [closeSocket_sockets]; exact hold)
    intro n c hget hlive
    have hcurrent := hlinked.current n c hget hlive
    rw [closeSocket_sockets] at hcurrent
    have hne : c.instanceId ≠ instanceId := by
      intro he
      rw [he, hsocket] at hcurrent
      have hdead := closeSocket_not_live (hcurrent ▸ hget)
      rw [hlive] at hdead
      cases hdead
    exact (get?_erase_ne f.sockets hne).trans hcurrent

theorem settles_connect {instanceId url : String} (hnone : f.sockets.get? instanceId = none) :
    Settles f (f.connect instanceId url) where
  outputs := rfl
  open_of_open socket c hget hopen := by
    obtain ⟨-, rfl⟩ | ⟨-, hold⟩ := get?_set_eq_some hget
    · cases hopen
    · exact hold
  linked hf := by
    refine ⟨?_, ?_, ?_⟩
    · intro socket c hget
      obtain ⟨rfl, -⟩ | ⟨-, hold⟩ := get?_set_eq_some hget
      · exact Nat.lt_succ_self _
      · exact Nat.lt_succ_of_lt (hf.fresh socket c hold)
    · intro other socket hother
      obtain ⟨rfl, rfl⟩ | ⟨-, hold⟩ := get?_set_eq_some hother
      · exact ⟨_, get?_set_self _ _ _, rfl⟩
      obtain ⟨c, hc, hkey⟩ := hf.keyed other socket hold
      have hne : socket ≠ f.nextSocket := Nat.ne_of_lt (hf.fresh socket c hc)
      exact ⟨c, (get?_set_ne f.connections _ hne).trans hc, hkey⟩
    · intro socket c hget hlive
      obtain ⟨rfl, rfl⟩ | ⟨-, hold⟩ := get?_set_eq_some hget
      · exact get?_set_self _ _ _
      have hcurrent := hf.current socket c hold hlive
      have hne : c.instanceId ≠ instanceId := by
        intro he
        rw [he, hnone] at hcurrent
        cases hcurrent
      exact (get?_set_ne f.sockets _ hne).trans hcurrent

theorem settles_syncInstance (f : InstanceEventForwarder) (instanceId url : String) :
    Settles f (f.syncInstance instanceId url) := by
  have hretry : ∀ f : InstanceEventForwarder, Settles f (match f.retries.get? instanceId with
        | some retry =>
          if retry.pending ∧ retry.url ≠ some url then
            { f with retries := f.retries.erase instanceId } else f
        | none => f) := by
    intro f
    split
    · split
      · exact Settles.of_timers f f.socketUrls _
      · exact Settles.refl f
    · exact Settles.refl f
  have hurl : ∀ f : InstanceEventForwarder, Settles f
      (if f.socketUrls.get? instanceId ≠ some url then f.dropSocket instanceId else f) := by
    intro f
    split
    · exact settles_dropSocket f instanceId
    · exact Settles.refl f
  have hconnect : ∀ f : InstanceEventForwarder, Settles f
      (if (f.sockets.get? instanceId).isNone && !f.retryPending instanceId then
        f.connect instanceId url else f) := by
    intro f
    split
    next h =>
      simp only [Bool.and_eq_true, Option.isNone_iff_eq_none] at h
      exact settles_connect h.1
    next => exact Settles.refl f
  exact ((hretry f).trans (hurl _)).trans (hconnect _)

theorem settles_syncInstances (f : InstanceEventForwarder)
    (instances : List (String × Option String)) : Settles f (f.syncInstances instances) := by
  induction instances generalizing f with
  | nil => exact Settles.refl f
  | cons entry rest ih =>
    obtain ⟨instanceId, url⟩ := entry
    cases url with
    | none => exact ih f
    | some url => exact (settles_syncInstance f instanceId url).trans (ih _)

theorem settles_dropInactive (f : InstanceEventForwarder) (active ids : List String) :
    Settles f (f.dropInactive active ids) := by
  induction ids generalizing f with
  | nil => exact Settles.refl f
  | cons instanceId rest ih =>
    simp only [dropInactive]
    split
    · exact ih f
    · exact ((settles_dropSocket f instanceId).trans (Settles.of_timers _ _ _)).trans (ih _)

theorem settles_dropAll (f : InstanceEventForwarder) (ids : List String) :
    Settles f (f.dropAll ids) := by
  induction ids generalizing f with
  | nil => exact Settles.refl f
  | cons instanceId rest ih => exact (settles_dropSocket f instanceId).trans (ih _)

theorem get?_dropSocket (f : InstanceEventForwarder) (instanceId other : String) :
    (f.dropSocket instanceId).sockets.get? other =
      if other = instanceId then none else f.sockets.get? other := by
  cases hsocket : f.sockets.get? instanceId with
  | none =>
    have hsame : f.dropSocket instanceId = f := by simp only [dropSocket, hsocket]
    rw [hsame]
    by_cases he : other = instanceId
    · simp [he, hsocket]
    · simp [he]
  | some socket =>
    simp only [dropSocket, hsocket]
    exact get?_erase _ _ _

theorem get?_dropAll (f : InstanceEventForwarder) (ids : List String) (other : String) :
    (f.dropAll ids).sockets.get? other = if other ∈ ids then none else f.sockets.get? other := by
  induction ids generalizing f with
  | nil => simp [dropAll]
  | cons instanceId rest ih =>
    have hrest := ih (f.dropSocket instanceId)
    simp only [dropAll, hrest, get?_dropSocket, mem_cons]
    by_cases hr : other ∈ rest
    · simp [hr]
    · by_cases hi : other = instanceId <;> simp [hr, hi]

theorem clear_not_live (hf : Linked f) (hget : f.clear.connections.get? socket = some c) :
    c.readyState.live ≠ true := by
  intro hlive
  have hcurrent := ((settles_dropAll f f.sockets.keys).linked hf).current socket c hget hlive
  rw [get?_dropAll] at hcurrent
  split at hcurrent
  · cases hcurrent
  next hnot =>
    rw [← get?_eq_none] at hnot
    rw [hnot] at hcurrent
    cases hcurrent

theorem linked_clear (hf : Linked f) : Linked f.clear where
  fresh := ((settles_dropAll f f.sockets.keys).linked hf).fresh
  keyed instanceId socket h := by simp [clear] at h
  current socket c hget hlive := absurd hlive (clear_not_live hf hget)

theorem settles_sync : Settles f f.sync := by
  unfold sync
  split
  · refine ⟨(settles_dropAll f f.sockets.keys).outputs, ?_, linked_clear⟩
    exact (settles_dropAll f f.sockets.keys).open_of_open
  · exact ((settles_syncInstances f _).trans (settles_dropInactive _ _ _)).trans
      (Settles.of_timers _ _ _)

theorem sendInstanceSubscription_cases (f : InstanceEventForwarder) (instanceId : String)
    (socket : Nat) : (f.sendInstanceSubscription instanceId socket = f ∧
        ∀ c, f.connections.get? socket = some c → c.readyState ≠ .opened) ∨
      ∃ c, f.connections.get? socket = some c ∧ c.readyState = .opened ∧
        f.sendInstanceSubscription instanceId socket =
          { f with
            connections := f.connections.set socket
              { c with sent := some (instanceFrame f.outputs instanceId) } } := by
  unfold sendInstanceSubscription
  cases hget : f.connections.get? socket with
  | none => exact .inl ⟨rfl, nofun⟩
  | some c =>
    by_cases hopen : c.readyState = .opened
    · exact .inr ⟨c, rfl, hopen, by simp [hopen]⟩
    refine .inl ⟨by simp [hopen], ?_⟩
    intro d hd
    rw [Option.some.injEq] at hd
    exact hd ▸ hopen

/-- The part of a connection that no frame changes. -/
structure SameSocket (c d : InstanceSocket) : Prop where
  instanceId : d.instanceId = c.instanceId
  readyState : d.readyState = c.readyState

/-- `g` differs from `f` in frames sent, and those cover the outputs. -/
structure Sends (f g : InstanceEventForwarder) : Prop where
  outputs : g.outputs = f.outputs
  sockets : g.sockets = f.sockets
  nextSocket : g.nextSocket = f.nextSocket
  kept : ∀ socket c, f.connections.get? socket = some c →
    ∃ d, g.connections.get? socket = some d ∧ SameSocket c d
  sent : ∀ socket d, g.connections.get? socket = some d →
    ∃ c, f.connections.get? socket = some c ∧ SameSocket c d ∧
      (d = c ∨ d.sent = some (instanceFrame f.outputs d.instanceId))

theorem Sends.refl (f : InstanceEventForwarder) : Sends f f :=
  ⟨rfl, rfl, rfl, fun _ c h => ⟨c, h, rfl, rfl⟩, fun _ d h => ⟨d, h, ⟨rfl, rfl⟩, .inl rfl⟩⟩

theorem Sends.trans {f g h : InstanceEventForwarder} (hfg : Sends f g) (hgh : Sends g h) :
    Sends f h where
  outputs := hgh.outputs.trans hfg.outputs
  sockets := hgh.sockets.trans hfg.sockets
  nextSocket := hgh.nextSocket.trans hfg.nextSocket
  kept socket c hc := by
    obtain ⟨d, hd, hcd⟩ := hfg.kept socket c hc
    obtain ⟨e, he, hde⟩ := hgh.kept socket d hd
    exact ⟨e, he, hde.instanceId.trans hcd.instanceId, hde.readyState.trans hcd.readyState⟩
  sent socket e he := by
    obtain ⟨d, hd, hde, hsame⟩ := hgh.sent socket e he
    obtain ⟨c, hc, hcd, hold⟩ := hfg.sent socket d hd
    refine ⟨c, hc, ⟨hde.instanceId.trans hcd.instanceId, hde.readyState.trans hcd.readyState⟩, ?_⟩
    rcases hsame with rfl | hnew
    · exact hold
    · exact .inr (by rw [hnew, hfg.outputs])

theorem Sends.linked (h : Sends f g) (hf : Linked f) : Linked g where
  fresh socket d hd := by
    obtain ⟨c, hc, -⟩ := h.sent socket d hd
    rw [h.nextSocket]
    exact hf.fresh socket c hc
  keyed instanceId socket hsocket := by
    rw [h.sockets] at hsocket
    obtain ⟨c, hc, hkey⟩ := hf.keyed instanceId socket hsocket
    obtain ⟨d, hd, hsame⟩ := h.kept socket c hc
    exact ⟨d, hd, hsame.instanceId.trans hkey⟩
  current socket d hd hlive := by
    obtain ⟨c, hc, hsame, -⟩ := h.sent socket d hd
    rw [hsame.readyState] at hlive
    rw [h.sockets, hsame.instanceId]
    exact hf.current socket c hc hlive

theorem sends_one (hkeyed : ∀ c, f.connections.get? socket = some c → c.instanceId = instanceId) :
    Sends f (f.sendInstanceSubscription instanceId socket) := by
  obtain ⟨hsame, -⟩ | ⟨c, hget, -, hsend⟩ := sendInstanceSubscription_cases f instanceId socket
  · rw [hsame]
    exact Sends.refl f
  rw [hsend]
  refine ⟨rfl, rfl, rfl, ?_, ?_⟩
  · intro other d hd
    by_cases hs : other = socket
    · subst hs
      rw [hget, Option.some.injEq] at hd
      exact ⟨_, get?_set_self _ _ _, by rw [← hd], by rw [← hd]⟩
    · exact ⟨d, (get?_set_ne f.connections _ hs).trans hd, rfl, rfl⟩
  · intro other d hd
    obtain ⟨rfl, rfl⟩ | ⟨-, hold⟩ := get?_set_eq_some hd
    · exact ⟨c, hget, ⟨rfl, rfl⟩, .inr (by rw [hkeyed c hget])⟩
    · exact ⟨d, hold, ⟨rfl, rfl⟩, .inl rfl⟩

theorem sends_all {entries : List (String × Nat)}
    (hkeyed : ∀ e ∈ entries, ∀ c, f.connections.get? e.2 = some c → c.instanceId = e.1) :
    Sends f (f.sendAll entries) ∧
      ∀ e ∈ entries, ∀ d, (f.sendAll entries).connections.get? e.2 = some d →
        d.readyState = .opened → d.sent = some (instanceFrame f.outputs d.instanceId) := by
  induction entries generalizing f with
  | nil => exact ⟨Sends.refl f, nofun⟩
  | cons entry rest ih =>
    obtain ⟨instanceId, socket⟩ := entry
    have hone := sends_one (hkeyed (instanceId, socket) mem_cons_self)
    have hrest : ∀ e ∈ rest, ∀ c,
        (f.sendInstanceSubscription instanceId socket).connections.get? e.2 = some c →
        c.instanceId = e.1 := by
      intro e he c hc
      obtain ⟨b, hb, hsame, -⟩ := hone.sent e.2 c hc
      exact hsame.instanceId.trans (hkeyed e (mem_cons_of_mem _ he) b hb)
    obtain ⟨hsends, hlast⟩ := ih hrest
    refine ⟨hone.trans hsends, ?_⟩
    intro e he d hd hopen
    rcases mem_cons.mp he with rfl | hmem
    · -- The frame of this round stays, or a later round sends an equal one.
      obtain ⟨c, hc, hsame, hframe⟩ := hsends.sent socket d hd
      rcases hframe with rfl | hnew
      · obtain ⟨-, hclosed⟩ | ⟨b, hb, -, hsend⟩ :=
          sendInstanceSubscription_cases f instanceId socket
        · obtain ⟨b, hb, hbsame, hold⟩ := hone.sent socket d hc
          exact absurd (hbsame.readyState.symm.trans hopen) (hclosed b hb)
        · rw [hsend, get?_set_self, Option.some.injEq] at hc
          rw [← hc, hkeyed _ mem_cons_self b hb]
      · rw [hnew, hone.outputs]
    · rw [hlast e hmem d hd hopen, hone.outputs]

/-! ## Runs in which no output comes too wide -/

/-- The frame asks for every transient event of the instance. -/
def SubscribeFrame.full (frame : SubscribeFrame) : Bool :=
  subscribed (some frame.topics) AiSessionEventTopic MessageDelta &&
    subscribed (some frame.topics) AiSessionEventTopic TimelineItem &&
    subscribed (some frame.topics) AiSessionEventTopic TimelineItemDelta &&
    match frame.aiSessionTransient with
    | none => true
    | some s => s.messageDeltas.allInstances && s.timelineAllSessions

theorem full_admits {frame : SubscribeFrame} (h : SubscribeFrame.full frame = true)
    (hevent : FromInstance instanceId event) : frame.admits event = true := by
  simp only [SubscribeFrame.full, Bool.and_eq_true] at h
  obtain ⟨⟨⟨hdelta, hitem⟩, hitemDelta⟩, htransient⟩ := h
  have htype := hevent.transient
  simp only [isAiSessionTransient, Bool.or_eq_true, decide_eq_true_eq] at htype
  simp only [SubscribeFrame.admits, Bool.and_eq_true, hevent.topic]
  constructor
  · rcases htype with (ht | ht) | ht
    · rw [ht]
      exact hdelta
    · rw [ht]
      exact hitem
    · rw [ht]
      exact hitemDelta
  · cases hsub : frame.aiSessionTransient with
    | none => rfl
    | some s =>
      rw [hsub] at htransient
      simp only [Bool.and_eq_true] at htransient
      exact AiSessionTransientSubscription.accepts_of_wildcards htransient.1 htransient.2 event

/-- An output without a subscription is added only while every open instance
socket was last sent a full frame. -/
def AddsCoveredOutput (f : InstanceEventForwarder) : Action → Bool
  | .addOutput _ options =>
    options.expectsTransientSubscription ||
      f.connections.values.all fun c =>
        c.readyState ≠ .opened ||
          match c.sent with
          | some frame => SubscribeFrame.full frame
          | none => false
  | _ => true

theorem linked_new : Linked new := by constructor <;> simp [new]

theorem covered_new : Covered new := by
  intro socket c h
  simp [new] at h

theorem empty_accepts (hevent : FromInstance instanceId event) :
    aiSessionTransientSubscriptionAccepts (some .empty) event = false := by
  simp [aiSessionTransientSubscriptionAccepts, AiSessionTransientSubscription.empty,
    hevent.transient]

theorem covered_addOutput (hf : Covered f) {output : Nat} {options : OutputOptions}
    (ha : AddsCoveredOutput f (.addOutput output options) = true) : Covered { f with
      outputs := f.outputs.set output
        (if options.expectsTransientSubscription then some .empty else none) } := by
  intro socket c hget hopen
  obtain ⟨frame, hsent, hcovers⟩ := hf socket c hget hopen
  refine ⟨frame, hsent, ?_⟩
  intro other subscription hother event hevent haccepts
  obtain ⟨-, rfl⟩ | ⟨-, hold⟩ := get?_set_eq_some hother
  · cases hexpects : options.expectsTransientSubscription with
    | true =>
      rw [hexpects, if_pos rfl, empty_accepts hevent] at haccepts
      cases haccepts
    | false =>
      simp only [AddsCoveredOutput, hexpects, Bool.false_or, all_eq_true] at ha
      have hfull := ha c (mem_values.mpr ⟨socket, hget⟩)
      simp only [hopen, ne_eq, not_true_eq_false, decide_false, Bool.false_or, hsent] at hfull
      exact full_admits hfull hevent
  · exact hcovers other subscription hold event hevent haccepts

theorem covered_removeOutput (hf : Covered f) (output : Nat) :
    Covered { f with outputs := f.outputs.erase output } := by
  intro socket c hget hopen
  obtain ⟨frame, hsent, hcovers⟩ := hf socket c hget hopen
  refine ⟨frame, hsent, ?_⟩
  intro other subscription hother
  exact hcovers other subscription (get?_erase_eq_some hother).2

theorem covered_sendAll (hf : Linked f) :
    Linked (f.sendAll f.sockets.entries) ∧ Covered (f.sendAll f.sockets.entries) := by
  have hkeyed : ∀ e ∈ f.sockets.entries, ∀ c, f.connections.get? e.2 = some c →
      c.instanceId = e.1 := by
    intro e he c hc
    obtain ⟨d, hd, hkey⟩ := hf.keyed e.1 e.2 (get?_eq_some.mpr he)
    rw [hd, Option.some.injEq] at hc
    exact hc ▸ hkey
  obtain ⟨hsends, hall⟩ := sends_all hkeyed
  refine ⟨hsends.linked hf, ?_⟩
  intro socket d hd hopen
  have hlive : d.readyState.live = true := by
    rw [hopen]
    rfl
  have hcurrent := (hsends.linked hf).current socket d hd hlive
  rw [hsends.sockets] at hcurrent
  have hentry := get?_eq_some.mp hcurrent
  rw [hsends.outputs]
  exact ⟨_, hall _ hentry d hd hopen, instanceFrame_covers f.outputs d.instanceId⟩

theorem covered_opened (hl : Linked f) (hget : f.connections.get? socket = some c)
    (hconnecting : c.readyState = .connecting) :
    Linked (f.socketOpened socket c) ∧ (Covered f → Covered (f.socketOpened socket c)) := by
  have hlive : c.readyState.live = true := by
    rw [hconnecting]
    rfl
  have hstate : f.socketOpened socket c = { f with
      connections := (f.connections.set socket { c with readyState := .opened }).set socket
        { c with
          readyState := .opened
          sent := some (instanceFrame f.outputs c.instanceId) }
      retries := f.retries.set c.instanceId
        { (f.retries.get? c.instanceId).getD ⟨false, none⟩ with url := some c.url } } := by
    simp only [socketOpened, sendInstanceSubscription, get?_set_self, if_true]
  -- The two writes of the entry, one after the other.
  have hconn : ∀ other d, ((f.connections.set socket { c with readyState := .opened }).set socket
      { c with
        readyState := .opened
        sent := some (instanceFrame f.outputs c.instanceId) }).get? other = some d →
      (other = socket ∧ d = { c with
        readyState := .opened
        sent := some (instanceFrame f.outputs c.instanceId) }) ∨
        (other ≠ socket ∧ f.connections.get? other = some d) := by
    intro other d hd
    obtain hnew | ⟨hne, hd⟩ := get?_set_eq_some hd
    · exact .inl hnew
    obtain ⟨he, -⟩ | hold := get?_set_eq_some hd
    · exact absurd he hne
    · exact .inr hold
  rw [hstate]
  refine ⟨⟨?_, ?_, ?_⟩, ?_⟩
  · intro other d hd
    obtain ⟨rfl, -⟩ | ⟨-, hold⟩ := hconn other d hd
    · exact hl.fresh _ _ hget
    · exact hl.fresh _ _ hold
  · intro instanceId other hother
    obtain ⟨d, hd, hkey⟩ := hl.keyed instanceId other hother
    by_cases hs : other = socket
    · subst hs
      rw [hget, Option.some.injEq] at hd
      exact ⟨_, get?_set_self _ _ _, by rw [← hkey, ← hd]⟩
    · refine ⟨d, ?_, hkey⟩
      exact ((get?_set_ne _ _ hs).trans (get?_set_ne _ _ hs)).trans hd
  · intro other d hd hd'
    obtain ⟨rfl, rfl⟩ | ⟨-, hold⟩ := hconn other d hd
    · exact hl.current _ c hget hlive
    · exact hl.current other d hold hd'
  · intro hf other d hd hopen
    obtain ⟨rfl, rfl⟩ | ⟨-, hold⟩ := hconn other d hd
    · exact ⟨_, rfl, instanceFrame_covers f.outputs c.instanceId⟩
    · exact hf other d hold hopen

theorem settles_closed (hget : f.connections.get? socket = some c) :
    Settles f (f.socketClosed socket c) := by
  have hended := settles_ended (f := f) (d := { c with readyState := .closed }) hget rfl rfl
  have hreconnect : ∀ g : InstanceEventForwarder, ∀ instanceId,
      Settles g (g.scheduleReconnect instanceId) := by
    intro g instanceId
    unfold scheduleReconnect
    split
    · split
      · exact Settles.refl g
      · exact Settles.of_timers g g.socketUrls _
    · exact Settles.refl g
  simp only [socketClosed]
  split
  swap
  next => exact hended
  rename_i hcurrent
  refine Settles.trans ?_ (hreconnect _ _)
  refine ⟨rfl, hended.open_of_open, fun hf => ?_⟩
  have hlinked := hended.linked hf
  refine ⟨hlinked.fresh, ?_, ?_⟩
  · intro other n hother
    exact hlinked.keyed other n (get?_erase_eq_some hother).2
  intro n d hd hlive
  have hcurrent' : f.sockets.get? d.instanceId = some n := hlinked.current n d hd hlive
  have hne : d.instanceId ≠ c.instanceId := by
    intro he
    rw [he, hcurrent, Option.some.injEq] at hcurrent'
    rw [← hcurrent', get?_set_self, Option.some.injEq] at hd
    rw [← hd] at hlive
    cases hlive
  exact (get?_erase_ne f.sockets hne).trans hcurrent'

theorem settles_retryTimer (f : InstanceEventForwarder) (instanceId url : String)
    (retry : InstanceRetry) : Settles f (f.retryTimer instanceId url retry) := by
  simp only [retryTimer]
  split
  next hnone =>
    exact (Settles.of_timers f f.socketUrls _).trans
      (settles_connect (Option.isNone_iff_eq_none.mp hnone))
  next => exact Settles.of_timers f f.socketUrls _

theorem step_linked {a : Action} (h : step f a = some g) (hl : Linked f) :
    Linked g ∧ (AddsCoveredOutput f a = true ∧ Covered f → Covered g) := by
  have hf : AddsCoveredOutput f a = true ∧ Covered f → Covered f := And.right
  have hsettles {e g : InstanceEventForwarder} (hs : Settles e g) (hl : Linked e)
      (he : AddsCoveredOutput f a = true ∧ Covered f → Covered e) :
      Linked g ∧ (AddsCoveredOutput f a = true ∧ Covered f → Covered g) :=
    ⟨hs.linked hl, fun h => hs.covered (he h)⟩
  cases a with
  | instances instances =>
    simp only [step, Option.some.injEq] at h
    exact h ▸ ⟨{ hl with }, hf⟩
  | start =>
    simp only [step, Option.some.injEq] at h
    have hstarted : Linked { f with stopped := false } := { hl with }
    exact h ▸ hsettles settles_sync hstarted hf
  | stop =>
    simp only [step, Option.some.injEq] at h
    have hclear := linked_clear hl
    rw [← h]
    refine ⟨{ hclear with }, ?_⟩
    intro _ socket c hget hopen
    exact absurd (by rw [hopen]; rfl) (clear_not_live hl hget)
  | sync =>
    simp only [step, Option.some.injEq] at h
    exact h ▸ hsettles settles_sync hl hf
  | addOutput output options =>
    simp only [step, Option.some.injEq] at h
    have hadded (h : AddsCoveredOutput f (.addOutput output options) = true ∧ Covered f) :=
      covered_addOutput h.2 h.1
    have hlinked : Linked { f with
        outputs := f.outputs.set output
          (if options.expectsTransientSubscription then some .empty else none) } :=
      { hl with }
    rw [← h]
    simp only [addOutput]
    cases hnow : options.expectsTransientSubscription || !options.legacyFallback with
    | true => exact hsettles settles_sync hlinked hadded
    | false => exact ⟨hlinked, hadded⟩
  | legacyFallback output =>
    simp only [step, Option.some.injEq] at h
    rw [← h]
    unfold legacyFallback
    split
    · exact hsettles settles_sync hl hf
    · exact ⟨hl, hf⟩
  | setOutputSubscription output subscription =>
    simp only [step, Option.some.injEq] at h
    rw [← h]
    unfold setOutputSubscription
    split
    · -- The new subscription is not covered before the frames are sent again.
      have hset : Linked { f with outputs := f.outputs.set output (some subscription) } :=
        { hl with }
      exact (covered_sendAll (settles_sync.linked hset)).imp_right fun h _ => h
    · exact ⟨hl, hf⟩
  | removeOutput output =>
    simp only [step, Option.some.injEq] at h
    have hremoved (h : AddsCoveredOutput f (.removeOutput output) = true ∧ Covered f) :=
      covered_removeOutput h.2 output
    have hlinked : Linked { f with outputs := f.outputs.erase output } := { hl with }
    rw [← h]
    simp only [removeOutput]
    split
    · exact ⟨hlinked, hremoved⟩
    · exact hsettles settles_sync hlinked hremoved
  | opened socket =>
    cases hget : f.connections.get? socket with
    | none => simp [step, hget] at h
    | some c =>
      by_cases hc : c.readyState = .connecting
      · simp only [step, hget, hc, if_true, Option.some.injEq] at h
        exact h ▸ (covered_opened hl hget hc).imp_right fun h hf => h hf.2
      · simp [step, hget, hc] at h
  | close socket =>
    cases hget : f.connections.get? socket with
    | none => simp [step, hget] at h
    | some c =>
      simp only [step, hget, Option.some.injEq] at h
      exact h ▸ hsettles (settles_closeSocket f socket) hl hf
  | closed socket =>
    cases hget : f.connections.get? socket with
    | none => simp [step, hget] at h
    | some c =>
      by_cases hc : c.readyState = .closed
      · simp [step, hget, hc] at h
      · simp only [step, hget, ne_eq, hc, not_false_eq_true, if_true, Option.some.injEq] at h
        exact h ▸ hsettles (settles_closed hget) hl hf
  | retryTimer instanceId =>
    simp only [step] at h
    split at h
    · cases h
      exact hsettles (settles_retryTimer f instanceId _ _) hl hf
    · cases h

theorem step_covered {a : Action} (h : step f a = some g) (ha : AddsCoveredOutput f a = true)
    (hl : Linked f) (hf : Covered f) : Linked g ∧ Covered g :=
  (step_linked h hl).imp_right fun hcovered => hcovered ⟨ha, hf⟩

/-- In every state of a run that adds outputs without a subscription only under
full frames, what an output accepts of an instance's transient events is
admitted by the frame last sent on its open socket. -/
theorem accepted_admitted {f : InstanceEventForwarder} {as : List Action}
    (h : Machine.run step new as = some f)
    (ha : Machine.AllSteps step (fun f a => AddsCoveredOutput f a = true) new as)
    {socket : Nat} {c : InstanceSocket} (hget : f.connections.get? socket = some c)
    (hopen : c.readyState = .opened) :
    ∃ frame, c.sent = some frame ∧ ∀ output, (f.outputs.get? output).isSome →
        ∀ event, FromInstance c.instanceId event → f.outputAccepts output event = true →
          frame.admits event = true := by
  have hinv := Machine.run_invariant_of_steps (I := fun f => Linked f ∧ Covered f)
    (fun _ _ _ hstep hcond hi => step_covered hstep hcond hi.1 hi.2) h ha
    ⟨linked_new, covered_new⟩
  obtain ⟨frame, hsent, hcovers⟩ := hinv.2 socket c hget hopen
  refine ⟨frame, hsent, ?_⟩
  intro output houtput event hevent haccepts
  obtain ⟨subscription, hsub⟩ := Option.isSome_iff_exists.mp houtput
  simp only [outputAccepts, hsub] at haccepts
  exact hcovers output subscription hsub event hevent haccepts

/-- One instance, a viewer of one session, then a second viewer of all deltas. -/
def scopedRun : List Action :=
  [.instances [("inst_a", some "ws://a")], .addOutput 0 ⟨true, false⟩, .opened 0,
    .setOutputSubscription 0 ⟨none, ⟨false, []⟩, false, [⟨"inst_a", "session_1"⟩]⟩,
    .addOutput 1 ⟨true, false⟩, .setOutputSubscription 1 ⟨none, ⟨true, []⟩, false, []⟩]

def instanceDelta : EventEnvelope :=
  ⟨MessageDelta, AiSessionEventTopic, ⟨some "inst_a", some "session_2"⟩,
    ⟨none, some "inst_a", []⟩⟩

theorem accepted_admitted_scoped :
    ∃ f c frame, Machine.run step new scopedRun = some f ∧ f.connections.get? 0 = some c ∧
      c.sent = some frame ∧ f.outputAccepts 1 instanceDelta = true ∧
      frame.admits instanceDelta = true := by
  obtain ⟨frame, hsent, hadmits⟩ := @accepted_admitted _ scopedRun rfl (by decide) 0 _ rfl rfl
  refine ⟨_, _, frame, rfl, rfl, hsent, by decide, ?_⟩
  exact hadmits 1 rfl instanceDelta ⟨by decide, rfl, by decide⟩ (by decide)

/-- The first viewer subscribed to one session; the second output, added later,
is an older control plane that sends no subscription. -/
def legacyRun : List Action :=
  [.instances [("inst_a", some "ws://a")], .addOutput 0 ⟨true, false⟩, .opened 0,
    .setOutputSubscription 0 ⟨none, ⟨false, []⟩, false, [⟨"inst_a", "session_1"⟩]⟩,
    .addOutput 1 ⟨false, false⟩]

/-- The second output accepts every delta; the frame sent to the instance admits none. -/
theorem accepted_not_admitted :
    ∃ f c frame, Machine.run step new legacyRun = some f ∧ f.connections.get? 0 = some c ∧
      c.readyState = .opened ∧ c.sent = some frame ∧
      f.outputAccepts 1 instanceDelta = true ∧ frame.admits instanceDelta = false := by
  refine ⟨_, _, _, rfl, rfl, rfl, rfl, ?_⟩
  decide

/-- In every run the sockets by instance and the connections agree, and no instance has two
connections that are open or still connecting. -/
theorem one_live_connection {f : InstanceEventForwarder} {as : List Action}
    (h : Machine.run step new as = some f) :
    Linked f ∧ ∀ s₁ s₂ c₁ c₂, f.connections.get? s₁ = some c₁ → f.connections.get? s₂ = some c₂ →
      c₁.readyState.live = true → c₂.readyState.live = true → c₁.instanceId = c₂.instanceId →
      s₁ = s₂ := by
  have hlinked := Machine.run_invariant (I := Linked)
    (fun _ _ _ hstep hl => (step_linked hstep hl).1) h linked_new
  refine ⟨hlinked, fun s₁ s₂ c₁ c₂ h₁ h₂ hlive₁ hlive₂ hsame => ?_⟩
  have hcurrent := hlinked.current s₁ c₁ h₁ hlive₁
  rw [hsame, hlinked.current s₂ c₂ h₂ hlive₂] at hcurrent
  exact (Option.some_inj.mp hcurrent).symm

/-- The url of the instance changes, and the new connection is lost and made again. -/
def movedRun : List Action :=
  scopedRun ++ [.instances [("inst_a", some "ws://b")], .sync, .opened 1, .closed 0, .closed 1,
    .retryTimer "inst_a"]

theorem one_live_connection_scoped : ∃ f, Machine.run step new movedRun = some f ∧
    f.sockets.get? "inst_a" = some 2 ∧ f.connections.keys = [0, 1, 2] ∧ Linked f ∧
    ∀ s c, f.connections.get? s = some c → c.readyState.live = true →
      c.instanceId = "inst_a" → s = 2 := by
  obtain ⟨f, hrun, hsocket, hkeys, c, hget, hlive, hid⟩ : ∃ f, Machine.run step new movedRun = some f ∧
      f.sockets.get? "inst_a" = some 2 ∧ f.connections.keys = [0, 1, 2] ∧ ∃ c,
      f.connections.get? 2 = some c ∧ c.readyState.live = true ∧ c.instanceId = "inst_a" :=
    ⟨_, rfl, rfl, rfl, _, rfl, rfl, rfl⟩
  have hone := one_live_connection hrun
  exact ⟨f, hrun, hsocket, hkeys, hone.1, fun s c' hget' hlive' hid' =>
    hone.2 s 2 c' c hget' hget hlive' hlive (hid'.trans hid.symm)⟩

end InstanceEventForwarder

end TaskHandoff.Events
