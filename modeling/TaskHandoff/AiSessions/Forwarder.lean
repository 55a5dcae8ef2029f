import TaskHandoff.AiSessions.Hierarchy
import TaskHandoff.Lib.Machine

/-! # The event forwarder of a node

The forwarder folds the session stream of every instance into a projection of
its own and passes the events on to an output. An output that cannot keep up
gets no further patches: the latest snapshot of the instance waits in a map and
a timer sends it once the output has drained. An output that stays too slow, or
an event it cannot carry, closes the output.

One output is modelled, with every instance that feeds it. What the socket
reports is chosen by the environment at each send.
-/

namespace TaskHandoff.AiSessions

variable {δ : Type}

/-! ## Limits and readings -/

def MAX_EVENT_OUTPUT_BUFFERED_BYTES : Nat := 16 * 1024 * 1024

def AI_SESSION_AUTHORITY_BACKPRESSURE_BYTES : Nat := 256 * 1024

def AI_SESSION_AUTHORITY_MAX_EVENT_BYTES : Nat := 4 * 1024 * 1024

/-- What one send observes: `bufferedAmount` where it decides to coalesce and
again where it checks the limit, the size of the frame, and a throwing `send`. -/
structure Reading where
  coalesceBuffered : Nat
  limitBuffered : Nat
  encodedBytes : Nat
  sendFails : Bool

/-! ## State -/

/-- The forwarder as one of its outputs sees it. `sent` is what went out on the
socket, by instance. -/
structure EventForwarder (δ : Type) where
  aiSessionProjectionByInstance : OrderedMap String (AiSessionsState δ)
  /-- The output's `readyState` is `OPEN` and it is still registered. -/
  isOpen : Bool
  subagents : Bool
  sessionAuthorityReplayed : Bool
  pendingAiSessionAuthority : OrderedMap String (AiSessionStreamEvent δ)
  pendingAiSessionAuthorityFlush : Bool
  sent : List (String × AiSessionStreamEvent δ)

namespace EventForwarder

variable (w : EventForwarder δ)
variable (instanceId : String)

/-- The events sent for one instance. -/
def sentFor : List (AiSessionStreamEvent δ) :=
  (w.sent.filter fun entry => entry.1 = instanceId).map Prod.snd

/-- `output.close(..)`: the socket leaves `OPEN` at once. -/
def closeOutput : EventForwarder δ :=
  { w with isOpen := false }

/-! ## Sending -/

/-- The end of `sendOutput`, and all of it for what is no session event. -/
def sendEncoded (reading : Reading)
    (entries : List (String × AiSessionStreamEvent δ)) : EventForwarder δ :=
  if w.isOpen then
    if MAX_EVENT_OUTPUT_BUFFERED_BYTES < reading.limitBuffered + reading.encodedBytes then
      w.closeOutput
    else if reading.sendFails then w.closeOutput
    else { w with sent := w.sent ++ entries }
  else w

def shouldCoalesceAiSessionAuthority (reading : Reading) : Bool :=
  w.pendingAiSessionAuthority.contains instanceId ||
    decide (AI_SESSION_AUTHORITY_BACKPRESSURE_BYTES ≤ reading.coalesceBuffered)

variable (event : AiSessionStreamEvent δ)

/-- The projection as the snapshot of an event, if the event is what it is at. -/
def authoritySnapshotPayload (projection : AiSessionsState δ) : Option (AiSessionStreamEvent δ) :=
  if event.eventMeta.streamId ≠ projection.streamId ∨
      event.eventMeta.revision ≠ projection.revision then none
  else some ⟨event.eventMeta, .snapshot projection.snapshot⟩

/-- `none` where the source answers `false`. Scheduling keeps a running timer. -/
def deferAiSessionAuthority : Option (EventForwarder δ) :=
  match w.aiSessionProjectionByInstance.get? instanceId with
  | none => none
  | some projection =>
    match authoritySnapshotPayload event projection with
    | none => none
    | some payload =>
      some { w with
        pendingAiSessionAuthority := w.pendingAiSessionAuthority.set instanceId payload
        pendingAiSessionAuthorityFlush := true }

def isSnapshot : Bool :=
  match event.change with
  | .snapshot _ => true
  | _ => false

/-- `sendOutput` for an authority event after the decision not to coalesce it. -/
def sendUncoalesced (reading : Reading) : EventForwarder δ :=
  if AI_SESSION_AUTHORITY_MAX_EVENT_BYTES < reading.encodedBytes then
    match (if isSnapshot event then none else w.deferAiSessionAuthority instanceId event) with
    | some deferred => deferred
    | none => w.closeOutput
  else w.sendEncoded reading [(instanceId, event)]

def sendOutput (reading : Reading) : EventForwarder δ :=
  if w.isOpen then
    match (if w.shouldCoalesceAiSessionAuthority instanceId reading then
        w.deferAiSessionAuthority instanceId event else none) with
    | some deferred => deferred
    | none => w.sendUncoalesced instanceId event reading
  else w

def sendForwarded (reading : Reading) : EventForwarder δ :=
  w.sendOutput instanceId (projectAiSessionStreamEventForConsumer w.subagents event) reading

/-! ## Handlers -/

/-- The projection is set only by an event that could be placed. -/
def recordAiSessionEvent : EventForwarder δ :=
  match applyAiSessionStreamEvent (w.aiSessionProjectionByInstance.get? instanceId) event with
  | .applied projection | .duplicate projection | .stale projection =>
    { w with
      aiSessionProjectionByInstance :=
        w.aiSessionProjectionByInstance.set instanceId projection }
  | .gap _ _ _ | .snapshotRequired _ _ => w

def onMessage (reading : Reading) : EventForwarder δ :=
  (w.recordAiSessionEvent instanceId event).sendForwarded instanceId event reading

/-- The timer ran: one waiting snapshot is sent, the others wait for the next turn. -/
def flushAiSessionAuthority (bufferedAmount : Nat) (reading : Reading) : EventForwarder δ :=
  match w.pendingAiSessionAuthority.entries with
  | [] => w
  | (instanceId, event) :: rest =>
    if w.isOpen then
      if AI_SESSION_AUTHORITY_BACKPRESSURE_BYTES ≤ bufferedAmount then
        { w with pendingAiSessionAuthorityFlush := true }
      else
        let sent := { w with
          pendingAiSessionAuthority := w.pendingAiSessionAuthority.erase instanceId }.sendForwarded
            instanceId event reading
        if rest.isEmpty then sent else { sent with pendingAiSessionAuthorityFlush := true }
    else { w with pendingAiSessionAuthority := .empty }

/-- The snapshot event a new output is brought up with. -/
def startupSnapshot (instanceId traceId : String) (projection : AiSessionsState δ) :
    AiSessionStreamEvent δ where
  eventMeta :=
    { streamId := projection.streamId
      instanceId := instanceId
      nodeId := none
      revision := projection.revision
      previousRevision := none
      traceId := traceId
      generatedAt := projection.lastEventAt
      reason := "startup" }
  change := .snapshot projection.snapshot

def replayProjections (traceId : String) (readings : String → Reading) :
    List (String × AiSessionsState δ) → EventForwarder δ → EventForwarder δ
  | [], w => w
  | (instanceId, projection) :: rest, w =>
    replayProjections traceId readings rest
      (w.sendForwarded instanceId (startupSnapshot instanceId traceId projection)
        (readings instanceId))

/-- The hellos go first, then a snapshot of every projection. `hellos` are the
observations of the hello frames, one for each. -/
def replaySessionAuthority (hellos : List Reading) (traceId : String)
    (readings : String → Reading) : EventForwarder δ :=
  if w.sessionAuthorityReplayed || !w.isOpen then w
  else
    let greeted := hellos.foldl (fun w reading => w.sendEncoded reading [])
      { w with sessionAuthorityReplayed := true }
    replayProjections traceId readings w.aiSessionProjectionByInstance.entries greeted

/-- The projections of instances that are gone are dropped. -/
def sync (instanceIds : List String) : EventForwarder δ :=
  { w with
    aiSessionProjectionByInstance := Keyed.remove w.aiSessionProjectionByInstance
      (w.aiSessionProjectionByInstance.keys.filter fun instanceId => instanceId ∉ instanceIds) }

/-- `remove` of `addOutput`: the socket closed or failed. -/
def removeOutput : EventForwarder δ :=
  { w with
    isOpen := false
    pendingAiSessionAuthority := .empty
    pendingAiSessionAuthorityFlush := false }

/-! ## Steps -/

inductive Action (δ : Type) where
  | message (instanceId : String) (event : AiSessionStreamEvent δ) (reading : Reading)
  | flushTimer (bufferedAmount : Nat) (reading : Reading)
  | replay (hellos : List Reading) (traceId : String) (readings : String → Reading)
  | setOutputSubscription (subagents : Bool) (hellos : List Reading) (traceId : String)
      (readings : String → Reading)
  /-- Any frame on the output that is no session authority event. -/
  | other (reading : Reading)
  | sync (instanceIds : List String)
  | closed

/-- The timer is the only action that has to be there to happen. -/
def step : Action δ → Option (EventForwarder δ)
  | .message instanceId event reading => some (w.onMessage instanceId event reading)
  | .flushTimer bufferedAmount reading =>
    if w.pendingAiSessionAuthorityFlush then
      some ({ w with pendingAiSessionAuthorityFlush := false }.flushAiSessionAuthority
        bufferedAmount reading)
    else none
  | .replay hellos traceId readings => some (w.replaySessionAuthority hellos traceId readings)
  | .setOutputSubscription subagents hellos traceId readings =>
    some ({ w with subagents := subagents }.replaySessionAuthority hellos traceId readings)
  | .other reading => some (w.sendEncoded reading [])
  | .sync instanceIds => some (w.sync instanceIds)
  | .closed => some w.removeOutput

end EventForwarder

end TaskHandoff.AiSessions
