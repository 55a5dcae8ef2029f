import TaskHandoff.Lib.Machine
import TaskHandoff.AiSessions.Stream

/-! # The control plane's session aggregator

The aggregator folds the streams of all instances into one projection each and
keeps the recent events of each for its own consumers. Its asynchronous methods
(bootstrap, refresh and stream recovery) are split at their awaits, and their
loops into single passes, so that a run may interleave them with everything
else. `Date.now()` reads the next value of a clock. Counters, listeners and logs
are left out.
-/

namespace TaskHandoff.AiSessions

variable {δ : Type}

structure SessionStreamDescriptor where
  streamId : String
  latestRevision : Nat

/-- A stored projection. Two are the same object when their serials agree. -/
structure HeldProjection (δ : Type) where
  serial : Nat
  state : AiSessionsState δ

structure AiSessionHistoryEntry (δ : Type) where
  event : AiSessionStreamEvent δ
  createdAtMs : Int

structure BootstrapEntry (δ : Type) where
  instanceId : String
  streamId : String
  aiSessions : AiSessionsSnapshot δ
  revision : Nat
  lastEventAt : String

/-- What the instance answers to `recoverDelta`. -/
structure RecoveredDelta (δ : Type) where
  streamId : String
  latestRevision : Nat
  syncRequired : Bool
  events : List (AiSessionStreamEvent δ)

/-- Where the loop of a recovery waits, or the events it still has to apply. -/
inductive RecoveryPhase (δ : Type) where
  | awaitingSnapshot
  | awaitingDelta
  | applying (events : List (AiSessionStreamEvent δ)) (latestRevision : Nat)

structure RecoveryRecord (δ : Type) where
  streamId : String
  highWater : Nat
  phase : RecoveryPhase δ

/-- A bootstrap in flight, with the entries left to visit once it is answered. -/
structure BootstrapTask (δ : Type) where
  projectionsAtStart : OrderedMap String (HeldProjection δ)
  entries : Option (List (BootstrapEntry δ)) := none

structure RefreshTask where
  instanceId : String
  projectionAtStart : Option Nat

/-- `ticks` counts the clock readings and `log` records per instance what was
applied; no step reads the log. -/
structure AiSessionAggregator (δ : Type) where
  snapshots : OrderedMap String (HeldProjection δ) := .empty
  history : OrderedMap String (List (AiSessionHistoryEntry δ)) := .empty
  advertisedStreams : OrderedMap String SessionStreamDescriptor := .empty
  recoveries : OrderedMap String (RecoveryRecord δ) := .empty
  bootstraps : List (BootstrapTask δ) := []
  refreshes : List RefreshTask := []
  canRecover : Bool
  ticks : Nat := 0
  serial : Nat := 0
  log : List (AiSessionHistoryEntry δ × AiSessionsState δ) := []

def AI_SESSION_DELTA_RETENTION_MS : Int := 60 * 60 * 1000

namespace AiSessionAggregator

variable (w : AiSessionAggregator δ)
variable (instanceId : String)

def historyOf : List (AiSessionHistoryEntry δ) :=
  (w.history.get? instanceId).getD []

def projectionOf : Option (AiSessionsState δ) :=
  (w.snapshots.get? instanceId).map HeldProjection.state

def serialOf : Option Nat :=
  (w.snapshots.get? instanceId).map HeldProjection.serial

def advertisedStreamId : Option String :=
  (w.advertisedStreams.get? instanceId).map SessionStreamDescriptor.streamId

/-! ## History -/

variable (clock : Nat → Int)

/-- Whether the filter of `pruneHistory` keeps an entry at its own clock reading. -/
def fresh (entry : AiSessionHistoryEntry δ × Nat) : Bool :=
  clock entry.2 - AI_SESSION_DELTA_RETENTION_MS ≤ entry.1.createdAtMs

/-- The filter of `pruneHistory`, which reads the clock again for every entry. -/
def retained (ticks : Nat) (events : List (AiSessionHistoryEntry δ)) :
    List (AiSessionHistoryEntry δ) :=
  ((events.zipIdx ticks).filter (fresh clock)).map Prod.fst

def pruneHistory (w : AiSessionAggregator δ) (instanceId : String) : AiSessionAggregator δ :=
  match w.historyOf instanceId with
  | [] => w
  | events =>
    let kept := retained clock w.ticks events
    { w with
      ticks := w.ticks + events.length
      history := if kept.isEmpty then w.history.erase instanceId
        else w.history.set instanceId kept }

/-- The entries a remembered event joins: none of another stream. -/
def sameStream (events : List (AiSessionHistoryEntry δ)) (event : AiSessionStreamEvent δ) :
    List (AiSessionHistoryEntry δ) :=
  match events with
  | [] => []
  | first :: _ =>
    if first.event.eventMeta.streamId ≠ event.eventMeta.streamId then [] else events

/-- The history `rememberEvent` hands to the pruning pass. -/
def remembered (w : AiSessionAggregator δ) (instanceId : String)
    (event : AiSessionStreamEvent δ) : List (AiSessionHistoryEntry δ) :=
  sameStream (w.historyOf instanceId) event ++ [⟨event, clock w.ticks⟩]

def rememberEvent (w : AiSessionAggregator δ) (instanceId : String)
    (event : AiSessionStreamEvent δ) : AiSessionAggregator δ :=
  pruneHistory clock
    { w with
      ticks := w.ticks + 1
      history := w.history.set instanceId (remembered clock w instanceId event) }
    instanceId

/-! ## Recovery -/

/-- One pass of the recovery loop from its top, up to its next await. -/
def recoveryTurn (record : RecoveryRecord δ) : AiSessionAggregator δ :=
  match w.advertisedStreams.get? instanceId with
  | none => { w with recoveries := w.recoveries.erase instanceId }
  | some descriptor =>
    let record :=
      if record.streamId ≠ descriptor.streamId then
        { record with streamId := descriptor.streamId, highWater := descriptor.latestRevision }
      else record
    let wait (phase : RecoveryPhase δ) : AiSessionAggregator δ :=
      { w with recoveries := w.recoveries.set instanceId { record with phase := phase } }
    match w.projectionOf instanceId with
    | none => wait .awaitingSnapshot
    | some current =>
      if current.streamId ≠ descriptor.streamId then wait .awaitingSnapshot
      else if current.revision < max descriptor.latestRevision record.highWater then
        wait .awaitingDelta
      else { w with recoveries := w.recoveries.erase instanceId }

def recoverStream (instanceId streamId : String) (highWater : Nat) : AiSessionAggregator δ :=
  match w.recoveries.get? instanceId with
  | some existing =>
    let record :=
      if existing.streamId = streamId then
        { existing with highWater := max existing.highWater highWater }
      else { existing with streamId := streamId, highWater := highWater }
    { w with recoveries := w.recoveries.set instanceId record }
  | none =>
    if w.canRecover then recoveryTurn w instanceId ⟨streamId, highWater, .awaitingSnapshot⟩ else w

/-- The end of a pass of the recovery loop: the recovery is over, or goes on. -/
def recoveryCheck (record : RecoveryRecord δ) : AiSessionAggregator δ :=
  match w.projectionOf instanceId, w.advertisedStreams.get? instanceId with
  | some latest, some advertised =>
    if latest.streamId = advertised.streamId ∧
        max advertised.latestRevision record.highWater ≤ latest.revision then
      { w with recoveries := w.recoveries.erase instanceId }
    else recoveryTurn w instanceId record
  | _, _ => recoveryTurn w instanceId record

/-! ## Events -/

/-- The event belongs to another stream than the one its instance advertises. -/
def obsolete (eventMeta : AiSessionEventMeta) : Bool :=
  (w.advertisedStreamId eventMeta.instanceId).any fun streamId => streamId ≠ eventMeta.streamId

/-- The recovery that holds a live event back. -/
def activeRecovery (recovering : Bool) : Option (RecoveryRecord δ) :=
  if recovering then none else w.recoveries.get? instanceId

def store (w : AiSessionAggregator δ) (event : AiSessionStreamEvent δ)
    (projection : AiSessionsState δ) : AiSessionAggregator δ :=
  rememberEvent clock
    { w with
      snapshots := w.snapshots.set event.eventMeta.instanceId ⟨w.serial, projection⟩
      serial := w.serial + 1
      log := w.log ++ [(⟨event, clock w.ticks⟩, projection)] }
    event.eventMeta.instanceId event

def apply (w : AiSessionAggregator δ) (event : AiSessionStreamEvent δ)
    (recovering : Bool) : AiSessionAggregator δ :=
  let eventMeta := event.eventMeta
  if w.obsolete eventMeta then w
  else
    match w.activeRecovery eventMeta.instanceId recovering with
    | some active =>
      if active.streamId = eventMeta.streamId then
        { w with
          recoveries := w.recoveries.set eventMeta.instanceId
            { active with highWater := max active.highWater eventMeta.revision } }
      else w
    | none =>
      match applyAiSessionStreamEvent (w.projectionOf eventMeta.instanceId) event with
      | .applied projection => store clock w event projection
      | .gap _ _ _ | .snapshotRequired _ _ =>
        recoverStream w eventMeta.instanceId eventMeta.streamId eventMeta.revision
      | .duplicate _ | .stale _ => w

/-- The snapshot event made of an answer over HTTP. -/
def snapshotEvent (instanceId streamId : String) (revision : Nat) (lastEventAt traceId : String)
    (snapshot : AiSessionsSnapshot δ) : AiSessionStreamEvent δ where
  eventMeta :=
    { streamId := streamId
      instanceId := instanceId
      nodeId := none
      revision := revision
      previousRevision := none
      traceId := traceId
      generatedAt := lastEventAt
      reason := "startup" }
  change := .snapshot snapshot

/-! ## Deltas -/

structure DeltaResponse (δ : Type) where
  streamId : String
  instanceId : String
  sinceRevision : Nat
  latestRevision : Nat
  earliestRetainedRevision : Nat
  syncRequired : Bool
  events : List (AiSessionStreamEvent δ)

/-- The instance a delta is asked for; without a name there must be only one. -/
def resolveDeltaInstanceId (instanceId : Option String) : Except String String :=
  match instanceId with
  | some instanceId => .ok instanceId
  | none =>
    match w.snapshots.keys with
    | [only] => .ok only
    | _ => .error "AI_SESSION_DELTA_INSTANCE_ID_REQUIRED"

/-- The answer of `delta`, after its pruning pass. -/
def answerDelta (instanceId streamId : String) (sinceRevision : Nat) : DeltaResponse δ :=
  let latestRevision := ((w.projectionOf instanceId).map AiSessionsState.revision).getD 0
  let heldStreamId := ((w.projectionOf instanceId).map AiSessionsState.streamId).getD "unavailable"
  let respond (syncRequired : Bool) (events : List (AiSessionStreamEvent δ)) : DeltaResponse δ :=
    { streamId := heldStreamId
      instanceId := instanceId
      sinceRevision := sinceRevision
      latestRevision := latestRevision
      earliestRetainedRevision :=
        match (w.historyOf instanceId).head? with
        | some first => first.event.eventMeta.revision
        | none => latestRevision + 1
      syncRequired := syncRequired
      events := events }
  if streamId ≠ heldStreamId ∨ latestRevision < sinceRevision then respond true []
  else if sinceRevision = latestRevision then respond false []
  else
    let events := (w.historyOf instanceId).filter fun entry =>
      sinceRevision < entry.event.eventMeta.revision
    match events with
    | [] => respond true []
    | first :: _ =>
      if first.event.eventMeta.revision ≠ sinceRevision + 1 then respond true []
      else respond false (events.map AiSessionHistoryEntry.event)

def delta (w : AiSessionAggregator δ) (instanceId streamId : String)
    (sinceRevision : Nat) : AiSessionAggregator δ × DeltaResponse δ :=
  let w := pruneHistory clock w instanceId
  (w, w.answerDelta instanceId streamId sinceRevision)

/-! ## Steps -/

def removeInstance : AiSessionAggregator δ :=
  { w with
    snapshots := w.snapshots.erase instanceId
    history := w.history.erase instanceId
    advertisedStreams := w.advertisedStreams.erase instanceId }

/-- The first loop of `bootstrapFromInstances`: projections that no instance
stands for any more and that nothing replaced meanwhile. -/
def dropAbsent (projectionsAtStart : List (String × HeldProjection δ)) (present : List String) :
    AiSessionAggregator δ :=
  projectionsAtStart.foldl
    (fun w entry =>
      if entry.1 ∈ present ∨ w.serialOf entry.1 ≠ some entry.2.serial then w
      else w.removeInstance entry.1) w

def bootstrapEntry (w : AiSessionAggregator δ)
    (projectionsAtStart : OrderedMap String (HeldProjection δ)) (entry : BootstrapEntry δ)
    (traceId : String) : AiSessionAggregator δ :=
  if w.serialOf entry.instanceId ≠
      (projectionsAtStart.get? entry.instanceId).map HeldProjection.serial then w
  else if (w.advertisedStreamId entry.instanceId).any fun streamId => streamId ≠ entry.streamId then
    w
  else if (w.projectionOf entry.instanceId).any fun current =>
      current.streamId = entry.streamId && entry.revision ≤ current.revision then w
  else
    apply clock w (snapshotEvent entry.instanceId entry.streamId entry.revision entry.lastEventAt
      ("ais_bootstrap_" ++ traceId) entry.aiSessions) false

/-- `refreshInstance` once the instance has answered. -/
def finishRefresh (w : AiSessionAggregator δ) (task : RefreshTask)
    (state : AiSessionsState δ) (traceId : String) : AiSessionAggregator δ :=
  if w.serialOf task.instanceId ≠ task.projectionAtStart then w
  else if (w.advertisedStreamId task.instanceId).any fun streamId => streamId ≠ state.streamId then
    w
  else if (w.projectionOf task.instanceId).any fun current =>
      current.streamId = state.streamId && state.revision ≤ current.revision then w
  else
    apply clock w (snapshotEvent task.instanceId state.streamId state.revision state.lastEventAt
      ("ais_refresh_" ++ traceId) state.snapshot) false

inductive Action (δ : Type) where
  | handleEvent (event : AiSessionStreamEvent δ)
  | advertiseStream (instanceId : String) (descriptor : SessionStreamDescriptor)
  | removeInstance (instanceId : String)
  | startBootstrap
  | bootstrapAnswered (index : Nat) (instances : List (BootstrapEntry δ))
  | bootstrapEntry (index : Nat) (traceId : String)
  | startRefresh (instanceId : String)
  | refreshAnswered (index : Nat) (state : AiSessionsState δ) (traceId : String)
  | recoverySnapshot (instanceId : String) (state : AiSessionsState δ) (traceId : String)
  | recoveryDelta (instanceId : String) (delta : RecoveredDelta δ)
  | recoveryEvent (instanceId : String)
  | recoveryFailed (instanceId : String)
  | delta (instanceId streamId : String) (sinceRevision : Nat)

/-- What follows an event that a recovery applied. -/
def continueRecovery : AiSessionAggregator δ :=
  match w.recoveries.get? instanceId with
  | none => w
  | some record => w.recoveryCheck instanceId record

def setPhase (record : RecoveryRecord δ) (phase : RecoveryPhase δ) : AiSessionAggregator δ :=
  { w with recoveries := w.recoveries.set instanceId { record with phase := phase } }

def step (w : AiSessionAggregator δ) : Action δ → Option (AiSessionAggregator δ)
  | .handleEvent event => some (apply clock w event false)
  | .advertiseStream instanceId descriptor =>
    some (recoverStream
      { w with advertisedStreams := w.advertisedStreams.set instanceId descriptor }
      instanceId descriptor.streamId descriptor.latestRevision)
  | .removeInstance instanceId => some (w.removeInstance instanceId)
  | .startBootstrap =>
    some { w with bootstraps := w.bootstraps ++ [{ projectionsAtStart := w.snapshots }] }
  | .bootstrapAnswered index instances =>
    match w.bootstraps[index]? with
    | some { projectionsAtStart := atStart, entries := none } =>
      some (dropAbsent
        { w with bootstraps := w.bootstraps.set index ⟨atStart, some instances⟩ }
        atStart.entries (instances.map BootstrapEntry.instanceId))
    | _ => none
  | .bootstrapEntry index traceId =>
    match w.bootstraps[index]? with
    | some { projectionsAtStart := atStart, entries := some (entry :: entries) } =>
      some (AiSessionAggregator.bootstrapEntry clock
        { w with bootstraps := w.bootstraps.set index ⟨atStart, some entries⟩ }
        atStart entry traceId)
    | _ => none
  | .startRefresh instanceId =>
    some { w with refreshes := w.refreshes ++ [⟨instanceId, w.serialOf instanceId⟩] }
  | .refreshAnswered index state traceId =>
    match w.refreshes[index]? with
    | some task =>
      some (finishRefresh clock { w with refreshes := w.refreshes.eraseIdx index } task state
        traceId)
    | none => none
  | .recoverySnapshot instanceId state traceId =>
    match w.recoveries.get? instanceId with
    | some record =>
      match record.phase with
      | .awaitingSnapshot =>
        if w.advertisedStreamId instanceId ≠ some state.streamId then
          some (w.recoveryTurn instanceId record)
        else
          some ((apply clock w (snapshotEvent instanceId state.streamId state.revision
            state.lastEventAt ("ais_recovery_" ++ traceId) state.snapshot)
            true).continueRecovery instanceId)
      | _ => none
    | none => none
  | .recoveryDelta instanceId delta =>
    match w.recoveries.get? instanceId with
    | some record =>
      match record.phase with
      | .awaitingDelta =>
        if w.advertisedStreamId instanceId ≠ some delta.streamId ∨
            record.streamId ≠ delta.streamId then
          some (w.recoveryTurn instanceId record)
        else if delta.syncRequired then
          some (w.setPhase instanceId record .awaitingSnapshot)
        else
          some (w.setPhase instanceId record (.applying delta.events delta.latestRevision))
      | _ => none
    | none => none
  | .recoveryEvent instanceId =>
    match w.recoveries.get? instanceId with
    | some record =>
      match record.phase with
      | .applying [] latestRevision =>
        some (w.recoveryCheck instanceId
          { record with highWater := max record.highWater latestRevision })
      | .applying (event :: events) latestRevision =>
        some (apply clock
          (w.setPhase instanceId record (.applying events latestRevision)) event true)
      | _ => none
    | none => none
  | .recoveryFailed instanceId => some { w with recoveries := w.recoveries.erase instanceId }
  | .delta instanceId streamId sinceRevision =>
    some (AiSessionAggregator.delta clock w instanceId streamId sinceRevision).1

end AiSessionAggregator

end TaskHandoff.AiSessions
