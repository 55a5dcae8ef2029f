import Mathlib
import TaskHandoff.Lib.Machine
import TaskHandoff.AiSessions.Stream

/-! # The session authority of an instance

`AiSessionAuthority` turns the snapshots of an instance into the events of its
stream and keeps the recent ones for consumers that fell behind. The stream's
revision is a `u64` and taken as unbounded; timestamps and trace ids are chosen
by the environment.
-/

namespace TaskHandoff.AiSessions

variable {δ : Type}

/-! ## The snapshots of an instance -/

/-- What the store lists: the values of its map from session id to session. -/
structure SessionListing (δ : Type) where
  sessions : List (AiSessionSummary δ)
  distinct : (sessions.map AiSessionSummary.id).Nodup

/-- A snapshot as the instance takes it. -/
structure AuthoritySnapshot (δ : Type) extends AiSessionsSnapshot δ where
  distinct : (sessions.map AiSessionSummary.id).Nodup
  running : runningCount = countStatus .running sessions
  waiting : waitingCount = countStatus .waiting sessions
  stale : staleCount = 0

def boundSnapshot (listing : SessionListing δ) (isBound : AiSessionSummary δ → Bool)
    (limit : Nat) (updatedAt : String) : AuthoritySnapshot δ where
  toAiSessionsSnapshot := snapshotOf ((listing.sessions.filter isBound).take limit) 0 updatedAt
  distinct :=
    (((List.take_sublist limit _).trans List.filter_sublist).map _).nodup listing.distinct
  running := rfl
  waiting := rfl
  stale := rfl

def withoutAgentRunMemberSessions (snapshot : AuthoritySnapshot δ) (memberIds : List String) :
    AuthoritySnapshot δ where
  toAiSessionsSnapshot :=
    snapshotOf (snapshot.sessions.filter fun session => session.id ∉ memberIds) 0
      snapshot.updatedAt
  distinct := (List.filter_sublist.map _).nodup snapshot.distinct
  running := rfl
  waiting := rfl
  stale := rfl

def AI_SESSION_SNAPSHOT_LIMIT : Nat := 150

/-- The only source of the snapshots given to `prepare`. -/
def aiSessionsSnapshot (listing : SessionListing δ) (isBound : AiSessionSummary δ → Bool)
    (memberIds : List String) (updatedAt : String) : AuthoritySnapshot δ :=
  withoutAgentRunMemberSessions
    (boundSnapshot listing isBound AI_SESSION_SNAPSHOT_LIMIT updatedAt) memberIds

/-! ## The authority -/

def EVENT_RETENTION_MS : Int := 60 * 60 * 1000

structure RetainedAiSessionEvent (δ : Type) where
  event : AiSessionStreamEvent δ
  revision : Nat
  createdAtMs : Int

structure AiSessionAuthority (δ : Type) where
  instanceId : String
  streamId : String
  revision : Nat
  lastEventAt : String
  lastSnapshot : Option (AuthoritySnapshot δ)
  history : List (RetainedAiSessionEvent δ)

/-- What one call of `event_meta` and `remember` reads from its surroundings. -/
structure Stamp where
  generatedAt : String
  traceId : String
  nodeId : Option String
  nowMs : Int

structure AiSessionDeltaResponse (δ : Type) where
  streamId : String
  instanceId : String
  sinceRevision : Nat
  latestRevision : Nat
  earliestRetainedRevision : Nat
  syncRequired : Bool
  events : List (AiSessionStreamEvent δ)

def projectAuthorityChange [DecidableEq δ] (previous : Option (AuthoritySnapshot δ))
    (next : AuthoritySnapshot δ) : Option (AiSessionStreamChange δ) :=
  match previous with
  | none => some (.snapshot next.toAiSessionsSnapshot)
  | some previous =>
    let upserted := Keyed.changed AiSessionSummary.id previous.sessions next.sessions
    let removed := Keyed.gone AiSessionSummary.id previous.sessions next.sessions
    if upserted.isEmpty && removed.isEmpty then none else some (.patch upserted removed)

namespace AiSessionAuthority

def new (instanceId streamId startedAt : String) : AiSessionAuthority δ where
  instanceId := instanceId
  streamId := streamId
  revision := 0
  lastEventAt := startedAt
  lastSnapshot := none
  history := []

variable (authority : AiSessionAuthority δ)

def state (snapshot : AiSessionsSnapshot δ) : AiSessionsState δ where
  streamId := authority.streamId
  revision := authority.revision
  lastEventAt := authority.lastEventAt
  snapshot := snapshot

def earliestRetainedRevision : Nat :=
  match authority.history.head? with
  | some retained => retained.revision
  | none => authority.revision + 1

def eventMeta (reason : String) (stamp : Stamp) : AiSessionEventMeta where
  streamId := authority.streamId
  instanceId := authority.instanceId
  nodeId := stamp.nodeId
  revision := authority.revision
  previousRevision := if 0 < authority.revision then some (authority.revision - 1) else none
  traceId := stamp.traceId
  generatedAt := stamp.generatedAt
  reason := reason

def remember (event : AiSessionStreamEvent δ) (nowMs : Int) : AiSessionAuthority δ :=
  { authority with
    history :=
      authority.history.dropWhile
          (fun retained => retained.createdAtMs < nowMs - EVENT_RETENTION_MS) ++
        [⟨event, authority.revision, nowMs⟩] }

def prepare [DecidableEq δ] (authority : AiSessionAuthority δ) (snapshot : AuthoritySnapshot δ)
    (reason : String) (stamp : Stamp) : AiSessionAuthority δ × Option (AiSessionStreamEvent δ) :=
  match projectAuthorityChange authority.lastSnapshot snapshot with
  | none => (authority, none)
  | some change =>
    let authority := { authority with revision := authority.revision + 1 }
    let event := ⟨authority.eventMeta reason stamp, change⟩
    let authority :=
      { authority with lastSnapshot := some snapshot, lastEventAt := stamp.generatedAt }
    (authority.remember event stamp.nowMs, some event)

def deltaResponse (sinceRevision : Nat) (syncRequired : Bool)
    (events : List (AiSessionStreamEvent δ)) : AiSessionDeltaResponse δ where
  streamId := authority.streamId
  instanceId := authority.instanceId
  sinceRevision := sinceRevision
  latestRevision := authority.revision
  earliestRetainedRevision := authority.earliestRetainedRevision
  syncRequired := syncRequired
  events := events

def delta (streamId : String) (sinceRevision : Nat) : AiSessionDeltaResponse δ :=
  if streamId ≠ authority.streamId ∨ authority.revision < sinceRevision then
    authority.deltaResponse sinceRevision true []
  else if sinceRevision = authority.revision then authority.deltaResponse sinceRevision false []
  else
    let events := authority.history.filter fun retained => sinceRevision < retained.revision
    let syncRequired :=
      match events.head? with
      | none => true
      | some first => first.revision ≠ sinceRevision + 1
    authority.deltaResponse sinceRevision syncRequired
      (if syncRequired then [] else events.map RetainedAiSessionEvent.event)

/-- The state route: the snapshot last published, or the current one before the
first publication. -/
def publishedState (current : AuthoritySnapshot δ) : AiSessionsState δ :=
  authority.state ((authority.lastSnapshot.getD current).toAiSessionsSnapshot)

end AiSessionAuthority

end TaskHandoff.AiSessions
