import TaskHandoff.Lib.KeyedPatch

/-! # The session stream

An instance publishes its session list as a stream of revisions. Consumers hold
a projection of one revision and fold the events of the stream over it; an event
that does not continue the projection is ignored, or reported as a gap.
-/

namespace TaskHandoff.AiSessions

/-! ## Sessions and snapshots -/

inductive AiSessionLifecycle where
  | running
  | waiting
  | idle
  | failed
deriving DecidableEq

inductive AiSessionLineage where
  | fork (parentProviderSessionId : String) (throughTurnId : Option String)
  | subagent (parentProviderSessionId : String)
deriving DecidableEq

/-- A session of the list projection. `detail` is everything the stream carries
and compares but never looks into. -/
structure AiSessionSummary (δ : Type) where
  id : String
  status : AiSessionLifecycle
  lineage : Option AiSessionLineage
  detail : δ
deriving DecidableEq

structure AiSessionsSnapshot (δ : Type) where
  runningCount : Nat
  waitingCount : Nat
  staleCount : Nat
  sessions : List (AiSessionSummary δ)
  updatedAt : String
deriving DecidableEq

structure AiSessionsState (δ : Type) where
  streamId : String
  revision : Nat
  lastEventAt : String
  snapshot : AiSessionsSnapshot δ
deriving DecidableEq

variable {δ : Type}

def countStatus (status : AiSessionLifecycle) (sessions : List (AiSessionSummary δ)) : Nat :=
  (sessions.filter fun session => session.status = status).length

theorem countStatus_perm {sessions sessions' : List (AiSessionSummary δ)}
    (h : sessions.Perm sessions') (status : AiSessionLifecycle) :
    countStatus status sessions = countStatus status sessions' :=
  (h.filter _).length_eq

/-- A snapshot with its counts taken from the sessions. -/
def snapshotOf (sessions : List (AiSessionSummary δ)) (staleCount : Nat) (updatedAt : String) :
    AiSessionsSnapshot δ where
  runningCount := countStatus .running sessions
  waitingCount := countStatus .waiting sessions
  staleCount := staleCount
  sessions := sessions
  updatedAt := updatedAt

/-- The map from session id to session. -/
def AiSessionsSnapshot.byId (snapshot : AiSessionsSnapshot δ) :
    OrderedMap String (AiSessionSummary δ) :=
  Keyed.index AiSessionSummary.id snapshot.sessions

/-! ## Events -/

structure AiSessionEventMeta where
  streamId : String
  instanceId : String
  nodeId : Option String
  revision : Nat
  previousRevision : Option Nat
  traceId : String
  generatedAt : String
  reason : String

inductive AiSessionStreamChange (δ : Type) where
  | snapshot (snapshot : AiSessionsSnapshot δ)
  | patch (upserted : List (AiSessionSummary δ)) (removed : List String)
  | removed (sessionIds : List String) (expiresAt : String)

/-- An event: its payload's meta and what its type adds to it. -/
structure AiSessionStreamEvent (δ : Type) where
  eventMeta : AiSessionEventMeta
  change : AiSessionStreamChange δ

inductive AiSessionStreamApplyResult (δ : Type) where
  | applied (projection : AiSessionsState δ)
  | duplicate (projection : AiSessionsState δ)
  | stale (projection : AiSessionsState δ)
  | gap (projection : AiSessionsState δ) (expectedRevision receivedRevision : Nat)
  | snapshotRequired (projection : Option (AiSessionsState δ)) (streamId : String)

namespace AiSessionStreamApplyResult

/-- The projection the consumer holds afterwards. -/
def projection : AiSessionStreamApplyResult δ → Option (AiSessionsState δ)
  | applied projection => some projection
  | duplicate projection => some projection
  | stale projection => some projection
  | gap projection _ _ => some projection
  | snapshotRequired projection _ => projection

/-- The event could not be placed: something before it is missing. -/
def missed : AiSessionStreamApplyResult δ → Bool
  | gap _ _ _ => true
  | snapshotRequired _ _ => true
  | _ => false

end AiSessionStreamApplyResult

/-! ## Folding events -/

/-- The projection a snapshot event installs. -/
def AiSessionEventMeta.install (eventMeta : AiSessionEventMeta) (snapshot : AiSessionsSnapshot δ) :
    AiSessionsState δ where
  streamId := eventMeta.streamId
  revision := eventMeta.revision
  lastEventAt := eventMeta.generatedAt
  snapshot := snapshot

/-- The sessions after a patch or a removal, in the order of the map. -/
def changeSessions (sessions : List (AiSessionSummary δ)) :
    AiSessionStreamChange δ → List (AiSessionSummary δ)
  | .snapshot snapshot => snapshot.sessions
  | .patch upserted removed =>
    (Keyed.remove (Keyed.upsert AiSessionSummary.id
      (Keyed.index AiSessionSummary.id sessions) upserted) removed).values
  | .removed sessionIds _ =>
    (Keyed.remove (Keyed.index AiSessionSummary.id sessions) sessionIds).values

/-- A patch or removal on a projection. -/
def advance (held : AiSessionsState δ) (event : AiSessionStreamEvent δ) :
    AiSessionStreamApplyResult δ :=
  let eventMeta := event.eventMeta
  if held.streamId ≠ eventMeta.streamId then .snapshotRequired (some held) eventMeta.streamId
  else if eventMeta.revision = held.revision then .duplicate held
  else if eventMeta.revision < held.revision then .stale held
  else if eventMeta.revision ≠ held.revision + 1 ∨
      eventMeta.previousRevision ≠ some held.revision then
    .gap held (held.revision + 1) eventMeta.revision
  else
    .applied (eventMeta.install
      (snapshotOf (changeSessions held.snapshot.sessions event.change) held.snapshot.staleCount
        eventMeta.generatedAt))

def applyAiSessionStreamEvent (current : Option (AiSessionsState δ))
    (event : AiSessionStreamEvent δ) : AiSessionStreamApplyResult δ :=
  let eventMeta := event.eventMeta
  match event.change with
  | .snapshot snapshot =>
    match current with
    | none => .applied (eventMeta.install snapshot)
    | some held =>
      if held.streamId = eventMeta.streamId ∧ eventMeta.revision = held.revision then
        .duplicate held
      else if held.streamId = eventMeta.streamId ∧ eventMeta.revision < held.revision then
        .stale held
      else .applied (eventMeta.install snapshot)
  | .patch _ _ | .removed _ _ =>
    match current with
    | none => .snapshotRequired none eventMeta.streamId
    | some held => advance held event

/-- The projection after a list of events. -/
def foldEvents (current : Option (AiSessionsState δ)) (events : List (AiSessionStreamEvent δ)) :
    Option (AiSessionsState δ) :=
  events.foldl (fun held event => (applyAiSessionStreamEvent held event).projection) current

/-- No event of the list reports that something is missing. -/
def GapFree : Option (AiSessionsState δ) → List (AiSessionStreamEvent δ) → Prop
  | _, [] => True
  | current, event :: events =>
    (applyAiSessionStreamEvent current event).missed = false ∧
      GapFree (applyAiSessionStreamEvent current event).projection events

instance GapFree.decidable : (current : Option (AiSessionsState δ)) →
    (events : List (AiSessionStreamEvent δ)) → Decidable (GapFree current events)
  | _, [] => inferInstanceAs (Decidable True)
  | current, event :: events =>
    have := GapFree.decidable (applyAiSessionStreamEvent current event).projection events
    inferInstanceAs (Decidable (_ ∧ _))

theorem foldEvents_append (current : Option (AiSessionsState δ))
    (events events' : List (AiSessionStreamEvent δ)) :
    foldEvents current (events ++ events') = foldEvents (foldEvents current events) events' := by
  simp [foldEvents]

variable {current : Option (AiSessionsState δ)}

theorem gapFree_append {events events' : List (AiSessionStreamEvent δ)} :
    GapFree current (events ++ events') ↔
      GapFree current events ∧ GapFree (foldEvents current events) events' := by
  induction events generalizing current with
  | nil => simp [GapFree, foldEvents]
  | cons event events ih =>
    simp only [List.cons_append, GapFree, ih, and_assoc]
    rfl

theorem advance_cases (held : AiSessionsState δ) (event : AiSessionStreamEvent δ) :
    (advance held event).projection = some held ∨
    (held.streamId = event.eventMeta.streamId ∧ event.eventMeta.revision = held.revision + 1 ∧
      event.eventMeta.previousRevision = some held.revision ∧
      advance held event = .applied (event.eventMeta.install
        (snapshotOf (changeSessions held.snapshot.sessions event.change) held.snapshot.staleCount
          event.eventMeta.generatedAt))) := by
  unfold advance
  simp only
  split_ifs with hstream hduplicate hstale hgap
  · exact Or.inl rfl
  · exact Or.inl rfl
  · exact Or.inl rfl
  · exact Or.inl rfl
  · obtain ⟨hnext, hprevious⟩ := not_or.mp hgap
    exact Or.inr ⟨not_not.mp hstream, not_not.mp hnext, not_not.mp hprevious, rfl⟩

/-- An event changes the projection only by applying: a snapshot installs itself,
any other event continues the held revision of its stream. -/
theorem apply_cases (current : Option (AiSessionsState δ)) (event : AiSessionStreamEvent δ) :
    (applyAiSessionStreamEvent current event).projection = current ∨
    (∃ snapshot, event.change = .snapshot snapshot ∧
      applyAiSessionStreamEvent current event = .applied (event.eventMeta.install snapshot)) ∨
    (∃ held, current = some held ∧ (∀ snapshot, event.change ≠ .snapshot snapshot) ∧
      held.streamId = event.eventMeta.streamId ∧
      event.eventMeta.revision = held.revision + 1 ∧
      event.eventMeta.previousRevision = some held.revision ∧
      applyAiSessionStreamEvent current event = .applied (event.eventMeta.install
        (snapshotOf (changeSessions held.snapshot.sessions event.change) held.snapshot.staleCount
          event.eventMeta.generatedAt))) := by
  obtain ⟨eventMeta, change⟩ := event
  cases change with
  | snapshot snapshot =>
    cases current with
    | none => exact Or.inr (Or.inl ⟨snapshot, rfl, rfl⟩)
    | some held =>
      unfold applyAiSessionStreamEvent
      simp only
      split_ifs with hsame hstale
      · exact Or.inl rfl
      · exact Or.inl rfl
      · exact Or.inr (Or.inl ⟨snapshot, rfl, rfl⟩)
  | patch upserted removed =>
    cases current with
    | none => exact Or.inl rfl
    | some held =>
      rcases advance_cases held ⟨eventMeta, .patch upserted removed⟩ with
        hsame | ⟨hstream, hnext, hprevious, hadvance⟩
      · exact Or.inl hsame
      · exact Or.inr (Or.inr ⟨held, rfl, by simp, hstream, hnext, hprevious, hadvance⟩)
  | removed sessionIds expiresAt =>
    cases current with
    | none => exact Or.inl rfl
    | some held =>
      rcases advance_cases held ⟨eventMeta, .removed sessionIds expiresAt⟩ with
        hsame | ⟨hstream, hnext, hprevious, hadvance⟩
      · exact Or.inl hsame
      · exact Or.inr (Or.inr ⟨held, rfl, by simp, hstream, hnext, hprevious, hadvance⟩)

/-! ## Applied events -/

variable {event : AiSessionStreamEvent δ}

variable {projection held : AiSessionsState δ}

theorem applied_meta (h : applyAiSessionStreamEvent current event = .applied projection) :
    projection.streamId = event.eventMeta.streamId ∧
      projection.revision = event.eventMeta.revision := by
  unfold applyAiSessionStreamEvent at h
  simp only at h
  split at h
  · split at h
    · exact AiSessionStreamApplyResult.applied.inj h ▸ ⟨rfl, rfl⟩
    · split_ifs at h
      exact AiSessionStreamApplyResult.applied.inj h ▸ ⟨rfl, rfl⟩
  all_goals
    split at h
    · cases h
    unfold advance at h
    simp only at h
    split_ifs at h
    exact AiSessionStreamApplyResult.applied.inj h ▸ ⟨rfl, rfl⟩

theorem applied_lt (h : applyAiSessionStreamEvent (some held) event = .applied projection)
    (hstream : held.streamId = event.eventMeta.streamId) :
    held.revision < event.eventMeta.revision := by
  unfold applyAiSessionStreamEvent at h
  simp only at h
  split at h
  · split_ifs at h with hsame hstale
    have hne : event.eventMeta.revision ≠ held.revision := fun heq => hsame ⟨hstream, heq⟩
    have hnlt : ¬ event.eventMeta.revision < held.revision := fun hlt => hstale ⟨hstream, hlt⟩
    omega
  all_goals
    unfold advance at h
    simp only at h
    split_ifs at h
    omega

variable (h : applyAiSessionStreamEvent current event = .applied projection)

include h

theorem applied_continues
    (hpatch : ∀ snapshot, event.change ≠ .snapshot snapshot) :
    ∃ held, current = some held ∧ held.streamId = event.eventMeta.streamId ∧
      event.eventMeta.revision = held.revision + 1 := by
  rcases apply_cases current event with
    hsame | ⟨snapshot, hsnapshot, -⟩ | ⟨held, hheld, -, hstream, hnext, -, -⟩
  · rw [h] at hsame
    obtain ⟨hstream, hrevision⟩ := applied_meta h
    have hlt := applied_lt (hsame ▸ h) hstream
    omega
  · exact (hpatch snapshot hsnapshot).elim
  · exact ⟨held, hheld, hstream, hnext⟩

theorem applied_snapshot {snapshot : AiSessionsSnapshot δ}
    (hsnapshot : event.change = .snapshot snapshot)
    (holder : held.revision < event.eventMeta.revision) :
    applyAiSessionStreamEvent (some held) event = .applied projection := by
  have hinstall : projection = event.eventMeta.install snapshot := by
    unfold applyAiSessionStreamEvent at h
    simp only [hsnapshot] at h
    split at h
    · exact (AiSessionStreamApplyResult.applied.inj h).symm
    · split_ifs at h
      exact (AiSessionStreamApplyResult.applied.inj h).symm
  unfold applyAiSessionStreamEvent
  simp only [hsnapshot]
  rw [if_neg (by omega), if_neg (by omega), hinstall]

end TaskHandoff.AiSessions
