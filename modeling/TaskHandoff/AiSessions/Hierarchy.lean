import TaskHandoff.AiSessions.Stream

/-! # The stream as a consumer reads it

A consumer that does not know subagents receives a flat list: child sessions
keep their record but lose their relation. The projection acts on snapshots and
patches alike, so it commutes with folding events.
-/

namespace TaskHandoff.AiSessions

open AiSessionStreamApplyResult

variable {δ : Type}

/-! ## Projections for a consumer -/

variable (subagents : Bool)

def projectSessionLineageForConsumer (session : AiSessionSummary δ) : AiSessionSummary δ :=
  if subagents then session
  else
    match session.lineage with
    | some (.subagent _) => { session with lineage := none }
    | _ => session

def projectAiSessionsSnapshotForConsumer (snapshot : AiSessionsSnapshot δ) : AiSessionsSnapshot δ :=
  if subagents then snapshot
  else
    { snapshot with
      sessions := snapshot.sessions.map (projectSessionLineageForConsumer subagents) }

def projectAiSessionStreamEventForConsumer (event : AiSessionStreamEvent δ) :
    AiSessionStreamEvent δ :=
  if subagents then event
  else
    match event.change with
    | .removed _ _ => event
    | .snapshot snapshot =>
      { event with
        change := .snapshot (projectAiSessionsSnapshotForConsumer subagents snapshot) }
    | .patch upserted removed =>
      { event with
        change := .patch (upserted.map (projectSessionLineageForConsumer subagents)) removed }

/-- What a consumer that folds the projected events should hold. -/
def AiSessionsState.forConsumer (state : AiSessionsState δ) : AiSessionsState δ :=
  { state with snapshot := projectAiSessionsSnapshotForConsumer subagents state.snapshot }

/-! ## What a projection keeps -/

@[simp] theorem projectSession_id (session : AiSessionSummary δ) :
    (projectSessionLineageForConsumer subagents session).id = session.id := by
  unfold projectSessionLineageForConsumer
  split
  · rfl
  · split <;> rfl

@[simp] theorem projectSession_status (session : AiSessionSummary δ) :
    (projectSessionLineageForConsumer subagents session).status = session.status := by
  unfold projectSessionLineageForConsumer
  split
  · rfl
  · split <;> rfl

theorem map_projectSession_true (sessions : List (AiSessionSummary δ)) :
    sessions.map (projectSessionLineageForConsumer true) = sessions := by
  have hid : ∀ session ∈ sessions,
      projectSessionLineageForConsumer true session = id session := fun _ _ => rfl
  rw [List.map_congr_left hid, List.map_id]

theorem projectSnapshot_sessions (snapshot : AiSessionsSnapshot δ) :
    projectAiSessionsSnapshotForConsumer subagents snapshot =
      { snapshot with
        sessions := snapshot.sessions.map (projectSessionLineageForConsumer subagents) } := by
  cases subagents with
  | false => rfl
  | true => rw [map_projectSession_true]; rfl

theorem projectEvent_meta (event : AiSessionStreamEvent δ) :
    (projectAiSessionStreamEventForConsumer subagents event).eventMeta = event.eventMeta := by
  unfold projectAiSessionStreamEventForConsumer
  split
  · rfl
  · split <;> rfl

variable (eventMeta : AiSessionEventMeta) {event : AiSessionStreamEvent δ}

theorem projectEvent_snapshot (snapshot : AiSessionsSnapshot δ) :
    projectAiSessionStreamEventForConsumer subagents ⟨eventMeta, .snapshot snapshot⟩ =
      ⟨eventMeta, .snapshot (projectAiSessionsSnapshotForConsumer subagents snapshot)⟩ := by
  cases subagents <;> rfl

theorem projectEvent_patch (upserted : List (AiSessionSummary δ)) (removed : List String) :
    projectAiSessionStreamEventForConsumer subagents ⟨eventMeta, .patch upserted removed⟩ =
      ⟨eventMeta, .patch (upserted.map (projectSessionLineageForConsumer subagents)) removed⟩ := by
  cases subagents with
  | false => rfl
  | true => rw [map_projectSession_true]; rfl

theorem projectEvent_removed (sessionIds : List String) (expiresAt : String) :
    projectAiSessionStreamEventForConsumer subagents
        (⟨eventMeta, .removed sessionIds expiresAt⟩ : AiSessionStreamEvent δ) =
      ⟨eventMeta, .removed sessionIds expiresAt⟩ := by
  cases subagents <;> rfl

theorem install_forConsumer (snapshot : AiSessionsSnapshot δ) :
    (eventMeta.install snapshot).forConsumer subagents =
      eventMeta.install (projectAiSessionsSnapshotForConsumer subagents snapshot) := rfl

theorem countStatus_project (status : AiSessionLifecycle) (sessions : List (AiSessionSummary δ)) :
    countStatus status (sessions.map (projectSessionLineageForConsumer subagents)) =
      countStatus status sessions := by
  unfold countStatus
  rw [List.filter_map]
  simp [Function.comp_def]

theorem snapshotOf_project (sessions : List (AiSessionSummary δ))
    (staleCount : Nat) (updatedAt : String) :
    projectAiSessionsSnapshotForConsumer subagents (snapshotOf sessions staleCount updatedAt) =
      snapshotOf (sessions.map (projectSessionLineageForConsumer subagents)) staleCount
        updatedAt := by
  rw [projectSnapshot_sessions]
  simp [snapshotOf, countStatus_project]

/-! ## The projection commutes with folding -/

theorem changeSessions_project (sessions : List (AiSessionSummary δ))
    (event : AiSessionStreamEvent δ) :
    changeSessions (sessions.map (projectSessionLineageForConsumer subagents))
        (projectAiSessionStreamEventForConsumer subagents event).change =
      (changeSessions sessions event.change).map (projectSessionLineageForConsumer subagents) := by
  have hid : ∀ session : AiSessionSummary δ,
      (projectSessionLineageForConsumer subagents session).id = session.id :=
    projectSession_id subagents
  obtain ⟨eventMeta, change⟩ := event
  cases change with
  | snapshot snapshot =>
    rw [projectEvent_snapshot, projectSnapshot_sessions]
    rfl
  | patch upserted removed =>
    rw [projectEvent_patch]
    simp only [changeSessions]
    rw [← Keyed.mapValues_index AiSessionSummary.id hid,
      ← Keyed.mapValues_upsert AiSessionSummary.id hid, ← Keyed.mapValues_remove,
      OrderedMap.values_mapValues]
  | removed sessionIds expiresAt =>
    rw [projectEvent_removed]
    simp only [changeSessions]
    rw [← Keyed.mapValues_index AiSessionSummary.id hid, ← Keyed.mapValues_remove,
      OrderedMap.values_mapValues]

theorem advance_project {held next : AiSessionsState δ} (subagents : Bool)
    (h : advance held event = .applied next) : advance (held.forConsumer subagents)
        (projectAiSessionStreamEventForConsumer subagents event) =
      .applied (next.forConsumer subagents) := by
  have hsessions : (held.forConsumer subagents).snapshot.sessions =
      held.snapshot.sessions.map (projectSessionLineageForConsumer subagents) := by
    simp only [AiSessionsState.forConsumer, projectSnapshot_sessions]
  have hstale : (held.forConsumer subagents).snapshot.staleCount = held.snapshot.staleCount := by
    simp only [AiSessionsState.forConsumer, projectSnapshot_sessions]
  unfold advance at h ⊢
  simp only [projectEvent_meta, hsessions, hstale, changeSessions_project] at h ⊢
  split_ifs at h with hstream hduplicate hlate hgap
  have hnext := (applied.inj h).symm
  rw [if_neg (by exact hstream), if_neg (by exact hduplicate), if_neg (by exact hlate),
    if_neg (by exact hgap), hnext, install_forConsumer, snapshotOf_project]

theorem applied_project {current : Option (AiSessionsState δ)} {next : AiSessionsState δ}
    (subagents : Bool) (h : applyAiSessionStreamEvent current event = .applied next) :
    applyAiSessionStreamEvent (current.map (AiSessionsState.forConsumer subagents))
        (projectAiSessionStreamEventForConsumer subagents event) =
      .applied (next.forConsumer subagents) := by
  obtain ⟨eventMeta, change⟩ := event
  cases change with
  | snapshot snapshot =>
    rw [projectEvent_snapshot]
    cases current with
    | none =>
      have hnext : next = eventMeta.install snapshot := (applied.inj h).symm
      rw [hnext]
      rfl
    | some held =>
      unfold applyAiSessionStreamEvent at h ⊢
      simp only [Option.map_some] at h ⊢
      split_ifs at h with hsame hstale
      have hnext : next = eventMeta.install snapshot := (applied.inj h).symm
      rw [hnext, install_forConsumer, if_neg (by exact hsame), if_neg (by exact hstale)]
  | patch upserted removed =>
    cases current with
    | none => cases h
    | some held =>
      have hadvance := advance_project subagents h
      rw [projectEvent_patch] at hadvance ⊢
      exact hadvance
  | removed sessionIds expiresAt =>
    cases current with
    | none => cases h
    | some held =>
      have hadvance := advance_project subagents h
      rw [projectEvent_removed] at hadvance ⊢
      exact hadvance

end TaskHandoff.AiSessions
