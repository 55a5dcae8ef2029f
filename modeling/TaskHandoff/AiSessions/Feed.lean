import TaskHandoff.AiSessions.Authority

/-! # A lossy feed of one authority

The events of the authority may reach a consumer in any order, any number of
times or not at all, and so may the answers to its recovery requests. Whatever
arrives, a projection of the authority's stream shows the sessions and counts
that were published at its revision.
-/

namespace TaskHandoff.AiSessions

open Machine List Option Keyed

variable {δ : Type}

/-- The authority, one consumer and everything that may still reach it.
`published` records the snapshot of each revision; no step reads it. -/
structure Feed (δ : Type) where
  authority : AiSessionAuthority δ
  published : List (AuthoritySnapshot δ)
  sent : List (AiSessionStreamEvent δ)
  deltas : List (AiSessionDeltaResponse δ)
  states : List (AiSessionsState δ)
  consumer : Option (AiSessionsState δ)

inductive FeedAction (δ : Type) where
  | prepare (snapshot : AuthoritySnapshot δ) (reason : String) (stamp : Stamp)
  | deliver (index : Nat)
  | requestDelta (streamId : String) (sinceRevision : Nat)
  | receiveDelta (index : Nat)
  | requestState (current : AuthoritySnapshot δ)
  | receiveState (index : Nat) (reason : String) (stamp : Stamp)
  | replaceState (index : Nat)

/-- The snapshot event a consumer makes of a recovered state. -/
def stateEvent (state : AiSessionsState δ) (instanceId reason : String) (stamp : Stamp) :
    AiSessionStreamEvent δ where
  eventMeta :=
    { streamId := state.streamId
      instanceId := instanceId
      nodeId := stamp.nodeId
      revision := state.revision
      previousRevision := none
      traceId := stamp.traceId
      generatedAt := stamp.generatedAt
      reason := reason }
  change := .snapshot state.snapshot

namespace Feed

def init (instanceId streamId startedAt : String) (consumer : Option (AiSessionsState δ)) :
    Feed δ where
  authority := .new instanceId streamId startedAt
  published := []
  sent := []
  deltas := []
  states := []
  consumer := consumer

def step [DecidableEq δ] (w : Feed δ) : FeedAction δ → Option (Feed δ)
  | .prepare snapshot reason stamp =>
    match w.authority.prepare snapshot reason stamp with
    | (_, none) => some w
    | (authority, some event) =>
      some { w with
        authority := authority
        published := w.published ++ [snapshot]
        sent := w.sent ++ [event] }
  | .deliver index =>
    match w.sent[index]? with
    | none => none
    | some event => some { w with consumer := foldEvents w.consumer [event] }
  | .requestDelta streamId sinceRevision =>
    some { w with deltas := w.deltas ++ [w.authority.delta streamId sinceRevision] }
  | .receiveDelta index =>
    match w.deltas[index]? with
    | none => none
    | some response => some { w with consumer := foldEvents w.consumer response.events }
  | .requestState current =>
    some { w with states := w.states ++ [w.authority.publishedState current] }
  | .receiveState index reason stamp =>
    match w.states[index]? with
    | none => none
    | some state =>
      some { w with
        consumer := foldEvents w.consumer
          [stateEvent state w.authority.instanceId reason stamp] }
  | .replaceState index =>
    match w.states[index]? with
    | none => none
    | some state => some { w with consumer := some state }

end Feed

/-! ## Projections of a revision -/

/-- The snapshot published at a revision, counted from one. -/
def publishedAt (published : List (AuthoritySnapshot δ)) : Nat → Option (AuthoritySnapshot δ)
  | 0 => none
  | revision + 1 => published[revision]?

variable {published : List (AuthoritySnapshot δ)}

theorem publishedAt_append {revision : Nat} (h : revision ≤ published.length)
    (later : List (AuthoritySnapshot δ)) :
    publishedAt (published ++ later) revision = publishedAt published revision := by
  cases revision with
  | zero => rfl
  | succ revision => exact getElem?_append_left h

/-- The two snapshots show the same sessions under their ids and the same counts. -/
structure Shows (snapshot : AiSessionsSnapshot δ) (source : AuthoritySnapshot δ) : Prop where
  byId : ∀ id, snapshot.byId.get? id = source.byId.get? id
  running : snapshot.runningCount = source.runningCount
  waiting : snapshot.waitingCount = source.waitingCount
  stale : snapshot.staleCount = source.staleCount

theorem Shows.refl (source : AuthoritySnapshot δ) : Shows source.toAiSessionsSnapshot source :=
  ⟨fun _ => rfl, rfl, rfl, rfl⟩

/-- A patch between two published snapshots takes a projection of the first to
one of the second. -/
theorem Shows.patch [DecidableEq δ] {snapshot : AiSessionsSnapshot δ}
    {previous next : AuthoritySnapshot δ} (h : Shows snapshot previous) (updatedAt : String) : Shows
      (snapshotOf (changeSessions snapshot.sessions
          (.patch (changed AiSessionSummary.id previous.sessions next.sessions)
            (gone AiSessionSummary.id previous.sessions next.sessions)))
        snapshot.staleCount updatedAt) next := by
  let m := remove (upsert AiSessionSummary.id (index AiSessionSummary.id snapshot.sessions)
      (changed AiSessionSummary.id previous.sessions next.sessions))
    (gone AiSessionSummary.id previous.sessions next.sessions)
  have hown : Own AiSessionSummary.id m := ((own_index _ _).upsert _ _).remove _ _
  have hget : ∀ id, m.get? id = next.byId.get? id :=
    get?_patch AiSessionSummary.id next.distinct h.byId
  have hperm : m.values.Perm next.sessions := by
    have hentries := (OrderedMap.entries_perm hget).map Prod.snd
    rwa [show next.byId.entries.map Prod.snd = next.sessions from
      values_index _ next.distinct] at hentries
  refine ⟨fun id => ?_, ?_, ?_, ?_⟩
  · rw [← hget id]
    exact congrArg (fun n => n.get? id) (hown.index_values _)
  · rw [next.running]
    exact countStatus_perm hperm .running
  · rw [next.waiting]
    exact countStatus_perm hperm .waiting
  · rw [next.stale]
    exact h.stale.trans previous.stale

/-! ## The invariant -/

/-- A projection of the stream is that of a revision published so far. -/
def Holds (published : List (AuthoritySnapshot δ)) (state : AiSessionsState δ) : Prop :=
  state.revision ≤ published.length ∧
    ∀ source ∈ publishedAt published state.revision, Shows state.snapshot source

/-- An event of the stream, as some `prepare` made it. -/
structure Produced [DecidableEq δ] (streamId : String) (published : List (AuthoritySnapshot δ))
    (event : AiSessionStreamEvent δ) : Prop where
  stream : event.eventMeta.streamId = streamId
  revision : event.eventMeta.revision ≤ published.length
  change : ∃ next, publishedAt published event.eventMeta.revision = some next ∧
    (event.change = .snapshot next.toAiSessionsSnapshot ∨
      ∃ previous, publishedAt published (event.eventMeta.revision - 1) = some previous ∧
        event.change = .patch (changed AiSessionSummary.id previous.sessions next.sessions)
          (gone AiSessionSummary.id previous.sessions next.sessions))

theorem Holds.append {state : AiSessionsState δ} (h : Holds published state)
    (later : List (AuthoritySnapshot δ)) : Holds (published ++ later) state := by
  refine ⟨?_, ?_⟩
  · rw [length_append]
    exact Nat.le_add_right_of_le h.1
  · rw [publishedAt_append h.1]
    exact h.2

variable {streamId : String} {event : AiSessionStreamEvent δ}

theorem Produced.append [DecidableEq δ] (h : Produced streamId published event)
    (later : List (AuthoritySnapshot δ)) : Produced streamId (published ++ later) event := by
  obtain ⟨hstream, hrevision, next, hnext, hchange⟩ := h
  refine ⟨hstream, ?_, next, ?_, ?_⟩
  · rw [length_append]
    exact Nat.le_add_right_of_le hrevision
  · rw [publishedAt_append hrevision, hnext]
  · refine hchange.imp id ?_
    rintro ⟨previous, hprevious, hpatch⟩
    refine ⟨previous, ?_, hpatch⟩
    rw [publishedAt_append (Nat.le_trans (Nat.sub_le _ _) hrevision), hprevious]

/-- What a consumer of the stream may hold. -/
def Sound (streamId : String) (published : List (AuthoritySnapshot δ))
    (consumer : Option (AiSessionsState δ)) : Prop :=
  ∀ state ∈ consumer, state.streamId = streamId → Holds published state

variable {consumer : Option (AiSessionsState δ)} {authority authority : AiSessionAuthority δ}
  {snapshot : AuthoritySnapshot δ}

/-- Folding a produced event keeps the projection sound, whatever it meets there. -/
theorem Sound.apply [DecidableEq δ]
    (h : Sound streamId published consumer) (hevent : Produced streamId published event) :
    Sound streamId published (applyAiSessionStreamEvent consumer event).projection := by
  obtain ⟨hstream, hrevision, next, hnext, hchange⟩ := hevent
  rcases apply_cases consumer event with
    hsame | ⟨snapshot, hsnapshot, happlied⟩ |
    ⟨held, hheld, hpatched, hheldStream, hsucc, -, happlied⟩
  · rw [hsame]
    exact h
  · rw [happlied]
    intro state hstate _
    cases hstate
    refine ⟨hrevision, fun source hsource => ?_⟩
    obtain rfl := some.inj (hnext.symm.trans hsource)
    rcases hchange with hfirst | ⟨previous, -, hpatch⟩
    · rw [hsnapshot] at hfirst
      rw [AiSessionStreamChange.snapshot.inj hfirst]
      exact Shows.refl next
    · rw [hsnapshot] at hpatch
      cases hpatch
  · rw [happlied]
    intro state hstate _
    cases hstate
    refine ⟨hrevision, fun source hsource => ?_⟩
    obtain rfl := some.inj (hnext.symm.trans hsource)
    rcases hchange with hfirst | ⟨previous, hprevious, hpatch⟩
    · exact (hpatched _ hfirst).elim
    have hshows := (h held hheld (hheldStream.trans hstream)).2 previous (by
      rw [hsucc] at hprevious
      exact hprevious)
    rw [hpatch]
    exact hshows.patch event.eventMeta.generatedAt

theorem Sound.fold [DecidableEq δ]
    (h : Sound streamId published consumer) {events : List (AiSessionStreamEvent δ)}
    (hevents : ∀ event ∈ events, Produced streamId published event) :
    Sound streamId published (foldEvents consumer events) := by
  induction events generalizing consumer with
  | nil => exact h
  | cons event events ih =>
    exact ih (h.apply (hevents event mem_cons_self)) fun e he => hevents e (mem_cons_of_mem _ he)

/-! ## The authority's answers -/

theorem AiSessionAuthority.mem_delta {sinceRevision : Nat}
    (h : event ∈ (authority.delta streamId sinceRevision).events) :
    ∃ retained ∈ authority.history, retained.event = event := by
  unfold delta deltaResponse at h
  simp only at h
  split_ifs at h
  · simp at h
  · simp at h
  · simp at h
  · obtain ⟨retained, hmem, rfl⟩ := mem_map.mp h
    exact ⟨retained, (mem_filter.mp hmem).1, rfl⟩

theorem AiSessionAuthority.prepare_some [DecidableEq δ] {authority' : AiSessionAuthority δ}
    {reason : String} {stamp : Stamp}
    (h : authority.prepare snapshot reason stamp = (authority', some event)) :
    authority'.streamId = authority.streamId ∧ authority'.revision = authority.revision + 1 ∧
      authority'.lastSnapshot = some snapshot ∧
      event.eventMeta.streamId = authority.streamId ∧
      event.eventMeta.revision = authority.revision + 1 ∧
      (event.change = .snapshot snapshot.toAiSessionsSnapshot ∨
        ∃ previous, authority.lastSnapshot = some previous ∧ event.change =
            .patch (changed AiSessionSummary.id previous.sessions snapshot.sessions)
              (gone AiSessionSummary.id previous.sessions snapshot.sessions)) ∧
      ∀ retained ∈ authority'.history, retained ∈ authority.history ∨ retained.event = event := by
  unfold prepare at h
  cases hchange : projectAuthorityChange authority.lastSnapshot snapshot with
  | none => simp [hchange] at h
  | some change =>
    simp only [hchange, Prod.mk.injEq, some.injEq] at h
    obtain ⟨rfl, rfl⟩ := h
    refine ⟨rfl, rfl, rfl, rfl, rfl, ?_, ?_⟩
    · unfold projectAuthorityChange at hchange
      cases hlast : authority.lastSnapshot with
      | none =>
        rw [hlast] at hchange
        exact Or.inl (some.inj hchange).symm
      | some previous =>
        rw [hlast] at hchange
        simp only at hchange
        split_ifs at hchange
        exact Or.inr ⟨previous, rfl, (some.inj hchange).symm⟩
    · intro retained hmem
      rcases mem_concat.mp hmem with hkept | rfl
      · exact Or.inl (dropWhile_subset _ hkept)
      · exact Or.inr rfl

namespace Feed

variable [DecidableEq δ]

structure Inv (streamId : String) (w : Feed δ) : Prop where
  stream : w.authority.streamId = streamId
  revision : w.authority.revision = w.published.length
  last : w.authority.lastSnapshot = publishedAt w.published w.authority.revision
  sent : ∀ event ∈ w.sent, Produced streamId w.published event
  history : ∀ retained ∈ w.authority.history, Produced streamId w.published retained.event
  deltas : ∀ response ∈ w.deltas, ∀ event ∈ response.events, Produced streamId w.published event
  states : ∀ state ∈ w.states, state.streamId = streamId ∧ Holds w.published state
  consumer : Sound streamId w.published w.consumer

theorem init_inv (instanceId streamId startedAt : String) {consumer : Option (AiSessionsState δ)}
    (h : ∀ state ∈ consumer, state.streamId ≠ streamId) :
    Inv streamId (init instanceId streamId startedAt consumer) :=
  ⟨rfl, rfl, rfl, fun _ he => (not_mem_nil he).elim, fun _ he => (not_mem_nil he).elim,
    fun _ he => (not_mem_nil he).elim, fun _ he => (not_mem_nil he).elim,
    fun state hstate hsame => (h state hstate hsame).elim⟩

theorem Inv.prepare {w : Feed δ} (h : Inv streamId w) {reason : String} {stamp : Stamp}
    (hprepare : w.authority.prepare snapshot reason stamp = (authority, some event)) :
    Inv streamId { w with
      authority := authority
      published := w.published ++ [snapshot]
      sent := w.sent ++ [event] } := by
  obtain ⟨hstream, hrevision, hlast, heventStream, heventRevision, hchange, hhistory⟩ :=
    AiSessionAuthority.prepare_some hprepare
  have hat : publishedAt (w.published ++ [snapshot]) (w.authority.revision + 1) =
      some snapshot := by
    rw [h.revision]
    exact getElem?_concat_length
  have hproduced : Produced streamId (w.published ++ [snapshot]) event := by
    refine ⟨heventStream.trans h.stream, ?_, snapshot, ?_, ?_⟩
    · rw [heventRevision, h.revision, length_append]
      exact Nat.le_refl _
    · rw [heventRevision, hat]
    · refine hchange.imp id ?_
      rintro ⟨previous, hprevious, hpatch⟩
      refine ⟨previous, ?_, hpatch⟩
      rw [heventRevision, Nat.add_sub_cancel, publishedAt_append (Nat.le_of_eq h.revision),
        ← h.last, hprevious]
  refine ⟨hstream.trans h.stream, ?_, ?_, ?_, ?_, ?_, ?_, ?_⟩
  · rw [hrevision, h.revision, length_append]
    rfl
  · rw [hlast, hrevision, hat]
  · intro e he
    rcases mem_concat.mp he with hold | rfl
    · exact (h.sent e hold).append _
    · exact hproduced
  · intro retained hmem
    rcases hhistory retained hmem with hold | hnew
    · exact (h.history retained hold).append _
    · rw [hnew]
      exact hproduced
  · exact fun response hr e he => (h.deltas response hr e he).append _
  · exact fun state hs => ⟨(h.states state hs).1, (h.states state hs).2.append _⟩
  · exact fun state hs hsame => (h.consumer state hs hsame).append _

theorem step_inv (streamId : String) (w : Feed δ) (a : FeedAction δ) (w' : Feed δ)
    (hstep : w.step a = some w') (h : Inv streamId w) : Inv streamId w' := by
  cases a with
  | prepare snapshot reason stamp =>
    simp only [step] at hstep
    cases hprepare : w.authority.prepare snapshot reason stamp with
    | mk authority event =>
      cases event with
      | none =>
        simp only [hprepare, some.injEq] at hstep
        exact hstep ▸ h
      | some event =>
        simp only [hprepare, some.injEq] at hstep
        exact hstep ▸ h.prepare hprepare
  | deliver index =>
    simp only [step] at hstep
    split at hstep
    · cases hstep
    rename_i event hget
    refine some.inj hstep ▸ { h with consumer := h.consumer.fold fun e he => ?_ }
    rw [mem_singleton.mp he]
    exact h.sent event (mem_of_getElem? hget)
  | requestDelta other sinceRevision =>
    simp only [step, some.injEq] at hstep
    refine hstep ▸ { h with deltas := fun response hr e he => ?_ }
    rcases mem_concat.mp hr with hold | rfl
    · exact h.deltas response hold e he
    obtain ⟨retained, hmem, rfl⟩ := AiSessionAuthority.mem_delta he
    exact h.history retained hmem
  | receiveDelta index =>
    simp only [step] at hstep
    split at hstep
    · cases hstep
    rename_i response hget
    exact some.inj hstep ▸ { h with
      consumer := h.consumer.fold (h.deltas response (mem_of_getElem? hget)) }
  | requestState current =>
    simp only [step, some.injEq] at hstep
    refine hstep ▸ { h with states := fun state hs => ?_ }
    rcases mem_concat.mp hs with hold | rfl
    · exact h.states state hold
    refine ⟨h.stream, Nat.le_of_eq h.revision, fun source hsource => ?_⟩
    have hlast : w.authority.lastSnapshot = some source := h.last.trans hsource
    show Shows (w.authority.lastSnapshot.getD current).toAiSessionsSnapshot source
    rw [hlast]
    exact Shows.refl source
  | receiveState index reason stamp =>
    simp only [step] at hstep
    split at hstep
    · cases hstep
    rename_i state hget
    obtain ⟨hstream, hholds⟩ := h.states state (mem_of_getElem? hget)
    refine some.inj hstep ▸ { h with consumer := ?_ }
    rcases apply_cases w.consumer (stateEvent state w.authority.instanceId reason stamp) with
      hsame | ⟨snapshot, hsnapshot, happlied⟩ | ⟨_, _, hpatched, _⟩
    · show Sound streamId w.published (applyAiSessionStreamEvent _ _).projection
      rw [hsame]
      exact h.consumer
    · show Sound streamId w.published (applyAiSessionStreamEvent _ _).projection
      rw [happlied]
      intro held hheld _
      cases hheld
      obtain rfl := AiSessionStreamChange.snapshot.inj hsnapshot
      exact hholds
    · exact (hpatched _ rfl).elim
  | replaceState index =>
    simp only [step] at hstep
    split at hstep
    · cases hstep
    rename_i state hget
    refine some.inj hstep ▸ { h with consumer := fun held hheld _ => ?_ }
    cases hheld
    exact (h.states state (mem_of_getElem? hget)).2

/-! ## Every run -/

/-- Whatever is lost, repeated, delayed or reordered: a consumer that holds a
published revision of the stream shows the sessions and counts of the snapshot
published at it. -/
theorem consumer_shows_published (instanceId streamId startedAt : String)
    (consumer : Option (AiSessionsState δ)) (hfresh : ∀ state ∈ consumer, state.streamId ≠ streamId)
    (as : List (FeedAction δ)) (w : Feed δ)
    (hrun : run step (init instanceId streamId startedAt consumer) as = some w)
    (state : AiSessionsState δ) (hstate : w.consumer = some state)
    (hstream : state.streamId = w.authority.streamId) (hrevision : 0 < state.revision) :
    ∃ source, w.published[state.revision - 1]? = some source ∧
      (∀ id, state.snapshot.byId.get? id = source.byId.get? id) ∧
      state.snapshot.runningCount = source.runningCount ∧
      state.snapshot.waitingCount = source.waitingCount ∧
      state.snapshot.staleCount = source.staleCount := by
  have inv : Inv streamId w :=
    run_invariant (step_inv streamId) hrun (init_inv instanceId streamId startedAt hfresh)
  obtain ⟨hle, hshows⟩ := inv.consumer state hstate (hstream.trans inv.stream)
  have hlt : state.revision - 1 < w.published.length := by omega
  refine ⟨w.published[state.revision - 1], getElem?_eq_getElem hlt, ?_⟩
  have hat : publishedAt w.published state.revision = some w.published[state.revision - 1] := by
    obtain ⟨revision, hsucc⟩ := Nat.exists_eq_succ_of_ne_zero (Nat.ne_of_gt hrevision)
    simp only [hsucc, publishedAt, Nat.succ_sub_one]
    exact getElem?_eq_getElem _
  obtain ⟨hbyId, hrunning, hwaiting, hstale⟩ := hshows _ hat
  exact ⟨hbyId, hrunning, hwaiting, hstale⟩

/-! ## A run that loses and reorders -/

def session (id : String) (status : AiSessionLifecycle) (detail : Nat) : AiSessionSummary Nat :=
  ⟨id, status, none, detail⟩

/-- Two sessions, of which the second is gone and the first renamed later. -/
def firstSnapshot : AuthoritySnapshot Nat :=
  aiSessionsSnapshot
    ⟨[session "ses_1" .running 1, session "ses_2" .waiting 2], by decide⟩ (fun _ => true) []
    "2026-11-02T00:00:00.000Z"

def secondSnapshot : AuthoritySnapshot Nat :=
  aiSessionsSnapshot ⟨[session "ses_1" .idle 3], by decide⟩ (fun _ => true) []
    "2026-11-02T00:00:01.000Z"

def stamp : Stamp := ⟨"2026-11-02T00:00:01.000Z", "ais_evt_1", none, 0⟩

/-- The patch arrives first and asks for a snapshot; the recovered delta repairs it. -/
def recoveringActions : List (FeedAction Nat) :=
  [.prepare firstSnapshot "startup" stamp, .prepare secondSnapshot "control-action" stamp,
    .deliver 1, .requestDelta "ais_1" 0, .receiveDelta 0, .deliver 0]

def recoveredFeed : Feed Nat :=
  (run step (init "ins_1" "ais_1" "2026-11-02T00:00:00.000Z" none) recoveringActions).getD
    (init "ins_1" "ais_1" "2026-11-02T00:00:00.000Z" none)

def recoveredState : AiSessionsState Nat where
  streamId := "ais_1"
  revision := 2
  lastEventAt := "2026-11-02T00:00:01.000Z"
  snapshot := snapshotOf [session "ses_1" .idle 3] 0 "2026-11-02T00:00:01.000Z"

theorem consumer_shows_published_recovered : recoveredFeed.consumer = some recoveredState ∧
      ∃ source, recoveredFeed.published[1]? = some source ∧
        recoveredState.snapshot.waitingCount = source.waitingCount := by
  obtain ⟨source, hsource, -, -, hwaiting, -⟩ :=
    consumer_shows_published "ins_1" "ais_1" "2026-11-02T00:00:00.000Z" none (by simp)
      recoveringActions recoveredFeed rfl recoveredState rfl rfl (by decide)
  exact ⟨rfl, source, hsource, hwaiting⟩

end Feed

end TaskHandoff.AiSessions
