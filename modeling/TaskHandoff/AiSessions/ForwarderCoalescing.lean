import TaskHandoff.AiSessions.Forwarder

/-! # Coalescing makes no gap

An output that was brought up to an instance either holds what the forwarder
holds, or a snapshot of the forwarder's projection waits for it and it holds an
older revision. Both a contiguous event and a waiting snapshot can be placed on
what it holds, so no interleaving of events, readings and flushes makes a gap.
-/

namespace TaskHandoff.AiSessions

open Machine OrderedMap List Option Or

variable {δ : Type}

/-! ## Snapshots of a projection -/

/-- The event installs exactly this projection. -/
def SnapshotOf (event : AiSessionStreamEvent δ) (current : AiSessionsState δ) : Prop :=
  event.change = .snapshot current.snapshot ∧ event.eventMeta.install current.snapshot = current

/-- The consumer is at an older revision, at the same projection, or elsewhere. -/
def NotAhead (subagents : Bool) (current : AiSessionsState δ)
    (held : Option (AiSessionsState δ)) : Prop :=
  ∀ h, held = some h → h.streamId = current.streamId →
    h.revision < current.revision ∨ h = current.forConsumer subagents

theorem notAhead_self (subagents : Bool) (current : AiSessionsState δ) :
    NotAhead subagents current (some (current.forConsumer subagents)) := by
  intro h hh _
  exact inr (some.inj hh).symm

variable {event : AiSessionStreamEvent δ} {subagents : Bool}

theorem applied_install {current : Option (AiSessionsState δ)}
    {next : AiSessionsState δ} (h : applyAiSessionStreamEvent current event = .applied next) :
    event.eventMeta.install next.snapshot = next := by
  rcases apply_cases current event with hsame | ⟨snapshot, -, happly⟩ | ⟨held, -, -, -, -, -, happly⟩
  · -- An applied event that leaves the projection would not have grown its revision.
    rw [h] at hsame
    have hmeta := applied_meta h
    have hlt := applied_lt (hsame ▸ h) hmeta.1
    omega
  · rw [h] at happly
    rw [AiSessionStreamApplyResult.applied.inj happly]
    rfl
  · rw [h] at happly
    rw [AiSessionStreamApplyResult.applied.inj happly]
    rfl

theorem apply_snapshotOf {current : AiSessionsState δ} {held : Option (AiSessionsState δ)}
    (hevent : SnapshotOf event current) (hheld : NotAhead subagents current held) :
    (applyAiSessionStreamEvent held
        (projectAiSessionStreamEventForConsumer subagents event)).missed = false ∧
      (applyAiSessionStreamEvent held
        (projectAiSessionStreamEventForConsumer subagents event)).projection =
        some (current.forConsumer subagents) := by
  obtain ⟨eventMeta, change⟩ := event
  obtain ⟨hchange, hinstall⟩ := hevent
  subst hchange
  have hstream : eventMeta.streamId = current.streamId := by rw [← hinstall]; rfl
  have hrevision : eventMeta.revision = current.revision := by rw [← hinstall]; rfl
  have hprojected : eventMeta.install
      (projectAiSessionsSnapshotForConsumer subagents current.snapshot) =
        current.forConsumer subagents := by
    rw [← install_forConsumer, hinstall]
  rw [projectEvent_snapshot]
  cases held with
  | none =>
    have happly : applyAiSessionStreamEvent none ⟨eventMeta,
        .snapshot (projectAiSessionsSnapshotForConsumer subagents current.snapshot)⟩ =
          .applied (current.forConsumer subagents) := by
      rw [← hprojected]
      rfl
    rw [happly]
    exact ⟨rfl, rfl⟩
  | some h =>
    have hcases := hheld h rfl
    unfold applyAiSessionStreamEvent
    simp only [hstream, hrevision]
    by_cases hsame : h.streamId = current.streamId
    · rcases hcases hsame with hlt | heq
      · rw [if_neg (by omega), if_neg (by omega), hprojected]
        exact ⟨rfl, rfl⟩
      · have hrev : current.revision = h.revision := by rw [heq]; rfl
        rw [if_pos ⟨hsame, hrev⟩, heq]
        exact ⟨rfl, rfl⟩
    · have hne : ¬ (h.streamId = current.streamId ∧ current.revision = h.revision) :=
        fun hboth => hsame hboth.1
      have hnlt : ¬ (h.streamId = current.streamId ∧ current.revision < h.revision) :=
        fun hboth => hsame hboth.1
      rw [if_neg hne, if_neg hnlt, hprojected]
      exact ⟨rfl, rfl⟩

namespace EventForwarder

/-! ## What a send does -/

/-- The event is at the revision of the forwarder's projection of the instance. -/
def AtProjection (w : EventForwarder δ) (instanceId : String)
    (event : AiSessionStreamEvent δ) : Prop :=
  ∃ current, w.aiSessionProjectionByInstance.get? instanceId = some current ∧
    event.eventMeta.streamId = current.streamId ∧ event.eventMeta.revision = current.revision

/-- The forwarder with a snapshot of `current` waiting under the meta of an event. -/
def waiting (w : EventForwarder δ) (instanceId : String) (eventMeta : AiSessionEventMeta)
    (current : AiSessionsState δ) : EventForwarder δ :=
  { w with
    pendingAiSessionAuthority :=
      w.pendingAiSessionAuthority.set instanceId ⟨eventMeta, .snapshot current.snapshot⟩
    pendingAiSessionAuthorityFlush := true }

/-- The forwarder after the event went out on the socket. -/
def transmitted (w : EventForwarder δ) (instanceId : String) (event : AiSessionStreamEvent δ) :
    EventForwarder δ :=
  { w with sent := w.sent ++ [(instanceId, event)] }

theorem deferAiSessionAuthority_cases (w : EventForwarder δ) (instanceId : String)
    (event : AiSessionStreamEvent δ) :
    (∃ current, w.aiSessionProjectionByInstance.get? instanceId = some current ∧
      event.eventMeta.streamId = current.streamId ∧
      event.eventMeta.revision = current.revision ∧
      w.deferAiSessionAuthority instanceId event =
        some (w.waiting instanceId event.eventMeta current)) ∨
    (¬ w.AtProjection instanceId event ∧ w.deferAiSessionAuthority instanceId event = none) := by
  unfold deferAiSessionAuthority authoritySnapshotPayload AtProjection
  cases hcurrent : w.aiSessionProjectionByInstance.get? instanceId with
  | none => exact inr ⟨by simp, rfl⟩
  | some current =>
    by_cases hat : event.eventMeta.streamId ≠ current.streamId ∨
        event.eventMeta.revision ≠ current.revision
    · have hnot : ¬ ∃ c, some current = some c ∧ event.eventMeta.streamId = c.streamId ∧
          event.eventMeta.revision = c.revision := by
        rintro ⟨c, hc, hstream, hrevision⟩
        cases hc
        rcases hat with hne | hne
        · exact hne hstream
        · exact hne hrevision
      exact inr ⟨hnot, by simp only [if_pos hat]⟩
    · have hboth := not_or.mp hat
      refine inl ⟨current, rfl, not_not.mp hboth.1, not_not.mp hboth.2, ?_⟩
      simp only [if_neg hat]
      rfl

theorem sendEncoded_cases (w : EventForwarder δ) (reading : Reading)
    (entries : List (String × AiSessionStreamEvent δ)) :
    (w.isOpen = false ∧ w.sendEncoded reading entries = w) ∨
    w.sendEncoded reading entries = w.closeOutput ∨
    (w.isOpen = true ∧ w.sendEncoded reading entries = { w with sent := w.sent ++ entries }) := by
  unfold sendEncoded
  cases hopen : w.isOpen with
  | false => exact inl ⟨rfl, by simp⟩
  | true =>
    simp only [if_true]
    split_ifs with hlimit hfails
    · exact inr (inl rfl)
    · exact inr (inl rfl)
    · exact inr (inr ⟨trivial, rfl⟩)

/-- The send was replaced by a snapshot that waits. -/
def Deferred (w : EventForwarder δ) (instanceId : String) (event : AiSessionStreamEvent δ)
    (w' : EventForwarder δ) : Prop :=
  ∃ current, w.aiSessionProjectionByInstance.get? instanceId = some current ∧
    event.eventMeta.streamId = current.streamId ∧
    event.eventMeta.revision = current.revision ∧
    w' = w.waiting instanceId event.eventMeta current

variable {w : EventForwarder δ}

theorem sendUncoalesced_cases (hopen : w.isOpen = true) (instanceId : String)
    (event : AiSessionStreamEvent δ) (reading : Reading) :
    w.sendUncoalesced instanceId event reading = w.closeOutput ∨
    w.Deferred instanceId event (w.sendUncoalesced instanceId event reading) ∨
    w.sendUncoalesced instanceId event reading = w.transmitted instanceId event := by
  unfold sendUncoalesced
  split_ifs with hlarge hsnapshot
  · exact inl rfl
  · rcases w.deferAiSessionAuthority_cases instanceId event with
      ⟨current, hcurrent, hstream, hrevision, hdefer⟩ | ⟨-, hdefer⟩
    · rw [hdefer]
      exact inr (inl ⟨current, hcurrent, hstream, hrevision, rfl⟩)
    · rw [hdefer]
      exact inl rfl
  · rcases w.sendEncoded_cases reading [(instanceId, event)] with ⟨hclosed, -⟩ | hclose | ⟨-, hsent⟩
    · rw [hopen] at hclosed
      cases hclosed
    · exact inl hclose
    · exact inr (inr hsent)

theorem sendOutput_cases (w : EventForwarder δ) (instanceId : String)
    (event : AiSessionStreamEvent δ) (reading : Reading) :
    (w.isOpen = false ∧ w.sendOutput instanceId event reading = w) ∨
    w.sendOutput instanceId event reading = w.closeOutput ∨
    w.Deferred instanceId event (w.sendOutput instanceId event reading) ∨
    (w.isOpen = true ∧
      (w.pendingAiSessionAuthority.get? instanceId = none ∨ ¬ w.AtProjection instanceId event) ∧
      w.sendOutput instanceId event reading = w.transmitted instanceId event) := by
  unfold sendOutput
  by_cases hopen : w.isOpen = true
  case neg => exact inl ⟨by simpa using hopen, if_neg hopen⟩
  case pos =>
      rw [if_pos hopen]
      have hrest := sendUncoalesced_cases hopen instanceId event reading
      by_cases hcoalesce : w.shouldCoalesceAiSessionAuthority instanceId reading = true
      · rw [if_pos hcoalesce]
        rcases w.deferAiSessionAuthority_cases instanceId event with
          ⟨current, hcurrent, hstream, hrevision, hdefer⟩ | ⟨hnot, hdefer⟩
        · rw [hdefer]
          exact inr (inr (inl ⟨current, hcurrent, hstream, hrevision, rfl⟩))
        rw [hdefer]
        rcases hrest with hclose | hdeferred | hsent
        · exact inr (inl hclose)
        · exact inr (inr (inl hdeferred))
        · exact inr (inr (inr ⟨hopen, inr hnot, hsent⟩))
      · rw [if_neg hcoalesce]
        have hpending : w.pendingAiSessionAuthority.get? instanceId = none := by
          unfold shouldCoalesceAiSessionAuthority OrderedMap.contains at hcoalesce
          cases hget : w.pendingAiSessionAuthority.get? instanceId with
          | none => rfl
          | some waiting => simp [hget] at hcoalesce
        rcases hrest with hclose | hdeferred | hsent
        · exact inr (inl hclose)
        · exact inr (inr (inl hdeferred))
        · exact inr (inr (inr ⟨hopen, inl hpending, hsent⟩))

/-- A send is dropped, closes the output, replaces the event by the waiting
snapshot, or goes out; it goes out past a waiting snapshot only when the event
is not at the revision of the projection. -/
theorem sendForwarded_cases (w : EventForwarder δ) (instanceId : String)
    (event : AiSessionStreamEvent δ) (reading : Reading) :
    (w.isOpen = false ∧ w.sendForwarded instanceId event reading = w) ∨
    w.sendForwarded instanceId event reading = w.closeOutput ∨
    w.Deferred instanceId event (w.sendForwarded instanceId event reading) ∨
    (w.isOpen = true ∧
      (w.pendingAiSessionAuthority.get? instanceId = none ∨ ¬ w.AtProjection instanceId event) ∧
      w.sendForwarded instanceId event reading = w.transmitted instanceId
        (projectAiSessionStreamEventForConsumer w.subagents event)) := by
  have hcases := w.sendOutput_cases instanceId
    (projectAiSessionStreamEventForConsumer w.subagents event) reading
  unfold Deferred AtProjection at hcases ⊢
  rw [projectEvent_meta] at hcases
  exact hcases

/-! ## What the output holds -/

/-- Where the consumer of an open output stands with an instance: level with the
forwarder, or behind a waiting snapshot that the timer will send. -/
structure Tracks (w : EventForwarder δ) (i : String) (held : Option (AiSessionsState δ)) :
    Prop where
  level : w.isOpen = true → w.pendingAiSessionAuthority.get? i = none →
    held = (w.aiSessionProjectionByInstance.get? i).map (AiSessionsState.forConsumer w.subagents)
  behind : w.isOpen = true → ∀ event, w.pendingAiSessionAuthority.get? i = some event →
    w.pendingAiSessionAuthorityFlush = true ∧
      ∃ current, w.aiSessionProjectionByInstance.get? i = some current ∧
        SnapshotOf event current ∧ NotAhead w.subagents current held

theorem Tracks.of_closed (h : w.isOpen = false) (i : String) (held : Option (AiSessionsState δ)) :
    w.Tracks i held where
  level hopen := by rw [h] at hopen; cases hopen
  behind hopen := by rw [h] at hopen; cases hopen

variable {i : String} {held : Option (AiSessionsState δ)} {current : AiSessionsState δ}

theorem Tracks.notAhead (h : w.Tracks i held) (hopen : w.isOpen = true)
    (hcurrent : w.aiSessionProjectionByInstance.get? i = some current) :
    NotAhead w.subagents current held := by
  cases hpending : w.pendingAiSessionAuthority.get? i with
  | none =>
    have hlevel := h.level hopen hpending
    rw [hcurrent] at hlevel
    rw [hlevel]
    exact notAhead_self w.subagents current
  | some event =>
    obtain ⟨-, current', hcurrent', -, hbehind⟩ := h.behind hopen event hpending
    rw [hcurrent] at hcurrent'
    rw [some.inj hcurrent']
    exact hbehind

/-- From `w` to `w'` the consumer of instance `i`, holding `held`, was sent
events it could place, and stands right afterwards. -/
def Delivers (i : String) (held : Option (AiSessionsState δ)) (w w' : EventForwarder δ) : Prop :=
  ∃ events, w'.sentFor i = w.sentFor i ++ events ∧ GapFree held events ∧
    w'.Tracks i (foldEvents held events)

variable {w' w'' : EventForwarder δ} {j : String} {next : AiSessionsState δ}

theorem Delivers.of_same (hsent : w'.sentFor i = w.sentFor i) (h : w'.Tracks i held) :
    Delivers i held w w' :=
  ⟨[], by rw [hsent, append_nil], trivial, h⟩

theorem Delivers.refl (h : w.Tracks i held) : Delivers i held w w := Delivers.of_same rfl h

theorem Delivers.trans (h : Delivers i held w w')
    (h' : ∀ held', w'.Tracks i held' → Delivers i held' w' w'') : Delivers i held w w'' := by
  obtain ⟨events, hsent, hfree, htracks⟩ := h
  obtain ⟨events', hsent', hfree', htracks'⟩ := h' _ htracks
  have hfree'' : GapFree held (events ++ events') := gapFree_append.mpr ⟨hfree, hfree'⟩
  have hfold := foldEvents_append held events events'
  exact ⟨events ++ events', by rw [hsent', hsent, append_assoc], hfree'', hfold ▸ htracks'⟩

theorem sentFor_transmitted_self (w : EventForwarder δ) (i : String)
    (event : AiSessionStreamEvent δ) :
    (w.transmitted i event).sentFor i = w.sentFor i ++ [event] := by
  simp [sentFor, transmitted]

theorem sentFor_transmitted_ne (w : EventForwarder δ) (h : j ≠ i)
    (event : AiSessionStreamEvent δ) : (w.transmitted j event).sentFor i = w.sentFor i := by
  simp [sentFor, transmitted, h]

variable {event : AiSessionStreamEvent δ}

theorem Delivers.of_transmitted (hplaced : (applyAiSessionStreamEvent held event).missed = false)
    (h : w.Tracks i (applyAiSessionStreamEvent held event).projection) :
    Delivers i held w (w.transmitted i event) := by
  have hfree : GapFree held [event] := ⟨hplaced, trivial⟩
  have htracks : (w.transmitted i event).Tracks i (foldEvents held [event]) :=
    { level := h.level, behind := h.behind }
  exact ⟨[event], w.sentFor_transmitted_self i event, hfree, htracks⟩

/-! ## Sends of another instance -/

/-- What a send leaves alone, whatever comes of it. -/
structure Frame (w w' : EventForwarder δ) (j : String) : Prop where
  projections : w'.aiSessionProjectionByInstance = w.aiSessionProjectionByInstance
  subagents : w'.subagents = w.subagents
  isOpen : w'.isOpen = true → w.isOpen = true
  flush : w.pendingAiSessionAuthorityFlush = true → w'.pendingAiSessionAuthorityFlush = true
  pending : ∀ i, i ≠ j → w'.pendingAiSessionAuthority.get? i = w.pendingAiSessionAuthority.get? i
  sent : ∀ i, i ≠ j → w'.sentFor i = w.sentFor i

theorem sendForwarded_frame (w : EventForwarder δ) (j : String) (event : AiSessionStreamEvent δ)
    (reading : Reading) : Frame w (w.sendForwarded j event reading) j := by
  rcases w.sendForwarded_cases j event reading with
    ⟨-, hsame⟩ | hclose | ⟨current, -, -, -, hwait⟩ | ⟨-, -, hsent⟩
  · rw [hsame]
    exact ⟨rfl, rfl, id, id, fun _ _ => rfl, fun _ _ => rfl⟩
  · rw [hclose]
    have hopen : w.closeOutput.isOpen = true → w.isOpen = true := fun h => by cases h
    exact ⟨rfl, rfl, hopen, id, fun _ _ => rfl, fun _ _ => rfl⟩
  · rw [hwait]
    have hpending : ∀ i, i ≠ j →
        (w.waiting j event.eventMeta current).pendingAiSessionAuthority.get? i =
          w.pendingAiSessionAuthority.get? i :=
      fun i hi => get?_set_ne _ _ hi
    exact ⟨rfl, rfl, id, fun _ => rfl, hpending, fun _ _ => rfl⟩
  · rw [hsent]
    have hother : ∀ i, i ≠ j → (w.transmitted j
        (projectAiSessionStreamEventForConsumer w.subagents event)).sentFor i = w.sentFor i :=
      fun i hi => w.sentFor_transmitted_ne (Ne.symm hi) _
    exact ⟨rfl, rfl, id, id, fun _ _ => rfl, hother⟩

theorem Tracks.of_frame (h : w.Tracks i held)
    (hframe : Frame w w' j) (hne : i ≠ j) : w'.Tracks i held where
  level hopen hpending := by
    rw [hframe.pending i hne] at hpending
    rw [hframe.projections, hframe.subagents]
    exact h.level (hframe.isOpen hopen) hpending
  behind hopen event hpending := by
    rw [hframe.pending i hne] at hpending
    obtain ⟨hflush, hbehind⟩ := h.behind (hframe.isOpen hopen) event hpending
    rw [hframe.projections, hframe.subagents]
    exact ⟨hframe.flush hflush, hbehind⟩

theorem Delivers.of_frame (h : w.Tracks i held)
    (hframe : Frame w w' j) (hne : i ≠ j) : Delivers i held w w' :=
  Delivers.of_same (hframe.sent i hne) (h.of_frame hframe hne)

/-! ## Sends of the instance itself -/

section

variable (hcurrent : w.aiSessionProjectionByInstance.get? i = some current)

include hcurrent

theorem Tracks.of_waiting {eventMeta : AiSessionEventMeta}
    (hinstall : eventMeta.install current.snapshot = current)
    (hheld : NotAhead w.subagents current held) :
    (w.waiting i eventMeta current).Tracks i held where
  level _ hpending := by
    have hget : (w.waiting i eventMeta current).pendingAiSessionAuthority.get? i =
        some ⟨eventMeta, .snapshot current.snapshot⟩ := get?_set_self _ _ _
    rw [hget] at hpending
    cases hpending
  behind _ event hpending := by
    have hget : (w.waiting i eventMeta current).pendingAiSessionAuthority.get? i =
        some ⟨eventMeta, .snapshot current.snapshot⟩ := get?_set_self _ _ _
    rw [hget] at hpending
    cases hpending
    exact ⟨rfl, current, hcurrent, ⟨rfl, hinstall⟩, hheld⟩

theorem Delivers.of_snapshot
    (hevent : SnapshotOf event current)
    (hheld : w.isOpen = true → NotAhead w.subagents current held) (reading : Reading) :
    Delivers i held w (w.sendForwarded i event reading) := by
  have hstream : event.eventMeta.streamId = current.streamId := by rw [← hevent.2]; rfl
  have hrevision : event.eventMeta.revision = current.revision := by rw [← hevent.2]; rfl
  rcases w.sendForwarded_cases i event reading with
    ⟨hclosed, hsame⟩ | hclose | ⟨current', hcurrent', -, -, hwait⟩ | ⟨hopen, hpending, hsent⟩
  · rw [hsame]
    exact Delivers.of_same rfl (Tracks.of_closed hclosed i held)
  · rw [hclose]
    exact Delivers.of_same rfl (Tracks.of_closed rfl i held)
  · rw [hcurrent] at hcurrent'
    rw [hwait, ← some.inj hcurrent']
    by_cases hopen : w.isOpen = true
    · exact Delivers.of_same rfl (Tracks.of_waiting hcurrent hevent.2 (hheld hopen))
    have hclosed : (w.waiting i event.eventMeta current).isOpen = false := by
      simpa [waiting] using hopen
    exact Delivers.of_same rfl (Tracks.of_closed hclosed i held)
  · have hnone : w.pendingAiSessionAuthority.get? i = none := by
      rcases hpending with hnone | hnot
      · exact hnone
      · exact (hnot ⟨current, hcurrent, hstream, hrevision⟩).elim
    have hplaced := apply_snapshotOf hevent (hheld hopen)
    rw [hsent]
    refine Delivers.of_transmitted hplaced.1 ?_
    rw [hplaced.2]
    exact
      { level := fun _ _ => by rw [hcurrent]; rfl
        behind := fun _ waiting hwaiting => by rw [hnone] at hwaiting; cases hwaiting }

end

/-! ## Events of the authority -/

def isApplied : AiSessionStreamApplyResult δ → Bool
  | .applied _ => true
  | _ => false

/-- The event continues what the forwarder holds of the stream: it applies
there, and does not change to another stream. -/
def Continues (current : Option (AiSessionsState δ)) (event : AiSessionStreamEvent δ) : Prop :=
  isApplied (applyAiSessionStreamEvent current event) = true ∧
    current.all (fun held => held.streamId = event.eventMeta.streamId) = true

instance (current : Option (AiSessionsState δ)) (event : AiSessionStreamEvent δ) :
    Decidable (Continues current event) :=
  inferInstanceAs (Decidable (_ ∧ _))

theorem Continues.applied {current : Option (AiSessionsState δ)} (h : Continues current event) :
    ∃ next, applyAiSessionStreamEvent current event = .applied next := by
  have happly := h.1
  unfold isApplied at happly
  split at happly
  case h_1 next heq => exact ⟨next, heq⟩
  case h_2 => cases happly

theorem Continues.lt {held next : AiSessionsState δ} (h : Continues (some held) event)
    (happly : applyAiSessionStreamEvent (some held) event = .applied next) :
    held.streamId = next.streamId ∧ held.revision < next.revision := by
  have hstream : held.streamId = event.eventMeta.streamId := by simpa using h.2
  have hmeta := applied_meta happly
  have hlt := applied_lt happly hstream
  exact ⟨hstream.trans hmeta.1.symm, by omega⟩

theorem notAhead_next {current next : AiSessionsState δ} (h : NotAhead subagents current held)
    (hstream : current.streamId = next.streamId) (hlt : current.revision < next.revision) :
    NotAhead subagents next held := by
  intro c hc hsame
  rcases h c hc (hsame.trans hstream.symm) with hbefore | heq
  · exact inl (by omega)
  · have hrevision : c.revision = current.revision := by rw [heq]; rfl
    exact inl (by omega)

/-- The forwarder with the projection an event led to. -/
def recorded (w : EventForwarder δ) (i : String) (next : AiSessionsState δ) : EventForwarder δ :=
  { w with aiSessionProjectionByInstance := w.aiSessionProjectionByInstance.set i next }

theorem recorded_get? (w : EventForwarder δ) (i : String) (next : AiSessionsState δ) :
    (w.recorded i next).aiSessionProjectionByInstance.get? i = some next :=
  get?_set_self _ _ _

theorem recordAiSessionEvent_of_applied
    (h : applyAiSessionStreamEvent (w.aiSessionProjectionByInstance.get? i) event = .applied next) :
    w.recordAiSessionEvent i event = w.recorded i next := by
  simp only [recordAiSessionEvent, h, recorded]

theorem Tracks.notAhead_recorded (h : w.Tracks i held)
    (hopen : w.isOpen = true) (hevent : Continues (w.aiSessionProjectionByInstance.get? i) event)
    (happly : applyAiSessionStreamEvent (w.aiSessionProjectionByInstance.get? i) event =
      .applied next) : NotAhead w.subagents next held := by
  cases hbefore : w.aiSessionProjectionByInstance.get? i with
  | none =>
    cases hpending : w.pendingAiSessionAuthority.get? i with
    | none =>
      have hlevel := h.level hopen hpending
      rw [hbefore] at hlevel
      rw [hlevel]
      intro c hc
      cases hc
    | some waiting =>
      obtain ⟨-, current, hget, -⟩ := h.behind hopen waiting hpending
      rw [hbefore] at hget
      cases hget
  | some current =>
    rw [hbefore] at hevent happly
    have hnext := hevent.lt happly
    have hheld := h.notAhead hopen hbefore
    exact notAhead_next hheld hnext.1 hnext.2

theorem Delivers.of_message (h : w.Tracks i held)
    (hevent : Continues (w.aiSessionProjectionByInstance.get? i) event) (reading : Reading) :
    Delivers i held w (w.onMessage i event reading) := by
  obtain ⟨next, happly⟩ := hevent.applied
  have hinstall := applied_install happly
  have hmeta := applied_meta happly
  have hcurrent := w.recorded_get? i next
  unfold onMessage
  rw [recordAiSessionEvent_of_applied happly]
  -- The recorded event changes neither what is sent nor what waits.
  rcases (w.recorded i next).sendForwarded_cases i event reading with
    ⟨hclosed, hsame⟩ | hclose | ⟨current, hget, -, -, hwait⟩ | ⟨hopen, hpending, hsent⟩
  · rw [hsame]
    exact Delivers.of_same rfl (Tracks.of_closed hclosed i held)
  · rw [hclose]
    exact Delivers.of_same rfl (Tracks.of_closed rfl i held)
  · rw [hcurrent] at hget
    rw [hwait, ← some.inj hget]
    by_cases hopen : w.isOpen = true
    · have hheld := h.notAhead_recorded hopen hevent happly
      exact Delivers.of_same rfl (Tracks.of_waiting hcurrent hinstall hheld)
    have hclosed : ((w.recorded i next).waiting i event.eventMeta next).isOpen = false := by
      simpa [waiting, recorded] using hopen
    exact Delivers.of_same rfl (Tracks.of_closed hclosed i held)
  · have hnone : w.pendingAiSessionAuthority.get? i = none := by
      rcases hpending with hnone | hnot
      · exact hnone
      · exact (hnot ⟨next, hcurrent, hmeta.1.symm, hmeta.2.symm⟩).elim
    have hlevel := h.level hopen hnone
    have happlied := applied_project w.subagents happly
    rw [← hlevel] at happlied
    have hplaced : (applyAiSessionStreamEvent held (projectAiSessionStreamEventForConsumer
        w.subagents event)).missed = false := by
      rw [happlied]
      rfl
    rw [hsent]
    refine Delivers.of_transmitted hplaced ?_
    show (w.recorded i next).Tracks i (applyAiSessionStreamEvent held
      (projectAiSessionStreamEventForConsumer w.subagents event)).projection
    rw [happlied]
    exact
      { level := fun _ _ => by rw [hcurrent]; rfl
        behind := fun _ waiting hwaiting => by
          have hwaiting' : w.pendingAiSessionAuthority.get? i = some waiting := hwaiting
          rw [hnone] at hwaiting'
          cases hwaiting' }

theorem Delivers.of_other_message (h : w.Tracks i held) (hne : i ≠ j)
    (event : AiSessionStreamEvent δ) (reading : Reading) :
    Delivers i held w (w.onMessage j event reading) := by
  have hrecord : (w.recordAiSessionEvent j event).Tracks i held := by
    have hget : ∀ projection : AiSessionsState δ,
        (w.aiSessionProjectionByInstance.set j projection).get? i =
          w.aiSessionProjectionByInstance.get? i :=
      fun projection => get?_set_ne _ _ hne
    unfold recordAiSessionEvent
    split
    all_goals
      constructor
      · intro hopen hpending
        simpa only [hget] using h.level hopen hpending
      · intro hopen waiting hpending
        simpa only [hget] using h.behind hopen waiting hpending
  have hsent : (w.recordAiSessionEvent j event).sentFor i = w.sentFor i := by
    unfold recordAiSessionEvent
    split <;> rfl
  exact (Delivers.of_same hsent hrecord).trans fun held' htracks =>
    Delivers.of_frame htracks
      ((w.recordAiSessionEvent j event).sendForwarded_frame j event reading) hne

/-! ## Flushes -/

theorem Delivers.of_sentFor (hsent : w'.sentFor i = w.sentFor i)
    (h : Delivers i held w' w'') : Delivers i held w w'' := by
  unfold Delivers at h ⊢
  rw [← hsent]
  exact h

theorem Tracks.schedule (h : w.Tracks i held) :
    { w with pendingAiSessionAuthorityFlush := true }.Tracks i held where
  level := h.level
  behind hopen event hpending := ⟨rfl, (h.behind hopen event hpending).2⟩

/-- The forwarder in a turn of the timer, after it took the snapshot of `j`. -/
def taken (w : EventForwarder δ) (j : String) : EventForwarder δ :=
  { w with
    pendingAiSessionAuthority := w.pendingAiSessionAuthority.erase j
    pendingAiSessionAuthorityFlush := false }

theorem Delivers.of_taken (h : w.Tracks i held) (hopen : w.isOpen = true)
    (hpending : w.pendingAiSessionAuthority.get? i = some event) (reading : Reading) :
    Delivers i held w ((w.taken i).sendForwarded i event reading) := by
  obtain ⟨-, current, hcurrent, hevent, hheld⟩ := h.behind hopen event hpending
  have hsend : Delivers i held (w.taken i) ((w.taken i).sendForwarded i event reading) :=
    Delivers.of_snapshot (w := w.taken i) hcurrent hevent (fun _ => hheld) reading
  exact Delivers.of_sentFor rfl hsend

theorem Delivers.of_other_taken (h : w.Tracks i held)
    (hframe : Frame (w.taken j) w' j) (hne : i ≠ j)
    (hflush : ∀ event, w.pendingAiSessionAuthority.get? i = some event →
      w'.pendingAiSessionAuthorityFlush = true) : Delivers i held w w' := by
  have hpending : w'.pendingAiSessionAuthority.get? i = w.pendingAiSessionAuthority.get? i := by
    rw [hframe.pending i hne]
    exact get?_erase_ne _ hne
  have htracks : w'.Tracks i held :=
    { level := fun hopen hnone => by
        rw [hpending] at hnone
        rw [hframe.projections, hframe.subagents]
        exact h.level (hframe.isOpen hopen) hnone
      behind := fun hopen event hevent => by
        rw [hpending] at hevent
        have hbehind := (h.behind (hframe.isOpen hopen) event hevent).2
        rw [hframe.projections, hframe.subagents]
        exact ⟨hflush event hevent, hbehind⟩ }
  exact Delivers.of_same (hframe.sent i hne) htracks

theorem Delivers.schedule (h : Delivers i held w w') :
    Delivers i held w { w' with pendingAiSessionAuthorityFlush := true } :=
  h.trans fun _ htracks => Delivers.of_same rfl htracks.schedule

/-- One turn of the timer. The flag is down while it runs, and up again
afterwards whenever something still waits. -/
theorem Delivers.of_flush (h : w.Tracks i held) (bufferedAmount : Nat) (reading : Reading) :
    Delivers i held w ({ w with pendingAiSessionAuthorityFlush := false }.flushAiSessionAuthority
      bufferedAmount reading) := by
  unfold flushAiSessionAuthority
  cases hentries : w.pendingAiSessionAuthority.entries with
  | nil =>
    have hnone : w.pendingAiSessionAuthority.get? i = none := by
      simp [get?, hentries, lookupEntries]
    exact Delivers.of_same rfl
      { level := h.level
        behind := fun _ event hpending => by
          have hpending' : w.pendingAiSessionAuthority.get? i = some event := hpending
          rw [hnone] at hpending'
          cases hpending' }
  | cons entry rest =>
    obtain ⟨j, event⟩ := entry
    have hhead : w.pendingAiSessionAuthority.get? j = some event :=
      get?_eq_some.mpr (by rw [hentries]; exact mem_cons_self)
    have hframe := (w.taken j).sendForwarded_frame j event reading
    show Delivers i held w (if w.isOpen = true then _ else _)
    by_cases hopen : w.isOpen = true
    case neg =>
        rw [if_neg hopen]
        exact Delivers.of_same rfl (Tracks.of_closed (by simpa using hopen) i held)
    case pos =>
        rw [if_pos hopen]
        by_cases hbuffered : AI_SESSION_AUTHORITY_BACKPRESSURE_BYTES ≤ bufferedAmount
        · rw [if_pos hbuffered]
          exact Delivers.of_same rfl h.schedule
        rw [if_neg hbuffered]
        by_cases hij : i = j
        · subst hij
          have hsend := Delivers.of_taken h hopen hhead reading
          split
          · exact hsend
          · exact hsend.schedule
        by_cases hlast : rest.isEmpty = true
        · rw [if_pos hlast]
          refine Delivers.of_other_taken h hframe hij ?_
          intro waiting hwaiting
          have hmem := get?_eq_some.mp hwaiting
          rw [hentries, isEmpty_iff.mp hlast, mem_singleton] at hmem
          exact (hij (Prod.mk.inj hmem).1).elim
        · rw [if_neg hlast]
          have hframe' : Frame (w.taken j) { (w.taken j).sendForwarded j event reading with
              pendingAiSessionAuthorityFlush := true } j :=
            { hframe with flush := fun _ => rfl }
          exact Delivers.of_other_taken h hframe' hij fun _ _ => rfl

/-! ## Bringing an output up -/

theorem startupSnapshot_snapshotOf (i traceId : String) (projection : AiSessionsState δ) :
    SnapshotOf (startupSnapshot i traceId projection) projection :=
  ⟨rfl, rfl⟩

/-- The consumer is not ahead of the forwarder. -/
def Behind (w : EventForwarder δ) (i : String) (held : Option (AiSessionsState δ)) : Prop :=
  w.isOpen = true → ∀ current, w.aiSessionProjectionByInstance.get? i = some current →
    NotAhead w.subagents current held

theorem Tracks.toBehind (h : w.Tracks i held) : w.Behind i held :=
  fun hopen _ hcurrent => h.notAhead hopen hcurrent

theorem Behind.of_frame (h : w.Behind i held) (hframe : Frame w w' j) : w'.Behind i held := by
  intro hopen current hcurrent
  rw [hframe.projections] at hcurrent
  rw [hframe.subagents]
  exact h (hframe.isOpen hopen) current hcurrent

theorem Delivers.of_replayProjections (traceId : String) (readings : String → Reading)
    {es : List (String × AiSessionsState δ)}
    (hes : ∀ e ∈ es, w.aiSessionProjectionByInstance.get? e.1 = some e.2)
    (hbehind : w.Behind i held) (h : w.Tracks i held ∨ i ∈ es.map Prod.fst) :
    Delivers i held w (replayProjections traceId readings es w) := by
  induction es generalizing w held with
  | nil =>
    rcases h with h | hmem
    · exact Delivers.refl h
    · cases hmem
  | cons e es ih =>
    obtain ⟨j, projection⟩ := e
    have hcurrent := hes (j, projection) mem_cons_self
    have hframe := w.sendForwarded_frame j (startupSnapshot j traceId projection) (readings j)
    have hes' : ∀ e ∈ es, (w.sendForwarded j (startupSnapshot j traceId projection)
        (readings j)).aiSessionProjectionByInstance.get? e.1 = some e.2 := by
      intro e he
      rw [hframe.projections]
      exact hes e (mem_cons_of_mem _ he)
    by_cases hij : i = j
    · subst hij
      have hsend : Delivers i held w
          (w.sendForwarded i (startupSnapshot i traceId projection) (readings i)) :=
        Delivers.of_snapshot hcurrent (startupSnapshot_snapshotOf i traceId projection)
          (fun hopen => hbehind hopen projection hcurrent) (readings i)
      exact hsend.trans fun held' htracks => ih hes' htracks.toBehind (inl htracks)
    · have hrest : (w.sendForwarded j (startupSnapshot j traceId projection)
          (readings j)).Tracks i held ∨ i ∈ es.map Prod.fst := by
        rcases h with h | hmem
        · exact inl (h.of_frame hframe hij)
        rcases mem_cons.mp hmem with heq | hmem
        · exact (hij heq).elim
        · exact inr hmem
      exact Delivers.of_sentFor (hframe.sent i hij) (ih hes' (hbehind.of_frame hframe) hrest)

theorem sendEncoded_nil (w : EventForwarder δ) (reading : Reading) :
    w.sendEncoded reading [] = w ∨ w.sendEncoded reading [] = w.closeOutput := by
  rcases w.sendEncoded_cases reading [] with ⟨-, hsame⟩ | hclose | ⟨-, hsent⟩
  · exact inl hsame
  · exact inr hclose
  · rw [append_nil] at hsent
    exact inl hsent

theorem hellos_cases (hellos : List Reading) (w : EventForwarder δ) :
    hellos.foldl (fun w reading => w.sendEncoded reading []) w = w ∨
      hellos.foldl (fun w reading => w.sendEncoded reading []) w = w.closeOutput := by
  induction hellos generalizing w with
  | nil => exact inl rfl
  | cons reading hellos ih =>
    rw [foldl_cons]
    rcases w.sendEncoded_nil reading with hsame | hclose
    · rw [hsame]
      exact ih w
    rw [hclose]
    rcases ih w.closeOutput with hsame | hclose'
    · exact inr hsame
    · exact inr hclose'

theorem Delivers.of_replay (hbehind : w.Behind i held) (h : w.Tracks i held ∨
      w.sessionAuthorityReplayed = false ∧ w.aiSessionProjectionByInstance.get? i ≠ none)
    (hellos : List Reading) (traceId : String) (readings : String → Reading) :
    Delivers i held w (w.replaySessionAuthority hellos traceId readings) := by
  unfold replaySessionAuthority
  by_cases hskip : (w.sessionAuthorityReplayed || !w.isOpen) = true
  · rw [if_pos hskip]
    rcases h with h | ⟨hfresh, -⟩
    · exact Delivers.refl h
    · have hclosed : w.isOpen = false := by simpa [hfresh] using hskip
      exact Delivers.refl (Tracks.of_closed hclosed i held)
  rw [if_neg hskip]
  have hes : ∀ e ∈ w.aiSessionProjectionByInstance.entries,
      w.aiSessionProjectionByInstance.get? e.1 = some e.2 :=
    fun e he => get?_eq_some.mpr he
  have hmem : w.Tracks i held ∨ i ∈ w.aiSessionProjectionByInstance.entries.map Prod.fst := by
    rcases h with h | ⟨-, hknown⟩
    · exact inl h
    have hkey : i ∈ w.aiSessionProjectionByInstance.keys := by
      by_contra hnot
      exact hknown (get?_eq_none.mpr hnot)
    exact inr hkey
  have hgreeted : ∀ greeted : EventForwarder δ,
      greeted = { w with sessionAuthorityReplayed := true } ∨
        greeted = { w with sessionAuthorityReplayed := true }.closeOutput →
      Delivers i held w (replayProjections traceId readings
        w.aiSessionProjectionByInstance.entries greeted) := by
    rintro greeted (rfl | rfl)
    · have hready : { w with sessionAuthorityReplayed := true }.Tracks i held ∨
          i ∈ w.aiSessionProjectionByInstance.entries.map Prod.fst := by
        rcases hmem with h | hmem
        · exact inl ⟨h.level, h.behind⟩
        · exact inr hmem
      exact Delivers.of_sentFor rfl
        (Delivers.of_replayProjections traceId readings hes hbehind hready)
    · have hclosed := Tracks.of_closed
        (w := { w with sessionAuthorityReplayed := true }.closeOutput) rfl i held
      exact Delivers.of_sentFor rfl
        (Delivers.of_replayProjections traceId readings hes hclosed.toBehind (inl hclosed))
  exact hgreeted _ (hellos_cases hellos _)

/-! ## Runs -/

/-- The events of the instance are contiguous, it stays registered, and the
consumer's capabilities do not change. -/
def Contiguous (i : String) (w : EventForwarder δ) : Action δ → Prop
  | .message j event _ => j = i → Continues (w.aiSessionProjectionByInstance.get? i) event
  | .setOutputSubscription subagents _ _ _ => subagents = w.subagents
  | .sync instanceIds => i ∈ instanceIds
  | .flushTimer _ _ | .replay _ _ _ | .other _ | .closed => True

instance (i : String) (w : EventForwarder δ) (a : Action δ) : Decidable (Contiguous i w a) := by
  cases a <;> unfold Contiguous <;> exact inferInstance

theorem sync_get? (w : EventForwarder δ) {instanceIds : List String} (h : i ∈ instanceIds) :
    (w.sync instanceIds).aiSessionProjectionByInstance.get? i =
      w.aiSessionProjectionByInstance.get? i := by
  have hkept : i ∉ w.aiSessionProjectionByInstance.keys.filter
      fun instanceId => instanceId ∉ instanceIds := by
    simp [h]
  unfold sync
  rw [Keyed.get?_remove, if_neg hkept]

theorem Delivers.of_step {a : Action δ} (hstep : step w a = some w')
    (ha : Contiguous i w a) (held : Option (AiSessionsState δ)) (h : w.Tracks i held) :
    Delivers i held w w' := by
  cases a with
  | message j event reading =>
    have hw' : w.onMessage j event reading = w' := some.inj hstep
    rw [← hw']
    by_cases hij : i = j
    · subst hij
      exact Delivers.of_message h (ha rfl) reading
    · exact Delivers.of_other_message h hij event reading
  | flushTimer bufferedAmount reading =>
    simp only [step] at hstep
    split_ifs at hstep
    cases hstep
    exact Delivers.of_flush h bufferedAmount reading
  | replay hellos traceId readings =>
    have hw' : w.replaySessionAuthority hellos traceId readings = w' := some.inj hstep
    rw [← hw']
    exact Delivers.of_replay h.toBehind (inl h) hellos traceId readings
  | setOutputSubscription subagents hellos traceId readings =>
    have hw' : { w with subagents := subagents }.replaySessionAuthority hellos traceId
        readings = w' := some.inj hstep
    have hsubagents : subagents = w.subagents := ha
    rw [← hw', hsubagents]
    exact Delivers.of_replay h.toBehind (inl h) hellos traceId readings
  | other reading =>
    have hw' : w.sendEncoded reading [] = w' := some.inj hstep
    rw [← hw']
    rcases w.sendEncoded_nil reading with hsame | hclose
    · rw [hsame]
      exact Delivers.refl h
    · rw [hclose]
      exact Delivers.of_same rfl (Tracks.of_closed rfl i held)
  | sync instanceIds =>
    have hw' : w.sync instanceIds = w' := some.inj hstep
    have hget := w.sync_get? (show i ∈ instanceIds from ha)
    rw [← hw']
    exact Delivers.of_same rfl
      { level := fun hopen hpending => by
          rw [hget]
          exact h.level hopen hpending
        behind := fun hopen event hpending => by
          rw [hget]
          exact h.behind hopen event hpending }
  | closed =>
    have hw' : w.removeOutput = w' := some.inj hstep
    rw [← hw']
    exact Delivers.of_same rfl (Tracks.of_closed rfl i held)

theorem Delivers.of_run {as : List (Action δ)}
    (hrun : run step w as = some w') (hsteps : AllSteps step (Contiguous i) w as)
    (h : w.Tracks i held) : Delivers i held w w' := by
  have hinv : ∀ s a t, step s a = some t → Contiguous i s a →
      Delivers i held w s → Delivers i held w t :=
    fun s a t hstep ha hs => hs.trans (Delivers.of_step hstep ha)
  exact run_invariant_of_steps hinv hrun hsteps (Delivers.refl h)

/-- Coalescing makes no gap. After the output was brought up, the events sent for
the instance can all be placed, and once no flush is scheduled any more the
consumer of an open output holds the forwarder's projection, as projected for it. -/
theorem sent_events_follow_projection {w w' : EventForwarder δ} {i : String}
    {held : Option (AiSessionsState δ)} {hellos : List Reading} {traceId : String}
    {readings : String → Reading} {as : List (Action δ)}
    (hfresh : w.sessionAuthorityReplayed = false)
    (hpending : w.pendingAiSessionAuthority.get? i = none)
    (hheld : match w.aiSessionProjectionByInstance.get? i with
      | none => held = none
      | some current => NotAhead w.subagents current held)
    (hsteps : AllSteps step (Contiguous i) (w.replaySessionAuthority hellos traceId readings) as)
    (hrun : run step (w.replaySessionAuthority hellos traceId readings) as = some w') :
    ∃ events, w'.sentFor i = w.sentFor i ++ events ∧ GapFree held events ∧
      (w'.isOpen = true → w'.pendingAiSessionAuthorityFlush = false →
        w'.pendingAiSessionAuthority.get? i = none) ∧
      (w'.isOpen = true → w'.pendingAiSessionAuthority.get? i = none →
        foldEvents held events = (w'.aiSessionProjectionByInstance.get? i).map
          (AiSessionsState.forConsumer w'.subagents)) := by
  have hbehind : w.Behind i held := by
    intro _ current hcurrent
    rw [hcurrent] at hheld
    exact hheld
  have hstart : w.Tracks i held ∨
      w.sessionAuthorityReplayed = false ∧ w.aiSessionProjectionByInstance.get? i ≠ none := by
    cases hcurrent : w.aiSessionProjectionByInstance.get? i with
    | none =>
      rw [hcurrent] at hheld
      refine inl ⟨fun _ _ => ?_, fun _ event hevent => ?_⟩
      · rw [hcurrent, hheld]
        rfl
      · rw [hpending] at hevent
        cases hevent
    | some current => exact inr ⟨hfresh, by simp⟩
  have hbrought := Delivers.of_replay hbehind hstart hellos traceId readings
  have hdelivers := hbrought.trans fun held' htracks => Delivers.of_run hrun hsteps htracks
  obtain ⟨events, hsent, hfree, htracks⟩ := hdelivers
  refine ⟨events, hsent, hfree, ?_, htracks.level⟩
  intro hopen hflush
  cases hwaiting : w'.pendingAiSessionAuthority.get? i with
  | none => rfl
  | some event =>
    have hscheduled := (htracks.behind hopen event hwaiting).1
    rw [hflush] at hscheduled
    cases hscheduled

/-! ## A slow output -/

def exampleMeta (revision : Nat) : AiSessionEventMeta where
  streamId := "ais_1"
  instanceId := "ins_1"
  nodeId := none
  revision := revision
  previousRevision := some (revision - 1)
  traceId := "ais_evt_1"
  generatedAt := "2026-11-02T00:00:00.000Z"
  reason := "control-action"

def exampleChild (revision : Nat) : AiSessionSummary Nat :=
  ⟨"ses_2", .running, some (.subagent "provider_1"), revision⟩

def examplePatch (revision : Nat) : AiSessionStreamEvent Nat :=
  ⟨exampleMeta revision, .patch [exampleChild revision] []⟩

/-- An open output that nothing was sent to, of a forwarder that holds revision 1. -/
def exampleOutput (subagents : Bool) : EventForwarder Nat where
  aiSessionProjectionByInstance := OrderedMap.empty.set "ins_1"
    ((exampleMeta 1).install (snapshotOf [exampleChild 1] 0 ""))
  isOpen := true
  subagents := subagents
  sessionAuthorityReplayed := false
  pendingAiSessionAuthority := .empty
  pendingAiSessionAuthorityFlush := false
  sent := []

def bufferedReading (bufferedAmount : Nat) : Reading := ⟨bufferedAmount, bufferedAmount, 4096, false⟩

def exampleBrought (subagents : Bool) : EventForwarder Nat :=
  (exampleOutput subagents).replaySessionAuthority [] "ais_replay_1" fun _ => bufferedReading 0

/-- The second patch finds the output drained but the snapshot of the first waiting. -/
def exampleActions : List (Action Nat) :=
  [.message "ins_1" (examplePatch 2) (bufferedReading AI_SESSION_AUTHORITY_BACKPRESSURE_BYTES),
    .message "ins_1" (examplePatch 3) (bufferedReading 0),
    .flushTimer 0 (bufferedReading 0)]

def exampleFlushed (subagents : Bool) : EventForwarder Nat :=
  (run step (exampleBrought subagents) exampleActions).getD (exampleBrought subagents)

theorem sent_events_follow_projection_flushed : (exampleFlushed false).isOpen = true ∧
    ((exampleFlushed false).sentFor "ins_1").length = 2 ∧
    ∃ events, (exampleFlushed false).sentFor "ins_1" = events ∧ GapFree none events ∧
      foldEvents none events =
        ((exampleFlushed false).aiSessionProjectionByInstance.get? "ins_1").map
          (AiSessionsState.forConsumer false) := by
  have hfollow := @sent_events_follow_projection Nat (exampleOutput false) (exampleFlushed false)
    "ins_1" none [] "ais_replay_1" (fun _ => bufferedReading 0) exampleActions rfl rfl
    (fun _ h _ => by cases h) (by decide)
    (rfl : run step (exampleBrought false) exampleActions = some (exampleFlushed false))
  obtain ⟨events, hsent, hfree, -, hlevel⟩ := hfollow
  exact ⟨rfl, rfl, events, hsent, hfree, hlevel rfl rfl⟩

/-- A flat consumer does not hold the relation of a child session, and an output
closed over its limit keeps the revision it was at. -/
theorem projection_not_followed : ((exampleFlushed false).isOpen = true ∧
      (exampleFlushed false).pendingAiSessionAuthorityFlush = false ∧
      foldEvents none ((exampleFlushed false).sentFor "ins_1") ≠
        (exampleFlushed false).aiSessionProjectionByInstance.get? "ins_1") ∧
    ∃ w', run step (exampleBrought true) [.message "ins_1" (examplePatch 2)
        ⟨0, MAX_EVENT_OUTPUT_BUFFERED_BYTES, 4096, false⟩] = some w' ∧
      w'.isOpen = false ∧ w'.pendingAiSessionAuthorityFlush = false ∧
      foldEvents none (w'.sentFor "ins_1") ≠ w'.aiSessionProjectionByInstance.get? "ins_1" := by
  refine ⟨⟨rfl, rfl, by decide⟩, _, rfl, rfl, rfl, by decide⟩

end EventForwarder

end TaskHandoff.AiSessions
