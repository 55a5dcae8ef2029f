import TaskHandoff.AgentRuns.Finalizing

/-! # What the coordinator keeps track of

`Base` holds between the actions of a run. A member that is not at its end is queued, executing or
has a retry scheduled, as long as the run is managed and goes on; a run found after a restart is not managed,
and its root has no activity. -/

namespace TaskHandoff.AgentRuns.AgentRunState

open AgentRunStatus Rows Scheduler

/-! ## Activity -/

def queue (s : AgentRunState) : List MemberId :=
  (s.scheduler.queueOf ()).map QueuedEvent.event

/-- The member has an execution that has not rejected. -/
def Live (s : AgentRunState) (m : MemberId) : Prop :=
  ∃ x, s.controllers.get? m = some x ∧ x.phase ≠ .rejected

/-- The member is to be executed; `pending` are those that a scheduler has just handed over. -/
def Waiting (s : AgentRunState) (pending : List MemberId) (m : MemberId) : Prop :=
  m ∈ s.queue ∨ m = s.rootMemberId ∧ 0 < s.submitted ∨ m ∈ pending

/-- The finalization of the execution has started. -/
def Phase.Ending : Phase → Prop
  | .finalizing _ | .finished | .rejected => True
  | _ => False

/-- The session of the execution is not asked for yet. -/
def Phase.Early : Phase → Prop
  | .ensuring | .ensured _ | .materializing => True
  | _ => False

/-- Nothing has started for a root that is still queued. -/
structure Idle (s : AgentRunState) : Prop where
  status : s.rows.status = .queued ∨ s.rows.status = .finalizing
  controllers : ∀ m, s.controllers.get? m = none
  settled : s.settled = 0
  timers : s.timers = []
  retries : s.retries = []
  alone : ∀ m a, s.statusOf m = some a → m = s.rootMemberId
  resources : s.rows.resources = []
  sharedSpace : s.rows.sharedSpace = none
  recoveries : s.recoveries = []

/-- What a controller says of its member. -/
structure Executing (s : AgentRunState) (m : MemberId) (x : Execution) : Prop where
  memberId : x.cleanup.memberId = m
  status : ∃ a, s.statusOf m = some a ∧ a ≠ .queued
  ending : Phase.Ending x.phase → s.IsLate m
  finished : x.phase = .finished → s.Terminal m ∨ s.Attended m

/-- The run and all of its members have been brought to finalizing. -/
structure Finalizing (s : AgentRunState) : Prop where
  late : s.rows.status.Late
  members : ∀ m a, s.statusOf m = some a → a.Late

structure Base (s : AgentRunState) (pending : List MemberId) : Prop where
  root : ∃ member, s.rows.members.get? s.rootMemberId = some member ∧ member.parentMemberId = none
  numbered : ∀ m a, s.statusOf m = some a → m < s.rows.nextId
  waiting : ∀ m, s.Waiting pending m → ∃ a, s.statusOf m = some a ∧
    (a = .queued ∨ (s.controllers.get? m).isSome = true ∨ a.Late)
  executing : ∀ m x, s.controllers.get? m = some x → s.Executing m x
  retrying : ∀ m, s.Retrying m → s.IsLate m
  keyed : s.Keyed
  runEnds : s.RunEndsWithRoot
  runQueued : s.rows.status = .queued → s.statusOf s.rootMemberId = some .queued
  idle : s.statusOf s.rootMemberId = some .queued → s.Idle
  tracked : s.managed = true → s.rows.status.terminal = false →
    ∀ m a, s.statusOf m = some a → a.terminal = false →
    if a = .queued then s.Waiting pending m else s.Live m ∨ s.Attended m
  unowned : s.managed = false → s.rows.status.terminal = false →
    ¬ s.Waiting pending s.rootMemberId ∧ ¬ s.Live s.rootMemberId ∧ ¬ s.Retrying s.rootMemberId ∧
      (s.statusOf s.rootMemberId ≠ some .queued → ∀ l ∈ s.listings, l.status ≠ .queued)
  listed : ∀ l ∈ s.listings, l.status.Reaches s.rows.status
  recovering : s.recoveries ≠ [] → s.Finalizing ∧ s.rows.resources ≠ [] ∧ s.managed = false

/-! ## Effects -/

/-- What an uninterrupted piece of work for one member has done. -/
structure Effect (m : MemberId) (s t : AgentRunState) : Prop where
  scheduler : t.scheduler = s.scheduler
  submitted : t.submitted = s.submitted
  listings : t.listings = s.listings
  recoveries : t.recoveries = s.recoveries
  moves : s.rows.Moves t.rows (fun m' a => m' = m ∧ a ≠ .queued)
    (fun a => m = s.rootMemberId ∧ a ≠ .queued)
  others : ∀ m', m' ≠ m → t.controllers.get? m' = s.controllers.get? m'
  own : ∀ x, t.controllers.get? m = some x → x.cleanup.memberId = m ∧
    (Phase.Ending x.phase → t.IsLate m) ∧ (x.phase = .finished → t.Terminal m ∨ t.Attended m)
  newTimers : ∀ c ∈ t.timers, c ∈ s.timers ∨ c.memberId = m ∧ t.IsLate m
  oldTimers : ∀ c ∈ s.timers, c.memberId ≠ m → c ∈ t.timers
  newRetries : ∀ r ∈ t.retries, r ∈ s.retries ∨ r.1.memberId = m ∧ t.IsLate m
  oldRetries : ∀ r ∈ s.retries, r.1.memberId ≠ m → r ∈ t.retries
  keyed : s.Keyed → t.Keyed
  status : ∃ a, t.statusOf m = some a ∧ a ≠ .queued ∧ (t.Live m ∨ a.Late) ∧
    (a.terminal = false → t.Live m ∨ t.Attended m)
  runStatus : m = s.rootMemberId → t.rows.status ≠ .queued
  managed : t.managed = s.managed ∨ t.managed = false ∧ t.rows.status.terminal = true
  runEnds : t.RunEndsWithRoot
  /-- The execution keeps its slot, or gives it back. -/
  slots : t.controllers = s.controllers ∧ t.settled = s.settled ∨
    t.Live m ∧ t.settled = s.settled ∨ ¬ t.Live m ∧ t.settled = s.settled + 1
  spaceKept : s.rows.sharedSpace.isSome = true → t.rows.sharedSpace.isSome = true
  /-- The run ends with its root, and its space is retained unless the root was still queued. -/
  runEnded : t.rows.status.terminal = true → s.rows.status.terminal = true ∨
    m = s.rootMemberId ∧ (Retained t.rows ∨ s.statusOf m = some .queued)
  rootEnded : m = s.rootMemberId → t.Terminal m → t.rows.status.terminal = true ∨ s.Terminal m ∨
    t.rows.sharedSpace = none
  retried : ∀ c ∈ t.timers, c ∈ s.timers ∨ ¬ t.Terminal m ∨
    m = s.rootMemberId ∧ t.rows.sharedSpace = none ∧ t.rows.status.terminal = false
  resources : t.rows.resources = [] → s.rows.resources = []
  executedLog : t.executed = s.executed ∨
    t.executed = s.executed ++ [(m, s.rows.status)] ∧ s.controllers.get? m = none ∧
      s.statusOf m = some .queued ∧ s.rows.status ≠ .finalizing
  createdLog : t.created = s.created ∨
    t.created = s.created ++ [m] ∧ ∃ x, s.controllers.get? m = some x ∧ Phase.Early x.phase
  early : ∀ x, t.controllers.get? m = some x → Phase.Early x.phase → t.created = s.created ∧
    (t.executed ≠ s.executed ∨ ∃ x', s.controllers.get? m = some x' ∧ Phase.Early x'.phase)

variable {s t : AgentRunState} {m : MemberId} {pending rest : List MemberId}

section

variable (h : Effect m s t)

include h

theorem Effect.rootMemberId : t.rootMemberId = s.rootMemberId := h.moves.rootMemberId

theorem Effect.queue : t.queue = s.queue := by
  unfold AgentRunState.queue
  rw [h.scheduler]

variable {m' : MemberId}

variable (hne : m' ≠ m)

include hne

theorem Effect.statusOf : t.statusOf m' = s.statusOf m' := by
  cases ht : t.statusOf m' with
  | none => exact (h.moves.known.mp ht).symm
  | some b =>
    have ⟨a, ha, hab⟩ := h.moves.before ht
    rcases hab with rfl | ⟨_, hm, _⟩
    · exact ha.symm
    · exact absurd hm hne

theorem Effect.live : t.Live m' ↔ s.Live m' := by
  unfold Live
  rw [h.others m' hne]

theorem Effect.retrying : t.Retrying m' ↔ s.Retrying m' := by
  constructor
  · intro ht
    rcases ht with ⟨c, hc, hm⟩ | ⟨r, hr, hm⟩
    · rcases h.newTimers c hc with hold | ⟨hnew, _⟩
      · exact .inl ⟨c, hold, hm⟩
      · exact absurd (hm.symm.trans hnew) hne
    rcases h.newRetries r hr with hold | ⟨hnew, _⟩
    · exact .inr ⟨r, hold, hm⟩
    · exact absurd (hm.symm.trans hnew) hne
  · intro hs
    rcases hs with ⟨c, hc, hm⟩ | ⟨r, hr, hm⟩
    · exact .inl ⟨c, h.oldTimers c hc (hm ▸ hne), hm⟩
    · exact .inr ⟨r, h.oldRetries r hr (hm ▸ hne), hm⟩

theorem Effect.attended (hs : s.Attended m') : t.Attended m' := by
  refine hs.imp (h.retrying hne).mpr fun hstopped => ?_
  unfold accepting
  rw [h.scheduler]
  exact hstopped

end

variable {P : MemberId → AgentRunStatus → Prop} {Q : AgentRunStatus → Prop}

section

variable (hmoves : s.rows.Moves t.rows P Q)

include hmoves

theorem IsLate.move {m : MemberId} (h : s.IsLate m) : t.IsLate m := by
  have ⟨a, ha, hlate⟩ := h
  have ⟨b, hb, hab⟩ := hmoves.statusOf ha
  refine ⟨b, hb, ?_⟩
  rcases hab with rfl | ⟨hreach, _⟩
  · exact hlate
  · exact hlate.reaches hreach

theorem Terminal.move {m : MemberId} (h : s.Terminal m) : t.Terminal m := by
  have ⟨a, ha, hterminal⟩ := h
  have ⟨b, hb, hab⟩ := hmoves.statusOf ha
  refine ⟨b, hb, ?_⟩
  rcases hab with rfl | ⟨hreach, _⟩
  · exact hterminal
  · rw [hreach.of_terminal hterminal]
    exact hterminal

theorem Finalizing.move (h : s.Finalizing) : t.Finalizing := by
  refine ⟨h.late.reaches hmoves.reaches, fun m b hb => ?_⟩
  have ⟨a, ha, hab⟩ := hmoves.before hb
  rcases hab with rfl | ⟨hreach, _⟩
  · exact h.members m _ ha
  · exact (h.members m a ha).reaches hreach

end

/-- Whoever works for a member keeps the base: the member was handed over, executing or in a
retry, or the run has ended with it. -/
theorem Base.effect (h : Base s pending) (he : Effect m s t)
    (horigin : m ∈ pending ∨ s.Live m ∨ s.Retrying m ∨ t.rows.status.terminal = true) (hsub : ∀ m' ∈ rest, m' ∈ pending)
    (hpending : ∀ m' ∈ pending, m' = m ∨ m' ∈ rest) : Base t rest := by
  have hroot := he.rootMemberId
  have hreach := he.moves.reaches
  have ⟨b, hb, hbq, hbl, hbt⟩ := he.status
  have hwaiting {m' : MemberId} (hw : t.Waiting rest m') : s.Waiting pending m' := by
    rcases hw with hqueue | ⟨hm', hsubmitted⟩ | hrest
    · exact .inl (he.queue ▸ hqueue)
    · exact .inr (.inl ⟨hm'.trans hroot, he.submitted ▸ hsubmitted⟩)
    · exact .inr (.inr (hsub m' hrest))
  have hsterminal (hterminal : t.rows.status.terminal = false) :
      s.rows.status.terminal = false := by
    cases hst : s.rows.status.terminal with
    | false => rfl
    | true =>
      rw [hreach.of_terminal hst, hst] at hterminal
      cases hterminal
  have hretrying : ∀ m', t.Retrying m' → t.IsLate m' := by
    intro m' hr
    by_cases hm : m' = m
    · subst hm
      rcases hr with ⟨c, hc, hcm⟩ | ⟨r, hr, hrm⟩
      · rcases he.newTimers c hc with hold | ⟨_, hlate⟩
        · exact (h.retrying m' (.inl ⟨c, hold, hcm⟩)).move he.moves
        · exact hlate
      rcases he.newRetries r hr with hold | ⟨_, hlate⟩
      · exact (h.retrying m' (.inr ⟨r, hold, hrm⟩)).move he.moves
      · exact hlate
    · exact (h.retrying m' ((he.retrying hm).mp hr)).move he.moves
  constructor
  · have ⟨member, hget, hparent⟩ := h.root
    have ⟨member', hget', hmoves⟩ := he.moves.member _ _ hget
    exact ⟨member', hroot.symm ▸ hget', hmoves.parent.trans hparent⟩
  · intro m' a ha
    have ⟨a', ha', _⟩ := he.moves.before ha
    exact Nat.lt_of_lt_of_le (h.numbered m' a' ha') he.moves.nextId
  · intro m' hw
    by_cases hm : m' = m
    · subst hm
      refine ⟨b, hb, .inr (hbl.imp_left fun ⟨x, hx, _⟩ => ?_)⟩
      rw [hx]
      rfl
    · have ⟨a, ha, hcase⟩ := h.waiting m' (hwaiting hw)
      refine ⟨a, (he.statusOf hm).trans ha, ?_⟩
      rw [he.others m' hm]
      exact hcase
  · intro m' x hx
    by_cases hm : m' = m
    · subst hm
      have ⟨hmember, hending, hfinished⟩ := he.own x hx
      exact ⟨hmember, ⟨b, hb, hbq⟩, hending, hfinished⟩
    have hold := h.executing m' x ((he.others m' hm).symm.trans hx)
    have ⟨a, ha, haq⟩ := hold.status
    refine ⟨hold.memberId, ⟨a, (he.statusOf hm).trans ha, haq⟩, ?_, ?_⟩
    · exact fun hending => (hold.ending hending).move he.moves
    intro hfinished
    rcases hold.finished hfinished with hterminal | hr
    · exact .inl (hterminal.move he.moves)
    · exact .inr (he.attended hm hr)
  · exact hretrying
  · exact he.keyed h.keyed
  · exact he.runEnds
  · intro hq
    rw [hroot]
    have hsq : s.rows.status = .queued := by
      rw [hq] at hreach
      exact hreach.eq_queued
    have hrootq := h.runQueued hsq
    have hne : s.rootMemberId ≠ m := fun heq => he.runStatus heq.symm hq
    exact (he.statusOf hne).trans hrootq
  · intro hq
    rw [hroot] at hq
    exfalso
    by_cases hm : s.rootMemberId = m
    · rw [hm, hb] at hq
      exact hbq (Option.some.inj hq)
    have hidle := h.idle ((he.statusOf hm).symm.trans hq)
    have ⟨a, ha, _⟩ := he.moves.before hb
    exact hm (hidle.alone m a ha).symm
  · intro hmanaged hterminal m' a ha hlive
    have hsmanaged : s.managed = true := by
      rcases he.managed with hsame | ⟨hfalse, _⟩
      · exact hsame ▸ hmanaged
      · rw [hfalse] at hmanaged
        cases hmanaged
    by_cases hm : m' = m
    · subst hm
      rw [hb] at ha
      cases ha
      rw [if_neg hbq]
      exact hbt hlive
    have hold := h.tracked hsmanaged (hsterminal hterminal) m' a ((he.statusOf hm).symm.trans ha) hlive
    split
    next haq =>
      rw [if_pos haq] at hold
      rcases hold with hqueue | ⟨hm', hsub⟩ | hp
      · exact .inl (he.queue.symm ▸ hqueue)
      · exact .inr (.inl ⟨hm'.trans hroot.symm, he.submitted.symm ▸ hsub⟩)
      · exact .inr (.inr ((hpending m' hp).resolve_left hm))
    next haq =>
      rw [if_neg haq] at hold
      exact hold.imp (he.live hm).mpr (he.attended hm)
  · intro hmanaged hterminal
    have hsmanaged : s.managed = false := by
      rcases he.managed with hsame | ⟨_, htrue⟩
      · exact hsame ▸ hmanaged
      · rw [hterminal] at htrue
        cases htrue
    have ⟨hnowait, hnolive, hnoretry, hlistings⟩ := h.unowned hsmanaged (hsterminal hterminal)
    have hm : s.rootMemberId ≠ m := by
      rintro rfl
      rcases horigin with hp | hl | hr | ht
      · exact hnowait (.inr (.inr hp))
      · exact hnolive hl
      · exact hnoretry hr
      · rw [ht] at hterminal
        cases hterminal
    rw [hroot]
    refine ⟨fun hw => hnowait (hwaiting hw), fun hl => hnolive ((he.live hm).mp hl),
      fun hr => hnoretry ((he.retrying hm).mp hr), ?_⟩
    rw [he.statusOf hm, he.listings]
    exact hlistings
  · intro l hl
    rw [he.listings] at hl
    exact (h.listed l hl).trans hreach
  · intro hrec
    rw [he.recoveries] at hrec
    have ⟨hfinalizing, hresources, hmanaged⟩ := h.recovering hrec
    refine ⟨hfinalizing.move he.moves, fun hnil => hresources (he.resources hnil), ?_⟩
    rcases he.managed with hsame | ⟨hfalse, _⟩
    · exact hsame.trans hmanaged
    · exact hfalse

end TaskHandoff.AgentRuns.AgentRunState
