import Mathlib.Logic.Relation
import TaskHandoff.Scheduler.Accounting
import TaskHandoff.AgentRuns.Effects
import TaskHandoff.AgentRuns.Recovering

/-! # The turns of a run

An action is taken in turns. Between two of them a scheduler may have handed over a member that
nobody has taken yet. `Turn` lists what a turn can do, and the base is kept by each. -/

namespace TaskHandoff.AgentRuns.AgentRunState

open AgentRunStatus Rows Scheduler SchedulerExecutionRuntime Option

/-! ## The member scheduler -/

section Scheduler

variable {κ ε : Type} [DecidableEq κ]

theorem submit_cases (r : SchedulerExecutionRuntime κ ε) (key : κ) (event : ε)
    (policy : SchedulerPolicy) (now startedAt : Int) :
    (∃ reason, (r.submit key event policy now startedAt).2 = (r, [.skipped event reason])) ∨
      r.accepting = true ∧ policy.maxConcurrentRuns ≤ r.runningCount key ∧
        (r.submit key event policy now startedAt).2 =
          ({ r with queued := r.queued.set key (r.queueOf key ++ [⟨event, policy⟩]) }, []) ∨
      r.runningCount key < policy.maxConcurrentRuns ∧
        (r.submit key event policy now startedAt).2 = r.begin key event policy startedAt := by
  unfold submit
  split
  · exact .inl ⟨_, rfl⟩
  rename_i haccepting
  split
  · exact .inl ⟨_, rfl⟩
  split
  next hbusy =>
    split
    · exact .inl ⟨_, rfl⟩
    split
    · exact .inl ⟨_, rfl⟩
    · exact .inr (.inl ⟨Bool.not_eq_false _ ▸ haccepting, hbusy, rfl⟩)
  next hroom => exact .inr (.inr ⟨Nat.lt_of_not_le hroom, rfl⟩)

theorem finish_cases (r : SchedulerExecutionRuntime κ ε) (key : κ) (now : Int) :
    r.finish key now = (r.release key, []) ∧ (r.accepting = true →
        ∀ next ∈ (r.queueOf key).head?, next.policy.maxConcurrentRuns ≤
          (r.release key).runningCount key) ∨
      ∃ next rest, r.queueOf key = next :: rest ∧
        (r.release key).runningCount key < next.policy.maxConcurrentRuns ∧
        r.finish key now = ((r.release key).dequeue key rest).begin key next.event next.policy now := by
  have hqueue : (r.release key).queueOf key = r.queueOf key := rfl
  unfold finish drain
  split
  next haccepting =>
    rw [hqueue]
    split
    next hnil => exact .inl ⟨rfl, fun _ next hnext => by simp [hnil] at hnext⟩
    rename_i next rest hcons
    split
    next hbusy =>
      refine .inl ⟨rfl, fun _ next' hnext => ?_⟩
      rw [hcons, List.head?_cons, mem_def, some.injEq] at hnext
      exact hnext ▸ hbusy
    next hroom => exact .inr ⟨next, rest, hcons, Nat.lt_of_not_le hroom, rfl⟩
  next hstopped => exact .inl ⟨rfl, fun h => absurd h hstopped⟩

end Scheduler

/-- The scheduler of a run has one queue. -/
theorem stop_skips (r : SchedulerExecutionRuntime Unit MemberId) :
    r.stop.2 = (r.queueOf ()).map fun entry => .skipped entry.event .schedulerStopped := by
  obtain ⟨_, ⟨entries, hnodup⟩, _, _, _⟩ := r
  refine congrArg (List.map _) ?_
  match entries, hnodup with
  | [], _ => rfl
  | [(_, queue)], _ => exact List.append_nil queue
  | ((), _) :: ((), _) :: _, hnodup => exact absurd List.mem_cons_self (List.nodup_cons.mp hnodup).1

/-! ## Turns -/

/-- What a scheduler has handed over and nobody has taken yet. -/
inductive Handed where
  | nobody
  | submitted (memberId : MemberId)
  | started (memberId : MemberId)
  | skipped (memberIds : List MemberId)

def Handed.members : Handed → List MemberId
  | .nobody => []
  | .submitted memberId | .started memberId => [memberId]
  | .skipped memberIds => memberIds

/-- What a member that an action starts finds. -/
def RunAction.env : RunAction → Option Surroundings
  | .submitRoot env | .addMember _ _ env | .release env => some env
  | _ => none

inductive Turn (a : RunAction) : AgentRunState × Handed → AgentRunState × Handed → Prop where
  | takeRoot {s env} (ha : a = .submitRoot env) (hsubmitted : 0 < s.submitted) : Turn a (s, .nobody)
        ({ s with submitted := s.submitted - 1 }, .submitted s.rootMemberId)
  | dropRoot {s reason} (ha : a = .skipRoot reason) (hsubmitted : 0 < s.submitted) :
      Turn a (s, .nobody)
        ({ s with submitted := s.submitted - 1 }, .skipped [s.rootMemberId])
  /-- The member of an invocation is queued. -/
  | invite {s input resolved env parent snapshot rows m} (ha : a = .addMember input resolved env)
      (hrun : s.rows.status = .running)
      (hparent : s.rows.members.get? input.parentMemberId = some parent)
      (hrunning : parent.status = .running) (hrow : addRow s.rows input snapshot = .ok (rows, m))
      (hqueued : rows.statusOf m = some .queued) (timeline : Bool) :
      Turn a (s, .nobody)
        ({ s with rows := if timeline then rows.appendTimeline else rows }, .submitted m)
  /-- The member of an earlier invocation is at work. -/
  | invited {s input resolved env parent snapshot rows m} (ha : a = .addMember input resolved env)
      (hrun : s.rows.status = .running)
      (hparent : s.rows.members.get? input.parentMemberId = some parent)
      (hrunning : parent.status = .running) (hrow : addRow s.rows input snapshot = .ok (rows, m))
      (hqueued : rows.statusOf m ≠ some .queued) (timeline : Bool) :
      Turn a (s, .nobody)
        ({ s with rows := if timeline then rows.appendTimeline else rows }, .nobody)
  | refuse {s m} (reason : SchedulerSkipReason) : Turn a (s, .submitted m) (s, .skipped [m])
  | enqueue {s m} (haccepting : s.accepting = true)
      (hbusy : s.rows.budget.maxConcurrency ≤ s.scheduler.runningCount ()) :
      Turn a (s, .submitted m)
        ({ s with scheduler := { s.scheduler with
            queued := s.scheduler.queued.set () (s.scheduler.queueOf () ++ [⟨m, s.policy⟩]) } },
          .nobody)
  | begin {s m} (now : Int)
      (hroom : s.scheduler.runningCount () < s.rows.budget.maxConcurrency) :
      Turn a (s, .submitted m)
        ({ s with scheduler := (s.scheduler.begin () m s.policy now).1 }, .started m)
  | release {s env} (ha : a = .release env) (hsettled : 0 < s.settled)
      (hblocked : s.scheduler.accepting = true → ∀ next ∈ (s.scheduler.queueOf ()).head?,
        next.policy.maxConcurrentRuns ≤ (s.scheduler.release ()).runningCount ()) :
      Turn a (s, .nobody)
        ({ s with settled := s.settled - 1, scheduler := s.scheduler.release () }, .nobody)
  | pop {s env next rest} (ha : a = .release env) (hsettled : 0 < s.settled)
      (hqueue : s.scheduler.queueOf () = next :: rest)
      (hroom : (s.scheduler.release ()).runningCount () < next.policy.maxConcurrentRuns)
      (now : Int) :
      Turn a (s, .nobody)
        ({ s with
            settled := s.settled - 1
            scheduler :=
              (((s.scheduler.release ()).dequeue () rest).begin () next.event next.policy now).1 },
          .started next.event)
  | execute {s m env} (ha : a.env = some env) :
      Turn a (s, .started m) (s.executeMember m env, .nobody)
  | fail {s m rest} (reason : SchedulerSkipReason) :
      Turn a (s, .skipped (m :: rest)) (s.failQueued m reason, .skipped rest)
  | settleDown {s} : Turn a (s, .skipped []) (s, .nobody)
  | cancel {s expectedRevision rows} (ha : a = .cancel expectedRevision)
      (hstatus : s.rows.status ≠ .finalizing)
      (hrows : s.rows.transitionRun { status := .finalizing } = .ok rows) :
      Turn a (s, .nobody)
        ({ s with rows, scheduler := (s.scheduler.clearQueued () .jobDisabled).1 },
          .skipped s.queue)
  | stop {s} (ha : a = .stop) :
      Turn a (s, .nobody)
        ({ s with submitted := 0, scheduler := s.scheduler.stop.1 },
          .skipped (List.replicate s.submitted s.rootMemberId ++ s.queue))
  | dropRetries {s} (ha : a = .stop) (hstopped : s.accepting = false) :
      Turn a (s, .skipped []) ({ s with timers := [], cleanupRetryTimers := [] }, .skipped [])
  | abort {s} (ha : a = .stop ∨ ∃ expectedRevision, a = .cancel expectedRevision) : Turn a (s, .skipped [])
        ({ s with controllers := s.controllers.mapValues fun x => { x with aborted := true } },
          .nobody)
  | settle {s t memberId settlement now x} (ha : a = .settle memberId settlement now)
      (hx : s.controllers.get? memberId = some x)
      (hresume : s.resume memberId x now x.phase settlement = some t) :
      Turn a (s, .nobody) (t, .nobody)
  | fireTimer {s index now c} (ha : a = .fireTimer index now) (hget : s.timers[index]? = some c) :
      Turn a (s, .nobody)
        (afterRetry c (finalizeMember { s with timers := s.timers.eraseIdx index } c now), .nobody)
  | settleRetry {s index failure now c at_} (ha : a = .settleRetry index failure now)
      (hget : s.retries[index]? = some (c, at_)) :
      Turn a (s, .nobody)
        (afterRetry c
          (resumeCleanup { s with retries := s.retries.eraseIdx index } c now at_ failure), .nobody)
  | overlay {s input m rows resourceId} (ha : a = .overlay input)
      (hkind : input.kind = .overlayMount) (hmember : input.memberId = some m)
      (hmaterializing : s.isMaterializing m = true)
      (hrows : s.rows.register input = .ok (rows, resourceId)) :
      Turn a (s, .nobody) ({ s with rows }, .nobody)
  | overlayPhase {s resourceId phase increment} (ha : a = .overlayPhase resourceId phase increment)
      (hoverlay : s.isOverlay resourceId = true) :
      Turn a (s, .nobody) ({ s with rows := s.rows.transition resourceId phase increment }, .nobody)
  | restart {s} (ha : a = .restart) : Turn a (s, .nobody) (s.restart, .nobody)
  | list {s} (ha : a = .list) : Turn a (s, .nobody)
        ({ s with listings := s.listings ++ [⟨s.rows.status, s.rootStatus⟩] }, .nobody)
  /-- A listed run is at its end, or managed, or its root has started. -/
  | pass {s index env listing} (ha : a = .reconcile index env)
      (hget : s.listings[index]? = some listing) :
      Turn a (s, .nobody) ({ s with listings := s.listings.eraseIdx index }, .nobody)
  | unmanage {s index env listing} (ha : a = .reconcile index env)
      (hget : s.listings[index]? = some listing) (hterminal : listing.status.terminal = true) :
      Turn a (s, .nobody)
        ({ s with listings := s.listings.eraseIdx index, managed := false }, .nobody)
  | acceptRoot {s index env listing} (ha : a = .reconcile index env)
      (hget : s.listings[index]? = some listing) (hmanaged : s.managed = false)
      (hstatus : listing.status = .queued) (hroot : listing.rootStatus = .queued)
      (hresources : s.rows.resources = []) :
      Turn a (s, .nobody)
        ({ s with
            listings := s.listings.eraseIdx index
            managed := true
            submitted := s.submitted + 1 }, .nobody)
  | refuseRoot {s index env} (ha : a = .reconcile index env) :
      Turn a (s, .nobody) (s.failQueued s.rootMemberId .schedulerStopped, .nobody)
  | interrupted {s index env listing} (ha : a = .reconcile index env)
      (hget : s.listings[index]? = some listing) (hmanaged : s.managed = false)
      (hlive : listing.status.terminal = false)
      (hstarted : listing.status ≠ .queued ∨ s.rows.resources ≠ []) :
      Turn a (s, .nobody)
        (reconcileInterruptedRun { s with listings := s.listings.eraseIdx index }, .nobody)
  | recovery {s index failed r} (ha : a = .settleRecovery index failed)
      (hget : s.recoveries[index]? = some r) :
      Turn a (s, .nobody)
        (resumeRecovery { s with recoveries := s.recoveries.eraseIdx index } r failed, .nobody)
  | listExpired {s now listed} (ha : a = .listExpired now)
      (hlisted : ∀ e ∈ listed, s.rows.sharedSpace = some e.1 ∧ e.1.expiresAt.any (· ≤ now)) :
      Turn a (s, .nobody) ({ s with expiryListings := s.expiryListings ++ listed }, .nobody)
  | reconcileExpired {s index listed} (ha : a = .reconcileExpired index)
      (hget : s.expiryListings[index]? = some listed) :
      Turn a (s, .nobody)
        (reconcileExpiredSpace { s with expiryListings := s.expiryListings.eraseIdx index } listed.1,
          .nobody)
  | removal {s index failed resourceId} (ha : a = .settleRemoval index failed)
      (hget : s.removals[index]? = some resourceId) :
      Turn a (s, .nobody)
        (directoryRemoved { s with removals := s.removals.eraseIdx index } resourceId failed, .nobody)

/-- The turns of one action. -/
abbrev Turns (a : RunAction) : AgentRunState × Handed → AgentRunState × Handed → Prop :=
  Relation.ReflTransGen (Turn a)

variable {s t : AgentRunState} {a : RunAction} {m : MemberId} {env : Surroundings}

/-! ## Every action is taken in turns -/

theorem submitMember_turns (ha : a.env = some env) :
    Turns a (s, .submitted m) (s.submitMember m env, .nobody) := by
  unfold submitMember perform
  rcases submit_cases s.scheduler () m s.policy env.now env.now with
    ⟨reason, heq⟩ | ⟨haccepting, hbusy, heq⟩ | ⟨hroom, heq⟩
  · rw [heq]
    exact .tail (.tail (.single (.refuse reason)) (.fail reason)) .settleDown
  · rw [heq]
    exact .single (.enqueue haccepting hbusy)
  · rw [heq]
    exact .tail (.single (.begin env.now hroom)) (.execute ha)

theorem failQueued_turns (ms : List MemberId) (reason : SchedulerSkipReason) :
    Turns a (s, .skipped ms) (ms.foldl (fun s m => s.failQueued m reason) s, .skipped []) := by
  induction ms generalizing s with
  | nil => exact .refl
  | cons m ms ih => exact .head (.fail reason) ih

theorem foldl_skip (s : AgentRunState) (ms : List MemberId) (reason : SchedulerSkipReason) :
    (ms.map fun m => (.skipped m reason : AdapterCall Unit MemberId)).foldl skip s =
      ms.foldl (fun s m => s.failQueued m reason) s := by
  rw [List.foldl_map]
  rfl

theorem failQueued_scheduler (s : AgentRunState) (m : MemberId) (reason : SchedulerSkipReason) :
    (s.failQueued m reason).scheduler = s.scheduler := by
  unfold failQueued
  dsimp only
  repeat' split
  all_goals rfl

theorem stop_turns : Turns .stop (s, .nobody) (s.stop, .nobody) := by
  let skipped := List.replicate s.submitted s.rootMemberId ++ s.queue
  let u : AgentRunState := { s with submitted := 0, scheduler := s.scheduler.stop.1 }
  let v := skipped.foldl (fun s m => s.failQueued m .schedulerStopped) u
  have hstopped : v.accepting = false := by
    suffices h : ∀ (ms : List MemberId) (s : AgentRunState), s.accepting = false →
        (ms.foldl (fun s m => s.failQueued m .schedulerStopped) s).accepting = false from
      h skipped u rfl
    intro ms
    induction ms with
    | nil => exact fun _ h => h
    | cons m ms ih => exact fun s h => ih _ (congrArg _ (failQueued_scheduler s m _) |>.trans h)
  have heq : s.stop = { v with
      timers := []
      cleanupRetryTimers := []
      controllers := v.controllers.mapValues fun x => { x with aborted := true } } := by
    have hcalls : List.replicate s.submitted (.skipped s.rootMemberId .schedulerStopped) ++
        s.scheduler.stop.2 = skipped.map fun m => .skipped m .schedulerStopped := by
      rw [stop_skips, List.map_append, List.map_replicate, queue, List.map_map]
      rfl
    simp only [stop, hcalls, foldl_skip]
    rfl
  rw [heq]
  exact .head (.stop rfl) (.trans (failQueued_turns skipped .schedulerStopped)
    (.head (.dropRetries rfl hstopped) (.single (.abort (.inl rfl)))))

variable {snapshot : AgentRunMemberExecutionSnapshot} {input : Invocation} {rows : Rows}
  {pending : List MemberId}

theorem addRow_cases {rows rows' : Rows} (h : addRow rows input snapshot = .ok (rows', m)) :
    rows' = rows ∧ (∃ member, rows.members.get? m = some member ∧
        member.parentMemberId = some input.parentMemberId) ∨
      m = rows.nextId ∧ ∃ parent, rows.members.get? input.parentMemberId = some parent ∧
        rows.members.keys.length < rows.budget.maxMembers ∧
        parent.depth + 1 ≤ rows.budget.maxDepth ∧
        rows' = { rows with
          members := rows.members.set rows.nextId (calledMember input (parent.depth + 1) snapshot)
          revision := rows.revision + 1
          nextId := rows.nextId + 1 } := by
  unfold addRow at h
  split at h
  · cases h
  rename_i parent hparent
  split at h
  next memberId existing hfind =>
    split at h
    next hsame =>
      cases h
      simp only [sameInvocation, Bool.and_eq_true, decide_eq_true_eq] at hsame
      refine .inl ⟨rfl, existing, OrderedMap.get?_eq_some.mpr ?_, hsame.1.1.1.1⟩
      exact List.mem_of_find?_eq_some hfind
    · cases h
  · split at h
    · cases h
    next hroom =>
      split at h
      · cases h
      next hdepth =>
        cases h
        exact .inr ⟨rfl, parent, hparent, Nat.lt_of_not_le hroom, Nat.le_of_not_lt hdepth, rfl⟩

theorem addRow_ne_root (h : Base s pending)
    (hrow : addRow s.rows input snapshot = .ok (rows, m)) : m ≠ s.rootMemberId := by
  have ⟨root, hroot, hparent⟩ := h.root
  rintro rfl
  rcases addRow_cases hrow with ⟨_, member, hget, hmember⟩ | ⟨hnew, _⟩
  · rw [hroot] at hget
    cases hget
    rw [hparent] at hmember
    cases hmember
  · have hlt := h.numbered s.rootMemberId _ (statusOf_eq_some.mpr ⟨root, hroot, rfl⟩)
    exact absurd hnew (Nat.ne_of_lt hlt)

theorem addMember_turns (h : Base s pending)
    {resolved : Except AgentRunError AgentRunMemberExecutionSnapshot}
    (hadd : s.addMember input resolved env = .ok (t, m)) :
    Turns (.addMember input resolved env) (s, .nobody) (t, .nobody) := by
  unfold addMember at hadd
  split at hadd
  · cases hadd
  rename_i hrun
  split at hadd
  · cases hadd
  rename_i parent hparent
  split at hadd
  · cases hadd
  rename_i hrunning
  split at hadd
  · cases hadd
  rename_i snapshot
  split at hadd
  · cases hadd
  rename_i rows memberId hrow
  simp only at hadd
  have hrun := Decidable.not_not.mp hrun
  have hrunning := Decidable.not_not.mp hrunning
  have hroot := addRow_ne_root h hrow
  have hkept : rows.rootMemberId = s.rootMemberId := by
    rcases addRow_cases hrow with ⟨heq, _⟩ | ⟨_, _, _, _, _, heq⟩ <;> rw [heq] <;> rfl
  generalize policyDifference parent snapshot = timeline at hadd
  have hinvite := Turn.invite (a := .addMember input (.ok snapshot) env) rfl hrun hparent
    hrunning hrow
  have hinvited := Turn.invited (a := .addMember input (.ok snapshot) env) rfl hrun
    hparent hrunning hrow
  replace hinvite := fun hqueued => hinvite hqueued timeline
  replace hinvited := fun hqueued => hinvited hqueued timeline
  have hmembers : (if timeline then rows.appendTimeline else rows).members =
      rows.members := by cases timeline <;> rfl
  have hsame : (if timeline then rows.appendTimeline else rows).rootMemberId =
      rows.rootMemberId := by cases timeline <;> rfl
  generalize (if timeline then rows.appendTimeline else rows) = rows' at *
  have hany : (rows'.members.get? memberId).any (fun member => member.status = .queued) =
      true ↔ rows.statusOf memberId = some .queued := by
    rw [hmembers, statusOf_eq_some, any_eq_true]
    exact exists_congr fun member => and_congr_right fun _ => decide_eq_true_iff
  split at hadd
  next hqueued =>
    cases hadd
    refine .head (hinvite (hany.mp hqueued)) ?_
    unfold accept
    split
    · exact .head (.refuse .schedulerStopped)
        (.head (.fail .schedulerStopped) (.single .settleDown))
    split
    next heq => exact absurd (heq.trans (hsame.trans hkept)) hroot
    · exact submitMember_turns rfl
  next hqueued =>
    cases hadd
    exact .single (hinvited fun h => hqueued (hany.mpr h))

theorem step_turns (h : Base s []) (hstep : s.step a = some t) : Turns a (s, .nobody) (t, .nobody) := by
  unfold step at hstep
  split at hstep
  next env =>
    split at hstep
    · cases hstep
    next hsubmitted =>
      cases hstep
      exact .head (.takeRoot rfl (Nat.pos_of_ne_zero hsubmitted)) (submitMember_turns rfl)
  next reason =>
    split at hstep
    · cases hstep
    next hsubmitted =>
      cases hstep
      exact .head (.dropRoot rfl (Nat.pos_of_ne_zero hsubmitted))
        (.head (.fail reason) (.single .settleDown))
  next input resolved env =>
    split at hstep
    · cases hstep
      exact .refl
    next hadd =>
      cases hstep
      exact addMember_turns h hadd
  next expectedRevision =>
    split at hstep
    · cases hstep
      exact .refl
    rename_i hcancel
    cases hstep
    unfold cancel at hcancel
    split at hcancel
    · cases hcancel
    split at hcancel
    · cases hcancel
      exact .refl
    rename_i hstatus
    split at hcancel
    · cases hcancel
    split at hcancel
    · cases hcancel
    rename_i rows hrows
    cases hcancel
    refine .head (.cancel rfl hstatus hrows) (.tail (failQueued_turns _ .jobDisabled) ?_)
    have habort := Turn.abort (s := s.queue.foldl (fun s m => s.failQueued m .jobDisabled)
      { s with rows, scheduler := (s.scheduler.clearQueued () .jobDisabled).1 })
      (a := .cancel expectedRevision) (.inr ⟨_, rfl⟩)
    have hcalls : (s.scheduler.clearQueued () .jobDisabled).2 =
        s.queue.map fun m => .skipped m .jobDisabled := by
      rw [queue, List.map_map]
      rfl
    simp only [cancelMembers, hcalls, foldl_skip]
    exact habort
  next memberId settlement now =>
    cases hx : s.controllers.get? memberId with
    | none => rw [hx] at hstep; cases hstep
    | some x =>
      rw [hx] at hstep
      exact .single (.settle rfl hx hstep)
  next env =>
    split at hstep
    · cases hstep
    rename_i hsettled
    cases hstep
    have hsettled := Nat.pos_of_ne_zero hsettled
    rcases finish_cases s.scheduler () env.now with ⟨heq, hblocked⟩ | ⟨next, rest, hqueue, hroom, heq⟩
    · rw [heq]
      exact .single (.release rfl hsettled hblocked)
    · rw [heq]
      exact .head (.pop rfl hsettled hqueue hroom env.now) (.single (.execute rfl))
  next index now =>
    obtain ⟨c, hget, heq⟩ := map_eq_some_iff.mp hstep
    subst heq
    exact .single (.fireTimer rfl hget)
  next index failure now =>
    obtain ⟨⟨c, at_⟩, hget, heq⟩ := map_eq_some_iff.mp hstep
    subst heq
    exact .single (.settleRetry rfl hget)
  next input =>
    split at hstep
    next hguard =>
      obtain ⟨m, hmember, hmaterializing⟩ := (any_eq_true _ _).mp hguard.2
      split at hstep
      · cases hstep
        exact .refl
      next hrows =>
        cases hstep
        exact .single (.overlay rfl hguard.1 hmember hmaterializing hrows)
    · cases hstep
  next resourceId phase increment =>
    split at hstep
    next hoverlay =>
      cases hstep
      exact .single (.overlayPhase rfl hoverlay)
    · cases hstep
  · cases hstep
    exact stop_turns
  · cases hstep
    exact .single (.restart rfl)
  · cases hstep
    exact .single (.list rfl)
  next index env =>
    obtain ⟨listing, hget, heq⟩ := map_eq_some_iff.mp hstep
    subst heq
    unfold reconcileRun
    split
    next hterminal => exact .single (.unmanage rfl hget hterminal)
    rename_i hlive
    split
    · exact .single (.pass rfl hget)
    rename_i hmanaged
    split
    next hqueued =>
      split
      next hroot =>
        unfold accept
        split
        · exact .head (.pass rfl hget) (.single (.refuseRoot rfl))
        rw [if_pos rfl]
        exact .single (.acceptRoot rfl hget (Bool.eq_false_iff.mpr hmanaged) hqueued.1 hroot
          hqueued.2)
      · exact .single (.pass rfl hget)
    next hstarted =>
      exact .single (.interrupted rfl hget (Bool.eq_false_iff.mpr hmanaged)
        (Bool.eq_false_iff.mpr hlive) (Decidable.not_and_iff_or_not.mp hstarted))
  next index failed =>
    obtain ⟨r, hget, heq⟩ := map_eq_some_iff.mp hstep
    subst heq
    exact .single (.recovery rfl hget)
  next now =>
    cases hstep
    refine .single (.listExpired rfl fun e he => ?_)
    obtain ⟨space, hspace, heq⟩ := List.mem_map.mp he
    subst heq
    exact filter_eq_some_iff.mp (mem_toList.mp hspace)
  next index =>
    obtain ⟨listed, hget, heq⟩ := map_eq_some_iff.mp hstep
    subst heq
    exact .single (.reconcileExpired rfl hget)
  next index failed =>
    obtain ⟨resourceId, hget, heq⟩ := map_eq_some_iff.mp hstep
    subst heq
    exact .single (.removal rfl hget)

end TaskHandoff.AgentRuns.AgentRunState
