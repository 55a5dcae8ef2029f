import TaskHandoff.Stories.AutomationRunsHeld

/-! # Slots of automations

An `executeRun` occupies a slot of its automation until the completion of its run is resolved. The
waiter creates the completion entry: a reconcile that resolves it between the transition to running
and `completionFor` wakes nobody, and an execution that marks a running run as failed resolves
nothing. -/

namespace TaskHandoff.Stories

open Scheduler List Positions Descends ExecuteStage Machine AutomationRun
open Relation (ReflTransGen)

/-- The execution is about to call `completionFor`. -/
def ExecuteStage.bound : ExecuteStage → Bool
  | .found (some .queued) | .found (some .dispatching) | .found none => false
  | .found (some _) | .publishing => true
  | _ => false

/-- The execution waits for the completion of its run or is about to. -/
def ExecuteStage.awaits (stage : ExecuteStage) : Bool := stage.bound || stage.carries

/-- A bound on the continuations an execution has left. -/
def ExecuteStage.rank : ExecuteStage → Nat
  | .reading => 7
  | .found _ => 6
  | .transitioning => 5
  | .dispatching => 4
  | .starting _ => 3
  | .publishing => 2
  | .failing => 2
  | .returning => 1
  | .waiting _ => 1
  | .settled => 0

theorem ExecuteStage.rank_eq_zero {stage : ExecuteStage} (h : stage.rank = 0) :
    stage = .settled := by
  cases stage <;> first | rfl | cases h

theorem ExecuteStage.rank_le (stage : ExecuteStage) : stage.rank ≤ 7 := by
  cases stage <;> simp only [rank] <;> omega

/-- The runs a reconcile still deals with. -/
def ReconcileStage.runs : ReconcileStage → List AutomationRun
  | .reading => []
  | .next runs | .publishing runs => runs
  | .transitioning run _ runs | .resolving run runs => run :: runs

namespace StoryScheduler

/-- The completion of the run is still to be resolved. -/
def Resolvable (σ : StoryScheduler) (id : RunId) : Prop :=
  σ.statusOf id = some .running ∨
    ∃ y ∈ σ.reconciles, ∃ run runs, y.stage = .resolving run runs ∧ run.id = id

/-- No completion is resolved while an execution is about to ask for it, unless another reconcile
resolves it again; and no execution marks a running run as failed for whose completion another one
waits or is about to. -/
def Prompt (σ : StoryScheduler) : SchedulerAction → Prop
  | .advance execution _ =>
    ∀ x, σ.executions[execution]? = some x → x.stage = .failing →
      σ.statusOf x.runId = some .running →
      ∀ y ∈ σ.executions, y.runId = x.runId → y.stage.awaits = false
  | .reconcileNext reconcile _ =>
    ∀ y run runs, σ.reconciles[reconcile]? = some y → y.stage = .resolving run runs →
      (∀ x ∈ σ.executions, x.runId = run.id → x.stage.bound = false) ∨
        ∃ other z run' runs', other ≠ reconcile ∧ σ.reconciles[other]? = some z ∧
          z.stage = .resolving run' runs' ∧ run'.id = run.id
  | _ => True

/-- The execution is not forgotten by who resolves completions. -/
structure Awake (σ : StoryScheduler) (x : Execution) : Prop where
  bound : x.stage.bound = true → σ.Resolvable x.runId
  waiting : ∀ entry, x.stage = .waiting entry → (x.runId, entry) ∈ σ.resolved ∨
    ((x.runId, entry) ∈ σ.completion ∧ σ.Resolvable x.runId)

def Woken (σ : StoryScheduler) : Prop := ∀ x ∈ σ.executions, σ.Awake x

section Steps

variable {cautious : Prop} {σ τ : StoryScheduler} {taken : List RunId} {execution : Nat} {x : Execution}

theorem Awake.of_idle (h : x.stage.awaits = false) : σ.Awake x := by
  have ⟨hbound, hcarries⟩ := Bool.or_eq_false_iff.1 h
  refine ⟨fun hx => ?_, fun entry hx => ?_⟩
  · rw [hbound] at hx
    cases hx
  · rw [hx] at hcarries
    cases hcarries

theorem Woken.keep (h : σ.Woken) (hexecutions : ∀ x ∈ τ.executions, x ∈ σ.executions ∨ τ.Awake x)
    (hresolved : ∀ entry ∈ σ.resolved, entry ∈ τ.resolved)
    (hcompletion : ∀ entry ∈ σ.completion, entry ∈ τ.completion ∨ entry ∈ τ.resolved)
    (hresolvable : ∀ x ∈ σ.executions, x.stage.awaits = true → σ.Resolvable x.runId →
      τ.Resolvable x.runId ∨ (x.stage.bound = false ∧
        ∀ entry, (x.runId, entry) ∈ σ.completion → (x.runId, entry) ∈ τ.resolved)) : τ.Woken := by
  intro x hx
  rcases hexecutions x hx with hold | hawake
  swap
  · exact hawake
  have hawake := h x hold
  refine ⟨fun hbound => ?_, fun entry hwaiting => ?_⟩
  · have hawaits : x.stage.awaits = true := by rw [awaits, hbound, Bool.true_or]
    rcases hresolvable x hold hawaits (hawake.bound hbound) with hτ | ⟨hnot, _⟩
    · exact hτ
    · rw [hnot] at hbound
      cases hbound
  rcases hawake.waiting entry hwaiting with hdone | ⟨hentry, hσ⟩
  · exact .inl (hresolved _ hdone)
  · have hawaits : x.stage.awaits = true := by rw [hwaiting]; rfl
    rcases hresolvable x hold hawaits hσ with hτ | ⟨_, hwake⟩
    · rcases hcompletion _ hentry with hkept | hdone
      · exact .inr ⟨hkept, hτ⟩
      · exact .inl hdone
    · exact .inl (hwake entry hentry)

variable {stage : ExecuteStage}

theorem Woken.setStage (h : σ.Woken)
    (hawake : Awake (σ.setStage execution x stage) { x with stage }) :
    (σ.setStage execution x stage).Woken := by
  apply h.keep
  · intro y hy
    rcases mem_or_eq_of_mem_set hy with hold | heq
    · exact .inl hold
    · exact .inr (heq ▸ hawake)
  · exact fun _ => id
  · exact fun _ hentry => .inl hentry
  · exact fun _ _ _ hσ => .inl hσ

theorem Woken.setIdle (h : σ.Woken) (hidle : stage.awaits = false) :
    (σ.setStage execution x stage).Woken :=
  h.setStage (Awake.of_idle hidle)

/-! ## Transitions -/

section Transition

variable {stored : List AutomationRun} {id : RunId} {status : StoryAutomationRunStatus}
  {aiSessionId : Option AiSessionId}

section

variable (ht : Stories.transition σ.runs id status aiSessionId = some stored)

include ht

theorem transition_from : ∃ current, σ.statusOf id = some current ∧
      (current = status ∨ status ∈ allowedTransitions current) := by
  have ⟨⟨current, hcurrent, hallowed, _⟩, _, _⟩ := transition_spec ht
  exact ⟨current.status, by rw [statusOf, run?, hcurrent, Option.map_some], hallowed⟩

theorem Resolvable.transition
    {other : RunId} (hσ : σ.Resolvable other)
    (hkeep : other = id → σ.statusOf id = some .running → status = .running) :
    Resolvable { σ with runs := stored } other := by
  rcases hσ with hrunning | hframe
  · left
    rw [statusOf_transition ht]
    by_cases heq : other = id
    · subst heq
      rw [if_pos rfl, hkeep rfl hrunning]
    · rw [if_neg heq]
      exact hrunning
  · exact .inr hframe

end

theorem Woken.transition (h : σ.Woken)
    (ht : Stories.transition σ.runs id status aiSessionId = some stored)
    (hkeep : σ.statusOf id = some .running → status ≠ .running →
      ∀ x ∈ σ.executions, x.runId = id → x.stage.awaits = false) :
    Woken { σ with runs := stored } := by
  have hresolvable : ∀ y ∈ σ.executions, y.stage.awaits = true → σ.Resolvable y.runId →
      Resolvable { σ with runs := stored } y.runId := by
    intro y hy hawaits hσ
    apply hσ.transition ht
    intro hid hrunning
    by_contra hne
    rw [hkeep hrunning hne y hy hid] at hawaits
    cases hawaits
  apply h.keep
  · exact fun y hy => .inl hy
  · exact fun _ hentry => hentry
  · exact fun _ hentry => .inl hentry
  · exact fun y hy hawaits hσ => .inl (hresolvable y hy hawaits hσ)

theorem Woken.transition_early (h : σ.Woken)
    (ht : Stories.transition σ.runs id status aiSessionId = some stored)
    (hearly : status ∉ allowedTransitions .running) : Woken { σ with runs := stored } := by
  apply h.transition ht
  intro hrunning hne
  have ⟨current, hcurrent, hallowed⟩ := transition_from ht
  rw [hrunning, Option.some.injEq] at hcurrent
  subst hcurrent
  rcases hallowed with hsame | hallowed
  · exact absurd hsame.symm hne
  · exact absurd hallowed hearly

end Transition

/-! ## `executeRun` -/

theorem Woken.wait (h : σ.Woken) (hx : σ.executions[execution]? = some x)
    (hbound : x.stage.bound = true) : (σ.wait execution x).Woken := by
  have hresolvable := (h x (mem_of_getElem? hx)).bound hbound
  unfold StoryScheduler.wait
  split
  · rename_i entry hentry
    apply h.setStage
    refine ⟨(fun hnot => by cases hnot), fun other hother => ?_⟩
    rw [← waiting.inj hother]
    have ⟨before, behind, hcompletion, _⟩ := lookup_eq_some_iff.1 hentry
    refine .inr ⟨?_, hresolvable⟩
    change (x.runId, entry) ∈ σ.completion
    rw [hcompletion]
    exact mem_append_right _ mem_cons_self
  · have hadded : Woken { σ with
        completion := (x.runId, σ.nextEntry) :: σ.completion
        nextEntry := σ.nextEntry + 1 } := by
      apply h.keep
      · exact fun y hy => .inl hy
      · exact fun _ => id
      · exact fun _ hentry => .inl (mem_cons_of_mem _ hentry)
      · exact fun _ _ _ hσ => .inl hσ
    apply hadded.setStage
    refine ⟨(fun hnot => by cases hnot), fun other hother => ?_⟩
    rw [← waiting.inj hother]
    exact .inr ⟨mem_cons_self, hresolvable⟩

variable {outcome : DispatchOutcome}

theorem Woken.advance (hbase : Inv cautious σ []) (h : σ.Woken)
    (hx : σ.executions[execution]? = some x) (hprompt : σ.Prompt (.advance execution outcome))
    (hadvance : σ.advance execution x outcome = some τ) : τ.Woken := by
  unfold StoryScheduler.advance at hadvance
  generalize hstage : x.stage = stage at hadvance
  cases stage with
  | reading =>
    cases hadvance
    cases hfound : σ.pendingRuns.find? fun run => run.id = x.runId with
    | none => exact h.setIdle rfl
    | some run =>
      have hstatus := pendingRuns_find_some hbase hfound
      have hpending : run.pending = true := (mem_filter.1 (mem_of_find?_eq_some hfound)).2
      cases hrun : run.status with
      | queued => exact h.setIdle (by rw [Option.map_some, hrun]; rfl)
      | dispatching => exact h.setIdle (by rw [Option.map_some, hrun]; rfl)
      | running =>
        apply h.setStage
        refine ⟨fun _ => .inl ?_, fun entry hwaiting => by cases hwaiting⟩
        rw [← hrun]
        exact hstatus
      | completed => simp [pending, hrun] at hpending; cases hpending
      | failed => simp [pending, hrun] at hpending; cases hpending
      | skipped => simp [pending, hrun] at hpending; cases hpending
  | found found =>
    cases found with
    | none => exact Option.some.inj hadvance ▸ h.setIdle rfl
    | some status =>
      cases status with
      | queued | dispatching => exact Option.some.inj hadvance ▸ h.setIdle rfl
      | running | completed | failed | skipped =>
        exact Option.some.inj hadvance ▸ h.wait hx (by rw [hstage]; rfl)
  | transitioning =>
    cases hadvance
    unfold transitionTo
    split
    · rename_i stored ht
      exact (h.transition_early ht (by decide)).setIdle rfl
    · exact h.setIdle rfl
  | dispatching =>
    cases outcome with
    | created aiSessionId => exact Option.some.inj hadvance ▸ h.setIdle rfl
    | refused => exact Option.some.inj hadvance ▸ h.setIdle rfl
    | unavailable => exact Option.some.inj hadvance ▸ h.setIdle rfl
  | starting aiSessionId =>
    cases hadvance
    unfold transitionTo
    split
    · rename_i stored ht
      apply (h.transition_early ht (by decide)).setStage
      refine ⟨fun _ => .inl ?_, fun entry hwaiting => by cases hwaiting⟩
      have hstatus := statusOf_transition ht x.runId
      rwa [if_pos rfl] at hstatus
    · exact h.setIdle rfl
  | publishing => exact Option.some.inj hadvance ▸ h.wait hx (by rw [hstage]; rfl)
  | failing =>
    cases hadvance
    unfold transitionTo
    split
    · rename_i stored ht
      have hended : Woken { σ with runs := stored } :=
        h.transition ht fun hrunning _ => hprompt x hx hstage hrunning
      exact hended.setIdle rfl
    · exact h.setIdle rfl
  | returning => exact Option.some.inj hadvance ▸ h.setIdle rfl
  | waiting entry =>
    obtain ⟨-, hadvance⟩ := Option.ite_none_right_eq_some.1 hadvance
    exact Option.some.inj hadvance ▸ h.setIdle rfl
  | settled => cases hadvance

/-! ## `reconcileInstances` -/

variable {reconcile : Nat} {y : Reconcile} {id : RunId}

theorem Resolvable.setReconcile {stage : ReconcileStage} (hy : σ.reconciles[reconcile]? = some y)
    (h : σ.Resolvable id) (hother : ∀ run runs, y.stage = .resolving run runs → run.id ≠ id) :
    (σ.setReconcile reconcile y stage).Resolvable id := by
  rcases h with hrunning | ⟨z, hz, run, runs, hstage, hid⟩
  · exact .inl hrunning
  rcases mem_set_of_mem { y with stage } hy hz with heq | hkept
  · exact absurd hid (hother run runs (heq ▸ hstage))
  · exact .inr ⟨z, hkept, run, runs, hstage, hid⟩

theorem Woken.setReconcile (h : σ.Woken) (hy : σ.reconciles[reconcile]? = some y)
    (stage : ReconcileStage) (hother : ∀ run runs, y.stage ≠ .resolving run runs) :
    (σ.setReconcile reconcile y stage).Woken := by
  apply h.keep
  · exact fun x hx => .inl hx
  · exact fun _ => id
  · exact fun _ hentry => .inl hentry
  · exact fun _ _ _ hσ => .inl (hσ.setReconcile hy fun run runs hstage => absurd hstage (hother run runs))

theorem Woken.endReconcile (h : σ.Woken) (hy : σ.reconciles[reconcile]? = some y)
    (hother : ∀ run runs, y.stage ≠ .resolving run runs) :
    Woken { σ with reconciles := σ.reconciles.eraseIdx reconcile } := by
  have hresolvable : ∀ id, σ.Resolvable id →
      Resolvable { σ with reconciles := σ.reconciles.eraseIdx reconcile } id := by
    rintro id (hrunning | ⟨z, hz, run, runs, hstage, hid⟩)
    · exact .inl hrunning
    rcases mem_eraseIdx_of_mem hy hz with heq | hkept
    · exact absurd (heq ▸ hstage) (hother run runs)
    · exact .inr ⟨z, hkept, run, runs, hstage, hid⟩
  apply h.keep
  · exact fun x hx => .inl hx
  · exact fun _ => id
  · exact fun _ hentry => .inl hentry
  · exact fun x _ _ hσ => .inl (hresolvable x.runId hσ)

variable {session : Option SessionStatus} {action : Scheduler.Action AutomationId RunId}
  {runs : List AutomationRun}

/-- The completion of a run is resolved; who has not asked for it yet finds another reconcile. -/
theorem Woken.resolve (h : σ.Woken) {run : AutomationRun} (hy : σ.reconciles[reconcile]? = some y)
    (hstage : y.stage = .resolving run runs) (hprompt : σ.Prompt
    (.reconcileNext reconcile session)) :
    ((σ.resolveCompletion run.id).setReconcile reconcile y (.publishing runs)).Woken := by
  apply h.keep
  · exact fun x hx => .inl hx
  · exact fun _ hentry => mem_append_right _ hentry
  · intro entry hentry
    by_cases heq : entry.1 = run.id
    · exact .inr (mem_append_left _ (mem_filter.2 ⟨hentry, by simpa using heq⟩))
    · exact .inl (mem_filter.2 ⟨hentry, by simpa using heq⟩)
  · intro x hx _ hσ
    by_cases heq : x.runId = run.id
    · rcases hprompt y run runs hy hstage with hnone | ⟨other, z, run', runs', hne, hz, hzstage, hid⟩
      · right
        refine ⟨hnone x hx heq, ?_⟩
        intro entry hentry
        exact mem_append_left _ (mem_filter.2 ⟨hentry, by simpa using heq⟩)
      · left
        refine .inr ⟨z, ?_, run', runs', hzstage, hid.trans heq.symm⟩
        apply mem_of_getElem? (i := other)
        rw [StoryScheduler.setReconcile, getElem?_set_ne hne.symm]
        exact hz
    · left
      apply Resolvable.setReconcile (σ := σ.resolveCompletion run.id) hy hσ
      intro run' runs' hstage'
      rw [hstage] at hstage'
      rw [← (ReconcileStage.resolving.inj hstage').1]
      exact Ne.symm heq

theorem Woken.advanceReconcile (h : σ.Woken)
    (hy : σ.reconciles[reconcile]? = some y) (hprompt : σ.Prompt
    (.reconcileNext reconcile session)) : (σ.advanceReconcile reconcile y session).Woken := by
  unfold StoryScheduler.advanceReconcile
  cases hstage : y.stage with
  | reading => exact h.setReconcile hy _ (by rw [hstage]; nofun)
  | next runs =>
    cases runs with
    | nil => exact h.endReconcile hy (by rw [hstage]; nofun)
    | cons run runs =>
      simp only
      split
      · exact h.setReconcile hy _ (by rw [hstage]; nofun)
      · exact h.setReconcile hy _ (by rw [hstage]; nofun)
  | transitioning run status runs =>
    simp only
    split
    · rename_i stored ht
      apply h.keep
      · exact fun x hx => .inl hx
      · exact fun _ => id
      · exact fun _ hentry => .inl hentry
      · intro x _ _ hσ
        left
        by_cases heq : x.runId = run.id
        · refine .inr ⟨_, mem_set_self _ hy, run, runs, rfl, heq.symm⟩
        have hkept : Resolvable { σ with runs := stored } x.runId :=
          hσ.transition ht fun hid => absurd hid heq
        apply Resolvable.setReconcile (σ := { σ with runs := stored }) hy hkept
        intro run' runs' hstage'
        rw [hstage] at hstage'
        cases hstage'
    · exact h.endReconcile hy (by rw [hstage]; nofun)
  | resolving run runs => exact h.resolve hy hstage hprompt
  | publishing runs => exact h.setReconcile hy _ (by rw [hstage]; nofun)

/-! ## The other actions -/

variable {policy : SchedulerPolicy}

theorem Woken.serve (h : σ.Woken) (hserve : σ.serve action = some τ) : τ.Woken := by
  have ⟨world, _, hτ⟩ := serve_spec hserve
  subst hτ
  apply h.keep
  · intro x hx
    rcases mem_append.1 hx with hx | hx
    · exact .inl (mem_staying hx)
    · have ⟨_, _, heq⟩ := mem_map.1 hx
      exact .inr (heq ▸ Awake.of_idle rfl)
  · exact fun _ => id
  · exact fun _ hentry => .inl hentry
  · exact fun _ _ _ hσ => .inl hσ

theorem Woken.frame (h : σ.Woken) (hexecutions : τ.executions = σ.executions)
    (hresolved : τ.resolved = σ.resolved) (hcompletion : τ.completion = σ.completion)
    (hreconciles : τ.reconciles = σ.reconciles)
    (hrunning : ∀ id, σ.statusOf id = some .running → τ.statusOf id = some .running) : τ.Woken := by
  apply h.keep
  · exact fun x hx => .inl (hexecutions ▸ hx)
  · exact fun _ hentry => hresolved ▸ hentry
  · exact fun _ hentry => .inl (hcompletion ▸ hentry)
  · rintro x _ _ (hσ | ⟨y, hy, hresolving⟩)
    · exact .inl (.inl (hrunning _ hσ))
    · exact .inl (.inr ⟨y, hreconciles ▸ hy, hresolving⟩)

theorem Over.of_runs (h : σ.Over id) (hruns : τ.runs = σ.runs) (hnextRun : τ.nextRun = σ.nextRun) :
    τ.Over id := by
  refine ⟨hnextRun ▸ h.1, ?_⟩
  rintro ⟨status, hstatus, hpending⟩
  rw [statusOf, run?, hruns] at hstatus
  exact h.2 ⟨status, hstatus, hpending⟩

/-- Runs are submitted under their automations. -/
structure Owned (σ : StoryScheduler) : Prop where
  begun : σ.world.Begun
  submitted : ∀ entry ∈ σ.world.submitted, ∀ run ∈ σ.runs, run.id = entry.2.2 →
    run.automationId = entry.1
  submissions : ∀ x ∈ σ.submissions, ∀ run ∈ σ.runs, run.id = x.runId →
    run.automationId = x.automationId

theorem Owned.keep (h : σ.Owned) (hworld : τ.world = σ.world)
    (hsubmissions : ∀ x ∈ τ.submissions, x ∈ σ.submissions) (hruns : Descends σ.runs τ.runs) :
    τ.Owned := by
  refine ⟨hworld ▸ h.begun, ?_, ?_⟩
  · intro entry hentry run hrun hid
    have ⟨old, hold, holdId, hautomation⟩ := hruns run hrun
    rw [← hautomation]
    exact h.submitted entry (hworld ▸ hentry) old hold (holdId.trans hid)
  · intro x hx run hrun hid
    have ⟨old, hold, holdId, hautomation⟩ := hruns run hrun
    rw [← hautomation]
    exact h.submissions x (hsubmissions x hx) old hold (holdId.trans hid)

theorem Owned.serve (h : σ.Owned) (hserve : σ.serve action = some τ)
    (hnew : ∀ entry ∈ World.submissions action, ∀ run ∈ σ.runs, run.id = entry.2.2 →
      run.automationId = entry.1) : τ.Owned := by
  have ⟨world, hstep, hτ⟩ := serve_spec hserve
  subst hτ
  refine ⟨h.begun.step hstep, ?_, h.submissions⟩
  intro entry hentry run hrun hid
  rw [World.step_submissions hstep] at hentry
  rcases mem_append.1 hentry with hold | hentry
  · exact h.submitted entry hold run hrun hid
  · exact hnew entry hentry run hrun hid

theorem Owned.createRun {automationId : AutomationId} {targetInstanceId : InstanceId}
    (hbase : Inv cautious σ []) (h : σ.Owned) : Owned { σ with
      runs := σ.runs ++ [⟨σ.nextRun, automationId, targetInstanceId, .queued, none⟩]
      nextRun := σ.nextRun + 1
      submissions := σ.submissions ++ [⟨automationId, σ.nextRun, policy⟩] } := by
  refine ⟨h.begun, ?_, ?_⟩
  · intro entry hentry run hrun hid
    rcases mem_concat.mp hrun with hold | rfl
    · exact h.submitted entry hentry run hold hid
    · exact absurd hid.symm (Nat.ne_of_lt (hbase.submitted entry hentry))
  intro x hx run hrun hid
  rcases mem_concat.mp hx with hx | rfl
  · rcases mem_concat.mp hrun with hold | rfl
    · exact h.submissions x hx run hold hid
    · exact absurd hid.symm (Nat.ne_of_lt (hbase.submissions x hx))
  · rcases mem_append.1 hrun with hold | hnew
    · exact absurd hid (Nat.ne_of_lt (hbase.stored run hold))
    · rw [mem_singleton.1 hnew]

theorem Owned.findRun {runId : RunId} (hbase : Inv cautious σ []) (h : σ.Owned)
    {run : AutomationRun} (hrun : σ.run? runId = some run) :
    Owned { σ with submissions := σ.submissions ++ [⟨run.automationId, runId, policy⟩] } := by
  refine ⟨h.begun, h.submitted, ?_⟩
  intro x hx other hother hid
  rcases mem_concat.mp hx with hx | rfl
  · exact h.submissions x hx other hother hid
  have hfind := find?_eq_of_mem hbase.distinct hother
  rw [hid] at hfind
  have hsame : some run = some other := hrun.symm.trans hfind
  rw [Option.some.inj hsame]

/-- Nothing that executions, completions and reconciles go by has changed. -/
structure Beside (σ τ : StoryScheduler) : Prop where
  executions : τ.executions = σ.executions
  resolved : τ.resolved = σ.resolved
  completion : τ.completion = σ.completion
  reconciles : τ.reconciles = σ.reconciles
  running : ∀ id, σ.statusOf id = some .running → τ.statusOf id = some .running
  isOver : ∀ id, σ.Over id → τ.Over id
  owned : σ.Owned → τ.Owned

/-- A part of a step: the runtime is called, or something beside the executions changes. -/
inductive Piece (owned : Prop) (σ τ : StoryScheduler) : Prop
  | beside (h : Beside σ τ)
  | serve {action : Scheduler.Action AutomationId RunId} (hserve : σ.serve action = some τ)
      (hsettled : ∀ x ∈ σ.executions, x ∉ σ.stayingExecutions action → x.stage = .settled)
      (hnew : owned → ∀ entry ∈ World.submissions action, ∀ run ∈ σ.runs, run.id = entry.2.2 →
        run.automationId = entry.1)

theorem Beside.still (hsubmissions : ∀ x ∈ τ.submissions, x ∈ σ.submissions)
    (hsame : (τ.world, τ.runs, τ.nextRun, τ.executions, τ.resolved, τ.completion, τ.reconciles) =
      (σ.world, σ.runs, σ.nextRun, σ.executions, σ.resolved, σ.completion, σ.reconciles)) :
    Beside σ τ := by
  simp only [Prod.mk.injEq] at hsame
  obtain ⟨hworld, hruns, hnextRun, hexecutions, hresolved, hcompletion, hreconciles⟩ := hsame
  exact ⟨hexecutions, hresolved, hcompletion, hreconciles,
    fun _ hrunning => by rw [statusOf, run?, hruns]; exact hrunning,
    fun _ hover => hover.of_runs hruns hnextRun,
    fun howned => howned.keep hworld hsubmissions (hruns ▸ refl _)⟩

theorem Beside.deleteRuns (hbase : Inv cautious σ []) (keep : AutomationRun → Bool)
    (automations : List AutomationId)
    (hdead : ∀ run ∈ σ.runs, keep run = false → run.pending = false) :
    Beside σ { σ with automations, runs := σ.runs.filter keep } := by
  refine ⟨rfl, rfl, rfl, rfl, fun id hrunning => ?_, fun _ h => h.deleteRuns hbase _ _,
    fun h => h.keep rfl (fun _ => id) (filter _ _)⟩
  have ⟨run, hrun, hid, hstatus⟩ := exists_of_statusOf hrunning
  have hkeep : keep run = true := by
    by_contra hnot
    have hgone := hdead run hrun (Bool.not_eq_true _ ▸ hnot)
    rw [pending, hstatus] at hgone
    cases hgone
  rw [← hid, ← hstatus]
  exact statusOf_kept hbase hrun hkeep

theorem Beside.advanceSkip (σ : StoryScheduler) (skip : Nat) (y : SkipRun) :
    Beside σ (σ.advanceSkip skip y) := by
  unfold StoryScheduler.advanceSkip
  cases y.stage with
  | reading =>
    simp only
    split
    · split <;> exact .still (fun _ => id) rfl
    · exact .still (fun _ => id) rfl
  | transitioning =>
    cases ht : Stories.transition σ.runs y.runId .skipped none with
    | none => exact .still (fun _ => id) rfl
    | some stored =>
      refine ⟨rfl, rfl, rfl, rfl, fun id hrunning => ?_, fun _ h => (h.transition ht).of_runs rfl rfl,
        fun h => h.keep rfl (fun _ => id) (Descends.transition ht)⟩
      refine (statusOf_transition ht id).trans ?_
      split
      next heq =>
        have ⟨current, hcurrent, hallowed⟩ := transition_from ht
        rw [← heq, hrunning] at hcurrent
        cases hcurrent
        simp [allowedTransitions] at hallowed
      · exact hrunning

variable {action : SchedulerAction}

theorem step_pieces (hbase : Inv cautious σ []) (hstep : σ.step action = some τ) : match action with
    | .advance _ _ | .reconcile _ | .reconcileNext _ _ | .restart => True
    | _ => ReflTransGen (Piece σ.Owned) σ τ := by
  cases action with
  | advance | reconcile | reconcileNext | restart => trivial
  | createAutomation automationId =>
    obtain ⟨-, hstep⟩ := Option.ite_none_left_eq_some.1 hstep
    cases hstep
    exact .single (.beside (.still (fun _ => id) rfl))
  | deleteAutomation id =>
    obtain ⟨hactive, hstep⟩ := Option.ite_none_left_eq_some.1 hstep
    cases hstep
    refine .single (.beside (.deleteRuns hbase _ _ fun run hrun hgone => ?_))
    by_contra hpending
    apply hactive
    have hid : run.automationId = id := by simpa using hgone
    exact any_eq_true.2 ⟨run, hrun, by simpa [hid] using hpending⟩
  | createRun automationId targetInstanceId policy =>
    obtain ⟨-, hstep⟩ := Option.ite_none_right_eq_some.1 hstep
    cases hstep
    refine .single (.beside ⟨rfl, rfl, rfl, rfl, fun id hrunning => ?_, fun _ h => h.append _ rfl,
      Owned.createRun hbase⟩)
    obtain ⟨run, hrun, hstatus⟩ := Option.map_eq_some_iff.1 hrunning
    rw [statusOf, run?, find?_append]
    change ((σ.run? id).or _).map _ = _
    rw [hrun, Option.some_or, Option.map_some, hstatus]
  | findRun runId policy =>
    obtain ⟨run, hrun, hτ⟩ := Option.map_eq_some_iff.1 hstep
    subst hτ
    exact .single (.beside ⟨rfl, rfl, rfl, rfl, fun _ => id, fun _ h => h.of_runs rfl rfl,
      fun h => h.findRun hbase hrun⟩)
  | submit submission now startedAt =>
    obtain ⟨x, hx, hserve⟩ := Option.bind_eq_some_iff.1 hstep
    have htaken : Beside σ { σ with submissions := σ.submissions.eraseIdx submission } :=
      .still (fun _ => mem_of_mem_eraseIdx) rfl
    refine .tail (.single (.beside htaken)) (.serve hserve (fun _ hy hgone => absurd hy hgone)
      fun howned entry hentry => ?_)
    rw [mem_singleton.1 hentry]
    exact howned.submissions x (mem_of_getElem? hx)
  | settle execution settlement now =>
    obtain ⟨x, hx, hsettle⟩ := Option.bind_eq_some_iff.1 hstep
    obtain ⟨hsettled, hsettle⟩ := Option.ite_none_right_eq_some.1 hsettle
    refine .single (.serve hsettle (fun y hy hgone => ?_) (by simp [World.submissions]))
    rcases mem_eraseIdx_of_mem hx hy with heq | hkept
    · exact heq ▸ hsettled
    · exact absurd hkept hgone
  | skip skip =>
    obtain ⟨y, _, hτ⟩ := Option.map_eq_some_iff.1 hstep
    exact hτ ▸ .single (.beside (.advanceSkip σ skip y))
  | start =>
    simp only [step] at hstep
    obtain ⟨υ, hυ, hτ⟩ := Option.map_eq_some_iff.1 hstep
    obtain ⟨ρ, hρ, hυ⟩ := Option.bind_eq_some_iff.1 hυ
    subst hτ
    refine .tail (.tail (.single (.serve hρ ?_ ?_)) (.serve hυ ?_ ?_))
      (.beside (.still (fun _ => id) rfl))
    all_goals first | exact fun _ hy hgone => absurd hy hgone | simp [World.submissions]
  | startRead start =>
    simp only [step] at hstep
    split at hstep <;> cases hstep
    exact .single (.beside (.still (fun _ => id) rfl))
  | startNext start policy now startedAt =>
    simp only [step] at hstep
    split at hstep
    swap
    · cases hstep
    rename_i runs hx
    unfold advanceStart at hstep
    cases runs with
    | nil =>
      cases hstep
      exact .single (.beside (.still (fun _ => id) rfl))
    | cons run runs =>
      have htaken : Beside σ { σ with starts := σ.starts.set start (.resuming runs) } :=
        .still (fun _ => id) rfl
      simp only at hstep
      split at hstep
      · refine .tail (.single (.beside htaken)) (.serve hstep
          (fun _ hy hgone => absurd hy hgone) fun _ entry hentry => ?_)
        rw [mem_singleton.1 hentry]
        exact (hbase.resuming _ (mem_of_getElem? hx) run mem_cons_self).2
      · exact Option.some.inj hstep ▸ .single (.beside htaken)
  | stop =>
    simp only [step] at hstep
    obtain ⟨υ, hυ, hτ⟩ := Option.map_eq_some_iff.1 hstep
    subst hτ
    exact .tail (.single (.serve hυ (fun _ hy hgone => absurd hy hgone)
      (by simp [World.submissions]))) (.beside (.still (fun _ => id) rfl))
  | clearQueued automationId =>
    exact .single (.serve hstep (fun _ hy hgone => absurd hy hgone) (by simp [World.submissions]))
  | trim runId =>
    obtain ⟨hpending, hstep⟩ := Option.ite_none_left_eq_some.1 hstep
    cases hstep
    refine .single (.beside (.deleteRuns hbase _ _ fun run hrun hgone => ?_))
    have hid : run.id = runId := by simpa using hgone
    have hfind := find?_eq_of_mem hbase.distinct hrun
    rw [hid] at hfind
    rw [run?, hfind] at hpending
    exact Bool.not_eq_true _ ▸ hpending

theorem Woken.pieces {owned : Prop} (h : σ.Woken) (hpieces : ReflTransGen (Piece owned) σ τ) :
    τ.Woken := by
  induction hpieces with
  | refl => exact h
  | tail _ hpiece ih =>
    cases hpiece with
    | beside hb => exact ih.frame hb.executions hb.resolved hb.completion hb.reconciles hb.running
    | serve hserve => exact ih.serve hserve

theorem Woken.step (h : σ.Woken) (hbase : Inv cautious σ []) (hprompt : σ.Prompt action)
    (hstep : σ.step action = some τ) : τ.Woken := by
  cases action with
  | advance execution outcome =>
    obtain ⟨x, hx, hadvance⟩ := Option.bind_eq_some_iff.1 hstep
    exact Woken.advance hbase h hx hprompt hadvance
  | reconcile authoritativeInstanceId =>
    cases hstep
    apply h.keep
    · exact fun x hx => .inl hx
    · exact fun _ hentry => hentry
    · exact fun _ hentry => .inl hentry
    · rintro x _ _ (hrunning | ⟨y, hy, hresolving⟩)
      · exact .inl (.inl hrunning)
      · exact .inl (.inr ⟨y, mem_append_left _ hy, hresolving⟩)
  | reconcileNext reconcile session =>
    obtain ⟨y, hy, hτ⟩ := Option.map_eq_some_iff.1 hstep
    exact hτ ▸ h.advanceReconcile hy hprompt
  | restart =>
    cases hstep
    exact fun x hx => by cases hx
  | _ => exact h.pieces (step_pieces hbase hstep)

/-! ## The own continuations of an execution -/

/-- What a continuation of an `executeRun` does. -/
structure Advanced (σ : StoryScheduler) (execution : Nat) (x : Execution) (τ : StoryScheduler) :
    Prop where
  world : τ.world = σ.world
  nextRun : τ.nextRun = σ.nextRun
  submissions : τ.submissions = σ.submissions
  reconciles : τ.reconciles = σ.reconciles
  resolved : τ.resolved = σ.resolved
  runs : τ.runs = σ.runs ∨ ∃ status aiSessionId,
    Stories.transition σ.runs x.runId status aiSessionId = some τ.runs
  executions : ∃ y, τ.executions = σ.executions.set execution y ∧ y.runId = x.runId ∧
    y.stage.rank < x.stage.rank

theorem Advanced.setStage (hrank : stage.rank < x.stage.rank) :
    Advanced σ execution x (σ.setStage execution x stage) :=
  ⟨rfl, rfl, rfl, rfl, rfl, .inl rfl, _, rfl, rfl, hrank⟩

theorem Advanced.wait (hrank : 1 < x.stage.rank) : Advanced σ execution x (σ.wait execution x) := by
  unfold StoryScheduler.wait
  split
  · exact Advanced.setStage hrank
  · exact ⟨rfl, rfl, rfl, rfl, rfl, .inl rfl, _, rfl, rfl, hrank⟩

theorem Advanced.transitionTo {status : StoryAutomationRunStatus} {aiSessionId : Option AiSessionId}
    {done thrown : ExecuteStage} (hdone : done.rank < x.stage.rank)
    (hthrown : thrown.rank < x.stage.rank) :
    Advanced σ execution x (σ.transitionTo execution x status aiSessionId done thrown) := by
  unfold StoryScheduler.transitionTo
  split
  · exact ⟨rfl, rfl, rfl, rfl, rfl, .inr ⟨_, _, ‹_›⟩, _, rfl, rfl, hdone⟩
  · exact Advanced.setStage hthrown

theorem advance_advanced (hadvance : σ.advance execution x outcome = some τ) :
    Advanced σ execution x τ := by
  unfold advance at hadvance
  generalize hstage : x.stage = stage at hadvance
  cases stage with
  | reading =>
    exact Option.some.inj hadvance ▸ Advanced.setStage (by rw [hstage]; exact Nat.lt_succ_self 6)
  | found found =>
    have hrank : x.stage.rank = 6 := by rw [hstage]; rfl
    cases found with
    | none => exact Option.some.inj hadvance ▸ Advanced.setStage (by rw [hrank]; decide)
    | some status =>
      cases status with
      | queued | dispatching =>
        exact Option.some.inj hadvance ▸ Advanced.setStage (by rw [hrank]; decide)
      | running | completed | failed | skipped =>
        exact Option.some.inj hadvance ▸ Advanced.wait (by omega)
  | transitioning =>
    exact Option.some.inj hadvance ▸ Advanced.transitionTo (by rw [hstage]; decide) (by rw [hstage]; decide)
  | dispatching =>
    have hrank : x.stage.rank = 4 := by rw [hstage]; rfl
    cases outcome with
    | created aiSessionId =>
      exact Option.some.inj hadvance ▸ Advanced.setStage (by rw [hrank]; exact Nat.lt_succ_self 3)
    | refused => exact Option.some.inj hadvance ▸ Advanced.setStage (by rw [hrank]; decide)
    | unavailable => exact Option.some.inj hadvance ▸ Advanced.setStage (by rw [hrank]; decide)
  | starting aiSessionId =>
    have hrank : x.stage.rank = 3 := by rw [hstage]; rfl
    exact Option.some.inj hadvance ▸ Advanced.transitionTo (by rw [hrank]; decide) (by rw [hrank]; decide)
  | publishing => exact Option.some.inj hadvance ▸ Advanced.wait (by rw [hstage]; decide)
  | failing =>
    exact Option.some.inj hadvance ▸ Advanced.transitionTo (by rw [hstage]; decide) (by rw [hstage]; decide)
  | returning => exact Option.some.inj hadvance ▸ Advanced.setStage (by rw [hstage]; decide)
  | waiting entry =>
    have hrank : x.stage.rank = 1 := by rw [hstage]; rfl
    obtain ⟨-, hadvance⟩ := Option.ite_none_right_eq_some.1 hadvance
    exact Option.some.inj hadvance ▸ Advanced.setStage (by rw [hrank]; decide)
  | settled => cases hadvance

/-- The run has a terminal status or is deleted, and nobody is about to resolve its completion. -/
def Ended (σ : StoryScheduler) (id : RunId) : Prop := σ.Over id ∧ ¬ σ.Resolvable id

theorem Over.not_running (h : σ.Over id) : σ.statusOf id ≠ some .running :=
  fun hrunning => h.2 ⟨.running, hrunning, rfl⟩

theorem Advanced.over (h : Advanced σ execution x τ) (hover : σ.Over id) : τ.Over id := by
  rcases h.runs with hsame | ⟨status, aiSessionId, ht⟩
  · exact hover.of_runs hsame h.nextRun
  · exact (hover.transition ht).of_runs rfl h.nextRun

theorem Advanced.ended (h : Advanced σ execution x τ) (hended : σ.Ended id) : τ.Ended id := by
  have hover := h.over hended.1
  refine ⟨hover, ?_⟩
  rintro (hrunning | hframe)
  · exact hover.not_running hrunning
  · exact hended.2 (.inr (h.reconciles ▸ hframe))

theorem advance_eq_none (h : σ.advance execution x outcome = none) :
    x.stage = .settled ∨ ∃ entry, x.stage = .waiting entry ∧ (x.runId, entry) ∉ σ.resolved := by
  unfold advance at h
  cases hstage : x.stage with
  | settled => exact .inl rfl
  | waiting entry =>
    simp only [hstage] at h
    split at h
    · cases h
    · exact .inr ⟨entry, rfl, ‹_›⟩
  | found found =>
    cases found with
    | none => simp [hstage] at h
    | some status => cases status <;> simp [hstage] at h
  | dispatching => cases outcome <;> simp [hstage] at h
  | reading | transitioning | starting | publishing | failing | returning => simp [hstage] at h

theorem Woken.settles (hbase : Inv False σ []) (h : σ.Woken)
    (hx : σ.executions[execution]? = some x) (hended : σ.Ended x.runId)
    (outcomes : List DispatchOutcome) (hrank : x.stage.rank ≤ outcomes.length) :
    ∃ n τ y, run StoryScheduler.step σ
        ((outcomes.take n).map (SchedulerAction.advance execution)) = some τ ∧
      τ.executions[execution]? = some y ∧ y.runId = x.runId ∧ y.stage = .settled := by
  induction outcomes generalizing σ x with
  | nil =>
    have hsettled := rank_eq_zero (Nat.le_zero.1 hrank)
    exact ⟨0, σ, x, rfl, hx, rfl, hsettled⟩
  | cons outcome outcomes ih =>
    cases hadvance : σ.advance execution x outcome with
    | none =>
      rcases advance_eq_none hadvance with hsettled | ⟨entry, hwaiting, hunresolved⟩
      · exact ⟨0, σ, x, rfl, hx, rfl, hsettled⟩
      rcases (h x (List.mem_of_getElem? hx)).waiting entry hwaiting with hdone | ⟨_, hσ⟩
      · exact absurd hdone hunresolved
      · exact absurd hσ hended.2
    | some υ =>
      have hstep : σ.step (.advance execution outcome) = some υ := by
        simp only [StoryScheduler.step, hx, Option.bind_some, hadvance]
      have hprompt : σ.Prompt (.advance execution outcome) := by
        intro z hz _ hrunning
        rw [hx, Option.some.injEq] at hz
        exact absurd (hz ▸ hrunning) hended.1.not_running
      have hadvanced := advance_advanced hadvance
      obtain ⟨y, hexecutions, hid, hless⟩ := hadvanced.executions
      have hy : υ.executions[execution]? = some y := by
        rw [hexecutions, List.getElem?_set_self (List.getElem?_eq_some_iff.1 hx).1]
      have hleft : y.stage.rank ≤ outcomes.length := by
        rw [List.length_cons] at hrank
        omega
      obtain ⟨n, τ, z, hrun, hz, hzid, hsettled⟩ := ih (hbase.step False.elim hstep)
        (h.step hbase hprompt hstep) hy (hid ▸ hadvanced.ended hended) hleft
      refine ⟨n + 1, τ, z, ?_, hz, hzid.trans hid, hsettled⟩
      rw [List.take_succ_cons, List.map_cons, run_cons_of_step _ hstep]
      exact hrun

/-! ## A lost waiter -/

/-- An execution waits for the completion of a run that is over and that no reconcile deals with. -/
structure Lost (σ : StoryScheduler) (id : RunId) (entry : Nat) : Prop where
  isOver : σ.Over id
  unresolved : (id, entry) ∉ σ.resolved
  unseen : ∀ y ∈ σ.reconciles, ∀ run ∈ y.stage.runs, run.id ≠ id
  waiting : ∃ x ∈ σ.executions, x.runId = id ∧ x.stage = .waiting entry

section Lost

variable {id : RunId} {entry : Nat}

variable (h : σ.Lost id entry)

include h

theorem Lost.frame (hover : τ.Over id) (hresolved : τ.resolved = σ.resolved)
    (hreconciles : τ.reconciles = σ.reconciles) (hexecutions : τ.executions = σ.executions) :
    τ.Lost id entry :=
  ⟨hover, hresolved ▸ h.unresolved, hreconciles ▸ h.unseen, hexecutions ▸ h.waiting⟩

theorem Lost.serve {action : Scheduler.Action AutomationId RunId} (hserve : σ.serve action = some τ)
    (hsettled : ∀ x ∈ σ.executions, x ∉ σ.stayingExecutions action → x.stage = .settled) :
    τ.Lost id entry := by
  have ⟨world, _, hτ⟩ := serve_spec hserve
  subst hτ
  refine ⟨h.isOver.of_runs rfl rfl, h.unresolved, h.unseen, ?_⟩
  have ⟨x, hx, hid, hwaiting⟩ := h.waiting
  refine ⟨x, mem_append_left _ ?_, hid, hwaiting⟩
  by_contra hgone
  rw [hsettled x hx hgone] at hwaiting
  cases hwaiting

theorem Lost.advance
    (hx : σ.executions[execution]? = some x) (hadvance : σ.advance execution x outcome = some τ) :
    τ.Lost id entry := by
  have hadvanced := advance_advanced hadvance
  refine ⟨hadvanced.over h.isOver, hadvanced.resolved ▸ h.unresolved,
    hadvanced.reconciles ▸ h.unseen, ?_⟩
  have ⟨y, hy, hid, hwaiting⟩ := h.waiting
  have ⟨next, hexecutions, _⟩ := hadvanced.executions
  rcases mem_set_of_mem next hx hy with heq | hkept
  · subst heq
    simp only [advance, hwaiting] at hadvance
    rw [if_neg (hid ▸ h.unresolved)] at hadvance
    cases hadvance
  · exact ⟨y, hexecutions ▸ hkept, hid, hwaiting⟩

theorem Lost.setReconcile {stage : ReconcileStage} (hseen : ∀ run ∈ stage.runs, run.id ≠ id) :
    (σ.setReconcile reconcile y stage).Lost id entry := by
  refine ⟨h.isOver.of_runs rfl rfl, h.unresolved, ?_, h.waiting⟩
  intro z hz run hrun
  rcases mem_or_eq_of_mem_set hz with hold | heq
  · exact h.unseen z hold run hrun
  · subst heq
    exact hseen run hrun

theorem Lost.endReconcile :
    Lost { σ with reconciles := σ.reconciles.eraseIdx reconcile } id entry :=
  ⟨h.isOver.of_runs rfl rfl, h.unresolved, fun z hz => h.unseen z (mem_of_mem_eraseIdx hz),
    h.waiting⟩

theorem Lost.advanceReconcile {session : Option SessionStatus} (hbase : Inv cautious σ []) (hy : σ.reconciles[reconcile]? = some y) :
    (σ.advanceReconcile reconcile y session).Lost id entry := by
  have hunseen := h.unseen y (mem_of_getElem? hy)
  unfold StoryScheduler.advanceReconcile
  cases hstage : y.stage with
  | reading =>
    apply h.setReconcile
    intro run hrun hid
    have hpending := mem_filter.1 (mem_of_mem_filter hrun)
    have hstatus := hbase.statusOf_of_mem hpending.1
    apply h.isOver.2
    refine ⟨run.status, hid ▸ hstatus, ?_⟩
    simpa [pending] using hpending.2
  | next runs =>
    rw [hstage] at hunseen
    cases runs with
    | nil => exact h.endReconcile
    | cons run runs =>
      simp only
      split
      · exact h.setReconcile hunseen
      · exact h.setReconcile fun other hother => hunseen other (mem_cons_of_mem _ hother)
  | transitioning run status runs =>
    rw [hstage] at hunseen
    simp only
    split
    · rename_i stored ht
      have hstored : Lost { σ with runs := stored } id entry :=
        h.frame (h.isOver.transition ht) rfl rfl rfl
      exact hstored.setReconcile hunseen
    · exact h.endReconcile
  | resolving run runs =>
    rw [hstage] at hunseen
    have hresolved : (σ.resolveCompletion run.id).Lost id entry := by
      refine ⟨h.isOver.of_runs rfl rfl, ?_, h.unseen, h.waiting⟩
      intro hentry
      rcases mem_append.1 hentry with hnew | hold
      · have heq : id = run.id := by simpa using (mem_filter.1 hnew).2
        exact hunseen run mem_cons_self heq.symm
      · exact h.unresolved hold
    exact hresolved.setReconcile fun other hother => hunseen other (mem_cons_of_mem _ hother)
  | publishing runs =>
    rw [hstage] at hunseen
    exact h.setReconcile hunseen

theorem Lost.pieces {owned : Prop} (hpieces : ReflTransGen (Piece owned) σ τ) :
    τ.Lost id entry := by
  induction hpieces with
  | refl => exact h
  | tail _ hpiece ih =>
    cases hpiece with
    | beside hb => exact ih.frame (hb.isOver id ih.isOver) hb.resolved hb.reconciles hb.executions
    | serve hserve hsettled => exact ih.serve hserve hsettled

theorem Lost.step {action : SchedulerAction} (hbase : Inv cautious σ [])
    (halive : action ≠ .restart) (hstep : σ.step action = some τ) : τ.Lost id entry := by
  cases action with
  | advance execution outcome =>
    obtain ⟨y, hy, hadvance⟩ := Option.bind_eq_some_iff.1 hstep
    exact h.advance hy hadvance
  | reconcile authoritativeInstanceId =>
    cases hstep
    refine ⟨h.isOver.of_runs rfl rfl, h.unresolved, ?_, h.waiting⟩
    intro y hy
    rcases mem_concat.mp hy with hold | rfl
    · exact h.unseen y hold
    · simp [ReconcileStage.runs]
  | reconcileNext reconcile session =>
    obtain ⟨y, hy, hτ⟩ := Option.map_eq_some_iff.1 hstep
    exact hτ ▸ h.advanceReconcile hbase hy
  | restart => exact absurd rfl halive
  | _ => exact h.pieces (step_pieces hbase hstep)

theorem Lost.run {actions : List SchedulerAction} (hbase : Inv False σ [])
    (halive : .restart ∉ actions) (hrun : run StoryScheduler.step σ actions = some τ) :
    τ.Lost id entry := by
  induction actions generalizing σ with
  | nil =>
    cases hrun
    exact h
  | cons action actions ih =>
    have ⟨υ, hstep, hrest⟩ := run_cons_some hrun
    have halive' : action ≠ .restart ∧ .restart ∉ actions := by
      constructor
      · rintro rfl
        exact halive mem_cons_self
      · exact fun hin => halive (mem_cons_of_mem _ hin)
    exact ih (h.step hbase halive'.1 hstep) (hbase.step False.elim hstep) halive'.2 hrest

end Lost

/-! ## Whose slots are occupied -/

theorem Owned.step (h : σ.Owned) (hbase : Inv cautious σ []) (hstep : σ.step action = some τ) :
    τ.Owned := by
  cases action with
  | advance execution outcome =>
    obtain ⟨x, hx, hadvance⟩ := Option.bind_eq_some_iff.1 hstep
    have hadvanced := advance_advanced hadvance
    apply h.keep hadvanced.world
    · exact fun y hy => hadvanced.submissions ▸ hy
    rcases hadvanced.runs with hsame | ⟨_, _, ht⟩
    · exact hsame ▸ refl _
    · exact Descends.transition ht
  | reconcile authoritativeInstanceId =>
    cases hstep
    exact h.keep rfl (fun _ hx => hx) (refl _)
  | reconcileNext reconcile session =>
    obtain ⟨y, _, hτ⟩ := Option.map_eq_some_iff.1 hstep
    subst hτ
    unfold StoryScheduler.advanceReconcile
    cases y.stage with
    | reading => exact h.keep rfl (fun _ hx => hx) (refl _)
    | next runs =>
      cases runs with
      | nil => exact h.keep rfl (fun _ hx => hx) (refl _)
      | cons run runs =>
        simp only
        split <;> exact h.keep rfl (fun _ hx => hx) (refl _)
    | transitioning run status runs =>
      simp only
      split
      · exact h.keep rfl (fun _ hx => hx) (Descends.transition ‹_›)
      · exact h.keep rfl (fun _ hx => hx) (refl _)
    | resolving run runs => exact h.keep rfl (fun _ => id) (refl _)
    | publishing runs => exact h.keep rfl (fun _ => id) (refl _)
  | restart =>
    cases hstep
    refine ⟨fun _ hx => ?_, fun _ hx => ?_, fun _ hx => ?_⟩ <;> cases hx
  | _ =>
    suffices hall : ∀ υ, ReflTransGen (Piece σ.Owned) σ υ → υ.Owned from
      hall τ (step_pieces hbase hstep)
    intro υ hpieces
    induction hpieces with
    | refl => exact h
    | tail _ hpiece ih =>
      cases hpiece with
      | beside hb => exact hb.owned ih
      | serve hserve _ hnew => exact ih.serve hserve (hnew h)

/-! ## States at rest -/

/-- No reconcile is in progress and no execution can go on by itself. -/
structure AtRest (σ : StoryScheduler) : Prop where
  reconciles : σ.reconciles = []
  executions : ∀ execution outcome, σ.step (.advance execution outcome) = none
  settled : ∀ x ∈ σ.executions, x.stage ≠ .settled

theorem Woken.resting (h : σ.Woken) (hrest : σ.AtRest) (hx : x ∈ σ.executions) :
    σ.statusOf x.runId = some .running := by
  have ⟨execution, hexecution⟩ := mem_iff_getElem?.1 hx
  have hnone : σ.advance execution x .refused = none := by
    have hstep := hrest.executions execution .refused
    simpa only [StoryScheduler.step, hexecution, Option.bind_some] using hstep
  rcases advance_eq_none hnone with hsettled | ⟨entry, hwaiting, hunresolved⟩
  · exact absurd hsettled (hrest.settled x hx)
  rcases (h x hx).waiting entry hwaiting with hdone | ⟨_, hrunning | ⟨y, hy, _⟩⟩
  · exact absurd hdone hunresolved
  · exact hrunning
  · rw [hrest.reconciles] at hy
    cases hy

theorem Inv.runningCount_eq (hbase : Inv cautious σ []) (automationId : AutomationId) :
    σ.world.runtime.runningCount automationId =
      (σ.executions.filter fun x => x.automationId = automationId).length := by
  rw [hbase.world.core.counted, World.executingOf, hbase.executing, map_map,
    count_eq_countP, countP_map, countP_eq_length_filter]
  congr 1

/-- Executions of distinct running runs occupy no more slots than there are such runs. -/
theorem Woken.occupied (h : σ.Woken) (hbase : Inv cautious σ []) (howned : σ.Owned)
    (hrest : σ.AtRest) (hdistinct : (σ.executions.map (·.runId)).Nodup)
    (automationId : AutomationId) : σ.world.runtime.runningCount automationId ≤
      (σ.pendingRuns.filter fun run => run.automationId = automationId).length := by
  have hnodup : ((σ.executions.filter fun x => x.automationId = automationId).map (·.runId)).Nodup :=
    hdistinct.sublist (filter_sublist.map _)
  have hsub : (σ.executions.filter fun x => x.automationId = automationId).map (·.runId) ⊆
      (σ.pendingRuns.filter fun run => run.automationId = automationId).map (·.id) := by
    intro id hid
    have ⟨y, hy, hyid⟩ := mem_map.1 hid
    have ⟨hmem, hautomation⟩ := mem_filter.1 hy
    have ⟨run, hrun, hrunId, hstatus⟩ := exists_of_statusOf (h.resting hrest hmem)
    have hentry : (y.automationId, y.runId) ∈ σ.world.executing := by
      rw [hbase.executing]
      exact mem_map_of_mem hmem
    have ⟨policy, hsubmitted⟩ := howned.begun.submitted hbase.world hentry
    have hsame := howned.submitted _ hsubmitted run hrun hrunId
    refine mem_map.2 ⟨run, ?_, hrunId.trans hyid⟩
    rw [mem_filter]
    refine ⟨mem_filter.2 ⟨hrun, ?_⟩, ?_⟩
    · rw [pending, hstatus]
      rfl
    · rw [hsame]
      exact hautomation
  have hlength := (subperm_of_subset hnodup hsub).length_le
  rw [length_map, length_map] at hlength
  rw [hbase.runningCount_eq]
  exact hlength

/-! ## Every run -/

/-- What holds of the slots of a state. -/
structure Released (σ : StoryScheduler) : Prop where
  /-- An execution whose run has ended settles with its own continuations. -/
  settles : ∀ execution x, σ.executions[execution]? = some x → σ.Ended x.runId →
    ∀ outcomes : List DispatchOutcome, 7 ≤ outcomes.length →
      ∃ n τ y, run StoryScheduler.step σ
          ((outcomes.take n).map (SchedulerAction.advance execution)) = some τ ∧
        τ.executions[execution]? = some y ∧ y.runId = x.runId ∧ y.stage = .settled
  /-- An execution that has settled gives its slot to the next queued run. -/
  starts : ∀ execution x, σ.executions[execution]? = some x → x.stage = .settled →
    ∀ settlement now, ∃ τ, σ.step (.settle execution settlement now) = some τ ∧
      ∀ next rest, σ.world.runtime.accepting = true →
        σ.world.runtime.queueOf x.automationId = next :: rest →
        σ.world.runtime.runningCount x.automationId ≤ next.policy.maxConcurrentRuns →
        τ.executions = σ.executions.eraseIdx execution ++ [⟨x.automationId, next.event, .reading⟩]
  resting : σ.AtRest → ∀ x ∈ σ.executions, σ.statusOf x.runId = some .running
  occupied : σ.AtRest → (σ.executions.map (·.runId)).Nodup → ∀ automationId,
    σ.world.runtime.runningCount automationId ≤
      (σ.pendingRuns.filter fun run => run.automationId = automationId).length
  /-- A queued run waits behind a run of its automation that is running. -/
  queued : σ.AtRest → ∀ automationId, σ.world.runtime.queueOf automationId ≠ [] →
    ∃ x ∈ σ.executions, x.automationId = automationId ∧ σ.statusOf x.runId = some .running

theorem Inv.settle_starts (hbase : Inv cautious σ []) (hx : σ.executions[execution]? = some x)
    (hsettled : x.stage = .settled) (settlement : Settlement) (now : Int) :
    ∃ τ, σ.step (.settle execution settlement now) = some τ ∧
      ∀ next rest, σ.world.runtime.accepting = true →
        σ.world.runtime.queueOf x.automationId = next :: rest →
        σ.world.runtime.runningCount x.automationId ≤ next.policy.maxConcurrentRuns →
        τ.executions = σ.executions.eraseIdx execution ++
          [⟨x.automationId, next.event, .reading⟩] := by
  have hget : σ.world.executing[execution]? = some (x.automationId, x.runId) := by
    rw [hbase.executing, getElem?_map, hx, Option.map_some]
  have hworld : ∃ world, σ.world.step (.settle execution settlement now) = some world := by
    simp only [Scheduler.World.step, hget]
    exact ⟨_, rfl⟩
  obtain ⟨world, hworld⟩ := hworld
  have hstep : σ.step (.settle execution settlement now) =
      σ.serve (.settle execution settlement now) := by
    simp only [StoryScheduler.step, hx, Option.bind_some, if_pos hsettled]
  refine ⟨_, hstep.trans (congrArg _ hworld), ?_⟩
  intro next rest haccepting hqueue hroom
  have hexecuting := World.step_settle_starts hbase.world hworld hget haccepting hqueue hroom
  have hlength : (σ.stayingExecutions (.settle execution settlement now)).length =
      (σ.world.executing.eraseIdx execution).length := by
    rw [hbase.executing, eraseIdx_map, length_map]
    rfl
  change _ ++ (world.executing.drop _).map _ = _
  rw [hlength, hexecuting, drop_left]
  rfl

theorem Woken.released (h : σ.Woken) (hbase : Inv False σ []) (howned : σ.Owned) : σ.Released where
  settles execution x hx hended outcomes hlength :=
    Woken.settles hbase h hx hended outcomes (Nat.le_trans x.stage.rank_le hlength)
  starts execution x hx hsettled := hbase.settle_starts hx hsettled
  resting hrest x hx := h.resting hrest hx
  occupied hrest hdistinct := h.occupied hbase howned hrest hdistinct
  queued hrest automationId hqueue := by
    have hpos := hbase.world.served automationId hqueue
    rw [hbase.runningCount_eq] at hpos
    have ⟨x, hx⟩ := exists_mem_of_length_pos hpos
    have ⟨hmem, hautomation⟩ := mem_filter.1 hx
    exact ⟨x, hmem, by simpa using hautomation, h.resting hrest hmem⟩

end Steps

/-- In a run whose completions are resolved when nobody is about to ask for them, every slot is
released in every state: executions of ended runs settle and hand their slot on, and at rest each
slot is held for a run that is running. -/
theorem slots_released {automations : List AutomationId} {runs : List AutomationRun} {nextRun : RunId}
    (hdistinct : (runs.map (·.id)).Nodup) (hstored : ∀ run ∈ runs, run.id < nextRun)
    (howned : ∀ run ∈ runs, run.automationId ∈ automations) {actions : List SchedulerAction}
    {σ : StoryScheduler} (hrun : run step (boot automations runs nextRun) actions = some σ)
    (hprompt : AllSteps step Prompt (boot automations runs nextRun) actions) : σ.Released := by
  have hinv : Inv False σ [] ∧ σ.Woken ∧ σ.Owned :=
    run_invariant_of_steps (I := fun υ => Inv False υ [] ∧ υ.Woken ∧ υ.Owned)
      (fun _ _ _ hstep hcond h =>
        ⟨h.1.step False.elim hstep, h.2.1.step h.1 hcond hstep, h.2.2.step h.1 hstep⟩)
      hrun hprompt
      ⟨boot_inv automations runs nextRun hdistinct hstored howned, nofun, nofun, nofun, nofun⟩
  exact hinv.2.1.released hinv.1 hinv.2.2

/-! ## Samples -/

/-- Behind `dispatchedRun` its session begins. -/
def sessionRun : List SchedulerAction :=
  dispatchedRun ++ [.advance 0 (.created "session"), .advance 0 .refused]

/-- The execution asks for the completion of its run. -/
def waitingRun : List SchedulerAction := sessionRun ++ [.advance 0 .refused]

def afterWaiting : StoryScheduler :=
  (run step (boot [] [] 0) waitingRun).getD (boot [] [] 0)

/-- Another run is queued, and a reconcile sees the session end before the execution asks for the
completion of its run. -/
def lostRun : List SchedulerAction :=
  sessionRun ++
    [.createRun 1 "instance" oneAtATime, .submit 0 0 0, .reconcile none, .reconcileNext 0 none,
      .reconcileNext 0 (some .idle), .reconcileNext 0 none, .reconcileNext 0 none,
      .reconcileNext 0 none, .reconcileNext 0 none, .advance 0 .refused]

theorem slots_released_example : afterWaiting.executions = [⟨1, 0, .waiting 0⟩] ∧
    afterWaiting.AtRest ∧ afterWaiting.Released := by
  have hrun : run step (boot [] [] 0) waitingRun = some afterWaiting := rfl
  have hprompt : AllSteps step Prompt (boot [] [] 0) waitingRun := by
    have hadvance : ∀ (σ : StoryScheduler) (outcome : DispatchOutcome),
        σ.executions.any (fun x => x.stage = .failing) = false → σ.Prompt (.advance 0 outcome) := by
      intro σ outcome hnone x hx hstage
      have hnot := any_eq_false.1 hnone x (mem_of_getElem? hx)
      exact absurd (decide_eq_true hstage) hnot
    exact ⟨trivial, trivial, trivial, trivial, trivial, trivial, hadvance _ _ rfl, hadvance _ _ rfl,
      hadvance _ _ rfl, hadvance _ _ rfl, hadvance _ _ rfl, hadvance _ _ rfl, trivial⟩
  have hexecutions : afterWaiting.executions = [⟨1, 0, .waiting 0⟩] := rfl
  have hrest : afterWaiting.AtRest := by
    refine ⟨rfl, ?_, ?_⟩
    · intro execution outcome
      cases execution with
      | zero => rfl
      | succ execution => rfl
    · intro x hx
      rw [hexecutions, mem_singleton] at hx
      rw [hx]
      nofun
  have hempty : (([] : List AutomationRun).map (·.id)).Nodup := nodup_nil
  exact ⟨hexecutions, hrest, slots_released hempty nofun nofun hrun hprompt⟩

def afterLost : StoryScheduler :=
  (run step (boot [] [] 0) lostRun).getD (boot [] [] 0)

theorem afterLost_lost : afterLost.Lost 0 0 := by
  refine ⟨⟨Nat.zero_lt_succ 1, ?_⟩, not_mem_nil, forall_mem_nil _, ⟨1, 0, .waiting 0⟩,
    mem_singleton_self _, rfl, rfl⟩
  rintro ⟨status, hstatus, hpending⟩
  rw [← Option.some.inj hstatus] at hpending
  cases hpending

/-- A completed run keeps its slot as long as the process lives, and a queued run of its automation
is not started. -/
theorem lost_run_keeps_slot : ∃ σ, run step (boot [] [] 0) lostRun = some σ ∧ σ.AtRest ∧
      σ.statusOf 0 = some .completed ∧ σ.executions = [⟨1, 0, .waiting 0⟩] ∧
      σ.statusOf 1 = some .queued ∧ eventsIn σ.world.runtime.queued = [1] ∧
      ∀ actions τ, .restart ∉ actions → run step σ actions = some τ →
        ∃ x ∈ τ.executions, x.runId = 0 ∧ x.stage = .waiting 0 := by
  have hrun : run step (boot [] [] 0) lostRun = some afterLost := rfl
  have hexecutions : afterLost.executions = [⟨1, 0, .waiting 0⟩] := rfl
  have hbase : Inv False afterLost [] :=
    run_invariant (I := fun υ => Inv False υ []) (fun _ _ _ hstep h => h.step False.elim hstep) hrun
      (boot_inv [] [] 0 nodup_nil nofun nofun)
  refine ⟨afterLost, hrun, ⟨rfl, ?_, ?_⟩, rfl, hexecutions, rfl, rfl, ?_⟩
  · intro execution outcome
    cases execution with
    | zero => rfl
    | succ execution => rfl
  · intro x hx
    rw [hexecutions, mem_singleton] at hx
    rw [hx]
    nofun
  · intro actions τ halive hrest
    exact (afterLost_lost.run hbase halive hrest).waiting

end StoryScheduler

end TaskHandoff.Stories
