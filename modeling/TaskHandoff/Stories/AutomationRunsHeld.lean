import TaskHandoff.Stories.AutomationRuns
import TaskHandoff.Lib.Positions

/-! # No run is forgotten

A run that is not terminal waits in the runtime, executes there, or is on its way there. It gets lost
when its execution gives up on a retryable error and when the runtime skips it although it has
already been dispatched. -/

namespace TaskHandoff.Stories

open Scheduler List Positions Scheduler.World

/-! ## Transitions -/

section Transitions

variable {runs stored : List AutomationRun} {id : RunId} {status : StoryAutomationRunStatus}
  {aiSessionId : Option AiSessionId}

theorem find?_update (runs : List AutomationRun) (id : RunId)
    {update : AutomationRun → AutomationRun} (hupdate : ∀ run, (update run).id = run.id)
    (other : RunId) : (runs.map fun run => if run.id = id then update run else run).find?
        (fun run => run.id = other) =
      (runs.find? fun run => run.id = other).map fun run =>
        if other = id then update run else run := by
  induction runs with
  | nil => rfl
  | cons run runs ih =>
    have hid : (if run.id = id then update run else run).id = run.id := by
      split
      · exact hupdate run
      · rfl
    rw [map_cons, find?_cons, find?_cons, hid]
    by_cases heq : run.id = other
    · simp [heq]
    · simp [heq, ih]

theorem transition_spec (h : transition runs id status aiSessionId = some stored) :
    (∃ current, runs.find? (fun run => run.id = id) = some current ∧
      (current.status = status ∨ status ∈ allowedTransitions current.status) ∧
      ∃ run, stored.find? (fun run => run.id = id) = some run ∧ run.status = status) ∧
    (∀ other, other ≠ id →
      stored.find? (fun run => run.id = other) = runs.find? fun run => run.id = other) ∧
    stored.map (fun run => (run.id, run.automationId)) =
      runs.map (fun run => (run.id, run.automationId)) := by
  unfold transition at h
  split at h
  · cases h
  rename_i current hcurrent
  split at h
  · rename_i hsame
    have hstored := Option.some.inj h
    subst hstored
    exact ⟨⟨current, hcurrent, .inl hsame, current, hcurrent, hsame⟩, fun _ _ => rfl, rfl⟩
  split at h
  swap
  · cases h
  rename_i hallowed
  have hstored := Option.some.inj h
  subst hstored
  have hid : ∀ run : AutomationRun,
      { run with status, aiSessionId := aiSessionId.or run.aiSessionId }.id = run.id :=
    fun _ => rfl
  have hfind := find?_update runs id hid
  refine ⟨⟨current, hcurrent, .inr hallowed,
    { current with status, aiSessionId := aiSessionId.or current.aiSessionId }, ?_, rfl⟩, ?_, ?_⟩
  · rw [hfind, hcurrent, Option.map_some, if_pos rfl]
  · intro other hother
    rw [hfind]
    simp [hother]
  · rw [map_map]
    apply map_congr_left
    intro run _
    simp only [Function.comp_apply]
    split <;> rfl

/-- Each stored run was stored before, under the same automation. -/
def Descends (runs stored : List AutomationRun) : Prop :=
  ∀ run ∈ stored, ∃ old ∈ runs, old.id = run.id ∧ old.automationId = run.automationId

theorem Descends.refl (runs : List AutomationRun) : Descends runs runs :=
  fun run hrun => ⟨run, hrun, rfl, rfl⟩

theorem Descends.filter (runs : List AutomationRun) (keep : AutomationRun → Bool) :
    Descends runs (runs.filter keep) :=
  fun run hrun => ⟨run, mem_of_mem_filter hrun, rfl, rfl⟩

theorem Descends.transition (ht : transition runs id status aiSessionId = some stored) :
    Descends runs stored := by
  have ⟨_, _, hids⟩ := transition_spec ht
  intro run hrun
  have hmem : (run.id, run.automationId) ∈ stored.map fun run => (run.id, run.automationId) :=
    mem_map_of_mem hrun
  rw [hids] at hmem
  have ⟨old, hold, heq⟩ := mem_map.1 hmem
  exact ⟨old, hold, congrArg Prod.fst heq, congrArg Prod.snd heq⟩

theorem transition_none (h : transition runs id status aiSessionId = none)
    {current : AutomationRun} (hcurrent : runs.find? (fun run => run.id = id) = some current) :
    current.status ≠ status ∧ status ∉ allowedTransitions current.status := by
  unfold transition at h
  rw [hcurrent] at h
  simp only at h
  split at h
  · cases h
  split at h
  · cases h
  · exact ⟨‹_›, ‹_›⟩

end Transitions

/-! ## Who holds a run -/

/-- The execution still does something for its run. -/
def ExecuteStage.live : ExecuteStage → Bool
  | .returning | .settled => false
  | .reading | .found _ | .transitioning | .dispatching | .starting _ | .publishing | .failing
  | .waiting _ => true

/-- The execution has seen its run behind the queue. -/
def ExecuteStage.past : ExecuteStage → Bool
  | .found (some status) => status ≠ .queued
  | .dispatching | .starting _ | .publishing | .failing | .waiting _ => true
  | .reading | .found none | .transitioning | .returning | .settled => false

/-- The execution has read its run as queued. -/
def ExecuteStage.readQueued : ExecuteStage → Bool
  | .found (some .queued) | .transitioning => true
  | _ => false

/-- The execution has seen its run running. -/
def ExecuteStage.carries : ExecuteStage → Bool
  | .publishing | .waiting _ => true
  | _ => false

namespace StoryScheduler

variable (σ : StoryScheduler)
variable (id : RunId)

def statusOf : Option StoryAutomationRunStatus :=
  (σ.run? id).map (·.status)

def Pending : Prop :=
  ∃ status, σ.statusOf id = some status ∧ status.isTerminal = false

/-- The run waits in the runtime or executes there. -/
def Held : Prop :=
  id ∈ eventsIn σ.world.runtime.queued ∨ ∃ x ∈ σ.executions, x.runId = id ∧ x.stage.live = true

/-- The run is held, and not by one execution alone. -/
def HeldBeside (execution : Nat) (id : RunId) : Prop :=
  id ∈ eventsIn σ.world.runtime.queued ∨
    ∃ other x, other ≠ execution ∧ σ.executions[other]? = some x ∧ x.runId = id ∧
      x.stage.live = true

/-- The run is about to be submitted. -/
def Coming : Prop :=
  (∃ x ∈ σ.submissions, x.runId = id) ∨
    ∃ runs, .resuming runs ∈ σ.starts ∧ ∃ run ∈ runs, run.id = id

/-- No dispatch ends with a retryable error and the runtime skips no run that is dispatched already,
unless the run is held beside or about to be submitted. -/
def Cautious : SchedulerAction → Prop
  | .advance execution .unavailable =>
    ∀ x, σ.executions[execution]? = some x → x.stage = .dispatching → σ.started = true →
      σ.Pending x.runId → σ.HeldBeside execution x.runId ∨ σ.Coming x.runId
  | .skip skip =>
    ∀ x, σ.skips[skip]? = some x → x.stage = .reading → σ.started = true →
      σ.Pending x.runId → σ.statusOf x.runId ≠ some .queued →
      σ.Held x.runId ∨ σ.Coming x.runId
  | _ => True

/-- The run has a terminal status or is deleted. -/
def Over : Prop := id < σ.nextRun ∧ ¬ σ.Pending id

/-- The run is held, or on its way there, or about to be marked as skipped. -/
def Tracked : Prop :=
  σ.Held id ∨ σ.Coming id ∨ (∃ x ∈ σ.skips, x.runId = id ∧ x.stage = .reading) ∨
    (σ.statusOf id = some .queued ∧ ∃ x ∈ σ.skips, x.runId = id ∧ x.stage = .transitioning)

/-- What holds while an action has taken over some runs to submit them; the runs are tracked where
the steps so far were cautious. -/
structure Inv (cautious : Prop) (σ : StoryScheduler) (taken : List RunId) : Prop where
  world : σ.world.Inv
  executing : σ.world.executing = σ.executions.map fun x => (x.automationId, x.runId)
  distinct : (σ.runs.map (·.id)).Nodup
  stored : ∀ run ∈ σ.runs, run.id < σ.nextRun
  owned : ∀ run ∈ σ.runs, run.automationId ∈ σ.automations
  submitted : ∀ entry ∈ σ.world.submitted, entry.2.2 < σ.nextRun
  submissions : ∀ x ∈ σ.submissions, x.runId < σ.nextRun
  resuming : ∀ runs, .resuming runs ∈ σ.starts → ∀ run ∈ runs, run.id < σ.nextRun ∧
    ∀ stored ∈ σ.runs, stored.id = run.id → stored.automationId = run.automationId
  readQueued : ∀ x ∈ σ.executions, x.stage.readQueued = true → σ.statusOf x.runId = some .running →
      ∃ y ∈ σ.executions, y.runId = x.runId ∧ y.stage.carries = true
  past : ∀ x ∈ σ.executions, x.stage.past = true → σ.statusOf x.runId ≠ some .queued
  absent : ∀ x ∈ σ.executions, x.stage = .found none → σ.Over x.runId
  reconciling : ∀ x ∈ σ.reconciles, ∀ run status runs,
    x.stage = .transitioning run status runs → status.isTerminal = true
  resolving : ∀ x ∈ σ.reconciles, ∀ run runs, x.stage = .resolving run runs → σ.Over run.id
  resolved : ∀ entry ∈ σ.resolved, σ.Over entry.1
  tracked : cautious → σ.started = true → ∀ id, σ.Pending id → σ.Tracked id ∨ id ∈ taken

/-! ## Stages of an execution -/

section Steps

variable {cautious : Prop} {σ τ : StoryScheduler} {taken : List RunId} {execution : Nat} {x : Execution}

variable {id : RunId}

variable {stage : ExecuteStage} {skip start reconcile : Nat} {now startedAt : Int}
  {session : Option SessionStatus} {new : AutomationRun}

/-- An execution of a run that is not terminal goes on, or the run is held beside it. -/
theorem Tracked.setStage (h : σ.Tracked id) (hx : σ.executions[execution]? = some x)
    (hlive : x.runId = id → x.stage.live = true → stage.live = false →
      σ.HeldBeside execution id ∨ σ.Coming id) : (σ.setStage execution x stage).Tracked id := by
  have hbeside : σ.HeldBeside execution id → (σ.setStage execution x stage).Held id := by
    rintro (hqueued | ⟨other, y, hother, hy, hid, hlive⟩)
    · exact .inl hqueued
    refine .inr ⟨y, ?_, hid, hlive⟩
    apply mem_of_getElem? (i := other)
    rw [StoryScheduler.setStage, getElem?_set_ne hother.symm, hy]
  rcases h with (hqueued | ⟨y, hy, hid, hylive⟩) | hcoming | hskip | hskip
  · exact .inl (.inl hqueued)
  · rcases mem_set_of_mem { x with stage } hx hy with heq | hmem
    · subst heq
      cases hstage : stage.live with
      | true => exact .inl (.inr ⟨_, mem_set_self _ hx, hid, hstage⟩)
      | false =>
        rcases hlive hid hylive hstage with hheld | hcoming
        · exact .inl (hbeside hheld)
        · exact .inr (.inl hcoming)
    · exact .inl (.inr ⟨y, hmem, hid, hylive⟩)
  · exact .inr (.inl hcoming)
  · exact .inr (.inr (.inl hskip))
  · exact .inr (.inr (.inr hskip))

theorem Inv.setStage (h : Inv cautious σ taken) (hx : σ.executions[execution]? = some x)
    (stage : ExecuteStage)
    (hpast : stage.past = true → x.stage.past = true ∨ σ.statusOf x.runId ≠ some .queued)
    (hread : stage.readQueued = true →
      x.stage.readQueued = true ∨ σ.statusOf x.runId ≠ some .running)
    (habsent : stage = .found none → σ.Over x.runId)
    (hcarries : x.stage.carries = true → stage.carries = true ∨ σ.statusOf x.runId ≠ some .running)
    (hlive : x.stage.live = true → stage.live = false → cautious → σ.started = true →
      σ.Pending x.runId →
      σ.HeldBeside execution x.runId ∨ σ.Coming x.runId) :
    Inv cautious (σ.setStage execution x stage) taken := by
  have hmem := List.mem_of_getElem? hx
  have hset : ∀ {y : Execution}, y ∈ (σ.setStage execution x stage).executions →
      y ∈ σ.executions ∨ y = { x with stage } := fun hy => List.mem_or_eq_of_mem_set hy
  have hcarried : ∀ id, σ.statusOf id = some .running →
      (∃ y ∈ σ.executions, y.runId = id ∧ y.stage.carries = true) →
      ∃ y ∈ (σ.setStage execution x stage).executions, y.runId = id ∧ y.stage.carries = true := by
    rintro id hrunning ⟨y, hy, hid, hycarries⟩
    rcases mem_set_of_mem { x with stage } hx hy with heq | hkept
    · subst heq
      rcases hcarries hycarries with hstage | hnot
      · exact ⟨_, mem_set_self _ hx, hid, hstage⟩
      · exact absurd (hid ▸ hrunning) hnot
    · exact ⟨y, hkept, hid, hycarries⟩
  refine { h with executing := ?_, readQueued := ?_, past := ?_, absent := ?_, tracked := ?_ }
  · rw [StoryScheduler.setStage, h.executing]
    apply List.ext_getElem?
    intro j
    by_cases heq : execution = j
    · subst heq
      have ⟨hlt, hat⟩ := List.getElem?_eq_some_iff.1 hx
      simp [hlt, hat]
    · simp [List.getElem?_set_ne heq]
  · intro y hy hystage hrunning
    rcases hset hy with hold | heq
    · exact hcarried _ hrunning (h.readQueued y hold hystage hrunning)
    subst heq
    rcases hread hystage with hstage | hnot
    · exact hcarried _ hrunning (h.readQueued x hmem hstage hrunning)
    · exact absurd hrunning hnot
  · intro y hy hystage
    rcases hset hy with hold | heq
    · exact h.past y hold hystage
    subst heq
    rcases hpast hystage with hstage | hnot
    · exact h.past x hmem hstage
    · exact hnot
  · intro y hy hystage
    rcases hset hy with hold | heq
    · exact h.absent y hold hystage
    · subst heq
      exact habsent hystage
  · intro hcaution hstarted id hpending
    rcases h.tracked hcaution hstarted id hpending with htracked | htaken
    · left
      apply htracked.setStage hx
      intro hid hxlive hstage
      subst hid
      exact hlive hxlive hstage hcaution hstarted hpending
    · exact .inr htaken

/-! ## Transitions of a run -/

section Transition

variable {stored : List AutomationRun} {id : RunId} {status : StoryAutomationRunStatus}
  {aiSessionId : Option AiSessionId}

theorem statusOf_transition (h : transition σ.runs id status aiSessionId = some stored)
    (other : RunId) : statusOf { σ with runs := stored } other =
      if other = id then some status else σ.statusOf other := by
  have ⟨⟨_, _, _, run, hrun, hstatus⟩, hothers, _⟩ := transition_spec h
  by_cases heq : other = id
  · subst heq
    simp [statusOf, run?, hrun, hstatus]
  · simp [statusOf, run?, heq, hothers other heq]

theorem Over.transition {other : RunId} (hover : σ.Over other)
    (h : transition σ.runs id status aiSessionId = some stored) :
    Over { σ with runs := stored } other := by
  refine ⟨hover.1, ?_⟩
  rintro ⟨found, hfound, hpending⟩
  rw [statusOf_transition h] at hfound
  by_cases heq : other = id
  · rw [if_pos heq, Option.some.injEq] at hfound
    subst hfound heq
    have ⟨⟨current, hcurrent, hallowed, _⟩, _, _⟩ := transition_spec h
    apply hover.2
    refine ⟨current.status, by simp [statusOf, run?, hcurrent], ?_⟩
    rcases hallowed with hsame | hallowed
    · rw [hsame]
      exact hpending
    · cases hstatus : current.status <;> simp [hstatus, allowedTransitions] at hallowed <;> rfl
  · rw [if_neg heq] at hfound
    exact hover.2 ⟨found, hfound, hpending⟩

theorem Inv.transition (h : Inv cautious σ taken)
    (ht : Stories.transition σ.runs id status aiSessionId = some stored)
    (hqueued : status ≠ .queued) (hheld : status.isTerminal = false → σ.Held id)
    (hrunning : status = .running → ∃ y ∈ σ.executions, y.runId = id ∧ y.stage.carries = true) :
    Inv cautious { σ with runs := stored } taken := by
  have ⟨_, _, hids⟩ := transition_spec ht
  have hpair := Descends.transition ht
  refine { h with
    distinct := ?_, stored := ?_, owned := ?_, resuming := ?_, readQueued := ?_, past := ?_
    absent := fun x hx hstage => (h.absent x hx hstage).transition ht
    resolving := fun x hx run runs hstage => (h.resolving x hx run runs hstage).transition ht
    resolved := fun entry hentry => (h.resolved entry hentry).transition ht, tracked := ?_ }
  · have hmap := congrArg (map Prod.fst) hids
    simp only [map_map] at hmap
    change (stored.map (Prod.fst ∘ fun run => (run.id, run.automationId))).Nodup
    rw [hmap]
    exact h.distinct
  · intro run hrun
    have ⟨old, hold, hid, _⟩ := hpair run hrun
    rw [← hid]
    exact h.stored old hold
  · intro run hrun
    have ⟨old, hold, _, hautomation⟩ := hpair run hrun
    rw [← hautomation]
    exact h.owned old hold
  · intro runs hruns run hrun
    have ⟨hlt, hsame⟩ := h.resuming runs hruns run hrun
    refine ⟨hlt, ?_⟩
    intro new hnew hid
    have ⟨old, hold, hid', hautomation⟩ := hpair new hnew
    rw [← hautomation]
    exact hsame old hold (hid'.trans hid)
  · intro x hx hstage hstatus
    rw [statusOf_transition ht] at hstatus
    by_cases heq : x.runId = id
    · rw [if_pos heq, Option.some.injEq] at hstatus
      rw [heq]
      exact hrunning hstatus
    · rw [if_neg heq] at hstatus
      exact h.readQueued x hx hstage hstatus
  · intro x hx hstage
    rw [statusOf_transition ht]
    by_cases heq : x.runId = id
    · rw [if_pos heq]
      simpa using hqueued
    · rw [if_neg heq]
      exact h.past x hx hstage
  · intro hcaution hstarted other hpending
    have ⟨found, hfound, hnot⟩ := hpending
    rw [statusOf_transition ht] at hfound
    by_cases heq : other = id
    · rw [if_pos heq, Option.some.injEq] at hfound
      subst hfound heq
      exact .inl (.inl (hheld hnot))
    rw [if_neg heq] at hfound
    rcases h.tracked hcaution hstarted other ⟨found, hfound, hnot⟩ with htracked | htaken
    · left
      rcases htracked with hheld | hcoming | hskip | ⟨hstatus, hskip⟩
      · exact .inl hheld
      · exact .inr (.inl hcoming)
      · exact .inr (.inr (.inl hskip))
      · refine .inr (.inr (.inr ⟨?_, hskip⟩))
        rw [statusOf_transition ht, if_neg heq]
        exact hstatus
    · exact .inr htaken

end Transition

/-! ## Calls on the runtime -/

theorem Inv.executing_lt (h : Inv cautious σ taken) (hx : x ∈ σ.executions) : x.runId < σ.nextRun := by
  have hmem : x.runId ∈ σ.world.executing.map Prod.snd := by
    rw [h.executing, map_map]
    exact mem_map_of_mem hx
  have hconserved := h.world.core.conserved
  have hsubmitted : x.runId ∈ (σ.world.submitted.map fun e => e.2.2 : List RunId) := by
    rw [← Multiset.mem_coe, hconserved]
    simp only [Multiset.mem_add, Multiset.mem_coe]
    exact .inl (.inl (.inl (.inr hmem)))
  have ⟨entry, hentry, heq⟩ := mem_map.1 hsubmitted
  rw [← heq]
  exact h.submitted entry hentry

variable {action : Scheduler.Action AutomationId RunId}

theorem serve_spec (hserve : σ.serve action = some τ) : ∃ world, σ.world.step action = some world ∧
      τ = { σ with
        world
        executions := σ.stayingExecutions action ++
          (world.executing.drop (σ.stayingExecutions action).length).map fun entry =>
            ⟨entry.1, entry.2, .reading⟩
        skips := σ.skips ++ (world.skipped.drop σ.world.skipped.length).map fun entry =>
          ⟨entry.1, .reading⟩ } := by
  have ⟨world, hstep, hτ⟩ := Option.map_eq_some_iff.1 hserve
  exact ⟨world, hstep, hτ.symm⟩

theorem staying_eq (h : Inv cautious σ taken) :
    σ.world.staying action = (σ.stayingExecutions action).map fun x => (x.automationId, x.runId) := by
  cases action with
  | settle index settlement now => simp only [staying, stayingExecutions, h.executing, eraseIdx_map]
  | _ => exact h.executing

theorem mem_staying (hx : x ∈ σ.stayingExecutions action) : x ∈ σ.executions := by
  cases action with
  | settle index settlement now => exact mem_of_mem_eraseIdx hx
  | _ => exact hx

/-- The runtime takes over the submitted runs; only an execution that has settled leaves it. -/
theorem Inv.serve (h : Inv cautious σ (submitting action)) (hserve : σ.serve action = some τ)
    (hknown : ∀ id ∈ submitting action, id < σ.nextRun)
    (hsettled : ∀ x ∈ σ.executions, x ∉ σ.stayingExecutions action → x.stage = .settled) :
    Inv cautious τ [] := by
  have ⟨world, hstep, hτ⟩ := serve_spec hserve
  have hlogs := step_logs hstep
  have ⟨added, hadded⟩ := hlogs.executing
  have ⟨dropped, hdropped⟩ := hlogs.skipped
  have hstaying : σ.world.staying action =
      (σ.stayingExecutions action).map fun x => (x.automationId, x.runId) := staying_eq h
  have hdrop : world.executing.drop (σ.stayingExecutions action).length = added := by
    rw [hadded, hstaying]
    simp
  have hdrop' : world.skipped.drop σ.world.skipped.length = dropped := by
    rw [hdropped]
    simp
  rw [hdrop, hdrop'] at hτ
  subst hτ
  have hmem : ∀ x, x ∈ σ.stayingExecutions action ++
      added.map (fun entry => (⟨entry.1, entry.2, .reading⟩ : Execution)) →
      x ∈ σ.executions ∨ x.stage = .reading := by
    intro x hx
    rcases mem_append.1 hx with hx | hx
    · exact .inl (mem_staying hx)
    have ⟨_, _, heq⟩ := mem_map.1 hx
    rw [← heq]
    exact .inr rfl
  have hkept : ∀ x ∈ σ.executions, x.stage ≠ .settled → x ∈ σ.stayingExecutions action ++
        added.map (fun entry => (⟨entry.1, entry.2, .reading⟩ : Execution)) := by
    intro x hx hstage
    apply mem_append_left
    by_contra hgone
    exact hstage (hsettled x hx hgone)
  refine { h with
    world := step_inv _ _ _ hstep h.world
    executing := ?_, submitted := ?_, readQueued := ?_, past := ?_, absent := ?_, tracked := ?_ }
  · rw [hadded, hstaying, map_append, map_map]
    congr 1
    exact (map_id _).symm
  · intro entry hentry
    have hin : entry.2.2 ∈ world.submitted.map fun e => e.2.2 := mem_map_of_mem hentry
    rw [step_submitted hstep, mem_append] at hin
    rcases hin with hold | hnew
    · have ⟨old, hold, heq⟩ := mem_map.1 hold
      rw [← heq]
      exact h.submitted old hold
    · exact hknown _ hnew
  · intro x hx hstage hrunning
    rcases hmem x hx with hold | hreading
    · have ⟨y, hy, hid, hcarries⟩ := h.readQueued x hold hstage hrunning
      refine ⟨y, hkept y hy ?_, hid, hcarries⟩
      intro hsettled
      rw [hsettled] at hcarries
      cases hcarries
    · rw [hreading] at hstage
      cases hstage
  · intro x hx hstage
    rcases hmem x hx with hold | hreading
    · exact h.past x hold hstage
    · rw [hreading] at hstage
      cases hstage
  · intro x hx hstage
    rcases hmem x hx with hold | hreading
    · exact h.absent x hold hstage
    · rw [hreading] at hstage
      cases hstage
  · intro hcaution hstarted id hpending
    left
    have hserved : id ∈ eventsIn σ.world.runtime.queued ∨ id ∈ submitting action → Tracked { σ with
          world
          executions := σ.stayingExecutions action ++ added.map fun entry =>
            ⟨entry.1, entry.2, .reading⟩
          skips := σ.skips ++ dropped.map fun entry => ⟨entry.1, .reading⟩ } id := by
      intro hevent
      rcases step_serves h.world hstep hadded hdropped hevent with
        hqueued | hadd | hdrop
      · exact .inl (.inl hqueued)
      · have ⟨entry, hentry, heq⟩ := mem_map.1 hadd
        exact .inl (.inr ⟨⟨entry.1, entry.2, .reading⟩,
          mem_append_right _ (mem_map_of_mem hentry), heq, rfl⟩)
      · have ⟨entry, hentry, heq⟩ := mem_map.1 hdrop
        exact .inr (.inr (.inl ⟨⟨entry.1, .reading⟩,
          mem_append_right _ (mem_map_of_mem hentry), heq, rfl⟩))
    rcases h.tracked hcaution hstarted id hpending with htracked | htaken
    · rcases htracked with (hqueued | ⟨x, hx, hid, hlive⟩) | hcoming | ⟨x, hx, hskip⟩ |
        ⟨hstatus, x, hx, hskip⟩
      · exact hserved (.inl hqueued)
      · refine .inl (.inr ⟨x, hkept x hx ?_, hid, hlive⟩)
        intro hsettled
        rw [hsettled] at hlive
        cases hlive
      · exact .inr (.inl hcoming)
      · exact .inr (.inr (.inl ⟨x, mem_append_left _ hx, hskip⟩))
      · exact .inr (.inr (.inr ⟨hstatus, x, mem_append_left _ hx, hskip⟩))
    · exact hserved (.inr htaken)

/-! ## The stored status of a run -/

variable {runs : List AutomationRun} {run : AutomationRun}

theorem find?_eq_of_mem (hdistinct : (runs.map (·.id)).Nodup) (hrun : run ∈ runs) :
    runs.find? (fun other => other.id = run.id) = some run := by
  induction runs with
  | nil => cases hrun
  | cons first runs ih =>
    rw [map_cons, nodup_cons] at hdistinct
    rcases mem_cons.1 hrun with heq | hin
    · subst heq
      simp
    have hne : first.id ≠ run.id := by
      intro heq
      exact hdistinct.1 (heq ▸ mem_map_of_mem hin)
    simp [hne, ih hdistinct.2 hin]

theorem Inv.statusOf_of_mem (h : Inv cautious σ taken) (hrun : run ∈ σ.runs) :
    σ.statusOf run.id = some run.status := by
  rw [statusOf, run?, find?_eq_of_mem h.distinct hrun, Option.map_some]

variable {status : StoryAutomationRunStatus}

theorem exists_of_statusOf (h : σ.statusOf id = some status) :
    ∃ run ∈ σ.runs, run.id = id ∧ run.status = status := by
  have ⟨run, hrun, hstatus⟩ := Option.map_eq_some_iff.1 h
  exact ⟨run, mem_of_find?_eq_some hrun, by simpa using find?_some hrun, hstatus⟩

theorem pendingRuns_find_some (h : Inv cautious σ taken)
    (hfound : σ.pendingRuns.find? (fun run => run.id = id) = some run) :
    σ.statusOf id = some run.status := by
  have hmem := mem_of_find?_eq_some hfound
  have hid : run.id = id := by simpa using find?_some hfound
  rw [← hid]
  exact h.statusOf_of_mem (mem_of_mem_filter hmem)

theorem pendingRuns_find_none (hfound : σ.pendingRuns.find? (fun run => run.id = id) = none) :
    ¬ σ.Pending id := by
  rintro ⟨status, hstatus, hpending⟩
  have ⟨run, hrun, hid, hstatus⟩ := exists_of_statusOf hstatus
  have hnot := find?_eq_none.1 hfound run
    (mem_filter.2 ⟨hrun, by simp [AutomationRun.pending, hstatus, hpending]⟩)
  simp [hid] at hnot

/-! ## `executeRun` -/

section

variable (h : Inv cautious σ taken)

include h

variable (hx : σ.executions[execution]? = some x)

include hx

theorem Inv.wait
    (hpast : x.stage.past = true) : Inv cautious (σ.wait execution x) taken := by
  have hstage : ∀ ρ : StoryScheduler, Inv cautious ρ taken → ρ.executions[execution]? = some x →
      ∀ entry, Inv cautious (ρ.setStage execution x (.waiting entry)) taken := by
    intro ρ hρ hρx entry
    apply hρ.setStage hρx
    · exact fun _ => .inl hpast
    · exact fun hread => by cases hread
    · exact fun habsent => by cases habsent
    · exact fun _ => .inl rfl
    · exact fun _ hdead => by cases hdead
  unfold StoryScheduler.wait
  split
  · exact hstage σ h hx _
  have hadded : Inv cautious { σ with
      completion := (x.runId, σ.nextEntry) :: σ.completion
      nextEntry := σ.nextEntry + 1 } taken := { h with }
  exact hstage _ hadded hx σ.nextEntry

theorem Inv.heldBeside_of_thrown
    (hstage : x.stage = .transitioning)
    (ht : Stories.transition σ.runs x.runId .dispatching none = none) (hpending : σ.Pending x.runId) :
    σ.HeldBeside execution x.runId := by
  have ⟨status, hstatus, hnot⟩ := hpending
  have ⟨current, hcurrent, hcurrentStatus⟩ := Option.map_eq_some_iff.1 hstatus
  have ⟨hne, hforbidden⟩ := transition_none ht hcurrent
  rw [hcurrentStatus] at hne hforbidden
  have hrunning : status = .running := by
    cases status with
    | queued => exact absurd (by simp [allowedTransitions]) hforbidden
    | dispatching => exact absurd rfl hne
    | running => rfl
    | completed => cases hnot
    | failed => cases hnot
    | skipped => cases hnot
  have ⟨y, hy, hid, hcarries⟩ := h.readQueued x (mem_of_getElem? hx) (by rw [hstage]; rfl)
    (hrunning ▸ hstatus)
  have ⟨other, hother⟩ := mem_iff_getElem?.1 hy
  refine .inr ⟨other, y, ?_, hother, hid, ?_⟩
  · rintro rfl
    rw [hx, Option.some.injEq] at hother
    rw [← hother, hstage] at hcarries
    cases hcarries
  · cases hystage : y.stage <;> simp [hystage, ExecuteStage.carries] at hcarries <;> rfl

theorem Inv.over_of_thrown
    (hstage : x.stage = .failing) (ht : Stories.transition σ.runs x.runId .failed none = none) :
    ¬ σ.Pending x.runId := by
  rintro ⟨status, hstatus, hnot⟩
  have ⟨current, hcurrent, hcurrentStatus⟩ := Option.map_eq_some_iff.1 hstatus
  have ⟨_, hforbidden⟩ := transition_none ht hcurrent
  rw [hcurrentStatus] at hforbidden
  have hpast := h.past x (mem_of_getElem? hx) (by rw [hstage]; rfl)
  cases status with
  | queued => exact hpast hstatus
  | dispatching => exact hforbidden (by simp [allowedTransitions])
  | running => exact hforbidden (by simp [allowedTransitions])
  | completed => cases hnot
  | failed => cases hnot
  | skipped => cases hnot

theorem Inv.goOn (hcarries : x.stage.carries = false)
    (hlive : stage.live = true) (hfound : stage ≠ .found none)
    (hpast : stage.past = true → x.stage.past = true ∨ σ.statusOf x.runId ≠ some .queued)
    (hread : stage.readQueued = true →
      x.stage.readQueued = true ∨ σ.statusOf x.runId ≠ some .running) :
    Inv cautious (σ.setStage execution x stage) taken := by
  apply h.setStage hx stage hpast hread fun habsent => absurd habsent hfound
  · exact fun hc => by rw [hcarries] at hc; cases hc
  · exact fun _ hdead => by rw [hlive] at hdead; cases hdead

theorem Inv.leave (hstage : stage = .returning ∨ stage = .settled)
    (hcarries : x.stage.carries = true → σ.statusOf x.runId ≠ some .running)
    (hlive : x.stage.live = true → cautious → σ.started = true → σ.Pending x.runId →
      σ.HeldBeside execution x.runId ∨ σ.Coming x.runId) :
    Inv cautious (σ.setStage execution x stage) taken := by
  apply h.setStage hx stage _ _ _ (fun hc => .inr (hcarries hc)) fun hxlive _ => hlive hxlive
  all_goals rcases hstage with rfl | rfl <;> nofun

end

theorem Inv.advance {outcome : DispatchOutcome} (h : Inv cautious σ [])
    (hx : σ.executions[execution]? = some x) (hcautious : cautious → σ.Cautious (.advance execution outcome))
    (hadvance : σ.advance execution x outcome = some τ) : Inv cautious τ [] := by
  have hmem := mem_of_getElem? hx
  have hheld : x.stage.live = true → σ.Held x.runId := fun hlive => .inr ⟨x, hmem, rfl, hlive⟩
  obtain ⟨automationId, runId, stage⟩ := x
  unfold advance at hadvance
  cases stage with
  | reading =>
    cases hadvance
    cases hfound : σ.pendingRuns.find? fun run => run.id = runId with
    | none =>
      have hover : σ.Over runId := ⟨h.executing_lt hmem, pendingRuns_find_none hfound⟩
      exact h.setStage hx (.found none) nofun nofun (fun _ => hover) nofun nofun
    | some run =>
      have hstatus := pendingRuns_find_some h hfound
      apply h.goOn hx rfl rfl
      · nofun
      · intro hpast
        right
        rw [hstatus]
        simpa [ExecuteStage.past] using hpast
      intro hread
      right
      rw [hstatus]
      intro hrunning
      rw [Option.map_some, Option.some.inj hrunning] at hread
      cases hread
  | found found =>
    cases found with
    | none =>
      cases hadvance
      exact h.leave hx (.inr rfl) nofun fun _ _ _ hpending =>
        absurd hpending (h.absent _ hmem rfl).2
    | some status =>
      cases status with
      | queued =>
        cases hadvance
        exact h.goOn hx rfl rfl nofun nofun fun _ => .inl rfl
      | dispatching =>
        cases hadvance
        exact h.goOn hx rfl rfl nofun (fun _ => .inl rfl) nofun
      | running => exact Option.some.inj hadvance ▸ h.wait hx rfl
      | completed => exact Option.some.inj hadvance ▸ h.wait hx rfl
      | failed => exact Option.some.inj hadvance ▸ h.wait hx rfl
      | skipped => exact Option.some.inj hadvance ▸ h.wait hx rfl
  | transitioning =>
    cases hadvance
    unfold transitionTo
    split
    · rename_i stored ht
      have hnext := h.transition ht nofun (fun _ => hheld rfl) nofun
      apply hnext.goOn hx rfl rfl
      · nofun
      · intro _
        right
        rw [statusOf_transition ht, if_pos rfl]
        nofun
      · nofun
    · rename_i ht
      exact h.leave hx (.inr rfl) nofun fun _ _ _ hpending =>
        .inl (h.heldBeside_of_thrown hx rfl ht hpending)
  | dispatching =>
    cases outcome with
    | created aiSessionId =>
      cases hadvance
      exact h.goOn hx rfl rfl nofun (fun _ => .inl rfl) nofun
    | refused =>
      cases hadvance
      exact h.goOn hx rfl rfl nofun (fun _ => .inl rfl) nofun
    | unavailable =>
      cases hadvance
      exact h.leave hx (.inl rfl) nofun fun _ hcaution hstarted hpending =>
        hcautious hcaution _ hx rfl hstarted hpending
  | starting aiSessionId =>
    cases hadvance
    unfold transitionTo
    split
    · rename_i stored ht
      have hpublishing : Inv cautious (σ.setStage execution _ .publishing) [] :=
        h.goOn hx rfl rfl nofun (fun _ => .inl rfl) nofun
      have hin := mem_set_self (⟨automationId, runId, .publishing⟩ : Execution) hx
      exact hpublishing.transition ht nofun (fun _ => .inr ⟨_, hin, rfl, rfl⟩)
        fun _ => ⟨_, hin, rfl, rfl⟩
    · exact h.goOn hx rfl rfl nofun (fun _ => .inl rfl) nofun
  | publishing => exact Option.some.inj hadvance ▸ h.wait hx rfl
  | failing =>
    cases hadvance
    unfold transitionTo
    split
    · rename_i stored ht
      apply (h.transition ht nofun nofun nofun).leave hx (.inl rfl) nofun
      rintro _ _ _ ⟨status, hstatus, hnot⟩
      rw [statusOf_transition ht, if_pos rfl, Option.some.injEq] at hstatus
      rw [← hstatus] at hnot
      cases hnot
    · rename_i ht
      exact h.leave hx (.inr rfl) nofun fun _ _ _ hpending =>
        absurd hpending (h.over_of_thrown hx rfl ht)
  | returning =>
    cases hadvance
    exact h.leave hx (.inr rfl) nofun nofun
  | waiting entry =>
    simp only at hadvance
    split at hadvance
    · rename_i hresolved
      cases hadvance
      have hover := h.resolved _ hresolved
      exact h.leave hx (.inr rfl) (fun _ hrunning => hover.2 ⟨_, hrunning, rfl⟩)
        fun _ _ _ hpending => absurd hpending hover.2
    · cases hadvance
  | settled => cases hadvance

/-! ## `skipRun` -/

theorem Inv.endSkip {x : SkipRun} (h : Inv cautious σ []) (hx : σ.skips[skip]? = some x)
    (hheld : cautious → σ.started = true → σ.Pending x.runId →
      (x.stage = .transitioning → σ.statusOf x.runId = some .queued) →
      σ.Held x.runId ∨ σ.Coming x.runId) :
    Inv cautious { σ with skips := σ.skips.eraseIdx skip } [] := by
  refine { h with tracked := ?_ }
  intro hcaution hstarted id hpending
  left
  have htracked := (h.tracked hcaution hstarted id hpending).resolve_right not_mem_nil
  have hend : x.runId = id → (x.stage = .transitioning → σ.statusOf x.runId = some .queued) →
      Tracked { σ with skips := σ.skips.eraseIdx skip } id := by
    rintro rfl hqueued
    rcases hheld hcaution hstarted hpending hqueued with hheld | hcoming
    · exact .inl hheld
    · exact .inr (.inl hcoming)
  rcases htracked with hheld | hcoming | ⟨y, hy, hid, hreading⟩ | ⟨hstatus, y, hy, hid, hstage⟩
  · exact .inl hheld
  · exact .inr (.inl hcoming)
  · rcases mem_eraseIdx_of_mem hx hy with heq | hkept
    · subst heq
      apply hend hid
      intro htransitioning
      rw [hreading] at htransitioning
      cases htransitioning
    · exact .inr (.inr (.inl ⟨y, hkept, hid, hreading⟩))
  · rcases mem_eraseIdx_of_mem hx hy with heq | hkept
    · subst heq
      exact hend hid fun _ => hid ▸ hstatus
    · exact .inr (.inr (.inr ⟨hstatus, y, hkept, hid, hstage⟩))

theorem Inv.advanceSkip {x : SkipRun} (h : Inv cautious σ [])
    (hx : σ.skips[skip]? = some x) (hcautious : cautious → σ.Cautious (.skip skip)) :
    Inv cautious (σ.advanceSkip skip x) [] := by
  unfold StoryScheduler.advanceSkip
  cases hstage : x.stage with
  | reading =>
    cases hrun : σ.run? x.runId with
    | none =>
      apply h.endSkip hx
      rintro _ _ ⟨status, hstatus, _⟩ _
      rw [statusOf, hrun] at hstatus
      cases hstatus
    | some run =>
      have hstatus : σ.statusOf x.runId = some run.status := by rw [statusOf, hrun, Option.map_some]
      simp only
      split
      · rename_i hqueued
        refine { h with tracked := ?_ }
        intro hcaution hstarted id hpending
        left
        have htracked := (h.tracked hcaution hstarted id hpending).resolve_right not_mem_nil
        rcases htracked with hheld | hcoming | ⟨y, hy, hid, hreading⟩ |
          ⟨hqueued', y, hy, hid, hytransitioning⟩
        · exact .inl hheld
        · exact .inr (.inl hcoming)
        · rcases mem_set_of_mem { x with stage := .transitioning } hx hy with heq | hkept
          · subst heq
            refine .inr (.inr (.inr ⟨?_, _, mem_set_self _ hx, hid, rfl⟩))
            rw [← hid, ← hqueued]
            exact hstatus
          · exact .inr (.inr (.inl ⟨y, hkept, hid, hreading⟩))
        · rcases mem_set_of_mem { x with stage := .transitioning } hx hy with heq | hkept
          · subst heq
            exact .inr (.inr (.inr ⟨hqueued', _, mem_set_self _ hx, hid, rfl⟩))
          · exact .inr (.inr (.inr ⟨hqueued', y, hkept, hid, hytransitioning⟩))
      · rename_i hqueued
        apply h.endSkip hx
        intro hcaution hstarted hpending _
        apply hcautious hcaution x hx hstage hstarted hpending
        rw [hstatus]
        simpa using hqueued
  | transitioning =>
    cases ht : Stories.transition σ.runs x.runId .skipped none with
    | none =>
      apply h.endSkip hx
      intro _ _ _ hqueued
      have ⟨current, hcurrent, hstatus⟩ := Option.map_eq_some_iff.1 (hqueued hstage)
      have hforbidden := (transition_none ht hcurrent).2
      rw [hstatus] at hforbidden
      exact absurd (by simp [allowedTransitions]) hforbidden
    | some stored =>
      have hnext := h.transition ht nofun nofun nofun
      apply hnext.endSkip hx
      rintro _ _ ⟨status, hstatus, hnot⟩ _
      rw [statusOf_transition ht, if_pos rfl, Option.some.injEq] at hstatus
      rw [← hstatus] at hnot
      cases hnot

/-! ## `start` -/

theorem Inv.stopped (h : Inv cautious σ taken) (starts : List StartStage)
    (hstarts : ∀ runs, .resuming runs ∈ starts → .resuming runs ∈ σ.starts) :
    Inv cautious { σ with starts, started := false } [] :=
  { h with
    resuming := fun runs hruns => h.resuming runs (hstarts runs hruns)
    tracked := nofun }

section

variable (h : Inv cautious σ [])

include h

theorem Inv.runtimeOnly (hserve : σ.serve action = some τ) (hsubmitting : submitting action = [])
    (hstaying : σ.stayingExecutions action = σ.executions) : Inv cautious τ [] := by
  apply Inv.serve (hsubmitting ▸ h) hserve
  · intro id hid
    rw [hsubmitting] at hid
    cases hid
  intro x hx hgone
  rw [hstaying] at hgone
  exact absurd hx hgone

theorem Inv.startRead (hx : σ.starts[start]? = some .registering) : Inv cautious { σ with
      starts := σ.starts.set start (.resuming σ.pendingRuns)
      started := true } [] := by
  refine { h with resuming := ?_, tracked := ?_ }
  · intro runs hruns run hrun
    rcases mem_or_eq_of_mem_set hruns with hold | hnew
    · exact h.resuming runs hold run hrun
    have hsame := StartStage.resuming.inj hnew
    subst hsame
    have hstored := mem_of_mem_filter hrun
    refine ⟨h.stored run hstored, ?_⟩
    intro other hother hid
    have hfind := find?_eq_of_mem h.distinct hother
    rw [hid, find?_eq_of_mem h.distinct hstored, Option.some.injEq] at hfind
    rw [hfind]
  · rintro _ _ id ⟨status, hstatus, hnot⟩
    have ⟨run, hrun, hid, hrunStatus⟩ := exists_of_statusOf hstatus
    refine .inl (.inr (.inl (.inr ⟨_, mem_set_self _ hx, run, ?_, hid⟩)))
    exact mem_filter.2 ⟨hrun, by simp [AutomationRun.pending, hrunStatus, hnot]⟩

theorem Inv.takeResuming
    (hx : σ.starts[start]? = some (.resuming (run :: runs))) :
    Inv cautious { σ with starts := σ.starts.set start (.resuming runs) } [run.id] := by
  refine { h with resuming := ?_, tracked := ?_ }
  · intro others hothers other hother
    rcases mem_or_eq_of_mem_set hothers with hold | hnew
    · exact h.resuming others hold other hother
    have hsame := StartStage.resuming.inj hnew
    subst hsame
    exact h.resuming _ (mem_of_getElem? hx) other (mem_cons_of_mem _ hother)
  · intro hcaution hstarted id hpending
    have htracked := (h.tracked hcaution hstarted id hpending).resolve_right not_mem_nil
    rcases htracked with hheld | (hsubmission | ⟨others, hothers, other, hother, hid⟩) | hskip
    · exact .inl (.inl hheld)
    · exact .inl (.inr (.inl (.inl hsubmission)))
    · rcases mem_set_of_mem (.resuming runs) hx hothers with heq | hkept
      · have hsame := StartStage.resuming.inj heq
        subst hsame
        rcases mem_cons.1 hother with hfirst | hrest
        · right
          rw [← hid, hfirst]
          exact mem_singleton_self _
        · exact .inl (.inr (.inl (.inr ⟨runs, mem_set_self _ hx, other, hrest, hid⟩)))
      · exact .inl (.inr (.inl (.inr ⟨others, hkept, other, hother, hid⟩)))
    · exact .inl (.inr (.inr hskip))

end

variable {policy : SchedulerPolicy}

theorem Inv.advanceStart (h : Inv cautious σ []) (hx : σ.starts[start]? = some (.resuming runs))
    (hadvance : σ.advanceStart start runs policy now startedAt = some τ) : Inv cautious τ [] := by
  unfold StoryScheduler.advanceStart at hadvance
  cases runs with
  | nil =>
    cases hadvance
    refine { h with resuming := ?_, tracked := ?_ }
    · intro runs hruns
      exact h.resuming runs (mem_of_mem_eraseIdx hruns)
    intro hcaution hstarted id hpending
    left
    have htracked := (h.tracked hcaution hstarted id hpending).resolve_right not_mem_nil
    rcases htracked with hheld | (hsubmission | ⟨others, hothers, other, hother, hid⟩) | hskip
    · exact .inl hheld
    · exact .inr (.inl (.inl hsubmission))
    · rcases mem_eraseIdx_of_mem hx hothers with heq | hkept
      · rw [StartStage.resuming.inj heq] at hother
        cases hother
      · exact .inr (.inl (.inr ⟨others, hkept, other, hother, hid⟩))
    · exact .inr (.inr hskip)
  | cons run runs =>
    have htaken := h.takeResuming hx
    have ⟨hlt, hsame⟩ := h.resuming _ (mem_of_getElem? hx) run mem_cons_self
    simp only at hadvance
    split at hadvance
    · apply Inv.serve htaken hadvance
      · intro id hid
        rw [mem_singleton.1 hid]
        exact hlt
      · intro x hx hgone
        exact absurd hx hgone
    · rename_i hmissing
      cases hadvance
      refine { htaken with tracked := ?_ }
      intro hcaution hstarted id hpending
      rcases htaken.tracked hcaution hstarted id hpending with htracked | hid
      · exact .inl htracked
      have ⟨status, hstatus, _⟩ := hpending
      have ⟨stored, hstored, hid', _⟩ := exists_of_statusOf hstatus
      rw [mem_singleton] at hid
      have hautomation := hsame stored hstored (hid'.trans hid)
      exact absurd (hautomation ▸ h.owned stored hstored) hmissing

/-! ## `reconcileInstances` -/

theorem reconciled_terminal {authoritativeInstanceId : Option InstanceId}
    (h : reconciled authoritativeInstanceId run session = some status) :
    status.isTerminal = true := by
  obtain ⟨-, h⟩ := Option.ite_none_left_eq_some.1 h
  split at h
  · split at h
    · rw [← Option.some.inj h]; rfl
    · cases h
  · rw [← Option.some.inj h]; rfl
  · rw [← Option.some.inj h]; rfl
  · cases h

theorem Inv.setReconcile {x : Reconcile} (h : Inv cautious σ taken) (stage : ReconcileStage)
    (hterminal : ∀ run status runs, stage = .transitioning run status runs →
      status.isTerminal = true) (hover : ∀ run runs, stage = .resolving run runs → σ.Over run.id) :
    Inv cautious (σ.setReconcile reconcile x stage) taken := by
  refine { h with reconciling := ?_, resolving := ?_ }
  · intro y hy run status runs hstage
    rcases mem_or_eq_of_mem_set hy with hold | heq
    · exact h.reconciling y hold run status runs hstage
    · subst heq
      exact hterminal run status runs hstage
  · intro y hy run runs hstage
    rcases mem_or_eq_of_mem_set hy with hold | heq
    · exact h.resolving y hold run runs hstage
    · subst heq
      exact hover run runs hstage

theorem Inv.endReconcile (h : Inv cautious σ taken) (reconcile : Nat) :
    Inv cautious { σ with reconciles := σ.reconciles.eraseIdx reconcile } taken :=
  { h with
    reconciling := fun x hx => h.reconciling x (mem_of_mem_eraseIdx hx)
    resolving := fun x hx => h.resolving x (mem_of_mem_eraseIdx hx) }

theorem Inv.advanceReconcile {x : Reconcile}
    (h : Inv cautious σ []) (hx : σ.reconciles[reconcile]? = some x) :
    Inv cautious (σ.advanceReconcile reconcile x session) [] := by
  have hmem := mem_of_getElem? hx
  unfold StoryScheduler.advanceReconcile
  cases hstage : x.stage with
  | reading => exact h.setReconcile _ (fun _ _ _ heq => by cases heq) (fun _ _ heq => by cases heq)
  | next runs =>
    cases runs with
    | nil => exact h.endReconcile reconcile
    | cons run runs =>
      simp only
      split
      · rename_i status hstatus
        apply h.setReconcile
        · intro run' status' runs' heq
          cases heq
          exact reconciled_terminal hstatus
        · exact fun _ _ heq => by cases heq
      · exact h.setReconcile _ (fun _ _ _ heq => by cases heq) (fun _ _ heq => by cases heq)
  | transitioning run status runs =>
    have hterminal := h.reconciling x hmem run status runs hstage
    simp only
    split
    swap
    · exact h.endReconcile reconcile
    rename_i stored ht
    have hnext : Inv cautious { σ with runs := stored } [] := by
      apply h.transition ht
      · rintro rfl
        cases hterminal
      · intro hnot
        rw [hterminal] at hnot
        cases hnot
      · rintro rfl
        cases hterminal
    apply hnext.setReconcile
    · exact fun _ _ _ heq => by cases heq
    intro run' runs' heq
    cases heq
    have ⟨⟨current, hcurrent, _⟩, _, _⟩ := transition_spec ht
    have hid : current.id = run.id := by simpa using find?_some hcurrent
    refine ⟨?_, ?_⟩
    · rw [← hid]
      exact h.stored current (mem_of_find?_eq_some hcurrent)
    rintro ⟨found, hfound, hnot⟩
    rw [statusOf_transition ht, if_pos rfl, Option.some.injEq] at hfound
    rw [← hfound, hterminal] at hnot
    cases hnot
  | resolving run runs =>
    have hover := h.resolving x hmem run runs hstage
    have hresolved : Inv cautious (σ.resolveCompletion run.id) [] := by
      refine { h with resolved := ?_ }
      intro entry hentry
      rcases mem_append.1 hentry with hnew | hold
      · have heq : entry.1 = run.id := by simpa using (mem_filter.1 hnew).2
        rw [heq]
        exact hover
      · exact h.resolved entry hold
    exact hresolved.setReconcile _ (fun _ _ _ heq => by cases heq) (fun _ _ heq => by cases heq)
  | publishing runs =>
    exact h.setReconcile _ (fun _ _ _ heq => by cases heq) (fun _ _ heq => by cases heq)

/-! ## Rows come and go -/

variable {keep : AutomationRun → Bool}

section

variable (h : Inv cautious σ taken)

include h

theorem statusOf_filter
    (hfound : statusOf { σ with runs := σ.runs.filter keep } id = some status) :
    σ.statusOf id = some status := by
  have ⟨run, hrun, hid, hstatus⟩ := exists_of_statusOf hfound
  rw [← hid, ← hstatus]
  exact h.statusOf_of_mem (mem_of_mem_filter hrun)

theorem statusOf_kept (hrun : run ∈ σ.runs) (hkeep : keep run = true) :
    statusOf { σ with runs := σ.runs.filter keep } run.id = some run.status := by
  have hdistinct : ((σ.runs.filter keep).map (·.id)).Nodup :=
    h.distinct.sublist (filter_sublist.map _)
  rw [statusOf, run?, find?_eq_of_mem hdistinct (mem_filter.2 ⟨hrun, hkeep⟩), Option.map_some]

theorem Pending.of_filter {automations : List AutomationId}
    (hpending : Pending { σ with automations, runs := σ.runs.filter keep } id) : σ.Pending id := by
  have ⟨status, hstatus, hnot⟩ := hpending
  exact ⟨status, statusOf_filter h hstatus, hnot⟩

end

theorem Over.deleteRuns (hover : σ.Over id) (h : Inv cautious σ taken) (keep : AutomationRun → Bool)
    (automations : List AutomationId) :
    Over { σ with automations, runs := σ.runs.filter keep } id :=
  ⟨hover.1, fun hpending => hover.2 (hpending.of_filter h)⟩

theorem Inv.deleteRuns (h : Inv cautious σ []) (keep : AutomationRun → Bool)
    (automations : List AutomationId) (hdead : ∀ run ∈ σ.runs, keep run = false → run.pending = false)
    (howned : ∀ run ∈ σ.runs, keep run = true → run.automationId ∈ automations) :
    Inv cautious { σ with automations, runs := σ.runs.filter keep } [] := by
  refine { h with
    distinct := h.distinct.sublist (filter_sublist.map _)
    stored := fun run hrun => h.stored run (mem_of_mem_filter hrun)
    owned := ?_, resuming := ?_
    readQueued := fun x hx hstage hrunning =>
      h.readQueued x hx hstage (statusOf_filter h hrunning)
    past := fun x hx hstage hqueued => h.past x hx hstage (statusOf_filter h hqueued)
    absent := fun x hx hstage => (h.absent x hx hstage).deleteRuns h keep automations
    resolving := fun x hx run runs hstage =>
      (h.resolving x hx run runs hstage).deleteRuns h keep automations
    resolved := fun entry hentry => (h.resolved entry hentry).deleteRuns h keep automations, tracked := ?_ }
  · intro run hrun
    have ⟨hin, hkeep⟩ := mem_filter.1 hrun
    exact howned run hin hkeep
  · intro runs hruns run hrun
    have ⟨hlt, hsame⟩ := h.resuming runs hruns run hrun
    exact ⟨hlt, fun stored hstored => hsame stored (mem_of_mem_filter hstored)⟩
  intro hcaution hstarted id hp
  left
  have htracked := (h.tracked hcaution hstarted id (hp.of_filter h)).resolve_right not_mem_nil
  rcases htracked with hheld | hcoming | hskip | ⟨hqueued, hskip⟩
  · exact .inl hheld
  · exact .inr (.inl hcoming)
  · exact .inr (.inr (.inl hskip))
  · refine .inr (.inr (.inr ⟨?_, hskip⟩))
    have ⟨run, hrun, hid, hstatus⟩ := exists_of_statusOf hqueued
    have hkeep : keep run = true := by
      by_contra hnot
      have hgone := hdead run hrun (Bool.not_eq_true _ ▸ hnot)
      rw [AutomationRun.pending, hstatus] at hgone
      cases hgone
    rw [← hid, ← hstatus]
    exact statusOf_kept h hrun hkeep

theorem statusOf_append (submissions : List Submission)
    (hnew : new.id = σ.nextRun) (hlt : id < σ.nextRun) :
    statusOf { σ with runs := σ.runs ++ [new], nextRun := σ.nextRun + 1, submissions } id =
      σ.statusOf id := by
  have hne : new.id ≠ id := hnew ▸ Nat.ne_of_gt hlt
  simp [statusOf, run?, hne]

theorem Over.append (hover : σ.Over id) (submissions : List Submission)
    (hnew : new.id = σ.nextRun) :
    Over { σ with runs := σ.runs ++ [new], nextRun := σ.nextRun + 1, submissions } id := by
  refine ⟨Nat.lt_succ_of_lt hover.1, ?_⟩
  rintro ⟨status, hfound, hpending⟩
  rw [statusOf_append submissions hnew hover.1] at hfound
  exact hover.2 ⟨status, hfound, hpending⟩

section

variable (h : Inv cautious σ [])

include h

theorem Inv.createRun {automationId : AutomationId} {targetInstanceId : InstanceId} (hautomation : automationId ∈ σ.automations) : Inv cautious { σ with
      runs := σ.runs ++ [⟨σ.nextRun, automationId, targetInstanceId, .queued, none⟩]
      nextRun := σ.nextRun + 1
      submissions := σ.submissions ++ [⟨automationId, σ.nextRun, policy⟩] } [] := by
  generalize hnew : (⟨σ.nextRun, automationId, targetInstanceId, .queued, none⟩ : AutomationRun) = new
  have hid : new.id = σ.nextRun := by rw [← hnew]
  have hstatus : ∀ id, id < σ.nextRun → statusOf { σ with
      runs := σ.runs ++ [new]
      nextRun := σ.nextRun + 1
      submissions := σ.submissions ++ [⟨automationId, σ.nextRun, policy⟩] } id = σ.statusOf id :=
    fun _ hlt => statusOf_append _ hid hlt
  have hover : ∀ id, σ.Over id → Over { σ with
      runs := σ.runs ++ [new]
      nextRun := σ.nextRun + 1
      submissions := σ.submissions ++ [⟨automationId, σ.nextRun, policy⟩] } id :=
    fun _ hover => hover.append _ hid
  refine { h with
    distinct := ?_, stored := ?_, owned := ?_
    submitted := fun entry hentry => Nat.lt_succ_of_lt (h.submitted entry hentry)
    submissions := ?_, resuming := ?_, readQueued := ?_, past := ?_
    absent := fun x hx hstage => hover _ (h.absent x hx hstage)
    resolving := fun x hx run runs hstage => hover _ (h.resolving x hx run runs hstage)
    resolved := fun entry hentry => hover _ (h.resolved entry hentry), tracked := ?_ }
  · rw [map_append, nodup_append]
    refine ⟨h.distinct, nodup_singleton _, ?_⟩
    intro old hold fresh hfresh heq
    have ⟨run, hrun, hrunId⟩ := mem_map.1 hold
    have hlt := h.stored run hrun
    have hfresh : fresh = new.id := by simpa using hfresh
    rw [hrunId, heq, hfresh, hid] at hlt
    exact Nat.lt_irrefl _ hlt
  · intro run hrun
    rcases mem_concat.mp hrun with hold | rfl
    · exact Nat.lt_succ_of_lt (h.stored run hold)
    · rw [hid]
      exact Nat.lt_succ_self _
  · intro run hrun
    rcases mem_concat.mp hrun with hold | rfl
    · exact h.owned run hold
    · rw [← hnew]
      exact hautomation
  · intro x hx
    rcases mem_concat.mp hx with hold | rfl
    · exact Nat.lt_succ_of_lt (h.submissions x hold)
    · exact Nat.lt_succ_self _
  · intro runs hruns run hrun
    have ⟨hlt, hsame⟩ := h.resuming runs hruns run hrun
    refine ⟨Nat.lt_succ_of_lt hlt, ?_⟩
    intro stored hstored heq
    rcases mem_concat.mp hstored with hold | rfl
    · exact hsame stored hold heq
    · rw [hid] at heq
      exact absurd heq (Nat.ne_of_gt hlt)
  · intro x hx hstage hrunning
    rw [hstatus _ (h.executing_lt hx)] at hrunning
    exact h.readQueued x hx hstage hrunning
  · intro x hx hstage
    rw [hstatus _ (h.executing_lt hx)]
    exact h.past x hx hstage
  · rintro hcaution hstarted id ⟨status, hfound, hpending⟩
    left
    by_cases hlt : id < σ.nextRun
    · rw [hstatus id hlt] at hfound
      have htracked :=
        (h.tracked hcaution hstarted id ⟨status, hfound, hpending⟩).resolve_right not_mem_nil
      rcases htracked with hheld | (⟨x, hx, hxid⟩ | hresuming) | hskip | ⟨hqueued, hskip⟩
      · exact .inl hheld
      · exact .inr (.inl (.inl ⟨x, mem_append_left _ hx, hxid⟩))
      · exact .inr (.inl (.inr hresuming))
      · exact .inr (.inr (.inl hskip))
      · refine .inr (.inr (.inr ⟨?_, hskip⟩))
        rw [hstatus id hlt]
        exact hqueued
    · have ⟨run, hrun, hrunId, _⟩ := exists_of_statusOf hfound
      have heq : id = σ.nextRun := by
        rcases mem_concat.mp hrun with hold | rfl
        · exact absurd (hrunId ▸ h.stored run hold) hlt
        · rw [hid] at hrunId
          exact hrunId.symm
      exact .inr (.inl (.inl ⟨_, mem_append_right _ (mem_singleton_self _), heq.symm⟩))

theorem Inv.findRun {runId : RunId} (hrun : σ.run? runId = some run) :
    Inv cautious { σ with submissions := σ.submissions ++ [⟨run.automationId, runId, policy⟩] } [] := by
  have hid : run.id = runId := by simpa using find?_some hrun
  have hlt := h.stored run (mem_of_find?_eq_some hrun)
  refine { h with submissions := ?_, tracked := ?_ }
  · intro x hx
    rcases mem_concat.mp hx with hold | rfl
    · exact h.submissions x hold
    · exact hid ▸ hlt
  intro hcaution hstarted id hpending
  left
  have htracked := (h.tracked hcaution hstarted id hpending).resolve_right not_mem_nil
  rcases htracked with hheld | (⟨x, hx, hxid⟩ | hresuming) | hskip
  · exact .inl hheld
  · exact .inr (.inl (.inl ⟨x, mem_append_left _ hx, hxid⟩))
  · exact .inr (.inl (.inr hresuming))
  · exact .inr (.inr hskip)

theorem Inv.submit {submission : Nat} {x : Submission} (hx : σ.submissions[submission]? = some x)
    (hserve : { σ with submissions := σ.submissions.eraseIdx submission }.serve
      (.submit x.automationId x.runId x.policy now startedAt) = some τ) : Inv cautious τ [] := by
  have htaken : Inv cautious { σ with submissions := σ.submissions.eraseIdx submission } [x.runId] := by
    refine { h with
      submissions := fun y hy => h.submissions y (mem_of_mem_eraseIdx hy), tracked := ?_ }
    intro hcaution hstarted id hpending
    have htracked := (h.tracked hcaution hstarted id hpending).resolve_right not_mem_nil
    rcases htracked with hheld | (⟨y, hy, hid⟩ | hresuming) | hskip
    · exact .inl (.inl hheld)
    · rcases mem_eraseIdx_of_mem hx hy with heq | hkept
      · right
        rw [← hid, heq]
        exact mem_singleton_self _
      · exact .inl (.inr (.inl (.inl ⟨y, hkept, hid⟩)))
    · exact .inl (.inr (.inl (.inr hresuming)))
    · exact .inl (.inr (.inr hskip))
  apply Inv.serve htaken hserve
  · intro id hid
    rw [mem_singleton.1 hid]
    exact h.submissions x (mem_of_getElem? hx)
  · intro y hy hgone
    exact absurd hy hgone

end

theorem boot_inv (automations : List AutomationId) (runs : List AutomationRun) (nextRun : RunId)
    (hdistinct : (runs.map (·.id)).Nodup) (hstored : ∀ run ∈ runs, run.id < nextRun)
    (howned : ∀ run ∈ runs, run.automationId ∈ automations) :
    Inv cautious (boot automations runs nextRun) [] where
  world := init_inv 100
  executing := rfl
  distinct := hdistinct
  stored := hstored
  owned := howned
  submitted := forall_mem_nil _
  submissions := forall_mem_nil _
  resuming := nofun
  readQueued := forall_mem_nil _
  past := forall_mem_nil _
  absent := forall_mem_nil _
  reconciling := forall_mem_nil _
  resolving := forall_mem_nil _
  resolved := forall_mem_nil _
  tracked := nofun

/-! ## Every run -/

theorem Inv.step {action : SchedulerAction} (h : Inv cautious σ []) (hcautious : cautious → σ.Cautious action)
    (hstep : σ.step action = some τ) : Inv cautious τ [] := by
  cases action with
  | createAutomation id =>
    obtain ⟨-, hstep⟩ := Option.ite_none_left_eq_some.1 hstep
    cases hstep
    exact { h with owned := fun run hrun => mem_append_left _ (h.owned run hrun) }
  | deleteAutomation id =>
    obtain ⟨hactive, hstep⟩ := Option.ite_none_left_eq_some.1 hstep
    cases hstep
    apply h.deleteRuns
    · intro run hrun hgone
      by_contra hpending
      apply hactive
      have hid : run.automationId = id := by simpa using hgone
      exact any_eq_true.2 ⟨run, hrun, by simpa [hid] using hpending⟩
    · intro run hrun hkeep
      exact mem_filter.2 ⟨h.owned run hrun, hkeep⟩
  | createRun automationId targetInstanceId policy =>
    obtain ⟨_, hstep⟩ := Option.ite_none_right_eq_some.1 hstep
    cases hstep
    exact h.createRun ‹_›
  | findRun runId policy =>
    have ⟨run, hrun, hτ⟩ := Option.map_eq_some_iff.1 hstep
    exact hτ ▸ h.findRun hrun
  | submit submission now startedAt =>
    have ⟨x, hx, hserve⟩ := Option.bind_eq_some_iff.1 hstep
    exact h.submit hx hserve
  | advance execution outcome =>
    have ⟨x, hx, hadvance⟩ := Option.bind_eq_some_iff.1 hstep
    exact h.advance hx hcautious hadvance
  | settle execution settlement now =>
    have ⟨x, hx, hsettle⟩ := Option.bind_eq_some_iff.1 hstep
    obtain ⟨hsettled, hsettle⟩ := Option.ite_none_right_eq_some.1 hsettle
    apply Inv.serve h hsettle
    · exact fun id hid => by cases hid
    intro y hy hgone
    rcases mem_eraseIdx_of_mem hx hy with heq | hkept
    · exact heq ▸ hsettled
    · exact absurd hkept hgone
  | skip skip =>
    have ⟨x, hx, hτ⟩ := Option.map_eq_some_iff.1 hstep
    exact hτ ▸ h.advanceSkip hx hcautious
  | start =>
    simp only [StoryScheduler.step] at hstep
    have ⟨υ, hυ, hτ⟩ := Option.map_eq_some_iff.1 hstep
    have ⟨ρ, hρ, hυ⟩ := Option.bind_eq_some_iff.1 hυ
    have hstarted := (h.runtimeOnly hρ rfl rfl).runtimeOnly hυ rfl rfl
    rw [← hτ]
    apply hstarted.stopped
    intro runs hruns
    exact (mem_append.1 hruns).elim id fun hnew => by simp at hnew
  | startRead start =>
    simp only [StoryScheduler.step] at hstep
    split at hstep
    · rename_i hx
      cases hstep
      exact h.startRead hx
    · cases hstep
  | startNext start policy now startedAt =>
    simp only [StoryScheduler.step] at hstep
    split at hstep
    · rename_i runs hx
      exact h.advanceStart hx hstep
    · cases hstep
  | stop =>
    simp only [StoryScheduler.step] at hstep
    have ⟨υ, hυ, hτ⟩ := Option.map_eq_some_iff.1 hstep
    rw [← hτ]
    exact (h.runtimeOnly hυ rfl rfl).stopped υ.starts fun _ hruns => hruns
  | clearQueued automationId => exact h.runtimeOnly hstep rfl rfl
  | reconcile authoritativeInstanceId =>
    cases hstep
    refine { h with reconciling := ?_, resolving := ?_ }
    · intro x hx run status runs hstage
      rcases mem_concat.mp hx with hold | rfl
      · exact h.reconciling x hold run status runs hstage
      · cases hstage
    · intro x hx run runs hstage
      rcases mem_concat.mp hx with hold | rfl
      · exact h.resolving x hold run runs hstage
      · cases hstage
  | reconcileNext reconcile session =>
    have ⟨x, hx, hτ⟩ := Option.map_eq_some_iff.1 hstep
    exact hτ ▸ h.advanceReconcile hx
  | trim runId =>
    obtain ⟨hpending, hstep⟩ := Option.ite_none_left_eq_some.1 hstep
    cases hstep
    apply h.deleteRuns
    · intro run hrun hgone
      have hid : run.id = runId := by simpa using hgone
      have hfind := find?_eq_of_mem h.distinct hrun
      rw [hid] at hfind
      rw [run?, hfind, Option.any_some] at hpending
      exact Bool.not_eq_true _ ▸ hpending
    · intro run hrun _
      exact h.owned run hrun
  | restart =>
    cases hstep
    exact boot_inv _ _ _ h.distinct h.stored h.owned

end Steps

/-- No continuation of the scheduler runs: executions await their dispatch or the end of their
session. -/
structure Idle (σ : StoryScheduler) : Prop where
  skips : σ.skips = []
  submissions : σ.submissions = []
  starts : σ.starts = []
  reconciles : σ.reconciles = []
  executions : ∀ x ∈ σ.executions, x.stage = .dispatching ∨ ∃ entry, x.stage = .waiting entry

variable {automations : List AutomationId} {actions : List SchedulerAction}

/-- In every run, whatever the dispatches end with: the runtime executes the runs of the
executions, a run past the queue is not queued again, and a completion is resolved only for a run
that is terminal or deleted. -/
theorem completions_over {runs : List AutomationRun} {nextRun : RunId}
    (hdistinct : (runs.map (·.id)).Nodup) (hstored : ∀ run ∈ runs, run.id < nextRun)
    (howned : ∀ run ∈ runs, run.automationId ∈ automations) {σ : StoryScheduler}
    (hrun : Machine.run step (boot automations runs nextRun) actions = some σ) :
    σ.world.executing = σ.executions.map (fun x => (x.automationId, x.runId)) ∧
      (∀ run ∈ σ.runs, run.automationId ∈ σ.automations) ∧
      (∀ x ∈ σ.executions, x.stage.past = true → σ.statusOf x.runId ≠ some .queued) ∧
      ∀ entry ∈ σ.resolved, σ.Over entry.1 := by
  have hinv : Inv False σ [] := Machine.run_invariant (I := fun υ => Inv False υ [])
    (fun _ _ _ hstep h => h.step False.elim hstep) hrun
    (boot_inv automations runs nextRun hdistinct hstored howned)
  exact ⟨hinv.executing, hinv.owned, hinv.past, hinv.resolved⟩

/-! ## Samples -/

/-- One run at a time, the others wait. -/
def oneAtATime : SchedulerPolicy := ⟨none, 1, .queue, Nat.one_pos⟩

/-- A start, and a run that is dispatched. -/
def dispatchedRun : List SchedulerAction :=
  [.createAutomation 1, .start, .startRead 0, .startNext 0 oneAtATime 0 0,
    .createRun 1 "instance" oneAtATime, .submit 0 0 0, .advance 0 .refused, .advance 0 .refused,
    .advance 0 .refused]

/-- A restart meets a stored run, which waits until a reconcile has seen its session end. -/
def resumedRun : List SchedulerAction :=
  [.start, .startRead 0, .restart, .start, .startRead 0, .startNext 0 oneAtATime 0 0,
    .advance 0 .refused, .advance 0 .refused, .reconcile none, .reconcileNext 0 none,
    .reconcileNext 0 (some .idle), .reconcileNext 0 none, .reconcileNext 0 none]

theorem completions_over_example : ∃ σ entry, Machine.run step
      (boot [1] [⟨0, 1, "instance", .running, some "session"⟩] 1) resumedRun = some σ ∧
    σ.resolved = [entry] ∧ entry.1 = 0 ∧ σ.Over entry.1 := by
  obtain ⟨σ, entry, hrun, hresolved, hid⟩ : ∃ σ entry, Machine.run step
        (boot [1] [⟨0, 1, "instance", .running, some "session"⟩] 1) resumedRun = some σ ∧
      σ.resolved = [entry] ∧ entry.1 = 0 := ⟨_, _, rfl, rfl, rfl⟩
  have hover := (completions_over (by decide) (by decide) (by decide) hrun).2.2.2
  exact ⟨σ, entry, hrun, hresolved, hid, hover entry (by rw [hresolved]; exact mem_singleton_self _)⟩

end StoryScheduler

end TaskHandoff.Stories
