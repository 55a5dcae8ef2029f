import TaskHandoff.Scheduler.Serving
import TaskHandoff.Stories.Deletion

/-! # Runs of automations

`StoryScheduler` creates a run for each occurrence of an automation, submits it to the execution
runtime, dispatches it to its instance and waits until `reconcileInstances` has seen the session
end. Each action of the machine below is one continuation of this code between two `await`s. -/

namespace TaskHandoff.Stories

open Scheduler

abbrev AutomationId := Nat

abbrev RunId := Nat

abbrev InstanceId := String

abbrev AiSessionId := String

/-! ## The stored runs -/

structure AutomationRun where
  id : RunId
  automationId : AutomationId
  targetInstanceId : InstanceId
  status : StoryAutomationRunStatus
  aiSessionId : Option AiSessionId

def AutomationRun.pending (run : AutomationRun) : Bool := !run.status.isTerminal

def allowedTransitions : StoryAutomationRunStatus → List StoryAutomationRunStatus
  | .queued => [.dispatching, .skipped]
  | .dispatching => [.running, .failed]
  | .running => [.completed, .failed]
  | .completed | .failed | .skipped => []

/-- `transition`, `none` when it throws. A patched session id replaces the old one. -/
def transition (runs : List AutomationRun) (id : RunId) (status : StoryAutomationRunStatus)
    (aiSessionId : Option AiSessionId) : Option (List AutomationRun) :=
  match runs.find? fun run => run.id = id with
  | none => none
  | some current =>
    if current.status = status then some runs
    else if status ∈ allowedTransitions current.status then
      some (runs.map fun run =>
        if run.id = id then
          { run with status, aiSessionId := aiSessionId.or run.aiSessionId }
        else run)
    else none

/-! ## Continuations -/

inductive ExecuteStage where
  /-- Awaits `pendingRuns`. -/
  | reading
  /-- Has the status of its run among the pending ones. -/
  | found (status : Option StoryAutomationRunStatus)
  | transitioning
  | dispatching
  /-- Awaits the transition to running. -/
  | starting (aiSessionId : AiSessionId)
  /-- Awaits `publishRun`, with `completionFor` behind it. -/
  | publishing
  /-- Awaits the transition to failed. -/
  | failing
  /-- Awaits a last `publishStatus`. -/
  | returning
  /-- Awaits the promise of a completion entry. -/
  | waiting (entry : Nat)
  | settled
deriving DecidableEq

/-- An execution the runtime has begun. -/
structure Execution where
  automationId : AutomationId
  runId : RunId
  stage : ExecuteStage
deriving DecidableEq

inductive DispatchOutcome where
  | created (aiSessionId : AiSessionId)
  | refused
  /-- The instance could not be reached; the error is retryable. -/
  | unavailable

inductive SkipStage where
  | reading
  | transitioning

structure SkipRun where
  runId : RunId
  stage : SkipStage

inductive StartStage where
  /-- Registers the automations. -/
  | registering
  | resuming (runs : List AutomationRun)

inductive SessionStatus where
  | idle
  | failed
  | other

inductive ReconcileStage where
  | reading
  | next (runs : List AutomationRun)
  | transitioning (run : AutomationRun) (status : StoryAutomationRunStatus)
      (runs : List AutomationRun)
  /-- The run has its last status; its completion is not resolved yet. -/
  | resolving (run : AutomationRun) (runs : List AutomationRun)
  | publishing (runs : List AutomationRun)

structure Reconcile where
  authoritativeInstanceId : Option InstanceId
  stage : ReconcileStage

/-- A `createRun` that has returned and is about to submit its run. -/
structure Submission where
  automationId : AutomationId
  runId : RunId
  policy : SchedulerPolicy

/-- The database, and the scheduler with its continuations. -/
structure StoryScheduler where
  automations : List AutomationId
  runs : List AutomationRun
  nextRun : RunId
  world : Scheduler.World AutomationId RunId
  executions : List Execution
  skips : List SkipRun
  submissions : List Submission
  starts : List StartStage
  reconciles : List Reconcile
  /-- The promise of the entry of a run. -/
  completion : List (RunId × Nat)
  resolved : List (RunId × Nat)
  nextEntry : Nat
  /-- A `start` has read the pending runs, and nothing has stopped the runtime since. -/
  started : Bool

inductive SchedulerAction where
  | createAutomation (id : AutomationId)
  | deleteAutomation (id : AutomationId)
  /-- `createRun` under a new execution key. -/
  | createRun (automationId : AutomationId) (targetInstanceId : InstanceId)
      (policy : SchedulerPolicy)
  /-- `createRun` under the execution key of a run. -/
  | findRun (runId : RunId) (policy : SchedulerPolicy)
  | submit (submission : Nat) (now startedAt : Int)
  | advance (execution : Nat) (outcome : DispatchOutcome)
  /-- The continuation `finish` of an execution. -/
  | settle (execution : Nat) (settlement : Settlement) (now : Int)
  | skip (skip : Nat)
  | start
  | startRead (start : Nat)
  | startNext (start : Nat) (policy : SchedulerPolicy) (now startedAt : Int)
  | stop
  /-- `clearQueued`, from `refresh` or `clearStory`. -/
  | clearQueued (automationId : AutomationId)
  | reconcile (authoritativeInstanceId : Option InstanceId)
  | reconcileNext (reconcile : Nat) (session : Option SessionStatus)
  /-- `trimTerminal` deletes a run. -/
  | trim (runId : RunId)
  /-- The process ends and another one begins. -/
  | restart

namespace StoryScheduler

/-- A new process over the tables. -/
def boot (automations : List AutomationId) (runs : List AutomationRun) (nextRun : RunId) :
    StoryScheduler where
  automations := automations
  runs := runs
  nextRun := nextRun
  world := .init 100
  executions := []
  skips := []
  submissions := []
  starts := []
  reconciles := []
  completion := []
  resolved := []
  nextEntry := 0
  started := false

variable (σ : StoryScheduler)

def run? (id : RunId) : Option AutomationRun :=
  σ.runs.find? fun run => run.id = id

def pendingRuns : List AutomationRun := σ.runs.filter (·.pending)

/-- The executions that stay when the runtime acts. -/
def stayingExecutions : Scheduler.Action AutomationId RunId → List Execution
  | .settle index _ _ => σ.executions.eraseIdx index
  | _ => σ.executions

/-- A call on the runtime; new executions and skips begin. -/
def serve (action : Scheduler.Action AutomationId RunId) : Option StoryScheduler :=
  (σ.world.step action).map fun world =>
    { σ with
      world
      executions := σ.stayingExecutions action ++
        (world.executing.drop (σ.stayingExecutions action).length).map fun entry =>
          ⟨entry.1, entry.2, .reading⟩
      skips := σ.skips ++ (world.skipped.drop σ.world.skipped.length).map fun entry =>
        ⟨entry.1, .reading⟩ }

/-! ## `executeRun` -/

variable (execution : Nat)
variable (x : Execution)

def setStage (stage : ExecuteStage) : StoryScheduler :=
  { σ with executions := σ.executions.set execution { x with stage } }

/-- `completionFor`, and `await` of its promise. -/
def wait : StoryScheduler :=
  match σ.completion.lookup x.runId with
  | some entry => σ.setStage execution x (.waiting entry)
  | none =>
    { σ with
      completion := (x.runId, σ.nextEntry) :: σ.completion
      nextEntry := σ.nextEntry + 1 }.setStage execution x (.waiting σ.nextEntry)

/-- A transition and the stages behind its two ends. -/
def transitionTo (status : StoryAutomationRunStatus) (aiSessionId : Option AiSessionId)
    (done thrown : ExecuteStage) : StoryScheduler :=
  match transition σ.runs x.runId status aiSessionId with
  | some runs => { σ with runs }.setStage execution x done
  | none => σ.setStage execution x thrown

def advance (outcome : DispatchOutcome) : Option StoryScheduler :=
  match x.stage with
  | .reading =>
    let run := σ.pendingRuns.find? fun run => run.id = x.runId
    some (σ.setStage execution x (.found (run.map (·.status))))
  | .found none => some (σ.setStage execution x .settled)
  | .found (some .queued) => some (σ.setStage execution x .transitioning)
  | .found (some .dispatching) => some (σ.setStage execution x .dispatching)
  | .found (some _) => some (σ.wait execution x)
  | .transitioning => some (σ.transitionTo execution x .dispatching none .dispatching .settled)
  | .dispatching =>
    match outcome with
    | .created aiSessionId => some (σ.setStage execution x (.starting aiSessionId))
    | .refused => some (σ.setStage execution x .failing)
    | .unavailable => some (σ.setStage execution x .returning)
  | .starting aiSessionId =>
    some (σ.transitionTo execution x .running (some aiSessionId) .publishing .failing)
  | .publishing => some (σ.wait execution x)
  | .failing => some (σ.transitionTo execution x .failed none .returning .settled)
  | .returning => some (σ.setStage execution x .settled)
  | .waiting entry =>
    if (x.runId, entry) ∈ σ.resolved then some (σ.setStage execution x .settled) else none
  | .settled => none

/-! ## `skipRun`, `start` and `reconcileInstances` -/

def advanceSkip (skip : Nat) (x : SkipRun) : StoryScheduler :=
  match x.stage with
  | .reading =>
    match σ.run? x.runId with
    | some run =>
      if run.status = .queued then
        { σ with skips := σ.skips.set skip { x with stage := .transitioning } }
      else { σ with skips := σ.skips.eraseIdx skip }
    | none => { σ with skips := σ.skips.eraseIdx skip }
  | .transitioning =>
    { σ with
      runs := (transition σ.runs x.runId .skipped none).getD σ.runs
      skips := σ.skips.eraseIdx skip }

/-- `resume` of the next pending run. -/
def advanceStart (start : Nat) (runs : List AutomationRun)
    (policy : SchedulerPolicy) (now startedAt : Int) : Option StoryScheduler :=
  match runs with
  | [] => some { σ with starts := σ.starts.eraseIdx start }
  | run :: runs =>
    let σ := { σ with starts := σ.starts.set start (.resuming runs) }
    if run.automationId ∈ σ.automations then
      σ.serve (.submit run.automationId run.id policy now startedAt)
    else some σ

def setReconcile (reconcile : Nat) (x : Reconcile) (stage : ReconcileStage) : StoryScheduler :=
  { σ with reconciles := σ.reconciles.set reconcile { x with stage } }

/-- The status a reconcile gives a run for the session it sees, `none` when it goes on. -/
def reconciled (authoritativeInstanceId : Option InstanceId) (run : AutomationRun)
    (session : Option SessionStatus) : Option StoryAutomationRunStatus :=
  if authoritativeInstanceId.any (fun id => id ≠ "" && id ≠ run.targetInstanceId) then none
  else
    match session with
    | none => if authoritativeInstanceId = some run.targetInstanceId then some .completed else none
    | some .idle => some .completed
    | some .failed => some .failed
    | some .other => none

def resolveCompletion (runId : RunId) : StoryScheduler :=
  { σ with
    completion := σ.completion.filter fun entry => entry.1 ≠ runId
    resolved := σ.completion.filter (fun entry => entry.1 = runId) ++ σ.resolved }

def advanceReconcile (reconcile : Nat) (x : Reconcile)
    (session : Option SessionStatus) : StoryScheduler :=
  match x.stage with
  | .reading =>
    let runs := σ.pendingRuns.filter fun run =>
      run.status = .running && run.aiSessionId.any (· ≠ "")
    σ.setReconcile reconcile x (.next runs)
  | .next [] => { σ with reconciles := σ.reconciles.eraseIdx reconcile }
  | .next (run :: runs) =>
    match reconciled x.authoritativeInstanceId run session with
    | some status => σ.setReconcile reconcile x (.transitioning run status runs)
    | none => σ.setReconcile reconcile x (.next runs)
  | .transitioning run status runs =>
    match transition σ.runs run.id status none with
    | some stored => { σ with runs := stored }.setReconcile reconcile x (.resolving run runs)
    | none => { σ with reconciles := σ.reconciles.eraseIdx reconcile }
  | .resolving run runs => (σ.resolveCompletion run.id).setReconcile reconcile x (.publishing runs)
  | .publishing runs => σ.setReconcile reconcile x (.next runs)

/-! ## The machine -/

def step : SchedulerAction → Option StoryScheduler
  | .createAutomation id =>
    if id ∈ σ.automations then none else some { σ with automations := σ.automations ++ [id] }
  | .deleteAutomation id =>
    if σ.runs.any fun run => run.automationId = id && run.pending then none
    else
      some { σ with
        automations := σ.automations.filter (· ≠ id)
        runs := σ.runs.filter fun run => run.automationId ≠ id }
  | .createRun automationId targetInstanceId policy =>
    if automationId ∈ σ.automations then
      some { σ with
        runs := σ.runs ++ [⟨σ.nextRun, automationId, targetInstanceId, .queued, none⟩]
        nextRun := σ.nextRun + 1
        submissions := σ.submissions ++ [⟨automationId, σ.nextRun, policy⟩] }
    else none
  | .findRun runId policy =>
    (σ.run? runId).map fun run =>
      { σ with submissions := σ.submissions ++ [⟨run.automationId, runId, policy⟩] }
  | .submit submission now startedAt =>
    (σ.submissions[submission]?).bind fun x =>
      { σ with submissions := σ.submissions.eraseIdx submission }.serve
        (.submit x.automationId x.runId x.policy now startedAt)
  | .advance execution outcome =>
    (σ.executions[execution]?).bind fun x => σ.advance execution x outcome
  | .settle execution settlement now =>
    (σ.executions[execution]?).bind fun x =>
      if x.stage = .settled then σ.serve (.settle execution settlement now) else none
  | .skip skip => (σ.skips[skip]?).map fun x => σ.advanceSkip skip x
  | .start =>
    ((σ.serve .stop).bind fun σ => σ.serve .start).map fun σ =>
      { σ with starts := σ.starts ++ [.registering], started := false }
  | .startRead start =>
    match σ.starts[start]? with
    | some .registering =>
      some { σ with starts := σ.starts.set start (.resuming σ.pendingRuns), started := true }
    | _ => none
  | .startNext start policy now startedAt =>
    match σ.starts[start]? with
    | some (.resuming runs) => σ.advanceStart start runs policy now startedAt
    | _ => none
  | .stop => (σ.serve .stop).map fun σ => { σ with started := false }
  | .clearQueued automationId => σ.serve (.clearQueued automationId .jobDisabled)
  | .reconcile authoritativeInstanceId =>
    some { σ with reconciles := σ.reconciles ++ [⟨authoritativeInstanceId, .reading⟩] }
  | .reconcileNext reconcile session =>
    (σ.reconciles[reconcile]?).map fun x => σ.advanceReconcile reconcile x session
  | .trim runId =>
    if (σ.run? runId).any (·.pending) then none
    else some { σ with runs := σ.runs.filter fun run => run.id ≠ runId }
  | .restart => some (boot σ.automations σ.runs σ.nextRun)

end StoryScheduler

end TaskHandoff.Stories
