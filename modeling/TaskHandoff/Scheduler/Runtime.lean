import TaskHandoff.Lib.Machine
import TaskHandoff.Lib.OrderedMap

/-! # The scheduler execution runtime

`SchedulerExecutionRuntime` decides for each submitted event of a job whether it
starts, waits or is skipped. Its methods are translated one by one; a method
returns the runtime it leaves and the calls it made on its adapter. Timers only
call back into `submit` and are left out.
-/

namespace TaskHandoff.Scheduler

inductive WhenBusy where
  | skip
  | queue

/-- The concurrency policy of a job. Every schema that admits a policy requires
at least one run, and the agent run coordinator passes frozen budgets of that
kind, so a policy without a run cannot be built. -/
structure SchedulerPolicy where
  cooldownMs : Option Nat
  maxConcurrentRuns : Nat
  whenBusy : WhenBusy
  maxConcurrentRuns_pos : 0 < maxConcurrentRuns

inductive SchedulerSkipReason where
  | cooldown
  | busy
  | queueFull
  | schedulerStopped
  | jobDisabled
deriving DecidableEq

structure QueuedEvent (ε : Type) where
  event : ε
  policy : SchedulerPolicy

/-- A call on the adapter. The adapter receives the event alone; key and policy
label the execution, as the closure `finish` that waits for it does. -/
inductive AdapterCall (κ ε : Type) where
  | execute (key : κ) (policy : SchedulerPolicy) (event : ε)
  | skipped (event : ε) (reason : SchedulerSkipReason)

inductive SubmitResult where
  | skipped
  | queued
  | started

structure SchedulerExecutionRuntime (κ ε : Type) [DecidableEq κ] where
  running : OrderedMap κ Nat
  queued : OrderedMap κ (List (QueuedEvent ε))
  lastStartedAt : OrderedMap κ Int
  accepting : Bool
  maxQueuedPerJob : Nat

namespace SchedulerExecutionRuntime

variable {κ ε : Type} [DecidableEq κ]

def new (maxQueuedPerJob : Nat) : SchedulerExecutionRuntime κ ε where
  running := OrderedMap.empty
  queued := OrderedMap.empty
  lastStartedAt := OrderedMap.empty
  accepting := true
  maxQueuedPerJob := maxQueuedPerJob

variable (r : SchedulerExecutionRuntime κ ε)
variable (key : κ)

def runningCount : Nat :=
  (r.running.get? key).getD 0

def queueOf : List (QueuedEvent ε) :=
  (r.queued.get? key).getD []

def start : SchedulerExecutionRuntime κ ε :=
  { r with accepting := true }

/-- `execute` runs synchronously up to its first suspension, after both maps
are written; a call it makes on the runtime is a later action of the run. -/
def begin (event : ε) (policy : SchedulerPolicy)
    (now : Int) : SchedulerExecutionRuntime κ ε × List (AdapterCall κ ε) :=
  ({ r with
      running := r.running.set key (r.runningCount key + 1)
      lastStartedAt := r.lastStartedAt.set key now },
    [.execute key policy event])

/-- The queue of `key` after its head was shifted out; an empty one is deleted. -/
def dequeue (rest : List (QueuedEvent ε)) : SchedulerExecutionRuntime κ ε :=
  { r with queued := if rest.isEmpty then r.queued.erase key else r.queued.set key rest }

def drain (now : Int) : SchedulerExecutionRuntime κ ε × List (AdapterCall κ ε) :=
  if r.accepting then
    match r.queueOf key with
    | [] => (r, [])
    | next :: rest =>
      if next.policy.maxConcurrentRuns ≤ r.runningCount key then (r, [])
      else (r.dequeue key rest).begin key next.event next.policy now
  else (r, [])

/-- The counter update at the start of `finish`. -/
def release : SchedulerExecutionRuntime κ ε :=
  let remaining := (r.running.get? key).getD 1 - 1
  { r with running := if 0 < remaining then r.running.set key remaining else r.running.erase key }

/-- The continuation of an execution of `key`, fulfilled or rejected. -/
def finish (now : Int) : SchedulerExecutionRuntime κ ε × List (AdapterCall κ ε) :=
  (r.release key).drain key now

/-- `cooldownMs` of zero is falsy and asks for no cooldown. -/
def coolingDown (policy : SchedulerPolicy) (now : Int) : Bool :=
  match policy.cooldownMs, r.lastStartedAt.get? key with
  | some cooldown, some last => cooldown ≠ 0 && decide (now - last < cooldown)
  | _, _ => false

def submit (event : ε) (policy : SchedulerPolicy) (now startedAt : Int) :
    SubmitResult × SchedulerExecutionRuntime κ ε × List (AdapterCall κ ε) :=
  if r.accepting = false then (.skipped, r, [.skipped event .schedulerStopped])
  else if r.coolingDown key policy now then (.skipped, r, [.skipped event .cooldown])
  else if policy.maxConcurrentRuns ≤ r.runningCount key then
    match policy.whenBusy with
    | .skip => (.skipped, r, [.skipped event .busy])
    | .queue =>
      if r.maxQueuedPerJob ≤ (r.queueOf key).length then
        (.skipped, r, [.skipped event .queueFull])
      else
        (.queued, { r with queued := r.queued.set key (r.queueOf key ++ [⟨event, policy⟩]) }, [])
  else (.started, begin r key event policy startedAt)

def clearQueued (reason : SchedulerSkipReason) :
    SchedulerExecutionRuntime κ ε × List (AdapterCall κ ε) :=
  ({ r with queued := r.queued.erase key },
    (r.queueOf key).map fun entry => .skipped entry.event reason)

def stop : SchedulerExecutionRuntime κ ε × List (AdapterCall κ ε) :=
  ({ r with accepting := false, queued := OrderedMap.empty },
    r.queued.values.flatten.map fun entry => .skipped entry.event .schedulerStopped)

end SchedulerExecutionRuntime

/-! ## The runtime in its environment -/

/-- How the promise of an execution settles; `finish` handles both alike. -/
inductive Settlement where
  | fulfilled
  | rejected

inductive Action (κ ε : Type) where
  | start
  | stop
  | submit (key : κ) (event : ε) (policy : SchedulerPolicy) (now startedAt : Int)
  | clearQueued (key : κ) (reason : SchedulerSkipReason)
  | settle (index : Nat) (settlement : Settlement) (now : Int)

/-- The runtime with the executions in flight and what has happened so far.
`submitted`, `started`, `enqueued` and `drained` only record; no step reads them. -/
structure World (κ ε : Type) [DecidableEq κ] where
  runtime : SchedulerExecutionRuntime κ ε
  executing : List (κ × ε) := []
  finished : List (κ × ε) := []
  skipped : List (ε × SchedulerSkipReason) := []
  submitted : List (κ × SchedulerPolicy × ε) := []
  started : List (κ × SchedulerPolicy × ε) := []
  enqueued : List (κ × ε) := []
  drained : List (κ × ε) := []

namespace World

variable {κ ε : Type} [DecidableEq κ]

def init (maxQueuedPerJob : Nat) : World κ ε where
  runtime := .new maxQueuedPerJob

/-- The adapter's side of one call. -/
def observe (w : World κ ε) : AdapterCall κ ε → World κ ε
  | .execute key policy event =>
    { w with
      executing := w.executing ++ [(key, event)]
      started := w.started ++ [(key, policy, event)] }
  | .skipped event reason => { w with skipped := w.skipped ++ [(event, reason)] }

def apply (w : World κ ε) (r : SchedulerExecutionRuntime κ ε × List (AdapterCall κ ε)) :
    World κ ε :=
  r.2.foldl observe { w with runtime := r.1 }

def executed : AdapterCall κ ε → Option (κ × ε)
  | .execute key _ event => some (key, event)
  | .skipped _ _ => none

def step (w : World κ ε) : Action κ ε → Option (World κ ε)
  | .start => some { w with runtime := w.runtime.start }
  | .stop => some (w.apply w.runtime.stop)
  | .submit key event policy now startedAt =>
    let (answer, result) := w.runtime.submit key event policy now startedAt
    let w := { w with submitted := w.submitted ++ [(key, policy, event)] }
    match answer with
    | .queued => some (apply { w with enqueued := w.enqueued ++ [(key, event)] } result)
    | .started => some (w.apply result)
    | .skipped => some (w.apply result)
  | .clearQueued key reason => some (w.apply (w.runtime.clearQueued key reason))
  | .settle index _ now =>
    match w.executing[index]? with
    | none => none
    | some (key, event) =>
      let result := w.runtime.finish key now
      some (apply { w with
        executing := w.executing.eraseIdx index
        finished := w.finished ++ [(key, event)]
        drained := w.drained ++ result.2.filterMap executed } result)

end World

end TaskHandoff.Scheduler
