import Mathlib.Algebra.Group.Int.Defs
import Mathlib.Algebra.GroupWithZero.Nat
import Mathlib.Logic.Function.Basic
import TaskHandoff.Lib.Machine

/-! # The trigger scheduler of a workspace

`Scheduler` is shared by many tasks. Its flag is atomic and its tables have a lock each. A call goes
from one section under a lock, or access to the flag, to the next. `finish` keeps the lock of the
queues from its look at the queue to its end, so it moves to a slot of its own there. The tables
hold a default for the keys they do not have, and what `stop` drains is kept queue by queue. -/

namespace TaskHandoff.Triggers

def MAX_QUEUED_PER_TRIGGER : Nat := 100

inductive TriggerWhenBusy
  | skip
  | queue
deriving DecidableEq

/-- The store admits a policy of 1 to 20 runs only. -/
structure TriggerPolicy where
  cooldownMs : Option Nat
  maxConcurrentRuns : Nat
  whenBusy : TriggerWhenBusy
  maxConcurrentRuns_pos : 0 < maxConcurrentRuns

instance : DecidableEq TriggerPolicy := fun a b =>
  decidable_of_iff (a.cooldownMs = b.cooldownMs ∧ a.maxConcurrentRuns = b.maxConcurrentRuns ∧
    a.whenBusy = b.whenBusy) (by cases a; cases b; simp)

inductive SchedulerSkipReason
  | cooldown
  | busy
  | queueFull
  | schedulerStopped
  | jobDisabled

inductive SubmitDecision
  | started
  | queued
  | skipped (reason : SchedulerSkipReason)

structure QueuedExecution (ε : Type) where
  key : String
  event : ε
  policy : TriggerPolicy
deriving DecidableEq

/-- A call at its next section, without the lock of the queues. `submitBegin` keeps the count that
was read. -/
inductive Call (ε : Type)
  | submitLoad (key : String) (event : ε)
  | submitCooldown (key : String) (event : ε)
  | submitRunning (key : String) (event : ε)
  | submitQueue (key : String) (event : ε)
  | submitBegin (key : String) (event : ε) (running : Nat)
  | submitStamp (key : String) (event : ε)
  | finishRunning (key : String)
  | finishLoad (key : String)
  | finishFront (key : String)
  | stopStore
  | stopDrain
  | startStore
deriving DecidableEq

/-- A `finish` that holds the lock of the queues, at its next section. -/
inductive Holder (ε : Type)
  | check (key : String) (next : QueuedExecution ε)
  | begin (key : String) (next : QueuedExecution ε) (running : Nat)
  | stamp (key : String) (next : QueuedExecution ε)

inductive Result (ε : Type)
  | submitted (key : String) (event : ε) (decision : SubmitDecision)
  | finished (key : String) (next : Option (QueuedExecution ε))
  | stopped (skipped : String → List (QueuedExecution ε))
  | started

/-- The scheduler with the calls in progress. `results` is what calls returned; no step reads it. -/
structure Scheduler (ε : Type) where
  accepting : Bool := true
  running : String → Nat := fun _ => 0
  queued : String → List (QueuedExecution ε) := fun _ => []
  lastStartedAt : String → Option Int := fun _ => none
  calls : List (Call ε) := []
  holder : Option (Holder ε) := none
  results : List (Result ε) := []

inductive Action (ε : Type)
  | submit (key : String) (event : ε)
  | finish (key : String)
  | stop
  | start
  | advance (call : Nat) (now : Int)
  | proceed (now : Int)

/-- `value as i64` of a `u64`. -/
def asI64 (value : Nat) : Int := if value < 2 ^ 63 then value else value - 2 ^ 64

/-- Both times are in the range of `i64` and not negative, so their difference does not saturate. -/
def coolingDown (policy : TriggerPolicy) (lastStartedAt : Option Int) (now : Int) : Bool :=
  policy.cooldownMs.any fun cooldown => lastStartedAt.any fun last => now - last < asI64 cooldown

namespace Scheduler

variable {ε : Type}
variable (σ : Scheduler ε)

def enter (call : Call ε) : Scheduler ε := { σ with calls := σ.calls ++ [call] }

def goOn (i : Nat) (call : Call ε) : Scheduler ε :=
  { σ with calls := σ.calls.set i call }

def leave (i : Nat) (result : Result ε) : Scheduler ε :=
  { σ with calls := σ.calls.eraseIdx i, results := σ.results ++ [result] }

/-- The first half of `begin`. -/
def count (key : String) : Scheduler ε :=
  { σ with running := Function.update σ.running key (σ.running key + 1) }

/-- Its second half. -/
def stamp (key : String) (now : Int) : Scheduler ε :=
  { σ with lastStartedAt := Function.update σ.lastStartedAt key (some now) }

/-- The next section of a call, with one policy for each key. -/
def advance (policies : String → TriggerPolicy) (σ : Scheduler ε) (i : Nat) (now : Int) :
    Call ε → Option (Scheduler ε)
  | .submitLoad key event =>
    if σ.accepting then some (σ.goOn i (.submitCooldown key event))
    else some (σ.leave i (.submitted key event (.skipped .schedulerStopped)))
  | .submitCooldown key event =>
    if coolingDown (policies key) (σ.lastStartedAt key) now then
      some (σ.leave i (.submitted key event (.skipped .cooldown)))
    else some (σ.goOn i (.submitRunning key event))
  | .submitRunning key event =>
    if (policies key).maxConcurrentRuns ≤ σ.running key then
      if (policies key).whenBusy = .skip then
        some (σ.leave i (.submitted key event (.skipped .busy)))
      else some (σ.goOn i (.submitQueue key event))
    else some (σ.goOn i (.submitBegin key event (σ.running key)))
  | .submitQueue key event =>
    if σ.holder.isSome then none
    else if MAX_QUEUED_PER_TRIGGER ≤ (σ.queued key).length then
      some (σ.leave i (.submitted key event (.skipped .queueFull)))
    else
      some (({ σ with
        queued := Function.update σ.queued key
          (σ.queued key ++ [⟨key, event, policies key⟩]) } : Scheduler ε).leave i
            (.submitted key event .queued))
  | .submitBegin key event _ => some ((σ.count key).goOn i (.submitStamp key event))
  | .submitStamp key event => some ((σ.stamp key now).leave i (.submitted key event .started))
  | .finishRunning key =>
    some (({ σ with
      running := Function.update σ.running key (σ.running key - 1) } : Scheduler ε).goOn i
        (.finishLoad key))
  | .finishLoad key =>
    if σ.accepting then some (σ.goOn i (.finishFront key))
    else some (σ.leave i (.finished key none))
  | .finishFront key =>
    if σ.holder.isSome then none
    else
      match σ.queued key with
      | [] => some (σ.leave i (.finished key none))
      | next :: _ => some { σ with calls := σ.calls.eraseIdx i, holder := some (.check key next) }
  | .stopStore => some (({ σ with accepting := false } : Scheduler ε).goOn i .stopDrain)
  | .stopDrain =>
    if σ.holder.isSome then none
    else some (({ σ with queued := fun _ => [] } : Scheduler ε).leave i (.stopped σ.queued))
  | .startStore => some (({ σ with accepting := true } : Scheduler ε).leave i .started)

/-- The next section of the `finish` that holds the lock of the queues. -/
def proceed (now : Int) : Holder ε → Scheduler ε
  | .check key next =>
    if next.policy.maxConcurrentRuns ≤ σ.running key then
      { σ with holder := none, results := σ.results ++ [.finished key none] }
    else
      { σ with
        queued := Function.update σ.queued key (σ.queued key).tail
        holder := some (.begin key next (σ.running key)) }
  | .begin key next _ => { σ.count key with holder := some (.stamp key next) }
  | .stamp key next =>
    { σ.stamp key now with
      holder := none
      results := σ.results ++ [.finished key (some next)] }

def step (policies : String → TriggerPolicy) (σ : Scheduler ε) : Action ε → Option (Scheduler ε)
  | .submit key event => some (σ.enter (.submitLoad key event))
  | .finish key => some (σ.enter (.finishRunning key))
  | .stop => some (σ.enter .stopStore)
  | .start => some (σ.enter .startStore)
  | .advance call now => (σ.calls[call]?).bind fun entered => σ.advance policies call now entered
  | .proceed now => σ.holder.map fun holder => σ.proceed now holder

end Scheduler

end TaskHandoff.Triggers
