import TaskHandoff.Scheduler.Runtime
import TaskHandoff.AgentRuns.Records

/-! # Executing the members of a run

`executeMember` prepares a member, polls its session and finalizes it. It runs from one `await` to
the next without interruption, so an execution is kept as the `await` it is suspended at. -/

namespace TaskHandoff.AgentRuns

open Scheduler

/-! ## Executions -/

/-- The arguments of `finalizeMember`. -/
structure Cleanup where
  memberId : MemberId
  instanceId : Option String
  sessionCreated : Bool
  providerThreadResourceId : Option Nat
  workspace : Bool
  result : Option AgentRunResult
  error : Option AgentRunError
deriving DecidableEq

/-- Where a finalization is suspended. -/
inductive CleanupAwait where
  | closing
  | disposing
deriving DecidableEq

/-- What the instance reports of a session. -/
inductive SessionStatus where
  | running
  | completed (result : AgentRunResult)
  | failed (error : AgentRunError)
deriving DecidableEq

/-- Where an execution is suspended. One that rejected stays among the controllers. -/
inductive Phase where
  | ensuring
  | ensured (failure : Option AgentRunError)
  | materializing
  | creating
  | asking
  | measuring (answer : SessionStatus)
  | measured (answer : SessionStatus) (failure : Option AgentRunError)
  | sleeping
  | finalizing (at_ : CleanupAwait)
  | finished
  | rejected
deriving DecidableEq

structure Execution where
  aborted : Bool
  runtimeId : String
  generationId : Nat
  cleanup : Cleanup
  phase : Phase

/-- A run as `reconcile` has listed it. -/
structure Listing where
  status : AgentRunStatus
  rootStatus : AgentRunStatus

/-- Where the recovery of an interrupted run is suspended. -/
inductive RecoveryAwait where
  | closing (resourceId : Nat) (rest : List AgentRunResourceRecord)
  | reconciling

structure Recovery where
  instanceIds : List String
  at_ : RecoveryAwait

/-- A run with what the process of the node agent keeps of it. The scheduler is the part of the
member scheduler that has the key of the run; `submitted` counts the events of the root that wait in
the run scheduler, and `settled` the executions whose slot is not released yet. `executed` and
`created` only record; no step reads them. -/
structure AgentRunState where
  rows : Rows
  managed : Bool := false
  submitted : Nat := 0
  scheduler : SchedulerExecutionRuntime Unit MemberId := .new 100
  settled : Nat := 0
  controllers : OrderedMap MemberId Execution := .empty
  cleanupRetryTimers : List MemberId := []
  timers : List Cleanup := []
  retries : List (Cleanup × CleanupAwait) := []
  listings : List Listing := []
  recoveries : List Recovery := []
  expiryListings : List (AgentRunSharedSpaceRecord × Nat) := []
  removals : List Nat := []
  executed : List (MemberId × AgentRunStatus) := []
  created : List MemberId := []

namespace AgentRunState

variable (s : AgentRunState)

def rootMemberId : MemberId := s.rows.rootMemberId

/-- The flag of the coordinator. It stops together with its schedulers. -/
abbrev accepting : Bool := s.scheduler.accepting

/-! ## Finalizing -/

def sharedSpaceTtlMs : Nat := 7 * 24 * 60 * 60 * 1000

variable (rows : Rows)

def retain (now : Nat) : Except AgentRunError Rows :=
  rows.updateSharedSpace fun space =>
    { space with state := .retained, expiresAt := some (now + sharedSpaceTtlMs) }

inductive Finalized where
  | awaiting (at_ : CleanupAwait)
  | done
  | threw

variable (c : Cleanup)

def scheduleCleanupRetry : AgentRunState :=
  if !s.accepting then s
  else if s.cleanupRetryTimers.contains c.memberId then s
  else
    { s with
      cleanupRetryTimers := s.cleanupRetryTimers ++ [c.memberId]
      timers := s.timers ++ [c] }

def cleanupAttempts : Nat := rows.cleanup.elim 0 (·.attempts)

def retrying (attempts : Nat) (cause : AgentRunError) : AgentRunCleanupDiagnostic :=
  ⟨.retrying, attempts, some cause.message⟩

/-- The run is brought to finalizing, unless it is there. -/
def finalizeRun : Except AgentRunError Rows :=
  if rows.status = .finalizing then .ok rows else rows.transitionRun { status := .finalizing }

/-- The status a finalization ends with. -/
def finalStatus (cancelled : Bool) : AgentRunStatus :=
  if c.error.isSome then if cancelled then .cancelled else .failed else .completed

/-- The end of the run, behind that of its root member. -/
def concludeRun (status : AgentRunStatus) (now : Nat) : AgentRunState × Finalized :=
  let attempts := cleanupAttempts s.rows + 1
  match finalizeRun s.rows with
  | .error _ => (s, .threw)
  | .ok rows =>
    match retain rows now with
    | .error cause =>
      match rows.transitionRun
          { status := .finalizing, cleanup := some (some (retrying attempts cause)) } with
      | .error _ => ({ s with rows }, .threw)
      | .ok rows =>
        (scheduleCleanupRetry { s with rows }
          { c with
            sessionCreated := false
            providerThreadResourceId := none
            workspace := false }, .done)
    | .ok rows =>
      match rows.transitionRun
          { status
            result := if status = .completed then some c.result else none
            error := if status = .completed then none else some c.error
            cleanup := some (some ⟨.completed, attempts, none⟩) } with
      | .error _ => ({ s with rows }, .threw)
      | .ok rows => ({ s with rows, managed := false }, .done)

/-- A cleanup failed; the member stays in finalizing and a retry is scheduled. -/
def cleanupFailed (cause : AgentRunError) : AgentRunState × Finalized :=
  match s.rows.transitionMember c.memberId
      { status := .finalizing, result := c.result.map some, error := c.error.map some } with
  | .error _ => (s, .threw)
  | .ok rows =>
    if c.memberId = rows.rootMemberId then
      match finalizeRun rows with
      | .error _ => ({ s with rows }, .threw)
      | .ok finalizing =>
        let attempts := cleanupAttempts rows + 1
        match finalizing.transitionRun
            { status := .finalizing, cleanup := some (some (retrying attempts cause)) } with
        | .error _ => ({ s with rows := finalizing }, .threw)
        | .ok rows => (scheduleCleanupRetry { s with rows := rows.appendTimeline } c, .done)
    else (scheduleCleanupRetry { s with rows } c, .done)

def isCancelled : Bool :=
  s.rows.status = .finalizing && c.error.any (·.code = "AGENT_RUN_CANCELLED")

/-- How the member is written at its end. -/
def endTransition (status : AgentRunStatus) : Rows.AgentRunMemberTransition where
  status := status
  result := if status = .completed then some c.result else none
  error := if status = .completed then none else some c.error

/-- The end of the member, behind a cleanup that succeeded. -/
def concludeMember (memberAlreadyTerminal : Bool) (now : Nat) : AgentRunState × Finalized :=
  let status := finalStatus c (s.isCancelled c)
  let ended :=
    if memberAlreadyTerminal then .ok s.rows
    else (s.rows.transitionMember c.memberId (endTransition c status)).map Rows.appendTimeline
  match ended with
  | .error _ => (s, .threw)
  | .ok rows =>
    if c.memberId = rows.rootMemberId then concludeRun { s with rows } c status now
    else ({ s with rows }, .done)

/-- The thread of a session, where it has one, moves to another phase. -/
def transitionThread (phase : AgentRunResourcePhase) (increment : Bool := false) : AgentRunState :=
  match c.providerThreadResourceId with
  | none => s
  | some resourceId => { s with rows := s.rows.transition resourceId phase increment }

def disposeWorkspace (now : Nat) : AgentRunState × Finalized :=
  if c.workspace then (s, .awaiting .disposing) else s.concludeMember c false now

def closeSession (now : Nat) : AgentRunState × Finalized :=
  if c.sessionCreated ∧ c.instanceId.isSome then
    (s.transitionThread c .deleting, .awaiting .closing)
  else s.disposeWorkspace c now

/-- The start of a finalization, up to its first `await`. -/
def finalizeMember (now : Nat) : AgentRunState × Finalized :=
  let s := { s with cleanupRetryTimers := s.cleanupRetryTimers.filter (· ≠ c.memberId) }
  match s.rows.members.get? c.memberId with
  | none => (s, .threw)
  | some member =>
    if member.status.terminal then s.concludeMember c true now
    else if member.status = .finalizing then s.closeSession c now
    else
      match s.rows.transitionMember c.memberId { status := .finalizing } with
      | .error cause => s.cleanupFailed c cause
      | .ok rows => closeSession { s with rows } c now

/-- A finalization behind the `await` it was suspended at. -/
def resumeCleanup (now : Nat) : CleanupAwait → Option AgentRunError → AgentRunState × Finalized
  | .closing, none => (s.transitionThread c .deleted).disposeWorkspace c now
  | .closing, some cause => (s.transitionThread c .deleteRetrying true).cleanupFailed c cause
  | .disposing, none => s.concludeMember c false now
  | .disposing, some cause => s.cleanupFailed c cause

/-! ## Preparing -/

variable (memberId : MemberId)
variable (x : Execution)

def setExecution : AgentRunState :=
  { s with controllers := s.controllers.set memberId x }

/-- The execution with what its finalization has come to. -/
def afterFinalize (r : AgentRunState × Finalized) : AgentRunState :=
  match r.2 with
  | .awaiting a => r.1.setExecution memberId { x with phase := .finalizing a }
  | .done => r.1.setExecution memberId { x with phase := .finished }
  | .threw =>
    let s := r.1.setExecution memberId { x with phase := .rejected }
    { s with settled := s.settled + 1 }

/-- The loop or the preparation of a member ends, and its finalization starts. -/
def endWith (x : Execution)
    (result : Option AgentRunResult) (error : Option AgentRunError) (now : Nat) : AgentRunState :=
  let x := { x with cleanup := { x.cleanup with result, error } }
  afterFinalize memberId x (s.finalizeMember x.cleanup now)

def cancelledBeforeStart : AgentRunError where
  code := "AGENT_RUN_CANCELLED"
  message := "The Agent Run was cancelled before the member started."
  retryable := false

def memberCancelled : AgentRunError where
  code := "AGENT_RUN_CANCELLED"
  message := "The Agent Run member was cancelled."
  retryable := false

def memberInputMissing : AgentRunError where
  code := "AGENT_RUN_MEMBER_INPUT_MISSING"
  message := "The Agent Run member has no frozen input."
  retryable := false

def runtimeQuotaExceeded : AgentRunError where
  code := "AGENT_RUN_SHARED_RUNTIME_QUOTA_EXCEEDED"
  message := "The Agent Run runtime shared-space quota is exhausted."
  retryable := false

def runQuotaExceeded : AgentRunError where
  code := "AGENT_RUN_SHARED_RUN_QUOTA_EXCEEDED"
  message := "The Agent Run shared-space quota is exhausted."
  retryable := false

def runtimeMismatch : AgentRunError where
  code := "AGENT_RUN_SHARED_RUNTIME_MISMATCH"
  message := "The member runtime cannot access this Agent Run shared space."
  retryable := false

def prepareFailed : AgentRunError where
  code := "AGENT_RUN_SHARED_SPACE_PREPARE_FAILED"
  message := "Could not prepare the Agent Run shared space."
  retryable := false

def runQuotaBytes : Nat := 1024 * 1024 * 1024

def runtimeQuotaBytes : Nat := 10 * 1024 * 1024 * 1024

/-- The instance, its runtime and the folder that a member is to run in. -/
structure Target where
  instanceId : String
  runtimeId : String

/-- What a member that starts finds: its target, or the error of the first lookup that fails, the
usage of the other runs of the runtime, and the materializer or the error of looking it up. -/
structure Surroundings where
  target : Except AgentRunError Target
  otherUsage : Nat
  materializer : Except AgentRunError Unit
  now : Nat

def bindingForMember (runtimeId : String) : Except AgentRunError Unit :=
  match rows.sharedSpace with
  | none => .error Rows.sharedSpaceNotFound
  | some space => if space.runtimeId = runtimeId then .ok () else .error runtimeMismatch

def materialize (materializer : Except AgentRunError Unit) (now : Nat) : AgentRunState :=
  match bindingForMember s.rows x.runtimeId with
  | .error e => s.endWith memberId x none (some e) now
  | .ok _ =>
    match materializer with
    | .error e => s.endWith memberId x none (some e) now
    | .ok _ => s.setExecution memberId { x with phase := .materializing }

/-- The shared space of the run, up to the call of the backend. -/
def ensure (otherUsage : Nat) : AgentRunState :=
  if runtimeQuotaBytes ≤ otherUsage then
    s.setExecution memberId { x with phase := .ensured (some runtimeQuotaExceeded) }
  else
    match s.rows.ensureSharedSpace x.runtimeId x.generationId runQuotaBytes with
    | .error e => s.setExecution memberId { x with phase := .ensured (some e) }
    | .ok rows => setExecution { s with rows } memberId { x with phase := .ensuring }

def prepareMember (env : Surroundings) : AgentRunState :=
  match env.target with
  | .error e => s.endWith memberId x none (some e) env.now
  | .ok target =>
    let x := { x with
      runtimeId := target.runtimeId
      generationId := s.rows.nextId
      cleanup := { x.cleanup with instanceId := some target.instanceId } }
    let s := { s with rows := { s.rows with nextId := s.rows.nextId + 1 } }
    if memberId = s.rows.rootMemberId then s.ensure memberId x env.otherUsage
    else s.materialize memberId x env.materializer env.now

def newExecution : Execution where
  aborted := false
  runtimeId := ""
  generationId := 0
  cleanup := ⟨memberId, none, false, none, false, none, none⟩
  phase := .ensuring

/-- The run starts to prepare with its root. -/
def startRun : Except AgentRunError Rows :=
  if memberId = s.rows.rootMemberId then s.rows.transitionRun { status := .preparing }
  else .ok s.rows

/-- An execution up to its first `await`. A member that has a controller is not executed. -/
def executeMember (env : Surroundings) : AgentRunState :=
  if (s.controllers.get? memberId).isSome then { s with settled := s.settled + 1 }
  else
    let x := newExecution memberId
    if s.rows.status = .finalizing then
      s.endWith memberId x none (some cancelledBeforeStart) env.now
    else
      match s.startRun memberId with
      | .error e => s.endWith memberId x none (some e) env.now
      | .ok rows =>
        match rows.transitionMember memberId { status := .preparing } with
        | .error e => endWith { s with rows } memberId x none (some e) env.now
        | .ok prepared =>
          prepareMember
            { s with
              rows := prepared.appendTimeline
              executed := s.executed ++ [(memberId, s.rows.status)] }
            memberId x env

/-! ## Behind an `await` -/

structure CreatedSession where
  aiSessionId : String
  providerSessionId : String
deriving DecidableEq

/-- How an `await` of an execution settles, with what the code reads next. -/
inductive Settlement where
  | ensureRunDirectory (failure : Option AgentRunError)
  | ensure (materializer : Except AgentRunError Unit)
  | prepare (failure : Option AgentRunError) (tools : Except AgentRunError Unit)
  | create (session : Except AgentRunError CreatedSession)
  | status (answer : Except AgentRunError SessionStatus)
  | inspect (usageBytes : Except AgentRunError Nat) (otherUsage : Nat)
  | refreshUsage
  | timer
  | cleanup (failure : Option AgentRunError)
  | done
deriving DecidableEq

/-- The run directory is there or could not be made. -/
def ensureRunDirectory (failure : Option AgentRunError) : AgentRunState :=
  let failed (rows : Rows) : AgentRunState :=
    match rows.updateSharedSpace fun space => { space with state := .deleteRetrying } with
    | .error e => setExecution { s with rows } memberId { x with phase := .ensured (some e) }
    | .ok rows =>
      setExecution { s with rows } memberId { x with phase := .ensured (some prepareFailed) }
  match failure with
  | some _ => failed s.rows
  | none =>
    match s.rows.updateSharedSpace fun space => { space with state := .active } with
    | .error _ => failed s.rows
    | .ok rows =>
      match rows.register
          { memberId := none
            instanceId := x.cleanup.instanceId
            runtimeId := x.runtimeId
            kind := .sharedSpaceDirectory
            generationId := x.generationId
            backendIdentity := "shared" } with
      | .error _ => failed rows
      | .ok registered =>
        setExecution { s with rows := registered.1 } memberId { x with phase := .ensured none }

/-- The workspace is there; the session is created. -/
def createSession (tools : Except AgentRunError Unit) (now : Nat) : AgentRunState :=
  let x := { x with cleanup := { x.cleanup with workspace := true } }
  match bindingForMember s.rows x.runtimeId with
  | .error e => s.endWith memberId x none (some e) now
  | .ok _ =>
    match tools with
    | .error e => s.endWith memberId x none (some e) now
    | .ok _ =>
      if (s.rows.members.get? memberId).any (·.input.isSome) then
        setExecution { s with created := s.created ++ [memberId] } memberId
          { x with phase := .creating }
      else s.endWith memberId x none (some memberInputMissing) now

/-- One turn of the loop up to the question for the status. -/
def poll (now : Nat) : AgentRunState :=
  if x.aborted ∨ s.rows.status = .finalizing then
    s.endWith memberId x none (some memberCancelled) now
  else s.setExecution memberId { x with phase := .asking }

/-- The session is there; the member, and with its root the run, is running. -/
def sessionCreated (session : CreatedSession) (now : Nat) : AgentRunState :=
  let x := { x with cleanup := { x.cleanup with sessionCreated := true } }
  match s.rows.register
      { memberId := some memberId
        instanceId := x.cleanup.instanceId
        runtimeId := x.runtimeId
        kind := .providerThread
        generationId := x.generationId
        backendIdentity := session.providerSessionId } with
  | .error e => s.endWith memberId x none (some e) now
  | .ok (rows, resourceId) =>
    let x := { x with cleanup := { x.cleanup with providerThreadResourceId := some resourceId } }
    let rows := rows.transition resourceId .ready
    match rows.transitionMember memberId
        { status := .running, aiSessionId := some (some session.aiSessionId) } with
    | .error e => endWith { s with rows } memberId x none (some e) now
    | .ok rows =>
      let started :=
        if memberId = rows.rootMemberId then rows.transitionRun { status := .running }
        else .ok rows
      match started with
      | .error e => endWith { s with rows } memberId x none (some e) now
      | .ok rows => poll { s with rows := rows.appendTimeline } memberId x now

/-- The measured usage is written, and held against the quotas. -/
def inspected (answer : SessionStatus) (usageBytes otherUsage : Nat) : AgentRunState :=
  match s.rows.sharedSpace with
  | none =>
    s.setExecution memberId { x with phase := .measured answer (some Rows.sharedSpaceNotFound) }
  | some space =>
    let s := { s with rows := { s.rows with sharedSpace := some { space with usageBytes } } }
    let failure :=
      if space.quotaBytes < usageBytes then some runQuotaExceeded
      else if runtimeQuotaBytes < otherUsage + usageBytes then some runtimeQuotaExceeded
      else none
    s.setExecution memberId { x with phase := .measured answer failure }

/-- The execution goes on behind the `await` it is suspended at. -/
def resume (x : Execution) (now : Nat) : Phase → Settlement → Option AgentRunState
  | .ensuring, .ensureRunDirectory failure => some (s.ensureRunDirectory memberId x failure)
  | .ensured (some e), .ensure _ => some (s.endWith memberId x none (some e) now)
  | .ensured none, .ensure materializer => some (s.materialize memberId x materializer now)
  | .materializing, .prepare (some e) _ => some (s.endWith memberId x none (some e) now)
  | .materializing, .prepare none tools => some (s.createSession memberId x tools now)
  | .creating, .create (.error e) => some (s.endWith memberId x none (some e) now)
  | .creating, .create (.ok session) => some (s.sessionCreated memberId x session now)
  | .asking, .status (.error e) => some (s.endWith memberId x none (some e) now)
  | .asking, .status (.ok answer) =>
    let phase :=
      if s.rows.sharedSpace.isSome then .measuring answer
      else .measured answer (some Rows.sharedSpaceNotFound)
    some (s.setExecution memberId { x with phase })
  | .measuring answer, .inspect (.error e) _ =>
    some (s.setExecution memberId { x with phase := .measured answer (some e) })
  | .measuring answer, .inspect (.ok usageBytes) otherUsage =>
    some (s.inspected memberId x answer usageBytes otherUsage)
  | .measured _ (some e), .refreshUsage => some (s.endWith memberId x none (some e) now)
  | .measured (.completed result) none, .refreshUsage =>
    some (s.endWith memberId x (some result) none now)
  | .measured (.failed e) none, .refreshUsage => some (s.endWith memberId x none (some e) now)
  | .measured .running none, .refreshUsage =>
    some (s.setExecution memberId { x with phase := .sleeping })
  | .sleeping, .timer => some (s.poll memberId x now)
  | .finalizing a, .cleanup failure =>
    some (afterFinalize memberId x (s.resumeCleanup x.cleanup now a failure))
  | .finished, .done =>
    some { s with controllers := s.controllers.erase memberId, settled := s.settled + 1 }
  | _, _ => none

end AgentRunState

end TaskHandoff.AgentRuns
