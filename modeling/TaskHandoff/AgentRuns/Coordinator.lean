import TaskHandoff.AgentRuns.Members

/-! # The coordinator of agent runs

One run among those of a node agent. The run scheduler releases the root at some time, the member
scheduler executes the members under the budget of the run. A restart keeps the rows only, and
`reconcile` accepts or recovers what it finds. -/

namespace TaskHandoff.AgentRuns.AgentRunState

open Scheduler

/-! ## Scheduling -/

variable (s : AgentRunState)

def policy : SchedulerPolicy where
  cooldownMs := none
  maxConcurrentRuns := s.rows.budget.maxConcurrency
  whenBusy := .queue
  maxConcurrentRuns_pos := s.rows.budget.maxConcurrency_pos

def schedulerStopped (message : String) : AgentRunError where
  code := "AGENT_RUN_SCHEDULER_STOPPED"
  message := message
  retryable := false

def skipMessage : SchedulerSkipReason → String
  | .cooldown => "Agent Run scheduling stopped: cooldown."
  | .busy => "Agent Run scheduling stopped: busy."
  | .queueFull => "Agent Run scheduling stopped: queue-full."
  | .schedulerStopped => "Agent Run scheduling stopped: scheduler-stopped."
  | .jobDisabled => "Agent Run scheduling stopped: job-disabled."

variable (memberId : MemberId)

/-- A skipped member that is still queued fails, and with its root the run. -/
def failQueued (reason : SchedulerSkipReason) : AgentRunState :=
  match s.rows.members.get? memberId with
  | none => s
  | some member =>
    if member.status = .queued then
      let error : AgentRunError :=
        { schedulerStopped (skipMessage reason) with retryable := reason = .schedulerStopped }
      match s.rows.transitionMember memberId { status := .finalizing } with
      | .error _ => s
      | .ok rows =>
        match rows.transitionMember memberId { status := .failed, error := some (some error) } with
        | .error _ => { s with rows }
        | .ok rows =>
          if memberId = rows.rootMemberId then
            match finalizeRun rows with
            | .error _ => { s with rows }
            | .ok rows =>
              match rows.transitionRun
                  { status := .failed
                    error := some (some error)
                    cleanup := some (some ⟨.completed, 0, none⟩) } with
              | .error _ => { s with rows }
              | .ok rows => { s with rows, managed := false }
          else { s with rows }
    else s

variable (env : Surroundings)

def call (s : AgentRunState) : AdapterCall Unit MemberId → AgentRunState
  | .execute _ _ memberId => s.executeMember memberId env
  | .skipped memberId reason => s.failQueued memberId reason

/-- The calls of the member scheduler, one after the other. -/
def perform (r : SchedulerExecutionRuntime Unit MemberId × List (AdapterCall Unit MemberId)) :
    AgentRunState :=
  r.2.foldl (call env) { s with scheduler := r.1 }

def submitMember : AgentRunState :=
  s.perform env (s.scheduler.submit () memberId s.policy env.now env.now).2

/-- A root goes to the run scheduler once, a callee to the member scheduler. -/
def accept : AgentRunState :=
  if !s.accepting then s.failQueued memberId .schedulerStopped
  else if memberId = s.rootMemberId then
    if s.managed then s else { s with managed := true, submitted := s.submitted + 1 }
  else s.submitMember memberId env

/-! ## Invocations -/

structure Invocation where
  parentMemberId : MemberId
  clientRequestId : String
  agentId : String
  prompt : String

def memberBudgetExceeded : AgentRunError where
  code := "AGENT_RUN_MEMBER_BUDGET_EXCEEDED"
  message := "The run member budget is exhausted."
  retryable := false

def depthBudgetExceeded : AgentRunError where
  code := "AGENT_RUN_DEPTH_BUDGET_EXCEEDED"
  message := "The run call depth budget is exhausted."
  retryable := false

def memberIdempotencyConflict : AgentRunError where
  code := "AGENT_RUN_MEMBER_IDEMPOTENCY_CONFLICT"
  message := "The member client request id is already associated with another invocation."
  retryable := false

def parentMemberNotFound : AgentRunError where
  code := "AGENT_RUN_PARENT_MEMBER_NOT_FOUND"
  message := "The parent member does not belong to this run."
  retryable := false

def runAlreadyTerminal : AgentRunError where
  code := "AGENT_RUN_ALREADY_TERMINAL"
  message := "Only a running Agent Run can accept another member."
  retryable := false

def memberAlreadyTerminal : AgentRunError where
  code := "AGENT_RUN_ALREADY_TERMINAL"
  message := "Only a running Agent Run member can invoke another Agent."
  retryable := false

def calledMember (input : Invocation) (depth : Nat)
    (snapshot : AgentRunMemberExecutionSnapshot) : AgentRunMember where
  clientRequestId := input.clientRequestId
  agentId := input.agentId
  parentMemberId := some input.parentMemberId
  instanceId := snapshot.targetInstanceId
  depth := depth
  status := .queued
  input := some input.prompt
  executionSnapshot := snapshot
  aiSessionId := none
  result := none
  error := none

def sameInvocation (existing : AgentRunMember) (input : Invocation)
    (snapshot : AgentRunMemberExecutionSnapshot) : Bool :=
  existing.parentMemberId = some input.parentMemberId && existing.agentId = input.agentId &&
    existing.instanceId = snapshot.targetInstanceId && existing.input = some input.prompt &&
    existing.executionSnapshot = snapshot

/-- `addMember` of the repository: the member of an earlier equal request, or a new one. -/
def addRow (rows : Rows) (input : Invocation) (snapshot : AgentRunMemberExecutionSnapshot) :
    Except AgentRunError (Rows × MemberId) :=
  match rows.members.get? input.parentMemberId with
  | none => .error parentMemberNotFound
  | some parent =>
    match rows.members.entries.find? fun e => e.2.clientRequestId = input.clientRequestId with
    | some (memberId, existing) =>
      if sameInvocation existing input snapshot then .ok (rows, memberId)
      else .error memberIdempotencyConflict
    | none =>
      if rows.budget.maxMembers ≤ rows.members.keys.length then .error memberBudgetExceeded
      else if rows.budget.maxDepth < parent.depth + 1 then .error depthBudgetExceeded
      else
        .ok ({ rows with
          members := rows.members.set rows.nextId (calledMember input (parent.depth + 1) snapshot)
          revision := rows.revision + 1
          nextId := rows.nextId + 1 }, rows.nextId)

def policyDifference (parent : AgentRunMember) (snapshot : AgentRunMemberExecutionSnapshot) :
    Bool :=
  parent.executionSnapshot.permissionMode ≠ snapshot.permissionMode ||
    parent.executionSnapshot.workspaceMaterializer ≠ snapshot.workspaceMaterializer ||
    parent.executionSnapshot.processSandbox ≠ snapshot.processSandbox ||
    parent.executionSnapshot.providerId ≠ snapshot.providerId

/-- A running member of a running run invokes another agent. `resolved` is what the orchestration
and the definitions say of the call. -/
def addMember (input : Invocation)
    (resolved : Except AgentRunError AgentRunMemberExecutionSnapshot) (env : Surroundings) :
    Except AgentRunError (AgentRunState × MemberId) :=
  if s.rows.status ≠ .running then .error runAlreadyTerminal
  else
    match s.rows.members.get? input.parentMemberId with
    | none => .error memberNotFound
    | some parent =>
      if parent.status ≠ .running then .error memberAlreadyTerminal
      else
        match resolved with
        | .error e => .error e
        | .ok snapshot =>
          match addRow s.rows input snapshot with
          | .error e => .error e
          | .ok (rows, memberId) =>
            let rows := if policyDifference parent snapshot then rows.appendTimeline else rows
            let s := { s with rows }
            if (rows.members.get? memberId).any (·.status = .queued) then
              .ok (s.accept memberId env, memberId)
            else .ok (s, memberId)

/-! ## Cancelling -/

def revisionConflict : AgentRunError where
  code := "AGENT_RUN_REVISION_CONFLICT"
  message := "Agent Run changed since it was read."
  retryable := false

def terminalRun : AgentRunError where
  code := "AGENT_RUN_ALREADY_TERMINAL"
  message := "A terminal Agent Run cannot be cancelled."
  retryable := false

/-- The call for an entry of a cleared queue. -/
def skip : AdapterCall Unit MemberId → AgentRunState
  | .execute _ _ _ => s
  | .skipped memberId reason => s.failQueued memberId reason

/-- `cancel` of the coordinator: queued members are skipped, executing ones aborted. -/
def cancelMembers : AgentRunState :=
  let r := s.scheduler.clearQueued () .jobDisabled
  let s := r.2.foldl skip { s with scheduler := r.1 }
  { s with controllers := s.controllers.mapValues fun x => { x with aborted := true } }

/-- `stop` of the coordinator: what the schedulers have queued is skipped, the retries are dropped
and the executions aborted. -/
def stop : AgentRunState :=
  let r := s.scheduler.stop
  let roots := List.replicate s.submitted (.skipped s.rootMemberId .schedulerStopped)
  let s := (roots ++ r.2).foldl skip { s with submitted := 0, scheduler := r.1 }
  { s with
    timers := []
    cleanupRetryTimers := []
    controllers := s.controllers.mapValues fun x => { x with aborted := true } }

def cancel (expectedRevision : Option Nat) : Except AgentRunError AgentRunState :=
  if expectedRevision.any (· ≠ s.rows.revision) then .error revisionConflict
  else if s.rows.status = .finalizing then .ok s
  else if s.rows.status.terminal then .error terminalRun
  else
    match s.rows.transitionRun { status := .finalizing } with
    | .error e => .error e
    | .ok rows => .ok (cancelMembers { s with rows })

/-! ## Recovering -/

def nodeRestarted : AgentRunError where
  code := "AGENT_RUN_NODE_RESTARTED"
  message :=
    "The Node Agent restarted after this Agent Run began; started members are not executed again."
  retryable := false

/-- Every member that is not at its end moves on, one after the other. -/
def transitionMembers (rows : Rows) (skip : AgentRunStatus → Bool) (status : AgentRunStatus) :
    List MemberId → Except AgentRunError Rows
  | [] => .ok rows
  | memberId :: rest =>
    if (rows.members.get? memberId).all fun member => skip member.status then
      transitionMembers rows skip status rest
    else
      match rows.transitionMember memberId { status, error := some (some nodeRestarted) } with
      | .error e => .error e
      | .ok rows => transitionMembers rows skip status rest

/-- The last part of a recovery: the run fails, or waits for the next one. -/
def endRecovery : AgentRunState :=
  let resources := s.rows.resources.filter fun r =>
    r.kind = .providerThread || r.kind = .overlayMount
  let manual := resources.any fun r => r.phase = .manualIntervention
  let pending := resources.any fun r => r.phase ≠ .deleted && r.phase ≠ .manualIntervention
  let attempts := resources.foldl (fun n r => max n r.cleanupAttempts) 1
  if pending then
    match s.rows.transitionRun
        { status := .finalizing
          error := some (some nodeRestarted)
          cleanup := some (some
            ⟨.retrying, attempts, some "Runtime cleanup will be retried."⟩) } with
    | .error _ => s
    | .ok rows => { s with rows }
  else
    match transitionMembers s.rows AgentRunStatus.terminal .failed s.rows.members.keys with
    | .error _ => s
    | .ok rows =>
      let message := if manual then
          some "At least one runtime resource could not be proven to belong to this Agent Run."
        else none
      match rows.transitionRun
          { status := .failed
            error := some (some nodeRestarted)
            cleanup := some (some
              ⟨if manual then .manualIntervention else .completed, attempts, message⟩) } with
      | .error _ => { s with rows }
      | .ok rows => { s with rows }

/-- The instances of the resources are reconciled one after the other. -/
def recoverInstances : List String → AgentRunState
  | [] => s.endRecovery
  | _ :: rest => { s with recoveries := s.recoveries ++ [⟨rest, .reconciling⟩] }

/-- The threads are closed one after the other; each close is awaited. -/
def recoverResources (s : AgentRunState) (instanceIds : List String) :
    List AgentRunResourceRecord → AgentRunState
  | [] => s.recoverInstances instanceIds
  | resource :: rest =>
    let instanceIds := resource.instanceId.elim instanceIds fun id => instanceIds.insert id
    if resource.kind ≠ .providerThread ∨ resource.phase = .deleted ∨
        resource.phase = .manualIntervention then
      recoverResources s instanceIds rest
    else if resource.memberId.isNone ∨ resource.instanceId.isNone then
      recoverResources
        { s with rows := s.rows.transition resource.resourceId .manualIntervention }
        instanceIds rest
    else
      { s with
        rows := s.rows.transition resource.resourceId .deleting
        recoveries := s.recoveries ++ [⟨instanceIds, .closing resource.resourceId rest⟩] }

/-- The members of the run are brought to finalizing. -/
def finalizeMembers (rows : Rows) : Except AgentRunError Rows :=
  transitionMembers rows (fun status => status.terminal || status = .finalizing) .finalizing
    rows.members.keys

def reconcileInterruptedRun : AgentRunState :=
  match finalizeRun s.rows with
  | .error _ => s
  | .ok rows =>
    match finalizeMembers rows with
    | .error _ => { s with rows }
    | .ok rows => recoverResources { s with rows } [] rows.resources

/-- A close of a thread, or the reconciliation of an instance, has settled. -/
def resumeRecovery (r : Recovery) (failed : Bool) : AgentRunState :=
  match r.at_ with
  | .closing resourceId rest =>
    let phase : AgentRunResourcePhase := if failed then .deleteRetrying else .deleted
    recoverResources { s with rows := s.rows.transition resourceId phase failed }
      r.instanceIds rest
  | .reconciling => s.recoverInstances r.instanceIds

/-- The turn of `reconcile` for the run, as it was listed. -/
def reconcileRun (listing : Listing) (env : Surroundings) : AgentRunState :=
  if listing.status.terminal then { s with managed := false }
  else if s.managed then s
  else if listing.status = .queued ∧ s.rows.resources = [] then
    if listing.rootStatus = .queued then s.accept s.rootMemberId env else s
  else s.reconcileInterruptedRun

/-! ## Expiry of the shared space -/

/-- The turn of `reconcileExpired` for the space, as it was listed. -/
def reconcileExpiredSpace (space : AgentRunSharedSpaceRecord) : AgentRunState :=
  if space.state ≠ .retained ∧ space.state ≠ .deleteRetrying then s
  else
    let patched (state : AgentRunSharedSpaceState) : AgentRunState :=
      match s.rows.updateSharedSpace fun space => { space with state } with
      | .error _ => s
      | .ok rows => { s with rows }
    match s.rows.resources.find? fun r => r.kind = .sharedSpaceDirectory with
    | none => patched .manualIntervention
    | some resource =>
      if resource.instanceId.isNone then patched .manualIntervention
      else
        match s.rows.updateSharedSpace fun space => { space with state := .expiring } with
        | .error _ => s
        | .ok rows => { s with rows, removals := s.removals ++ [resource.resourceId] }

/-- The backend has removed the directory of a run, or failed to. -/
def directoryRemoved (resourceId : Nat) (failed : Bool) : AgentRunState :=
  let state : AgentRunSharedSpaceState := if failed then .deleteRetrying else .expired
  let phase : AgentRunResourcePhase := if failed then .deleteRetrying else .deleted
  match s.rows.updateSharedSpace fun space =>
      { space with state, usageBytes := if failed then space.usageBytes else 0 } with
  | .error _ => s
  | .ok rows => { s with rows := rows.transition resourceId phase failed }

/-! ## Runs -/

inductive RunAction where
  | submitRoot (env : Surroundings)
  | skipRoot (reason : SchedulerSkipReason)
  | addMember (input : Invocation)
      (resolved : Except AgentRunError AgentRunMemberExecutionSnapshot) (env : Surroundings)
  | cancel (expectedRevision : Option Nat)
  | settle (memberId : MemberId) (settlement : Settlement) (now : Nat)
  | release (env : Surroundings)
  | fireTimer (index now : Nat)
  | settleRetry (index : Nat) (failure : Option AgentRunError) (now : Nat)
  | overlay (input : Rows.ResourceInput)
  | overlayPhase (resourceId : Nat) (phase : AgentRunResourcePhase) (increment : Bool)
  | stop
  | restart
  | list
  | reconcile (index : Nat) (env : Surroundings)
  | settleRecovery (index : Nat) (failed : Bool)
  | listExpired (now : Nat)
  | reconcileExpired (index : Nat)
  | settleRemoval (index : Nat) (failed : Bool)

/-- A finalization started by a timer; one that threw is gone. -/
def afterRetry (c : Cleanup) (r : AgentRunState × Finalized) : AgentRunState :=
  match r.2 with
  | .awaiting a => { r.1 with retries := r.1.retries ++ [(c, a)] }
  | .done | .threw => r.1

/-- What survives the process are the rows. -/
def restart : AgentRunState :=
  { rows := s.rows, executed := s.executed, created := s.created }

def rootStatus : AgentRunStatus :=
  (s.rows.members.get? s.rootMemberId).elim .queued (·.status)

/-- The materializer registers its overlay mounts while it prepares a workspace. -/
def isMaterializing : Bool :=
  (s.controllers.get? memberId).any (·.phase = .materializing)

/-- The materializer keeps the phases of its overlay mounts itself. -/
def isOverlay (resourceId : Nat) : Bool :=
  s.rows.resources.any fun r => r.resourceId = resourceId && r.kind = .overlayMount

def step : RunAction → Option AgentRunState
  | .submitRoot env =>
    if s.submitted = 0 then none
    else some (submitMember { s with submitted := s.submitted - 1 } s.rootMemberId env)
  | .skipRoot reason =>
    if s.submitted = 0 then none
    else some (failQueued { s with submitted := s.submitted - 1 } s.rootMemberId reason)
  | .addMember input resolved env =>
    match s.addMember input resolved env with
    | .error _ => some s
    | .ok (s, _) => some s
  | .cancel expectedRevision =>
    match s.cancel expectedRevision with
    | .error _ => some s
    | .ok s => some s
  | .settle memberId settlement now =>
    (s.controllers.get? memberId).bind fun x => s.resume memberId x now x.phase settlement
  | .release env =>
    if s.settled = 0 then none
    else
      some (perform { s with settled := s.settled - 1 } env
        (s.scheduler.finish () env.now))
  | .fireTimer index now =>
    s.timers[index]?.map fun c =>
      let s := { s with timers := s.timers.eraseIdx index }
      afterRetry c (s.finalizeMember c now)
  | .settleRetry index failure now =>
    s.retries[index]?.map fun (c, a) =>
      let s := { s with retries := s.retries.eraseIdx index }
      afterRetry c (s.resumeCleanup c now a failure)
  | .overlay input =>
    if input.kind = .overlayMount ∧ input.memberId.any s.isMaterializing then
      match s.rows.register input with
      | .error _ => some s
      | .ok (rows, _) => some { s with rows }
    else none
  | .overlayPhase resourceId phase increment =>
    if s.isOverlay resourceId then
      some { s with rows := s.rows.transition resourceId phase increment }
    else none
  | .stop => some s.stop
  | .restart => some s.restart
  | .list => some { s with listings := s.listings ++ [⟨s.rows.status, s.rootStatus⟩] }
  | .reconcile index env =>
    s.listings[index]?.map fun listing =>
      reconcileRun { s with listings := s.listings.eraseIdx index } listing env
  | .settleRecovery index failed =>
    s.recoveries[index]?.map fun r =>
      resumeRecovery { s with recoveries := s.recoveries.eraseIdx index } r failed
  | .listExpired now =>
    some { s with
      expiryListings := s.expiryListings ++
        (s.rows.sharedSpace.filter fun space => space.expiresAt.any (· ≤ now)).toList.map
          fun space => (space, now) }
  | .reconcileExpired index =>
    s.expiryListings[index]?.map fun listed =>
      reconcileExpiredSpace { s with expiryListings := s.expiryListings.eraseIdx index } listed.1
  | .settleRemoval index failed =>
    s.removals[index]?.map fun resourceId =>
      directoryRemoved { s with removals := s.removals.eraseIdx index } resourceId failed

/-- The root member of a new run. -/
structure RootInput where
  clientRequestId : String
  agentId : String
  prompt : String
  executionSnapshot : AgentRunMemberExecutionSnapshot

def rootMember (input : RootInput) : AgentRunMember where
  clientRequestId := input.clientRequestId
  agentId := input.agentId
  parentMemberId := none
  instanceId := input.executionSnapshot.targetInstanceId
  depth := 0
  status := .queued
  input := some input.prompt
  executionSnapshot := input.executionSnapshot
  aiSessionId := none
  result := none
  error := none

def createRows (budget : AgentRunBudget) (input : RootInput) : Rows where
  rootMemberId := 0
  status := .queued
  revision := 0
  budget := budget
  result := none
  error := none
  cleanup := none
  members := OrderedMap.empty.set 0 (rootMember input)
  sharedSpace := none
  resources := []
  nextId := 1

/-- A run that was created and accepted. -/
def create (budget : AgentRunBudget) (input : RootInput) : AgentRunState where
  rows := createRows budget input
  managed := true
  submitted := 1

end TaskHandoff.AgentRuns.AgentRunState
