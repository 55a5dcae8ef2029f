import TaskHandoff.Lib.OrderedMap

/-! # Records of an agent run

The database keeps a row for the run, rows for its members, at most one shared space and the
runtime resources. A status changes only along the table of transitions. -/

namespace TaskHandoff.AgentRuns

/-! ## Statuses -/

inductive AgentRunStatus where
  | queued
  | preparing
  | running
  | finalizing
  | completed
  | failed
  | cancelled
deriving DecidableEq

def AgentRunStatus.terminal : AgentRunStatus → Bool
  | .completed | .failed | .cancelled => true
  | _ => false

def agentRunTransitions : AgentRunStatus → List AgentRunStatus
  | .queued => [.preparing, .finalizing]
  | .preparing => [.running, .finalizing]
  | .running => [.finalizing]
  | .finalizing => [.completed, .failed, .cancelled]
  | .completed | .failed | .cancelled => []

def canTransitionAgentRunStatus (source target : AgentRunStatus) : Bool :=
  source = target || (agentRunTransitions source).contains target

/-! ## Budgets -/

structure AgentRunBudget where
  maxMembers : Nat
  maxDepth : Nat
  maxConcurrency : Nat
  maxMembers_pos : 0 < maxMembers
  maxConcurrency_pos : 0 < maxConcurrency

def agentRunDefaultBudget : AgentRunBudget := ⟨16, 4, 4, by decide, by decide⟩

/-- A request may lower the budget only. -/
def effectiveAgentRunBudget : Option AgentRunBudget → AgentRunBudget
  | none => agentRunDefaultBudget
  | some requested =>
    { maxMembers := min requested.maxMembers agentRunDefaultBudget.maxMembers
      maxDepth := min requested.maxDepth agentRunDefaultBudget.maxDepth
      maxConcurrency := min requested.maxConcurrency agentRunDefaultBudget.maxConcurrency
      maxMembers_pos := Nat.lt_min.mpr ⟨requested.maxMembers_pos, by decide⟩
      maxConcurrency_pos := Nat.lt_min.mpr ⟨requested.maxConcurrency_pos, by decide⟩ }

/-! ## Rows -/

structure AgentRunError where
  code : String
  message : String
  retryable : Bool
deriving DecidableEq

structure AgentRunResult where
  text : String
  truncated : Bool
deriving DecidableEq

inductive CleanupStatus where
  | completed
  | retrying
  | manualIntervention
deriving DecidableEq

structure AgentRunCleanupDiagnostic where
  status : CleanupStatus
  attempts : Nat
  message : Option String
deriving DecidableEq

structure AgentRunMemberExecutionSnapshot where
  agentRevision : Nat
  targetInstanceId : String
  cwdFolderId : String
  appendedPrompt : String
  providerId : String
  modelEntityId : Option String
  modelName : Option String
  modelUpstreamName : Option String
  reasoningEffort : Option String
  permissionMode : Option String
  workspaceMaterializer : String
  processSandbox : String
deriving DecidableEq

abbrev MemberId := Nat

structure AgentRunMember where
  clientRequestId : String
  agentId : String
  parentMemberId : Option MemberId
  instanceId : String
  depth : Nat
  status : AgentRunStatus
  input : Option String
  executionSnapshot : AgentRunMemberExecutionSnapshot
  aiSessionId : Option String
  result : Option AgentRunResult
  error : Option AgentRunError
deriving DecidableEq

inductive AgentRunSharedSpaceState where
  | preparing
  | active
  | retained
  | expiring
  | expired
  | deleteRetrying
  | manualIntervention
deriving DecidableEq

structure AgentRunSharedSpaceRecord where
  runtimeId : String
  generationId : Nat
  state : AgentRunSharedSpaceState
  quotaBytes : Nat
  usageBytes : Nat
  expiresAt : Option Nat

inductive AgentRunResourceKind where
  | providerThread
  | overlayMount
  | sharedSpaceDirectory
deriving DecidableEq

inductive AgentRunResourcePhase where
  | preparing
  | ready
  | deleting
  | deleteRetrying
  | deleted
  | manualIntervention
deriving DecidableEq

structure AgentRunResourceRecord where
  resourceId : Nat
  memberId : Option MemberId
  instanceId : Option String
  runtimeId : String
  kind : AgentRunResourceKind
  generationId : Nat
  backendIdentity : String
  phase : AgentRunResourcePhase
  cleanupAttempts : Nat

/-- The rows of one run. New members, resources and generations are numbered. -/
structure Rows where
  rootMemberId : MemberId
  status : AgentRunStatus
  revision : Nat
  budget : AgentRunBudget
  result : Option AgentRunResult
  error : Option AgentRunError
  cleanup : Option AgentRunCleanupDiagnostic
  members : OrderedMap MemberId AgentRunMember
  sharedSpace : Option AgentRunSharedSpaceRecord
  resources : List AgentRunResourceRecord
  nextId : Nat

/-! ## Errors -/

def statusTransitionInvalid (message : String) : AgentRunError where
  code := "AGENT_RUN_STATUS_TRANSITION_INVALID"
  message := message
  retryable := false

def memberNotFound : AgentRunError where
  code := "AGENT_RUN_MEMBER_NOT_FOUND"
  message := "The Agent Run member was not found."
  retryable := false

def AgentRunStatus.name : AgentRunStatus → String
  | .queued => "queued"
  | .preparing => "preparing"
  | .running => "running"
  | .finalizing => "finalizing"
  | .completed => "completed"
  | .failed => "failed"
  | .cancelled => "cancelled"

def invalidTransition (source target : AgentRunStatus) : AgentRunError :=
  statusTransitionInvalid
    ("Cannot transition Agent Run status from " ++ source.name ++ " to " ++ target.name ++ ".")

namespace Rows

/-! ## Transitions -/

/-- A field that is not given keeps its value. -/
structure AgentRunTransition where
  status : AgentRunStatus
  result : Option (Option AgentRunResult) := none
  error : Option (Option AgentRunError) := none
  cleanup : Option (Option AgentRunCleanupDiagnostic) := none

variable (s : Rows)

def transitionRun (t : AgentRunTransition) : Except AgentRunError Rows :=
  if canTransitionAgentRunStatus s.status t.status then
    let result := t.result.getD s.result
    let error := t.error.getD s.error
    let cleanup := t.cleanup.getD s.cleanup
    if t.status = s.status ∧ result = s.result ∧ error = s.error ∧ cleanup = s.cleanup then .ok s
    else .ok { s with status := t.status, revision := s.revision + 1, result, error, cleanup }
  else .error (invalidTransition s.status t.status)

structure AgentRunMemberTransition where
  status : AgentRunStatus
  result : Option (Option AgentRunResult) := none
  error : Option (Option AgentRunError) := none
  aiSessionId : Option (Option String) := none

def AgentRunMemberTransition.apply (t : AgentRunMemberTransition) (member : AgentRunMember) :
    AgentRunMember :=
  { member with
    status := t.status
    result := t.result.getD member.result
    error := t.error.getD member.error
    aiSessionId := t.aiSessionId.getD member.aiSessionId }

def transitionMember (memberId : MemberId) (t : AgentRunMemberTransition) :
    Except AgentRunError Rows :=
  match s.members.get? memberId with
  | none => .error memberNotFound
  | some member =>
    if canTransitionAgentRunStatus member.status t.status then
      if t.apply member = member then .ok s
      else
        .ok { s with
          members := s.members.set memberId (t.apply member)
          revision := s.revision + 1 }
    else .error (invalidTransition member.status t.status)

/-- An entry of the timeline counts as a revision of the run. -/
def appendTimeline : Rows := { s with revision := s.revision + 1 }

/-! ## Shared space and resources -/

def sharedSpaceNotFound : AgentRunError where
  code := "AGENT_RUN_SHARED_SPACE_NOT_FOUND"
  message := "The Agent Run shared space was not found."
  retryable := false

def sharedSpaceIdentityMismatch : AgentRunError where
  code := "AGENT_RUN_SHARED_SPACE_IDENTITY_MISMATCH"
  message := "The existing shared space has different runtime ownership."
  retryable := false

def ensureSharedSpace (runtimeId : String) (generationId quotaBytes : Nat) :
    Except AgentRunError Rows :=
  match s.sharedSpace with
  | some existing =>
    if existing.runtimeId ≠ runtimeId ∨ existing.generationId ≠ generationId ∨
        existing.quotaBytes ≠ quotaBytes then .error sharedSpaceIdentityMismatch
    else .ok s
  | none =>
    let space : AgentRunSharedSpaceRecord :=
      { runtimeId
        generationId
        state := .preparing
        quotaBytes
        usageBytes := 0
        expiresAt := none }
    .ok { s with sharedSpace := some space }

def updateSharedSpace (patch : AgentRunSharedSpaceRecord → AgentRunSharedSpaceRecord) :
    Except AgentRunError Rows :=
  match s.sharedSpace with
  | none => .error sharedSpaceNotFound
  | some current => .ok { s with sharedSpace := some (patch current) }

def resourceIdentityMismatch : AgentRunError where
  code := "AGENT_RUN_RESOURCE_IDENTITY_MISMATCH"
  message := "The existing runtime resource has different ownership."
  retryable := false

structure ResourceInput where
  memberId : Option MemberId
  instanceId : Option String
  runtimeId : String
  kind : AgentRunResourceKind
  generationId : Nat
  backendIdentity : String

/-- The rows behind the registration and the number of the resource. -/
def register (input : ResourceInput) : Except AgentRunError (Rows × Nat) :=
  match s.resources.find? fun r =>
      r.kind = input.kind ∧ r.backendIdentity = input.backendIdentity with
  | some existing =>
    if existing.memberId ≠ input.memberId ∨ existing.instanceId ≠ input.instanceId ∨
        existing.runtimeId ≠ input.runtimeId ∨ existing.generationId ≠ input.generationId then
      .error resourceIdentityMismatch
    else .ok (s, existing.resourceId)
  | none =>
    let resource : AgentRunResourceRecord :=
      { resourceId := s.nextId
        memberId := input.memberId
        instanceId := input.instanceId
        runtimeId := input.runtimeId
        kind := input.kind
        generationId := input.generationId
        backendIdentity := input.backendIdentity
        phase := .preparing
        cleanupAttempts := 0 }
    .ok ({ s with resources := s.resources ++ [resource], nextId := s.nextId + 1 }, s.nextId)

/-- Change the phase of a resource, and count an attempt to clean it up. -/
def transition (resourceId : Nat) (phase : AgentRunResourcePhase)
    (incrementCleanupAttempts : Bool := false) : Rows :=
  { s with resources := s.resources.map fun r =>
      if r.resourceId = resourceId then
        { r with
          phase
          cleanupAttempts :=
            if incrementCleanupAttempts then r.cleanupAttempts + 1 else r.cleanupAttempts }
      else r }

end Rows

end TaskHandoff.AgentRuns
