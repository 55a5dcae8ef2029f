import TaskHandoff.Lib.Machine
import TaskHandoff.Lib.OrderedMap

/-! # Trust in Control Planes

The access repository keeps the pins of approved Control Planes and the requests for approval. A
unique index holds at most one active pin and one pending request for an identity. -/

namespace TaskHandoff.Persistence

/-! ## Rows -/

inductive AccessMode where
  | owner
  | shared
deriving DecidableEq

/-- What is observed of a Control Plane that attaches. -/
structure TrustContext where
  nodeId : String
  nodeHandle : String
  controlPlaneId : String
  controlPlanePublicKey : String
  bindingId : String
  bindingRevision : Nat
  accountId : String
  ownerAccountId : String
  accessMode : AccessMode
  shareGrantId : Option String
  shareRole : Option String
  shareRevision : Option Nat

/-- The columns that pins and requests have in common. -/
structure TrustColumns where
  nodeId : String
  nodeHandle : String
  controlPlaneId : String
  controlPlanePublicKey : String
  bindingId : String
  bindingRevision : Nat
  accessAccountId : String
  ownerAccountId : String
  accessMode : AccessMode
  shareGrantId : Option String
  shareRole : Option String
  shareRevision : Option Nat

/-- The columns of the unique indexes; a missing grant or role counts as empty. -/
structure Identity where
  nodeId : String
  nodeHandle : String
  controlPlaneId : String
  controlPlanePublicKey : String
  bindingId : String
  accessAccountId : String
  ownerAccountId : String
  accessMode : AccessMode
  shareGrant : String
  shareRole : String
deriving DecidableEq

def TrustColumns.valid (c : TrustColumns) : Bool :=
  1 ≤ c.bindingRevision && c.shareRevision.all (1 ≤ ·) &&
    match c.accessMode with
    | .owner => c.shareGrantId.isNone && c.shareRole.isNone && c.shareRevision.isNone
    | .shared => c.shareGrantId.isSome && c.shareRole.isSome && c.shareRevision.isSome

def TrustColumns.identity (c : TrustColumns) : Identity where
  nodeId := c.nodeId
  nodeHandle := c.nodeHandle
  controlPlaneId := c.controlPlaneId
  controlPlanePublicKey := c.controlPlanePublicKey
  bindingId := c.bindingId
  accessAccountId := c.accessAccountId
  ownerAccountId := c.ownerAccountId
  accessMode := c.accessMode
  shareGrant := c.shareGrantId.getD ""
  shareRole := c.shareRole.getD ""

def TrustContext.identity (c : TrustContext) : Identity where
  nodeId := c.nodeId
  nodeHandle := c.nodeHandle
  controlPlaneId := c.controlPlaneId
  controlPlanePublicKey := c.controlPlanePublicKey
  bindingId := c.bindingId
  accessAccountId := c.accountId
  ownerAccountId := c.ownerAccountId
  accessMode := c.accessMode
  shareGrant := c.shareGrantId.getD ""
  shareRole := c.shareRole.getD ""

/-- The identity without its key. -/
def Identity.context (i : Identity) : Identity := { i with controlPlanePublicKey := "" }

/-- The columns of a new request; empty strings and a revision of zero are dropped. -/
def TrustContext.columns (c : TrustContext) : TrustColumns where
  nodeId := c.nodeId
  nodeHandle := c.nodeHandle
  controlPlaneId := c.controlPlaneId
  controlPlanePublicKey := c.controlPlanePublicKey
  bindingId := c.bindingId
  bindingRevision := c.bindingRevision
  accessAccountId := c.accountId
  ownerAccountId := c.ownerAccountId
  accessMode := c.accessMode
  shareGrantId := c.shareGrantId.filter (· ≠ "")
  shareRole := c.shareRole.filter (· ≠ "")
  shareRevision := c.shareRevision.filter (· ≠ 0)

inductive ActorType where
  | local
  | controlPlane
  | system
deriving DecidableEq

structure Actor where
  type : ActorType
  id : String

def nodeAgentActor : Actor := ⟨.system, "node-agent"⟩

inductive PinStatus where
  | active
  | revoked
deriving DecidableEq

structure CloudControlPlanePin where
  columns : TrustColumns
  status : PinStatus
  approvedBy : Actor
  approvedAt : Nat
  lastSeenAt : Nat
  revokedAt : Option Nat
  revokeReason : Option String
  authorizationRevision : Nat
  createdAt : Nat
  updatedAt : Nat

def CloudControlPlanePin.revoke (pin : CloudControlPlanePin) (now : Nat)
    (reason : Option String) : CloudControlPlanePin :=
  { pin with
    status := .revoked
    revokedAt := some now
    revokeReason := reason.or pin.revokeReason
    authorizationRevision := pin.authorizationRevision + 1
    updatedAt := now }

inductive RequestStatus where
  | pending
  | approved
  | rejected
  | expired
deriving DecidableEq

structure TrustRequest where
  columns : TrustColumns
  status : RequestStatus
  requestedAt : Nat
  lastSeenAt : Nat
  expiresAt : Nat
  decidedAt : Option Nat
  decidedBy : Option Actor
  decisionReason : Option String
  pinId : Option Nat
  revision : Nat
  createdAt : Nat
  updatedAt : Nat

def TrustRequest.expire (r : TrustRequest) (now : Nat) (reason : Option String) : TrustRequest :=
  { r with
    status := .expired
    decidedAt := some now
    decidedBy := some nodeAgentActor
    decisionReason := reason.or r.decisionReason
    revision := r.revision + 1
    updatedAt := now }

/-! ## Errors -/

structure TrustError where
  code : String
  message : String
  statusCode : Nat

/-- A check or a unique index of the table refused the row. -/
def constraintFailed : TrustError where
  code := "ERR_SQLITE_ERROR"
  message := "constraint failed"
  statusCode := 500

def fingerprintConflict : TrustError where
  code := "NODE_AGENT_CONTROL_PLANE_TRUST_FINGERPRINT_CONFLICT"
  message := "The Control Plane fingerprint changed before this decision."
  statusCode := 409

def requestRevisionConflict : TrustError where
  code := "NODE_AGENT_CONTROL_PLANE_TRUST_REVISION_CONFLICT"
  message := "The Control Plane trust request changed before this decision."
  statusCode := 409

def pinRevisionConflict : TrustError where
  code := "NODE_AGENT_CONTROL_PLANE_TRUST_REVISION_CONFLICT"
  message := "The trusted Control Plane pin changed before this decision."
  statusCode := 409

def alreadyDecided : TrustError where
  code := "NODE_AGENT_CONTROL_PLANE_TRUST_ALREADY_DECIDED"
  message := "The Control Plane trust request is no longer pending."
  statusCode := 409

def alreadyApproved : TrustError where
  code := "NODE_AGENT_CONTROL_PLANE_TRUST_ALREADY_APPROVED"
  message := "The Control Plane trust request is already approved."
  statusCode := 409

def requestNotFound : TrustError where
  code := "NODE_AGENT_CONTROL_PLANE_TRUST_REQUEST_NOT_FOUND"
  message := "The Control Plane trust request was not found."
  statusCode := 404

def pinNotFound : TrustError where
  code := "NODE_AGENT_CONTROL_PLANE_TRUST_PIN_NOT_FOUND"
  message := "The trusted Control Plane pin was not found."
  statusCode := 404

def selfRevokeForbidden : TrustError where
  code := "NODE_AGENT_CONTROL_PLANE_TRUST_SELF_REVOKE_FORBIDDEN"
  message := "A Control Plane cannot revoke its own trust pin."
  statusCode := 403

/-! ## The tables -/

/-- The two tables; new rows are numbered. -/
structure AccessRepository where
  pins : OrderedMap Nat CloudControlPlanePin
  requests : OrderedMap Nat TrustRequest
  nextId : Nat

namespace AccessRepository

def new : AccessRepository := ⟨.empty, .empty, 0⟩

/-- The first row of a query in the order `before`. -/
def firstRow {α : Type} (before : α → α → Bool) : List α → Option α
  | [] => none
  | a :: rest =>
    match firstRow before rest with
    | none => some a
    | some b => if before b a then some b else some a

variable (s : AccessRepository)

def activePins : List (Nat × CloudControlPlanePin) :=
  s.pins.entries.filter fun entry => entry.2.status = .active

/-- Greater share revisions first, then later updates. -/
def pinBefore (a b : Nat × CloudControlPlanePin) : Bool :=
  let revision (p : CloudControlPlanePin) := p.columns.shareRevision.elim 0 (· + 1)
  revision b.2 < revision a.2 || revision a.2 = revision b.2 && b.2.updatedAt < a.2.updatedAt

variable (context : TrustContext)

def findCloudControlPlanePin : Option (Nat × CloudControlPlanePin) :=
  firstRow pinBefore
    (s.activePins.filter fun entry => entry.2.columns.identity = context.identity)

/-- A shared context is older than the pin. -/
def staleFor (pin : CloudControlPlanePin) : Bool :=
  context.accessMode = .shared &&
    context.shareRevision.any (· < pin.columns.shareRevision.getD 0)

def findActiveCloudControlPlanePin : Option (Nat × CloudControlPlanePin) :=
  (s.findCloudControlPlanePin context).filter fun entry => !staleFor context entry.2

/-- Later requests first. -/
def requestBefore (a b : Nat × TrustRequest) : Bool :=
  b.2.requestedAt < a.2.requestedAt || a.2.requestedAt = b.2.requestedAt && b.1 < a.1

def findCloudControlPlaneTrustRequest (identity : Identity)
    (status : RequestStatus) : Option (Nat × TrustRequest) :=
  firstRow requestBefore
    (s.requests.entries.filter fun entry =>
      entry.2.status = status && entry.2.columns.identity = identity)

/-- Insert an active pin under the next number. -/
def insertPin (pin : CloudControlPlanePin) : Except TrustError AccessRepository :=
  if pin.columns.valid then
    if s.activePins.any fun entry => entry.2.columns.identity = pin.columns.identity then
      .error constraintFailed
    else .ok { s with pins := s.pins.set s.nextId pin, nextId := s.nextId + 1 }
  else .error constraintFailed

def updatePin (id : Nat) (pin : CloudControlPlanePin) : Except TrustError AccessRepository :=
  if pin.columns.valid then .ok { s with pins := s.pins.set id pin } else .error constraintFailed

/-- Insert a pending request under the next number. -/
def insertRequest (request : TrustRequest) : Except TrustError AccessRepository :=
  if request.columns.valid then
    if (s.findCloudControlPlaneTrustRequest request.columns.identity .pending).isSome then
      .error constraintFailed
    else .ok { s with requests := s.requests.set s.nextId request, nextId := s.nextId + 1 }
  else .error constraintFailed

def updateRequest (id : Nat) (request : TrustRequest) : Except TrustError AccessRepository :=
  if request.columns.valid then .ok { s with requests := s.requests.set id request }
  else .error constraintFailed

/-! ## Expiry -/

/-- Every pending request whose time has passed expires. -/
def expireCloudControlPlaneTrustRequests (now : Nat) : AccessRepository :=
  { s with requests := s.requests.mapValues fun r =>
      if r.status = .pending ∧ r.expiresAt ≤ now then r.expire now none else r }

def withdrawCloudControlPlaneTrustRequests (controlPlaneId reason : String)
    (now : Nat) : AccessRepository :=
  { s with requests := s.requests.mapValues fun r =>
      if r.status = .pending ∧ r.columns.controlPlaneId = controlPlaneId then
        r.expire now (some reason)
      else r }

/-! ## Observing -/

inductive PendingReason where
  | firstSeen
  | keyChanged
  | accessContextChanged

inductive Observation where
  | active (pin : CloudControlPlanePin)
  | pending (request : TrustRequest) (reason : PendingReason)
  | rejected (request : TrustRequest)

structure ObserveInput where
  context : TrustContext
  now : Nat
  ttlMs : Nat

def pendingReason : PendingReason :=
  if s.activePins.any fun entry => entry.2.columns.identity = context.identity then
    .accessContextChanged
  else if s.activePins.any fun entry =>
      entry.2.columns.identity.context = context.identity.context then .keyChanged
  else .firstSeen

variable (input : ObserveInput)

def pendingObservation : Except TrustError (AccessRepository × Observation) :=
  let request : TrustRequest :=
    { columns := input.context.columns
      status := .pending
      requestedAt := input.now
      lastSeenAt := input.now
      expiresAt := input.now + input.ttlMs
      decidedAt := none
      decidedBy := none
      decisionReason := none
      pinId := none
      revision := 1
      createdAt := input.now
      updatedAt := input.now }
  (s.insertRequest request).map fun s => (s, .pending request (s.pendingReason input.context))

/-- The share revision of a shared context is ahead of that of the pin. -/
def shareRevisionForward (pin : CloudControlPlanePin) : Bool :=
  context.accessMode = .shared &&
    context.shareRevision.any (pin.columns.shareRevision.getD 0 < ·)

/-- The pin with what was observed. -/
def seenPin (pin : CloudControlPlanePin) : CloudControlPlanePin :=
  let forward := shareRevisionForward input.context pin
  let bindingChanged := pin.columns.bindingRevision ≠ input.context.bindingRevision
  { pin with
    columns := { pin.columns with
      bindingRevision := input.context.bindingRevision
      shareRevision :=
        if forward then input.context.shareRevision else pin.columns.shareRevision }
    lastSeenAt := input.now
    updatedAt :=
      if bindingChanged ∨ forward ∨ pin.lastSeenAt ≠ input.now then input.now else pin.updatedAt }

/-- The pending request with what was observed. -/
def seenRequest (request : TrustRequest) : TrustRequest :=
  let context := input.context
  let bindingChanged := request.columns.bindingRevision ≠ context.bindingRevision
  let shareRevisionChanged :=
    context.accessMode = .shared ∧ request.columns.shareRevision ≠ context.shareRevision
  { request with
    columns := { request.columns with
      bindingRevision := context.bindingRevision
      shareRevision := context.shareRevision }
    lastSeenAt := input.now
    revision :=
      if bindingChanged ∨ shareRevisionChanged then request.revision + 1 else request.revision
    updatedAt := input.now }

def observeCloudControlPlaneTrust : Except TrustError (AccessRepository × Observation) :=
  let s := s.expireCloudControlPlaneTrustRequests input.now
  match s.findActiveCloudControlPlanePin input.context with
  | some (id, pin) =>
    let updated := seenPin input pin
    (s.updatePin id updated).map fun s => (s, .active updated)
  | none =>
    if (s.findCloudControlPlanePin input.context).any fun entry =>
        staleFor input.context entry.2 then s.pendingObservation input
    else
      match s.findCloudControlPlaneTrustRequest input.context.identity .pending with
      | some (id, request) =>
        let updated := seenRequest input request
        (s.updateRequest id updated).map fun s =>
          (s, .pending updated (s.pendingReason input.context))
      | none =>
        match s.findCloudControlPlaneTrustRequest input.context.identity .rejected with
        | some (id, request) =>
          let updated := { request with lastSeenAt := input.now, updatedAt := input.now }
          (s.updateRequest id updated).map fun s => (s, .rejected updated)
        | none => s.pendingObservation input

/-! ## Deciding -/

inductive DecisionAction where
  | approve
  | reject

structure TrustDecision where
  action : DecisionAction
  requestId : Nat
  expectedFingerprint : String
  expectedRevision : Nat
  reason : Option String
  retainPreviousKey : Bool
  actor : Actor

structure DecisionResult where
  request : TrustRequest
  pin : Option CloudControlPlanePin
  revokedPins : List CloudControlPlanePin

section Deciding

-- The fingerprint is a digest of the key.
variable (controlPlaneFingerprint : String → String)

def decidedRequest (request : TrustRequest) (input : TrustDecision) (now : Nat)
    (status : RequestStatus) (pinId : Option Nat) : TrustRequest :=
  { request with
    status
    decidedAt := some now
    decidedBy := some input.actor
    decisionReason := (input.reason.filter (· ≠ "")).or request.decisionReason
    pinId
    revision := request.revision + 1
    updatedAt := now }

def approvedPin (request : TrustRequest) (input : TrustDecision) (now : Nat) :
    CloudControlPlanePin where
  columns := { request.columns with
    shareGrantId := request.columns.shareGrantId.filter (· ≠ "")
    shareRole := request.columns.shareRole.filter (· ≠ "")
    shareRevision := request.columns.shareRevision.filter (· ≠ 0) }
  status := .active
  approvedBy := input.actor
  approvedAt := now
  lastSeenAt := request.lastSeenAt
  revokedAt := none
  revokeReason := none
  authorizationRevision := 1
  createdAt := now
  updatedAt := now

variable (s : AccessRepository)

/-- The other active pins of the context, with any key. -/
def supersededPins (pinId : Nat) (pin : CloudControlPlanePin) : List (Nat × CloudControlPlanePin) :=
  s.activePins.filter fun entry =>
    entry.1 ≠ pinId && entry.2.columns.identity.context = pin.columns.identity.context

def revokeSupersededCloudControlPlanePins (pinId : Nat)
    (pin : CloudControlPlanePin) (now : Nat) : AccessRepository × List CloudControlPlanePin :=
  let revoke (old : CloudControlPlanePin) := old.revoke now (some "superseded-by-key-rotation")
  let rows := s.supersededPins pinId pin
  ({ s with pins := rows.foldl (fun pins row => pins.set row.1 (revoke row.2)) s.pins },
    rows.map fun row => revoke row.2)

variable (input : TrustDecision)

/-- Approve a pending request with the fingerprint and the revision it has. -/
def approveRequest (now : Nat)
    (request : TrustRequest) : Except TrustError (AccessRepository × DecisionResult) :=
  let pin := approvedPin request input now
  let pinId := s.nextId
  match s.insertPin pin with
  | .error error => .error error
  | .ok s =>
    let approved := decidedRequest request input now .approved (some pinId)
    match s.updateRequest input.requestId approved with
    | .error error => .error error
    | .ok s =>
      if input.retainPreviousKey then .ok (s, ⟨approved, some pin, []⟩)
      else
        let r := s.revokeSupersededCloudControlPlanePins pinId pin now
        .ok (r.1, ⟨approved, some pin, r.2⟩)

def rejectRequest (now : Nat)
    (request : TrustRequest) : Except TrustError (AccessRepository × DecisionResult) :=
  let rejected := decidedRequest request input now .rejected request.pinId
  (s.updateRequest input.requestId rejected).map fun s => (s, ⟨rejected, none, []⟩)

/-- The answer to a decision that was made before. -/
def repeatedDecision (request : TrustRequest) : Option DecisionResult :=
  match input.action with
  | .approve =>
    if request.status = .approved then
      (request.pinId.bind s.pins.get?).map fun pin => ⟨request, some pin, []⟩
    else none
  | .reject => if request.status = .rejected then some ⟨request, none, []⟩ else none

def decideCloudControlPlaneTrust (now : Nat) :
    Except TrustError (AccessRepository × DecisionResult) :=
  let s := s.expireCloudControlPlaneTrustRequests now
  match s.requests.get? input.requestId with
  | none => .error requestNotFound
  | some request =>
    if controlPlaneFingerprint request.columns.controlPlanePublicKey ≠
        input.expectedFingerprint then .error fingerprintConflict
    else
      match s.repeatedDecision input request with
      | some result => .ok (s, result)
      | none =>
        if request.revision ≠ input.expectedRevision then .error requestRevisionConflict
        else if request.status ≠ .pending then .error alreadyDecided
        else
          match input.action with
          | .reject => s.rejectRequest input now request
          | .approve => s.approveRequest input now request

/-! ## Revoking and retrying -/

structure RevokeInput where
  pinId : Nat
  expectedFingerprint : String
  expectedRevision : Nat
  reason : Option String
  actor : Actor

def revokeCloudControlPlaneTrustPin (input : RevokeInput) (now : Nat) :
    Except TrustError (AccessRepository × CloudControlPlanePin) :=
  match s.pins.get? input.pinId with
  | none => .error pinNotFound
  | some pin =>
    if controlPlaneFingerprint pin.columns.controlPlanePublicKey ≠ input.expectedFingerprint then
      .error fingerprintConflict
    else if pin.authorizationRevision ≠ input.expectedRevision then .error pinRevisionConflict
    else if pin.status = .revoked then .ok (s, pin)
    else if input.actor.type = .controlPlane ∧ input.actor.id = pin.columns.controlPlaneId then
      .error selfRevokeForbidden
    else
      let revoked := pin.revoke now (input.reason.filter (· ≠ ""))
      (s.updatePin input.pinId revoked).map fun s => (s, revoked)

end Deciding

structure RetryInput where
  requestId : Nat
  now : Nat
  ttlMs : Nat
  actor : Actor

def retriedRequest (request : TrustRequest) (input : RetryInput) : TrustRequest :=
  { request with
    status := .pending
    requestedAt := input.now
    lastSeenAt := input.now
    expiresAt := input.now + input.ttlMs
    decidedAt := none
    decidedBy := none
    decisionReason := none
    pinId := none
    revision := 1
    createdAt := input.now
    updatedAt := input.now }

def retryCloudControlPlaneTrustRequest (input : RetryInput) :
    Except TrustError (AccessRepository × TrustRequest) :=
  let s := s.expireCloudControlPlaneTrustRequests input.now
  match s.requests.get? input.requestId with
  | none => .error requestNotFound
  | some request =>
    match request.status with
    | .pending => .ok (s, request)
    | .approved => .error alreadyApproved
    | .rejected | .expired =>
      match s.findCloudControlPlaneTrustRequest request.columns.identity .pending with
      | some (_, existing) => .ok (s, existing)
      | none =>
        let retried := retriedRequest request input
        (s.insertRequest retried).map fun s => (s, retried)

/-! ## Histories -/

inductive Action where
  | observe (input : ObserveInput)
  | decide (input : TrustDecision) (now : Nat)
  | revoke (input : RevokeInput) (now : Nat)
  | retry (input : RetryInput)
  | withdraw (controlPlaneId reason : String) (now : Nat)
  | expire (now : Nat)

/-- The tables behind a call; one that throws is rolled back. -/
def behind {α : Type} (s : AccessRepository)
    (result : Except TrustError (AccessRepository × α)) : AccessRepository :=
  match result with
  | .ok r => r.1
  | .error _ => s

def step (controlPlaneFingerprint : String → String) (s : AccessRepository) :
    Action → Option AccessRepository
  | .observe input => some (s.behind (s.observeCloudControlPlaneTrust input))
  | .decide input now =>
    some (s.behind (s.decideCloudControlPlaneTrust controlPlaneFingerprint input now))
  | .revoke input now =>
    some (s.behind (s.revokeCloudControlPlaneTrustPin controlPlaneFingerprint input now))
  | .retry input => some (s.behind (s.retryCloudControlPlaneTrustRequest input))
  | .withdraw controlPlaneId reason now =>
    some (s.withdrawCloudControlPlaneTrustRequests controlPlaneId reason now)
  | .expire now => some (s.expireCloudControlPlaneTrustRequests now)

end AccessRepository

end TaskHandoff.Persistence
