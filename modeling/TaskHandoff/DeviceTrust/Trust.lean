import TaskHandoff.Lib.Machine
import TaskHandoff.Lib.OrderedMap
import Mathlib.Data.List.Sort

/-! # Trusted devices of a control plane

`CloudDeviceTrustService`: a device that is seen in an access context asks for approval, an
administrator approves or rejects its request, and an approved device gets a pin with the local role
its cloud role stands for. Every operation is one transaction over the rows of pins and requests;
what throws leaves them as they were. -/

namespace TaskHandoff.DeviceTrust.Trust

open Machine

/-! ## Rows -/

inductive AccessMode
  | owner
  | shared
deriving DecidableEq

structure Context where
  bindingId : String
  accountId : String
  ownerAccountId : String
  accessMode : AccessMode
  shareGrantId : Option String
  cloudAccessRoleId : String
  devicePublicKey : String
deriving DecidableEq

/-- `validateAccessContext`, as far as it is about the context alone. -/
def Context.valid (c : Context) : Bool :=
  match c.accessMode with
  | .owner => c.ownerAccountId = c.accountId && c.shareGrantId.isNone
  | .shared => c.ownerAccountId ≠ c.accountId && c.shareGrantId.isSome

/-- What a device reports about itself. -/
structure Device where
  name : String
  kind : String
  platform : String
  version : Option String
deriving DecidableEq

inductive ActorType
  | user
  | cloudAccount
  | system
deriving DecidableEq

/-- `CloudDeviceTrustActor`. -/
structure Actor where
  type : ActorType
  id : String
  permissionIds : List String
  deviceTrustPinId : Option String

/-- A local role. Times are milliseconds. -/
structure Role where
  permissionIds : List String
  active : Bool
  updatedAt : Nat

structure ResolvedRole where
  roleIds : List String
  permissionIds : List String
  authorizationRevision : Nat

inductive PinStatus
  | active
  | revoked
deriving DecidableEq

/-- `CloudDevicePinRecord`. -/
structure Pin where
  id : String
  context : Context
  shareRevision : Option Nat
  device : Device
  roleId : String
  status : PinStatus
  label : Option String
  approvedByActorType : ActorType
  approvedByActorId : String
  approvedAt : Nat
  lastSeenAt : Nat
  revokedAt : Option Nat
  revokeReason : Option String
  authorizationRevision : Nat
  revision : Nat
  createdAt : Nat
  updatedAt : Nat
deriving DecidableEq

/-- `CloudDevicePinRecordSchema`. -/
def Pin.valid (p : Pin) : Bool :=
  p.context.valid && (p.context.accessMode = .shared || p.shareRevision.isNone)

inductive RequestStatus
  | pending
  | approved
  | rejected
  | expired
deriving DecidableEq

inductive Reason
  | firstSeen
  | roleChanged
  | shareRoleChanged
deriving DecidableEq

/-- The text a reason is stored as. -/
def Reason.text : Reason → String
  | .firstSeen => "first-seen"
  | .roleChanged => "role-changed"
  | .shareRoleChanged => "share-role-changed"

/-- `CloudDeviceTrustRequestRecord`. -/
structure Request where
  id : String
  context : Context
  shareRevision : Option Nat
  device : Device
  status : RequestStatus
  reason : Reason
  requestedAt : Nat
  lastSeenAt : Nat
  expiresAt : Nat
  decidedAt : Option Nat
  decidedByActorType : Option ActorType
  decidedByActorId : Option String
  decidedRoleId : Option String
  decisionReason : Option String
  approvedPinId : Option String
  revision : Nat
  createdAt : Nat
  updatedAt : Nat
deriving DecidableEq

/-- `CloudDeviceTrustRequestRecordSchema`. -/
def Request.valid (r : Request) : Bool :=
  r.context.valid && r.context.shareGrantId.isSome == r.shareRevision.isSome &&
    r.requestedAt < r.expiresAt && (r.status = .pending) == r.decidedAt.isNone &&
    (r.status ≠ .approved || r.approvedPinId.isSome)

/-- The errors of the service, and those of the schemas and the unique indexes below it. -/
inductive TrustError
  | revisionConflict
  | requestNotFound
  | requestNotPending
  | requestExpired
  | fingerprintConflict
  | pinNotFound
  | pinNotActive
  | roleUnavailable
  | adminRequired
  | selfApprovalForbidden
  | invalidRecord
  | uniqueContext

namespace TrustError

/-- The code and the HTTP status of an error of the service. -/
def code : TrustError → Option (String × Nat)
  | .revisionConflict => some ("CLOUD_DEVICE_TRUST_REVISION_CONFLICT", 409)
  | .requestNotFound => some ("CLOUD_DEVICE_TRUST_REQUEST_NOT_FOUND", 404)
  | .requestNotPending => some ("CLOUD_DEVICE_TRUST_REQUEST_NOT_PENDING", 409)
  | .requestExpired => some ("CLOUD_DEVICE_TRUST_REQUEST_EXPIRED", 409)
  | .fingerprintConflict => some ("CLOUD_DEVICE_TRUST_FINGERPRINT_CONFLICT", 409)
  | .pinNotFound => some ("CLOUD_DEVICE_PIN_NOT_FOUND", 404)
  | .pinNotActive => some ("CLOUD_DEVICE_PIN_NOT_ACTIVE", 409)
  | .roleUnavailable => some ("CLOUD_DEVICE_TRUST_ROLE_UNAVAILABLE", 400)
  | .adminRequired => some ("CLOUD_DEVICE_TRUST_ADMIN_REQUIRED", 403)
  | .selfApprovalForbidden => some ("CLOUD_DEVICE_TRUST_SELF_APPROVAL_FORBIDDEN", 403)
  | .invalidRecord | .uniqueContext => none

end TrustError

/-- The rows the service reads and writes, in the order of their insertion. -/
structure Store where
  roles : OrderedMap String Role
  pins : List Pin
  requests : List Request

def Store.empty : Store := ⟨OrderedMap.empty, [], []⟩

/-- What the service is made with: the digest of a device key and the life of a request. -/
structure Settings where
  fingerprint : String → String
  requestTtlMs : Nat := 24 * 60 * 60000

abbrev Answer := Except TrustError

theorem bind_ok {α β : Type} {x : Answer α} {f : α → Answer β} {b : β} :
    (x >>= f) = .ok b ↔ ∃ a, x = .ok a ∧ f a = .ok b := by
  cases x with
  | error e => simp [bind, Except.bind]
  | ok a => simp [bind, Except.bind]

namespace Store

/-! ## The repository -/

variable (p : Pin)
variable (s : Store)

def setPin : Store :=
  { s with pins := s.pins.map fun q => if q.id = p.id then p else q }

def addPin : Store := { s with pins := s.pins ++ [p] }

variable (r : Request)

def setRequest (s : Store) : Store :=
  { s with requests := s.requests.map fun q => if q.id = r.id then r else q }

def addRequest (s : Store) : Store := { s with requests := s.requests ++ [r] }

def findActivePin (c : Context) (s : Store) : Option Pin :=
  s.pins.find? fun p => p.context = c && p.status = .active

def getPin (id : String) (s : Store) : Option Pin := s.pins.find? fun p => p.id = id

def listPins (bindingId : String) (s : Store) : List Pin :=
  (s.pins.filter fun p => p.context.bindingId = bindingId).insertionSort
    fun p q => q.approvedAt ≤ p.approvedAt

def findPendingRequest (c : Context) (s : Store) : Option Request :=
  s.requests.find? fun r => r.context = c && r.status = .pending

def getRequest (id : String) (s : Store) : Option Request := s.requests.find? fun r => r.id = id

def listRequests (bindingId : String) (s : Store) : List Request :=
  (s.requests.filter fun r => r.context.bindingId = bindingId).insertionSort
    fun r q => q.requestedAt ≤ r.requestedAt

/-- `latestRequest`: the highest time of request, and the highest id among these. -/
def latestRequest (c : Context) (s : Store) : Option Request :=
  ((s.requests.filter fun r => r.context = c).insertionSort fun r q =>
    q.requestedAt < r.requestedAt ∨ q.requestedAt = r.requestedAt ∧ q.id ≤ r.id).head?

/-- The unique index over the active pins of a context. -/
def pinClashes : Bool :=
  p.status = .active &&
    s.pins.any fun q => q.id ≠ p.id && q.status = .active && q.context = p.context

/-- The unique index over the pending requests of a context. -/
def requestClashes (s : Store) : Bool :=
  r.status = .pending &&
    s.requests.any fun q => q.id ≠ r.id && q.status = .pending && q.context = r.context

def putPin : Answer Store :=
  if !p.valid then throw .invalidRecord
  else if s.pinClashes p then throw .uniqueContext
  else if (s.getPin p.id).isSome then pure (s.setPin p)
  else pure (s.addPin p)

/-- `putPinIfStatus`: `none` where no row was changed. -/
def putPinIfStatus (status : PinStatus) (revision : Nat) (s : Store) : Answer (Option Store) :=
  if !p.valid then throw .invalidRecord
  else if s.pins.any fun q => q.id = p.id && q.status = status && q.revision = revision then
    if s.pinClashes p then throw .uniqueContext else pure (some (s.setPin p))
  else pure none

def putRequest (s : Store) : Answer Store :=
  if !r.valid then throw .invalidRecord
  else if s.requestClashes r then throw .uniqueContext
  else if (s.getRequest r.id).isSome then pure (s.setRequest r)
  else pure (s.addRequest r)

/-- `putRequestIfStatus`: `none` where no row was changed. -/
def putRequestIfStatus (status : RequestStatus) (revision : Nat) (s : Store) :
    Answer (Option Store) :=
  if !r.valid then throw .invalidRecord
  else if s.requests.any fun q => q.id = r.id && q.status = status && q.revision = revision then
    if s.requestClashes r then throw .uniqueContext else pure (some (s.setRequest r))
  else pure none

/-- The error a caller throws where no row was changed. -/
def changed (e : TrustError) : Option Store → Answer Store
  | none => throw e
  | some s => pure s

/-- `putPinIfStatus` for a caller that throws where no row was changed. -/
def writePin (e : TrustError) (p : Pin) (status : PinStatus) (revision : Nat) (s : Store) :
    Answer Store :=
  s.putPinIfStatus p status revision >>= changed e

/-- `putRequestIfStatus` for a caller that throws where no row was changed. -/
def writeRequest (e : TrustError) (r : Request) (status : RequestStatus) (revision : Nat)
    (s : Store) : Answer Store :=
  s.putRequestIfStatus r status revision >>= changed e

/-- `roleAuthorization`. `none` stands for `CONTROL_PLANE_ROLE_INACTIVE`. -/
def resolveRole (roleId : String) (s : Store) : Option ResolvedRole :=
  match s.roles.get? roleId with
  | none => none
  | some role =>
    if role.active then
      some ⟨[roleId], role.permissionIds.insertionSort (· ≤ ·), max 1 role.updatedAt⟩
    else none

/-! ## Parts of the operations -/

/-- An observation of a client: its context, the share revision of its ticket, its device and
whether it asks for trust again. `requestId` is the id a new request would get. -/
structure Observe where
  context : Context
  shareRevision : Option Nat
  device : Device
  explicitRetry : Bool
  now : Nat
  requestId : String

/-- `CloudDeviceObservation`. -/
inductive Observation
  | active (pin : Pin) (role : ResolvedRole)
  | pending (request : Request) (revokedPins : List Pin)
  | rejected (request : Request)
  | expired (request : Request)
  | revoked (pin : Pin)
  | authorizationStale

variable (now : Nat)

/-- The row that `revokePinForReapproval` writes. -/
def revokedPin (reason : Option String) : Pin :=
  { p with
    status := .revoked
    revokedAt := some now
    revokeReason := reason <|> p.revokeReason
    authorizationRevision := p.authorizationRevision + 1
    revision := p.revision + 1
    updatedAt := now }

def revokePinForReapproval (reason : String) (s : Store) : Answer (Store × Pin) := do
  let revoked := revokedPin p now (some reason)
  let s ← s.writePin .revisionConflict revoked .active p.revision
  pure (s, revoked)

def touchRequest (input : Observe) (reason : Reason) : Request :=
  let shareRevision := input.shareRevision <|> r.shareRevision
  if r.shareRevision = shareRevision ∧ r.device = input.device ∧ r.reason = reason then
    { r with lastSeenAt := input.now }
  else
    { r with
      shareRevision
      device := input.device
      reason
      lastSeenAt := input.now
      revision := r.revision + 1
      updatedAt := input.now }

def touchPin (input : Observe) : Pin :=
  if p.device = input.device then { p with lastSeenAt := input.now }
  else
    { p with
      device := input.device
      lastSeenAt := input.now
      revision := p.revision + 1
      updatedAt := input.now }

/-- The pin of a shared context moved on to a higher share revision. A version that the device does
not report stays. -/
def convergedPin (shareRevision : Nat) (input : Observe) : Pin :=
  { p with
    shareRevision := some shareRevision
    device := { input.device with version := input.device.version <|> p.device.version }
    lastSeenAt := input.now
    revision := p.revision + 1
    updatedAt := input.now }

/-- The row that `expireRequestInRepository` writes. -/
def expiredRequest : Request :=
  { r with
    status := .expired
    decidedAt := some now
    decidedByActorType := some .system
    decidedByActorId := some "control-plane"
    revision := r.revision + 1
    updatedAt := now }

/-- `expireRequestInRepository`, for a request read as pending and past its time. -/
def expireRequest (s : Store) : Answer (Store × Request) := do
  let s ← s.writeRequest .revisionConflict (expiredRequest r now) .pending r.revision
  pure (s, expiredRequest r now)

variable (cfg : Settings)

def newRequest (input : Observe) (reason : Reason) : Request where
  id := input.requestId
  context := input.context
  shareRevision := input.shareRevision
  device := input.device
  status := .pending
  reason
  requestedAt := input.now
  lastSeenAt := input.now
  expiresAt := input.now + cfg.requestTtlMs
  decidedAt := none
  decidedByActorType := none
  decidedByActorId := none
  decidedRoleId := none
  decisionReason := none
  approvedPinId := none
  revision := 1
  createdAt := input.now
  updatedAt := input.now

def createRequest (input : Observe) (reason : Reason) (s : Store) : Answer (Store × Request) := do
  let s ← s.putRequest (newRequest cfg input reason)
  pure (s, newRequest cfg input reason)

def createOrRefreshRequest (input : Observe) (reason : Reason) (s : Store) :
    Answer (Store × Request) :=
  match s.findPendingRequest input.context with
  | none => s.createRequest cfg input reason
  | some existing =>
    if input.now < existing.expiresAt then do
      let refreshed := touchRequest existing input reason
      let s ← s.writeRequest .revisionConflict refreshed .pending existing.revision
      pure (s, refreshed)
    else do
      let expired ← s.expireRequest existing input.now
      expired.1.createRequest cfg input reason

def isStaleShareRevision (input : Observe) : Bool :=
  input.context.accessMode = .shared &&
    match r.shareRevision, input.shareRevision with
    | some known, some incoming => incoming < known
    | _, _ => false

def supersededPins (pins : List Pin) (c : Context) : List Pin :=
  pins.filter fun p => p.status = .active && p.context.bindingId = c.bindingId &&
    p.context.accountId = c.accountId && p.context.ownerAccountId = c.ownerAccountId &&
    p.context.devicePublicKey = c.devicePublicKey && p.context ≠ c

def reapprovalReason (pins : List Pin) (c : Context) : Reason :=
  match (supersededPins pins c).head? with
  | none => .firstSeen
  | some previous =>
    if previous.context.shareGrantId ≠ c.shareGrantId then .shareRoleChanged else .roleChanged

/-- Revoke a list of pins, one after the other. -/
def revokeAll (now : Nat) (reason : String) : List Pin → Store → Answer (Store × List Pin)
  | [], s => pure (s, [])
  | p :: rest, s => do
      let first ← s.revokePinForReapproval p now reason
      let others ← revokeAll now reason rest first.1
      pure (others.1, first.2 :: others.2)

/-! ## Observing a client -/

/-- Where the role behind an active pin is gone or was changed: the pin is revoked and the device
asks again. -/
def reapproveRole (active : Pin) (reason : String) (input : Observe) (s : Store) :
    Answer (Store × Observation) := do
  let revoked ← s.revokePinForReapproval active input.now reason
  let request ← revoked.1.createOrRefreshRequest cfg input .roleChanged
  pure (request.1, .pending request.2 [revoked.2])

variable (active : Pin)
variable (role : ResolvedRole)

/-- An active pin whose role still stands, refreshed. -/
def refreshPin (input : Observe) (s : Store) : Answer (Store × Observation) := do
  let refreshed := touchPin active input
  let s ← s.writePin .revisionConflict refreshed .active active.revision
  pure (s, .active refreshed role)

/-- An active pin moved on to a higher share revision. -/
def convergePin (shareRevision : Nat) (input : Observe)
    (s : Store) : Answer (Store × Observation) := do
  let converged := convergedPin active shareRevision input
  let s ← s.writePin .revisionConflict converged .active active.revision
  pure (s, .active converged role)

/-- An active pin whose role still stands. -/
def observeActive (input : Observe) (s : Store) : Answer (Store × Observation) :=
  match active.context.accessMode, input.shareRevision with
  | .shared, some incoming =>
    match active.shareRevision with
    | none => s.convergePin active role incoming input
    | some known =>
      if incoming < known then pure (s, .authorizationStale)
      else if known < incoming then s.convergePin active role incoming input
      else s.refreshPin active role input
  | _, _ => s.refreshPin active role input

/-- The role behind the pin was edited behind its approval. -/
def roleMoved : Bool :=
  role.roleIds.length = 0 || active.authorizationRevision < role.authorizationRevision

/-- The pin of an approved request, where it is revoked. -/
def revokedApproval (s : Store) : Option Pin :=
  (r.approvedPinId.bind fun id => s.getPin id).filter fun p => p.status = .revoked

/-- A context without an active pin and a pending request: the pins its account and device hold in
other contexts are revoked, and the device asks for approval. -/
def requestAccess (input : Observe) (s : Store) : Answer (Store × Observation) := do
  let pins := s.listPins input.context.bindingId
  let reason := reapprovalReason pins input.context
  let revoked ←
    if reason = .firstSeen then pure (s, [])
    else s.revokeAll input.now reason.text (supersededPins pins input.context)
  let request ← revoked.1.createOrRefreshRequest cfg input reason
  pure (request.1, .pending request.2 revoked.2)

/-- Behind the checks of the latest request: an approved request of the context whose pin is revoked
still stands in the way of a background reconnect. -/
def reopen (input : Observe) (s : Store) : Answer (Store × Observation) :=
  let approved := (s.listRequests input.context.bindingId).find? fun r =>
    r.status = .approved && r.context = input.context
  match approved.bind fun r => s.revokedApproval r with
  | some pin =>
    if input.explicitRetry then s.requestAccess cfg input else pure (s, .revoked pin)
  | none => s.requestAccess cfg input

/-- The latest request of a context without an active pin. -/
def observeLatest (latest : Request) (input : Observe) (s : Store) : Answer (Store × Observation) :=
  if isStaleShareRevision latest input then pure (s, .authorizationStale)
  else
    match latest.status with
    | .pending =>
      if latest.expiresAt ≤ input.now then do
        let expired ← s.expireRequest latest input.now
        pure (expired.1, .expired expired.2)
      else do
        let refreshed := touchRequest latest input latest.reason
        let s ← s.writeRequest .revisionConflict refreshed .pending latest.revision
        pure (s, .pending refreshed [])
    | .expired =>
      if input.explicitRetry then s.reopen cfg input else pure (s, .expired latest)
    | .rejected =>
      if input.explicitRetry then s.reopen cfg input else pure (s, .rejected latest)
    | .approved =>
      match s.revokedApproval latest with
      | some pin =>
        if input.explicitRetry then s.reopen cfg input else pure (s, .revoked pin)
      | none => s.reopen cfg input

/-- `observeInRepository`, with the state behind its transaction. -/
def observeClient (input : Observe) (s : Store) : Answer (Store × Observation) :=
  match s.findActivePin input.context with
  | some active =>
    match s.resolveRole active.roleId with
    | none => s.reapproveRole cfg active "local-role-unavailable" input
    | some role =>
      if roleMoved active role then s.reapproveRole cfg active "local-role-changed" input
      else s.observeActive active role input
  | none =>
    match s.latestRequest input.context with
    | none => s.reopen cfg input
    | some latest => s.observeLatest cfg latest input

/-! ## Decisions -/

/-- `assertAdmin`, for a binding where one is given. -/
def assertAdmin (actor : Actor) (bindingId : Option String) (s : Store) : Answer Unit :=
  if actor.type ≠ .system && !actor.permissionIds.contains "settings:manage" then
    throw .adminRequired
  else if actor.type = .cloudAccount then
    match actor.deviceTrustPinId.bind fun id => s.getPin id with
    | none => throw .adminRequired
    | some pin =>
      let manages := ((s.resolveRole pin.roleId).map fun role =>
        role.permissionIds.contains "settings:manage").getD false
      if pin.status = .active && manages &&
          (bindingId.isNone || bindingId = some pin.context.bindingId) then pure ()
      else throw .adminRequired
  else pure ()

def assertNotSelfApproval (actor : Actor) (r : Request) (s : Store) : Answer Unit :=
  if actor.type = .cloudAccount then
    match actor.deviceTrustPinId.bind fun id => s.getPin id with
    | none => pure ()
    | some pin =>
      if pin.status = .active && pin.context.devicePublicKey = r.context.devicePublicKey then
        throw .selfApprovalForbidden
      else pure ()
  else pure ()

def requirePending (requestId : String) (now : Nat) (s : Store) : Answer Request :=
  match s.getRequest requestId with
  | none => throw .requestNotFound
  | some r =>
    if r.status ≠ .pending then throw .requestNotPending
    else if r.expiresAt ≤ now then throw .requestExpired
    else pure r

def check (b : Bool) (e : TrustError) : Answer Unit := if b then pure () else throw e

def resolveApprovalRole (roleId : String) (s : Store) : Answer ResolvedRole :=
  match s.resolveRole roleId with
  | none => throw .roleUnavailable
  | some role => if role.roleIds.length = 0 then throw .roleUnavailable else pure role

/-- A decision over a request. `pinId` is the id the pin of an approval gets. -/
structure Decide where
  requestId : String
  expectedFingerprint : String
  expectedRevision : Nat
  actor : Actor
  label : Option String
  reason : Option String
  now : Nat
  pinId : String

def approvedPin (input : Decide) (role : ResolvedRole) (roleId : String)
    (previous : Option Pin) : Pin where
  id := input.pinId
  context := r.context
  shareRevision := r.shareRevision
  device := r.device
  roleId
  status := .active
  label := input.label <|> previous.bind (·.label)
  approvedByActorType := input.actor.type
  approvedByActorId := input.actor.id
  approvedAt := input.now
  lastSeenAt := input.now
  revokedAt := none
  revokeReason := none
  authorizationRevision := role.authorizationRevision
  revision := 1
  createdAt := input.now
  updatedAt := input.now

/-- The row of a request behind a decision. -/
def decidedRequest (input : Decide) (status : RequestStatus) : Request :=
  { r with
    status
    decidedAt := some input.now
    decidedByActorType := some input.actor.type
    decidedByActorId := some input.actor.id
    decisionReason := input.reason <|> r.decisionReason
    revision := r.revision + 1
    updatedAt := input.now }

/-- `approveInRepository` behind its checks. -/
def applyApproval (input : Decide) (role : ResolvedRole) (roleId : String)
    (s : Store) : Answer (Store × Request × Pin) := do
  let previous := s.findActivePin r.context
  let pin := approvedPin r input role roleId previous
  -- The pin is staged as revoked, so that the request can name it before it is active.
  let s ← s.putPin { pin with status := .revoked, revokedAt := some input.now }
  let approved :=
    { decidedRequest r input .approved with
      decidedRoleId := some roleId, approvedPinId := some pin.id }
  let s ← s.writeRequest .requestNotPending approved .pending r.revision
  let s ←
    match previous with
    | none => pure s
    | some p => do
        let revoked ← s.revokePinForReapproval p input.now "superseded-by-approval"
        pure revoked.1
  let s ← s.writePin .revisionConflict pin .revoked 1
  pure (s, approved, pin)

def approve (input : Decide) (s : Store) : Answer (Store × Request × Pin) := do
  s.assertAdmin input.actor none
  let r ← s.requirePending input.requestId input.now
  let role ← s.resolveApprovalRole r.context.cloudAccessRoleId
  s.assertAdmin input.actor (some r.context.bindingId)
  s.assertNotSelfApproval input.actor r
  check (r.revision = input.expectedRevision) .revisionConflict
  check (cfg.fingerprint r.context.devicePublicKey = input.expectedFingerprint) .fingerprintConflict
  match role.roleIds.head? with
  | none => throw .roleUnavailable
  | some roleId => s.applyApproval r input role roleId

def reject (input : Decide) (s : Store) : Answer (Store × Request) := do
  s.assertAdmin input.actor none
  let r ← s.requirePending input.requestId input.now
  s.assertAdmin input.actor (some r.context.bindingId)
  s.assertNotSelfApproval input.actor r
  check (cfg.fingerprint r.context.devicePublicKey = input.expectedFingerprint) .fingerprintConflict
  check (r.revision = input.expectedRevision) .revisionConflict
  let s ← s.writeRequest .requestNotPending (decidedRequest r input .rejected) .pending r.revision
  pure (s, decidedRequest r input .rejected)

/-- A revocation by an administrator. -/
structure Revoke where
  pinId : String
  expectedRevision : Nat
  actor : Actor
  reason : Option String
  now : Nat

def revokePin (input : Revoke) (s : Store) : Answer (Store × Pin) := do
  s.assertAdmin input.actor none
  match s.getPin input.pinId with
  | none => throw .pinNotFound
  | some pin => do
      check (pin.status = .active) .pinNotActive
      s.assertAdmin input.actor (some pin.context.bindingId)
      check (pin.revision = input.expectedRevision) .revisionConflict
      let updated := revokedPin pin input.now input.reason
      let s ← s.writePin .pinNotActive updated .active pin.revision
      pure (s, updated)

/-- The loop of `expire` over the requests read at its start. -/
def expireAll (now : Nat) : List Request → Store → Answer Store
  | [], s => pure s
  | r :: rest, s =>
    if r.status = .pending ∧ r.expiresAt ≤ now then do
      let written ← s.putRequestIfStatus (expiredRequest r now) .pending r.revision
      expireAll now rest (written.getD s)
    else expireAll now rest s

def expire (bindingId : String) (now : Nat) (s : Store) : Answer Store :=
  s.expireAll now (s.listRequests bindingId)

/-- An edit of a role: `createRole`, `updateRole` or `archiveRole`. -/
def editRole (roleId : String) (permissionIds : List String) (active : Bool) (now : Nat)
    (s : Store) : Store :=
  { s with roles := s.roles.set roleId ⟨permissionIds, active, now⟩ }

/-! ## Histories -/

inductive Action
  | observe (input : Observe)
  | approve (input : Decide)
  | reject (input : Decide)
  | revokePin (input : Revoke)
  | expire (bindingId : String) (now : Nat)
  | editRole (roleId : String) (permissionIds : List String) (active : Bool) (now : Nat)

/-- The state behind a transaction: an error leaves what was before. -/
def after {α : Type} (s : Store) (x : Answer α) (f : α → Store) : Store :=
  match x with
  | .error _ => s
  | .ok a => f a

/-- One operation. The ids that `createId` draws are new. -/
def step (s : Store) : Action → Option Store
  | .observe input =>
    if (s.getRequest input.requestId).isNone then
      some (s.after (s.observeClient cfg input) Prod.fst)
    else none
  | .approve input =>
    if (s.getPin input.pinId).isNone then some (s.after (s.approve cfg input) Prod.fst) else none
  | .reject input => some (s.after (s.reject cfg input) Prod.fst)
  | .revokePin input => some (s.after (s.revokePin input) Prod.fst)
  | .expire bindingId now => some (s.after (s.expire bindingId now) id)
  | .editRole roleId permissionIds active now => some (s.editRole roleId permissionIds active now)

end Store

end TaskHandoff.DeviceTrust.Trust
