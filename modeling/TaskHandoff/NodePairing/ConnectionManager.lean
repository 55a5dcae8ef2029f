import TaskHandoff.Lib.OrderedMap

/-! # Pairing a node

`NodeConnectionManager.create` from the moment `completePairing` has returned, and the recovery of
pending revocations. The stores are a table of the database and its copy in memory, which reads go
to. The identifiers of a completed pairing are never empty, so the checks of a remote node's secret
and key id pass. -/

namespace TaskHandoff.NodePairing

inductive ConnectionMode
  | localIpc
  | localLoopback
  | directHttp
  | reverseWss
  | controlPlaneProxy
  | cloudRelay
deriving DecidableEq

inductive AuthMode
  | localStaticKey
  | pairedHmac
  | proxyBinding
deriving DecidableEq

structure NodeAuth where
  mode : AuthMode
  keyId : Option String
  secret : Option String
  pairedAt : Option String

structure Node where
  id : String
  connectionMode : ConnectionMode
  auth : NodeAuth
  controlEndpoint : String

/-- What a pairing gave to both sides. A key id belongs to its node. -/
structure Credentials where
  nodeId : String
  keyId : String
  secret : String
deriving DecidableEq

structure CompletedPairing extends Credentials where
  pairedAt : String
  invalidResponse : Bool
  unsafePublicIdentifiers : Bool

inductive PendingPhase
  | pendingCompensation
  | compensating
deriving DecidableEq

structure PendingPairingRevoke extends Credentials where
  id : String
  endpoint : String
  pairedAt : String
  phase : PendingPhase

inductive CreateError
  | pairingResponseInvalid
  | nodeInvalid
  | healthFailed
  | idMismatch
  | pairingIdentityMismatch
  | pairingSecretReflected
  | storage
  | projection
  | persistenceUncertain
  | compensationFailed

/-- The fields that `create` reads after the pairing, with the endpoint that it has chosen. -/
structure CreateNodeInput where
  id : Option String
  connectionMode : ConnectionMode
  controlEndpoint : String

/-- How a write ends. One that throws may have been carried out. -/
inductive Write
  | done
  | refused
  | lost
deriving DecidableEq

/-- How a request to revoke ends. A receipt that does not parse has no key id. -/
inductive Answer
  | threw
  | failed (status : Nat)
  | receipt (keyId : Option String)
deriving DecidableEq

/-- How the steps of `create` end: `nodes.get` returns when `looked`, and `observe` together with
the read after the commit when `observed`. -/
structure CreateOutcomes where
  recordPut : Write
  probeValid : Bool
  inspected : Option String
  candidateValid : Bool
  reflected : Bool
  commit : Write
  observed : Bool
  looked : Bool
  mark : Write
  answer : Answer
  clear : Write

/-- How the steps of the recovery of one record end. -/
structure RecoverOutcomes where
  looked : Bool
  mark : Write
  answer : Answer
  clear : Write

/-- A request to revoke, and whether a stored node carried the credentials then. -/
structure Revocation where
  credentials : Credentials
  stored : Bool
deriving DecidableEq

/-- The manager with its stores. No step reads `sent` and `acknowledged`. -/
structure NodeConnectionManager where
  nodeRows : OrderedMap String Node
  revokeRows : OrderedMap String PendingPairingRevoke
  configurations : OrderedMap String Node
  records : OrderedMap String PendingPairingRevoke
  activePendingPairingRevokes : List String
  sent : List Revocation
  acknowledged : List Credentials

def NodeAuth.Carries (auth : NodeAuth) (credentials : Credentials) : Prop :=
  auth.mode = .pairedHmac ∧ auth.keyId = some credentials.keyId ∧
    auth.secret = some credentials.secret

instance (auth : NodeAuth) (credentials : Credentials) : Decidable (auth.Carries credentials) :=
  inferInstanceAs (Decidable (_ ∧ _ ∧ _))

/-- The node of the credentials is in the table and carries them. -/
def Carried (nodes : OrderedMap String Node) (credentials : Credentials) : Prop :=
  ∃ node ∈ nodes.get? credentials.nodeId, node.auth.Carries credentials

instance (nodes : OrderedMap String Node) (credentials : Credentials) :
    Decidable (Carried nodes credentials) :=
  inferInstanceAs (Decidable (∃ node ∈ nodes.get? credentials.nodeId, node.auth.Carries credentials))

inductive PairingPersistence
  | present (node : Node)
  | absent
  | unknown

def pendingPairingRevoke (id endpoint : String) (pairing : CompletedPairing) :
    PendingPairingRevoke :=
  { pairing with id, endpoint, phase := .pendingCompensation }

/-- The checks between the pairing and the commit. -/
def checked (input : CreateNodeInput) (pairing : CompletedPairing) (outcomes : CreateOutcomes) :
    Except CreateError Node := do
  if pairing.invalidResponse ∨ pairing.unsafePublicIdentifiers then
    throw .pairingResponseInvalid
  unless outcomes.probeValid do
    throw .nodeInvalid
  let inspected ←
    if input.connectionMode = .reverseWss then pure none
    else match outcomes.inspected with
      | none => throw .healthFailed
      | some nodeId => pure (some nodeId)
  let id := input.id.getD pairing.nodeId
  if input.id.any (· ≠ pairing.nodeId) then
    throw .idMismatch
  if input.id.any fun id => inspected.any (· ≠ id) then
    throw .idMismatch
  if inspected.any (· ≠ pairing.nodeId) then
    throw .pairingIdentityMismatch
  unless outcomes.candidateValid do
    throw .nodeInvalid
  if outcomes.reflected then
    throw .pairingSecretReflected
  return {
    id
    connectionMode := input.connectionMode
    auth := ⟨.pairedHmac, some pairing.keyId, some pairing.secret, some pairing.pairedAt⟩
    controlEndpoint := input.controlEndpoint }

namespace NodeConnectionManager

variable (σ : NodeConnectionManager)

/-- `pendingPairingRevokes.put`, and whether it returned. -/
def putRecord (record : PendingPairingRevoke) : Write → Bool × NodeConnectionManager
  | .done =>
    (true, { σ with
      revokeRows := σ.revokeRows.set record.id record
      records := σ.records.set record.id record })
  | .refused => (false, σ)
  | .lost => (false, { σ with revokeRows := σ.revokeRows.set record.id record })

def clearPendingPairingRevoke (id : String) : Write → NodeConnectionManager
  | .done => { σ with revokeRows := σ.revokeRows.erase id, records := σ.records.erase id }
  | .refused => σ
  | .lost => { σ with revokeRows := σ.revokeRows.erase id }

/-- `nodes.commitPairing`: one transaction stores the node and deletes the record. -/
def commitPairing (node : Node) (revokeId : String) : Write → Bool × NodeConnectionManager
  | .done =>
    (true, { σ with
      nodeRows := σ.nodeRows.set node.id node
      revokeRows := σ.revokeRows.erase revokeId
      configurations := σ.configurations.set node.id node })
  | .refused => (false, σ)
  | .lost =>
    (false, { σ with
      nodeRows := σ.nodeRows.set node.id node
      revokeRows := σ.revokeRows.erase revokeId })

def pairingPersistence (credentials : Credentials) (looked : Bool) : PairingPersistence :=
  if looked then
    match σ.configurations.get? credentials.nodeId with
    | some node => if node.auth.Carries credentials then .present node else .absent
    | none => .absent
  else .unknown

def markPendingPairingCompensating (record : PendingPairingRevoke)
    (mark : Write) : Bool × NodeConnectionManager :=
  if record.phase = .compensating then (true, σ)
  else σ.putRecord { record with phase := .compensating } mark

def compensatePairing (credentials : Credentials) (answer : Answer) :
    Bool × NodeConnectionManager :=
  let σ := { σ with sent := σ.sent ++ [⟨credentials, decide (Carried σ.nodeRows credentials)⟩] }
  if answer = .receipt (some credentials.keyId) then
    (true, { σ with acknowledged := σ.acknowledged ++ [credentials] })
  else (false, σ)

/-- The body of the `try`, and whether it came to the commit. -/
def attempt (input : CreateNodeInput) (pairing : CompletedPairing)
    (record : PendingPairingRevoke) (outcomes : CreateOutcomes) :
    Except CreateError Node × Bool × NodeConnectionManager :=
  match σ.putRecord record outcomes.recordPut with
  | (false, σ) => (.error .storage, false, σ)
  | (true, σ) =>
    match checked input pairing outcomes with
    | .error error => (.error error, false, σ)
    | .ok candidate =>
      match σ.commitPairing candidate record.id outcomes.commit with
      | (false, σ) => (.error .storage, true, σ)
      | (true, σ) =>
        if outcomes.observed then
          (.ok candidate, true, σ.clearPendingPairingRevoke record.id outcomes.clear)
        else (.error .projection, true, σ)

/-- The end of the `catch`, for a pairing that no stored node carries. -/
def giveUp (pairing : CompletedPairing)
    (record : PendingPairingRevoke) (outcomes : CreateOutcomes) (error : CreateError) :
    Except CreateError Node × NodeConnectionManager :=
  match σ.markPendingPairingCompensating record outcomes.mark with
  | (false, σ) => (.error .storage, σ)
  | (true, σ) =>
    match σ.compensatePairing pairing.toCredentials outcomes.answer with
    | (false, σ) => (.error .compensationFailed, σ)
    | (true, σ) => (.error error, σ.clearPendingPairingRevoke record.id outcomes.clear)

/-- The `catch`. -/
def handle (pairing : CompletedPairing)
    (record : PendingPairingRevoke) (outcomes : CreateOutcomes) (error : CreateError)
    (nodePersistenceAttempted : Bool) : Except CreateError Node × NodeConnectionManager :=
  match σ.pairingPersistence pairing.toCredentials outcomes.looked with
  | .present node => (.ok node, σ.clearPendingPairingRevoke record.id outcomes.clear)
  | .absent => σ.giveUp pairing record outcomes error
  | .unknown =>
    if nodePersistenceAttempted then (.error .persistenceUncertain, σ)
    else σ.giveUp pairing record outcomes error

/-- `create` once the pairing has completed, with the id drawn for the record. -/
def create (input : CreateNodeInput) (pairing : CompletedPairing)
    (recordId : String) (outcomes : CreateOutcomes) :
    Except CreateError Node × NodeConnectionManager :=
  let record := pendingPairingRevoke recordId input.controlEndpoint pairing
  let σ := { σ with activePendingPairingRevokes := recordId :: σ.activePendingPairingRevokes }
  let (result, σ) : Except CreateError Node × NodeConnectionManager :=
    match σ.attempt input pairing record outcomes with
    | (.ok node, _, σ) => (.ok node, σ)
    | (.error error, attempted, σ) => σ.handle pairing record outcomes error attempted
  (result, { σ with
    activePendingPairingRevokes := σ.activePendingPairingRevokes.filter (· ≠ recordId) })

def recoverPendingPairingRevoke (record : PendingPairingRevoke)
    (outcomes : RecoverOutcomes) : NodeConnectionManager :=
  match σ.pairingPersistence record.toCredentials outcomes.looked with
  | .present _ => σ.clearPendingPairingRevoke record.id outcomes.clear
  | .unknown => σ
  | .absent =>
    match σ.markPendingPairingCompensating record outcomes.mark with
    | (false, σ) => σ
    | (true, σ) =>
      match σ.compensatePairing record.toCredentials outcomes.answer with
      | (false, σ) => σ
      | (true, σ) => σ.clearPendingPairingRevoke record.id outcomes.clear

/-- A recovery pass. The records are handled side by side, and each has its own id. -/
def recoverPendingPairingRevokes (outcomes : String → RecoverOutcomes) : NodeConnectionManager :=
  (σ.records.values.filter fun record => record.id ∉ σ.activePendingPairingRevokes).foldl
    (fun σ record => σ.recoverPendingPairingRevoke record (outcomes record.id)) σ

/-- The stores are filled from the database. -/
def restart : NodeConnectionManager :=
  { σ with
    configurations := σ.nodeRows
    records := σ.revokeRows
    activePendingPairingRevokes := [] }

/-- What happens between two creations. -/
inductive Later
  | recover (outcomes : String → RecoverOutcomes)
  | restart

def later : Later → NodeConnectionManager
  | .recover outcomes => σ.recoverPendingPairingRevokes outcomes
  | .restart => σ.restart

end NodeConnectionManager

end TaskHandoff.NodePairing
