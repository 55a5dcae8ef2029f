import TaskHandoff.Lib.Machine
import TaskHandoff.Lib.OrderedMap

/-! # The node relay channels of the control plane

`CloudNodeRelayChannels` keeps, by node handle, the live channel, the pending
claim, the last error and the trust entry of a node, and tells the node store
of connections and disconnections through one promise queue for each node. An
`attach` awaits several times; each stretch of it between two awaits is one
step here, so that closes, other attaches and `forgetNode` fall in between.
Sockets, audit records and change events decide nothing here and are left out.
A socket that the transport closes for a newer one of the same node belongs to
a channel that is no longer current.
-/

namespace TaskHandoff.CloudNodes

open Machine OrderedMap

/-! ## State -/

/-- `attach` tells the channel objects of different attaches apart. -/
structure ActiveNodeRelayChannel where
  attach : Nat
  allocationId : String
  nodeId : String

structure TrustEntry where
  nodeId : String
  state : String
  requestId : Option String
deriving DecidableEq

inductive NodeNotification where
  | connected
  | disconnected

/-- What the node adapter knows of a handle. -/
structure ResolvedNode where
  nodeId : String
  preserveLocalConnection : Bool
deriving DecidableEq

/-- What the node adapter knows of a node id. -/
structure InspectedNode where
  nodeId : String
  cloudRelay : Bool
  nodeHandle : Option String

structure VerifiedNodeRelayAllocation where
  nodeHandle : String
  allocationId : String
  nodeId : Option String

/-- An established session; `issuedPairing` when the handshake created a pairing to save. -/
structure Connection where
  nodeId : String
  issuedPairing : Bool
deriving DecidableEq

/-- What an attach in progress awaits. -/
inductive AttachPhase where
  | linking
  | connecting
  | ensuring (connection : Connection)
  | saving (nodeId : String)
  | notifying
deriving DecidableEq

/-- An attach in progress. `forgotten` records whether its node was forgotten
since it began; no method reads it. -/
structure AttachCall where
  verified : VerifiedNodeRelayAllocation
  revision : Nat
  resolved : Option ResolvedNode
  phase : AttachPhase
  forgotten : Bool

def AttachCall.forget (nodeHandle : String) (a : AttachCall) : AttachCall :=
  if a.verified.nodeHandle = nodeHandle then { a with forgotten := true } else a

inductive AttachEffect where
  | savePairing
  | installChannel
deriving DecidableEq

/-- `nodeLifecycleOperations` holds, for each node with an unsettled operation,
those that wait behind it. `executed` records the notifications in the order
they ran and `effects` what attaches did, with their `forgotten` marks. -/
structure Channels where
  channels : OrderedMap String ActiveNodeRelayChannel
  claims : OrderedMap String Nat
  errors : OrderedMap String String
  trust : OrderedMap String TrustEntry
  claimRevisions : OrderedMap String Nat
  nodeLifecycleOperations : OrderedMap String (List NodeNotification)
  attaches : OrderedMap Nat AttachCall
  nextAttach : Nat
  executed : List (String × NodeNotification)
  effects : List (AttachEffect × String × Bool)

/-- What the adapters, the transport and the node store answer during a step. -/
structure Env where
  claimEnabled : Bool
  resolved : Option ResolvedNode
  known : Option InspectedNode
  /-- The transport, if it is wired, with its answer for the current channel. -/
  transport : Option Bool
  attachThrows : Bool
  attachCloses : Bool
  connectedIsAsync : Bool
  disconnectedIsAsync : Bool

namespace Channels

def new : Channels where
  channels := empty
  claims := empty
  errors := empty
  trust := empty
  claimRevisions := empty
  nodeLifecycleOperations := empty
  attaches := empty
  nextAttach := 0
  executed := []
  effects := []

variable (s : Channels)

def claimRevision (nodeHandle : String) : Nat :=
  (s.claimRevisions.get? nodeHandle).getD 0

def recordError (nodeHandle code : String) : Channels :=
  { s with errors := s.errors.set nodeHandle code }

/-! ## Lifecycle notifications -/

/-- With nothing pending the operation runs at once; it is tracked when it returns a promise. -/
def enqueueNodeLifecycle (nodeId : String) (operation : NodeNotification)
    (isAsync : Bool) : Channels :=
  match s.nodeLifecycleOperations.get? nodeId with
  | none =>
    { s with
      executed := s.executed ++ [(nodeId, operation)]
      nodeLifecycleOperations :=
        if isAsync then s.nodeLifecycleOperations.set nodeId []
        else s.nodeLifecycleOperations }
  | some waiting =>
    { s with
      nodeLifecycleOperations :=
        s.nodeLifecycleOperations.set nodeId (waiting ++ [operation]) }

/-- The running operation settles; the next one runs, or the queue is dropped. -/
def settleNodeLifecycle (nodeId : String) : Option Channels :=
  match s.nodeLifecycleOperations.get? nodeId with
  | none => none
  | some [] => some { s with nodeLifecycleOperations := s.nodeLifecycleOperations.erase nodeId }
  | some (operation :: waiting) =>
    some { s with
      executed := s.executed ++ [(nodeId, operation)]
      nodeLifecycleOperations := s.nodeLifecycleOperations.set nodeId waiting }

/-! ## Closing channels -/

def discardChannel (nodeHandle : String) : Channels :=
  { s with channels := s.channels.erase nodeHandle }

variable (env : Env)

def closeNode (nodeHandle : String) : Channels :=
  match s.channels.get? nodeHandle with
  | none => s
  | some channel =>
    (s.discardChannel nodeHandle).enqueueNodeLifecycle channel.nodeId .disconnected
      env.disconnectedIsAsync

/-- Only the channel that is still current is closed. -/
def handleClosed (nodeHandle : String) (attach : Nat) : Channels :=
  match s.channels.get? nodeHandle with
  | none => s
  | some channel =>
    if channel.attach ≠ attach then s
    else
      { s with channels := s.channels.erase nodeHandle }.enqueueNodeLifecycle channel.nodeId
        .disconnected env.disconnectedIsAsync

/-- The errors are cleared only when there was no claim to clear. -/
def forgetNode (nodeHandle : String) : Channels :=
  let counted := { s with
    claimRevisions := s.claimRevisions.set nodeHandle (s.claimRevision nodeHandle + 1)
    attaches := s.attaches.mapValues (AttachCall.forget nodeHandle) }
  let cleared :=
    if counted.claims.contains nodeHandle then
      { counted with claims := counted.claims.erase nodeHandle }
    else { counted with errors := counted.errors.erase nodeHandle }
  { cleared with trust := cleared.trust.erase nodeHandle }.closeNode env nodeHandle

/-! ## Attaching -/

def preserveLocal (nodeHandle : String) : Channels :=
  let discarded := s.discardChannel nodeHandle
  { discarded with
    claims := discarded.claims.erase nodeHandle
    errors := discarded.errors.erase nodeHandle }

def isCurrentClaim (a : AttachCall) : Bool :=
  s.claimRevision a.verified.nodeHandle = a.revision && env.claimEnabled

variable (id : Nat)

def setAttach (a : AttachCall) : Channels :=
  { s with attaches := s.attaches.set id a }

/-- The call returns or throws. -/
def endAttach : Channels :=
  { s with attaches := s.attaches.erase id }

/-- The call awaits its first promise. -/
def beginAttach (v : VerifiedNodeRelayAllocation) (phase : AttachPhase) : Channels :=
  { s with
    attaches :=
      s.attaches.set s.nextAttach ⟨v, s.claimRevision v.nodeHandle, env.resolved, phase, false⟩
    nextAttach := s.nextAttach + 1 }

/-- The first stretch of `attach`, from the verified allocation on. -/
def attach (v : VerifiedNodeRelayAllocation) : Channels :=
  if env.claimEnabled = false then s
  else
    let current := s.channels.get? v.nodeHandle
    if (env.resolved.any fun r => v.nodeId.any fun nodeId => r.nodeId ≠ nodeId) then
      s.recordError v.nodeHandle "CLOUD_RELAY_NODE_ID_MISMATCH"
    else if (env.resolved.any fun r => r.preserveLocalConnection) then
      s.preserveLocal v.nodeHandle
    else if v.nodeId.isSome &&
        (env.known.any fun k => k.cloudRelay && k.nodeHandle ≠ some v.nodeHandle) then
      s.recordError v.nodeHandle "CLOUD_RELAY_NODE_ID_MISMATCH"
    else if v.nodeId.isSome && (env.known.any fun k => !k.cloudRelay) then s.beginAttach env v .linking
    else
      match env.transport with
      | none => s.recordError v.nodeHandle "NODE_RELAY_TRANSPORT_UNAVAILABLE"
      | some connected =>
        if (current.any fun channel => channel.allocationId = v.allocationId) && connected then s
        else (s.closeNode env v.nodeHandle).beginAttach env v .connecting

/-- The channel becomes current before the transport is handed its socket,
which may close while it is attached. -/
def install (id : Nat) (a : AttachCall) (nodeId : String) : Channels :=
  let handle := a.verified.nodeHandle
  let installed := { s with
    channels := s.channels.set handle ⟨id, a.verified.allocationId, nodeId⟩
    claims := s.claims.erase handle
    errors := s.errors.erase handle
    trust := s.trust.erase handle
    effects := (.installChannel, handle, a.forgotten) :: s.effects }
  if env.attachThrows then installed.endAttach id
  else
    let attached := if env.attachCloses then installed.handleClosed env handle id else installed
    (attached.enqueueNodeLifecycle nodeId .connected env.connectedIsAsync).setAttach id
      { a with phase := .notifying }

/-- What follows once the node's identity is known. -/
def attachIdentity (a : AttachCall)
    (connection : Connection) (identity : ResolvedNode) : Channels :=
  let handle := a.verified.nodeHandle
  if s.isCurrentClaim env a = false then s.endAttach id
  else if identity.nodeId ≠ connection.nodeId then
    (s.recordError handle "CLOUD_RELAY_NODE_ID_MISMATCH").endAttach id
  else if identity.preserveLocalConnection then (s.preserveLocal handle).endAttach id
  else if connection.issuedPairing then
    { s with effects := (.savePairing, handle, a.forgotten) :: s.effects }.setAttach id
      { a with phase := .saving identity.nodeId }
  else s.install env id a identity.nodeId

def connectFailed (a : AttachCall) (code : String) : Channels :=
  if s.isCurrentClaim env a then (s.recordError a.verified.nodeHandle code).endAttach id
  else s.endAttach id

def trustRequired (a : AttachCall) (outcome : TrustEntry) : Channels :=
  let handle := a.verified.nodeHandle
  if s.isCurrentClaim env a = false then s.endAttach id
  else if a.verified.nodeId.any fun nodeId => nodeId ≠ outcome.nodeId then
    (s.recordError handle "CLOUD_RELAY_NODE_ID_MISMATCH").endAttach id
  else
    { s with
      trust := s.trust.set handle outcome
      errors := s.errors.erase handle }.endAttach id

def connected (a : AttachCall) (connection : Connection) : Channels :=
  if s.isCurrentClaim env a = false then s.endAttach id
  else if a.verified.nodeId.any fun nodeId => nodeId ≠ connection.nodeId then
    (s.recordError a.verified.nodeHandle "CLOUD_RELAY_NODE_ID_MISMATCH").endAttach id
  else
    match a.resolved with
    | none => s.setAttach id { a with phase := .ensuring connection }
    | some identity => s.attachIdentity env id a connection identity

/-- The last stretch: the channel may have gone while the node was being told. -/
def notified (a : AttachCall) (rejected : Bool) : Channels :=
  let handle := a.verified.nodeHandle
  let isCurrent := (s.channels.get? handle).any fun channel => channel.attach = id
  if rejected || isCurrent then s.endAttach id
  else (s.recordError handle "NODE_RELAY_CHANNEL_CLOSED").endAttach id

end Channels

open Channels

/-- What settles an awaited promise of an attach. -/
inductive Settled where
  | linked (rejected : Bool)
  | connectFailed (code : String)
  | trustRequired (outcome : TrustEntry)
  | connected (connection : Connection)
  | ensureFailed (code : String)
  | ensured (identity : ResolvedNode)
  | saved (rejected : Bool)
  | notified (rejected : Bool)
deriving DecidableEq

inductive Event where
  | noteClaim (nodeHandle : String) (requestedAt : Nat)
  | recordClaimFailure (nodeHandle code : String)
  | forgetClaim (nodeHandle : String)
  | forgetNode (nodeHandle : String)
  | closeNode (nodeHandle : String)
  | attachUnverified (nodeHandle : Option String) (code : String)
  | attach (v : VerifiedNodeRelayAllocation)
  | settle (attach : Nat) (outcome : Settled)
  | socketClosed (nodeHandle : String) (attach : Nat)
  | lifecycleSettled (nodeId : String)

namespace Channels

/-- An awaited promise settles with an outcome that fits what the attach awaits. -/
def settle (s : Channels) (env : Env) (id : Nat) (outcome : Settled) : Option Channels :=
  match s.attaches.get? id with
  | none => none
  | some a =>
    match a.phase, outcome with
    | .linking, .linked true => some (s.endAttach id)
    | .linking, .linked false => some ((s.preserveLocal a.verified.nodeHandle).endAttach id)
    | .connecting, .connectFailed code => some (s.connectFailed env id a code)
    | .connecting, .trustRequired outcome => some (s.trustRequired env id a outcome)
    | .connecting, .connected connection => some (s.connected env id a connection)
    | .ensuring _, .ensureFailed code =>
      some ((s.recordError a.verified.nodeHandle code).endAttach id)
    | .ensuring connection, .ensured identity =>
      some (s.attachIdentity env id a connection identity)
    | .saving _, .saved true => some (s.endAttach id)
    | .saving nodeId, .saved false => some (s.install env id a nodeId)
    | .notifying, .notified rejected => some (s.notified id a rejected)
    | _, _ => none

end Channels

/-- One stretch of code between two awaits, with the answers it gets. -/
def step (s : Channels) : Env × Event → Option Channels
  | (_, .noteClaim nodeHandle requestedAt) =>
    some { s with claims := s.claims.set nodeHandle requestedAt }
  | (_, .recordClaimFailure nodeHandle code) => some (s.recordError nodeHandle code)
  | (_, .forgetClaim nodeHandle) => some { s with claims := s.claims.erase nodeHandle }
  | (env, .forgetNode nodeHandle) => some (s.forgetNode env nodeHandle)
  | (env, .closeNode nodeHandle) => some (s.closeNode env nodeHandle)
  | (_, .attachUnverified none _) => some s
  | (_, .attachUnverified (some nodeHandle) code) => some (s.recordError nodeHandle code)
  | (env, .attach v) => some (s.attach env v)
  | (env, .settle id outcome) => s.settle env id outcome
  | (env, .socketClosed nodeHandle id) => some (s.handleClosed env nodeHandle id)
  | (_, .lifecycleSettled nodeId) => s.settleNodeLifecycle nodeId

end TaskHandoff.CloudNodes
