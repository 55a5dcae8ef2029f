import Mathlib
import TaskHandoff.Lib.OrderedMap

/-! # Signed node requests

The control plane checks the HMAC headers of a reverse tunnel and the node agent those of each
request of a paired control plane. Both remember the nonces they have accepted, for a time. Hashes,
`Buffer.from(_, "hex")`, `Date.parse` and `encodeURIComponent` are parameters; each `Date.now()`
reads the next value of a clock. -/

namespace TaskHandoff.NodeAuth

def NODE_AGENT_HMAC_VERSION : String := "TASK_HANDOFF_NODE_AGENT_V1"
def NODE_AGENT_HMAC_TIMESTAMP_WINDOW_MS : Int := 60000
def NODE_TUNNEL_API_PATH : String := "/api/node-tunnel"

/-- Successive readings of a clock that never goes back. -/
structure Clock where
  time : Nat → Int
  mono : Monotone time

inductive HashInput
  | text (value : String)
  | bytes (value : List UInt8)
deriving DecidableEq

structure Library where
  sha256Hex : HashInput → String
  hmacSha256Hex : String → String → String
  bufferFromHex : String → List UInt8
  dateParse : String → Option Int
  encodeURIComponent : String → String

/-! ## Headers and signatures -/

/-- A header as Node hands it over. -/
inductive HeaderValue
  | text (value : String)
  | many (values : List String)
  | undefined

structure HmacHeaders where
  nodeId : String
  keyId : String
  timestamp : String
  nonce : String
  bodySha256 : String
  signature : String

def headerText : HeaderValue → String
  | .text value => value
  | .many values => ",".intercalate values
  | .undefined => ""

/-- Header names are ASCII. -/
def hmacHeadersFromRecord (headers : List (String × HeaderValue)) : HmacHeaders :=
  let normalized := OrderedMap.ofList
    (headers.map fun header => (header.1.toLower, headerText header.2))
  let read (name : String) : String := (normalized.get? name).getD ""
  { nodeId := read "x-taskhandoff-node-id"
    keyId := read "x-taskhandoff-key-id"
    timestamp := read "x-taskhandoff-timestamp"
    nonce := read "x-taskhandoff-nonce"
    bodySha256 := read "x-taskhandoff-body-sha256"
    signature := read "x-taskhandoff-signature" }

structure NodeAgentHmacInput where
  keyId : String
  method : String
  pathWithQuery : String
  timestamp : String
  nonce : String
  bodySha256 : String

def canonicalNodeAgentString (input : NodeAgentHmacInput) : String :=
  "\n".intercalate
    [NODE_AGENT_HMAC_VERSION, input.keyId, input.method.toUpper, input.pathWithQuery,
      input.timestamp, input.nonce, input.bodySha256]

variable (library : Library)

def signNodeAgentRequest (secret : String) (input : NodeAgentHmacInput) : String :=
  library.hmacSha256Hex secret (canonicalNodeAgentString input)

def timingSafeHexEqual (actual expected : String) : Bool :=
  library.bufferFromHex actual = library.bufferFromHex expected

/-! ## Nonces -/

/-- An accepted request, and what its nonce was remembered with. -/
structure Accepted where
  nodeId : String
  keyId : String
  nonce : String
  timestamp : String
  expiresAt : Int

def nonceKey (nodeId keyId nonce : String) : String := nodeId ++ ":" ++ keyId ++ ":" ++ nonce

/-- `ticks` counts the readings of the clock. `accepted` is what was accepted; no step reads it. -/
structure NonceMemory where
  used : OrderedMap String Int := .empty
  ticks : Nat := 0
  accepted : List Accepted := []

namespace NonceMemory

variable (σ : NonceMemory)

def read : NonceMemory := { σ with ticks := σ.ticks + 1 }

def expire (key : String) (expiresAt cutoff : Int) : NonceMemory :=
  if expiresAt ≤ cutoff then { σ with used := σ.used.erase key } else σ

/-- Deletes the nonces that expire no later than the cutoff. -/
def prune (cutoff : Int) : NonceMemory :=
  σ.used.entries.foldl (fun σ entry => σ.expire entry.1 entry.2 cutoff) σ

def remember (nodeId : String) (headers : HmacHeaders) (expiresAt : Int) : NonceMemory :=
  { σ with
    used := σ.used.set (nonceKey nodeId headers.keyId headers.nonce) expiresAt
    accepted := σ.accepted ++
      [⟨nodeId, headers.keyId, headers.nonce, headers.timestamp, expiresAt⟩] }

end NonceMemory

/-- `Math.abs(Date.now() - timestampMs) <= NODE_AGENT_HMAC_TIMESTAMP_WINDOW_MS`. -/
def withinWindow (now timestampMs : Int) : Bool :=
  (now - timestampMs).natAbs ≤ NODE_AGENT_HMAC_TIMESTAMP_WINDOW_MS

/-! ## The control plane -/

/-- A stored node with its `auth`. -/
structure Node where
  id : String
  mode : String
  keyId : Option String
  secret : Option String

structure TunnelRequest where
  headers : List (String × HeaderValue)
  url : Option String

def tunnelPath (node : Node) (request : TunnelRequest) : String :=
  match request.url with
  | some url => if url = "" then default else url
  | none => default
where
  default : String :=
    NODE_TUNNEL_API_PATH ++ "?nodeId=" ++ library.encodeURIComponent node.id

def tunnelInput (node : Node) (request : TunnelRequest) : NodeAgentHmacInput :=
  let headers := hmacHeadersFromRecord request.headers
  { keyId := headers.keyId
    method := "GET"
    pathWithQuery := tunnelPath library node request
    timestamp := headers.timestamp
    nonce := headers.nonce
    bodySha256 := library.sha256Hex (.text "") }

def verifyTunnelHmac (clock : Clock) (node : Node) (request : TunnelRequest)
    (σ : NonceMemory) : NonceMemory × Except String Unit :=
  let secret := node.secret.getD ""
  if node.mode ≠ "paired-hmac" ∨ node.keyId.getD "" = "" ∨ secret = "" then
    (σ, .error "NODE_AGENT_TUNNEL_REQUIRES_PAIRED_HMAC")
  else
    let headers := hmacHeadersFromRecord request.headers
    if headers.nodeId ≠ node.id then (σ, .error "NODE_AGENT_TUNNEL_NODE_MISMATCH")
    else if some headers.keyId ≠ node.keyId then (σ, .error "NODE_AGENT_TUNNEL_KEY_INVALID")
    else
      match library.dateParse headers.timestamp with
      | none => (σ, .error "NODE_AGENT_TUNNEL_TIMESTAMP_INVALID")
      | some timestampMs =>
        if ¬withinWindow (clock.time σ.ticks) timestampMs then
          (σ.read, .error "NODE_AGENT_TUNNEL_TIMESTAMP_INVALID")
        else
          let σ := σ.read
          let cutoff := clock.time σ.ticks - NODE_AGENT_HMAC_TIMESTAMP_WINDOW_MS
          let σ := σ.read.prune cutoff
          if headers.nonce = "" ∨ σ.used.contains (nonceKey node.id headers.keyId headers.nonce)
          then (σ, .error "NODE_AGENT_TUNNEL_NONCE_INVALID")
          else if headers.bodySha256 ≠ library.sha256Hex (.text "") then
            (σ, .error "NODE_AGENT_TUNNEL_BODY_HASH_INVALID")
          else if ¬timingSafeHexEqual library headers.signature
              (signNodeAgentRequest library secret (tunnelInput library node request)) then
            (σ, .error "NODE_AGENT_TUNNEL_SIGNATURE_INVALID")
          else
            (σ.read.remember node.id headers
              (clock.time σ.ticks + NODE_AGENT_HMAC_TIMESTAMP_WINDOW_MS), .ok ())

/-! ## The node agent -/

structure ControlPlanePairing where
  keyId : String
  secret : String
  revoked : Bool
  keyed : keyId ≠ ""

structure RemoteSecret where
  keyId : String
  secret : String

/-- `NodeAgentPairedHmacVerifier` with its identity. -/
structure Verifier where
  nodeId : String
  controlPlanePairings : List ControlPlanePairing
  overrideSecret : String
  overrideKeyId : String
  named : nodeId ≠ ""

inductive RequestBody
  | absent
  | raw (value : HashInput)
  | json (stringified : String)

structure AgentRequest where
  method : String
  url : String
  headers : List (String × HeaderValue)
  body : RequestBody

def requestBodyForHmac : RequestBody → HashInput
  | .absent => .text ""
  | .raw value => value
  | .json stringified => .text stringified

def remoteSecrets (verifier : Verifier) (includeRevoked : Bool) : List RemoteSecret :=
  (verifier.controlPlanePairings.filter fun pairing => includeRevoked || !pairing.revoked).map
      (fun pairing => ⟨pairing.keyId, pairing.secret⟩) ++
    if verifier.overrideSecret ≠ "" ∧ verifier.overrideKeyId ≠ "" then
      [⟨verifier.overrideKeyId, verifier.overrideSecret⟩]
    else []

def selfRevoke (request : AgentRequest) : Bool :=
  request.method = "DELETE" &&
    request.url.toList.takeWhile (· ≠ '?') = "/api/node-agent/pairing/current".toList

def agentInput (request : AgentRequest) (bodySha256 : String) : NodeAgentHmacInput :=
  let headers := hmacHeadersFromRecord request.headers
  { keyId := headers.keyId
    method := request.method
    pathWithQuery := request.url
    timestamp := headers.timestamp
    nonce := headers.nonce
    bodySha256 := bodySha256 }

/-- What `verify` answers: `false` or the key id. -/
abbrev Verified := Option String

def verify (clock : Clock) (verifier : Verifier) (request : AgentRequest)
    (σ : NonceMemory) : NonceMemory × Except String Verified :=
  let headers := hmacHeadersFromRecord request.headers
  if headers.nodeId = "" ∧ headers.signature = "" then (σ, .ok none)
  else
    let secrets := remoteSecrets verifier (selfRevoke request)
    if secrets.isEmpty then (σ, .ok none)
    else if headers.nodeId ≠ verifier.nodeId then (σ, .error "NODE_AGENT_HMAC_NODE_MISMATCH")
    else if headers.keyId = "" then (σ, .error "NODE_AGENT_HMAC_KEY_MISSING")
    else
      let candidates := secrets.filter fun item => headers.keyId = item.keyId
      if candidates.isEmpty then (σ, .error "NODE_AGENT_HMAC_KEY_INVALID")
      else
        match library.dateParse headers.timestamp with
        | none => (σ, .error "NODE_AGENT_HMAC_TIMESTAMP_INVALID")
        | some timestampMs =>
          if ¬withinWindow (clock.time σ.ticks) timestampMs then
            (σ.read, .error "NODE_AGENT_HMAC_TIMESTAMP_INVALID")
          else if headers.nonce = "" then (σ.read, .error "NODE_AGENT_HMAC_NONCE_MISSING")
          else
            let σ := σ.read
            let σ := σ.read.prune (clock.time σ.ticks)
            if σ.used.contains (nonceKey headers.nodeId headers.keyId headers.nonce) then
              (σ, .error "NODE_AGENT_HMAC_NONCE_REPLAY")
            else
              let bodySha256 := library.sha256Hex (requestBodyForHmac request.body)
              if headers.bodySha256 ≠ bodySha256 then
                (σ, .error "NODE_AGENT_HMAC_BODY_HASH_INVALID")
              else if ¬candidates.any fun item =>
                  timingSafeHexEqual library headers.signature
                    (signNodeAgentRequest library item.secret (agentInput request bodySha256))
              then (σ, .error "NODE_AGENT_HMAC_SIGNATURE_INVALID")
              else
                (σ.remember headers.nodeId headers
                  (timestampMs + NODE_AGENT_HMAC_TIMESTAMP_WINDOW_MS + 1),
                  .ok (some headers.keyId))

end TaskHandoff.NodeAuth
