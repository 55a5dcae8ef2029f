import TaskHandoff.BrowserTunnel.Codec
import TaskHandoff.Lib.Machine
import TaskHandoff.Lib.OrderedMap

/-! # The encrypted channel of a node relay session

One end of the session: what it seals, queues and transmits, and how it opens frames and assembles
fragments. The sealing under the session key, the compression and the JSON of session messages are
the parameters of `Codec`. -/

namespace TaskHandoff.NodeRelay

open BrowserTunnel (readUInt32BE writeUInt32BE)

abbrev Bytes := List UInt8

def NODE_RELAY_SOCKET_MAX_BUFFERED_BYTES : Nat := 2 * 1024 * 1024
def NODE_RELAY_SOCKET_MAX_QUEUED_BYTES : Nat := 16 * 1024 * 1024
def NODE_RELAY_DATA_HEADER_BYTES : Nat := 8
def NODE_RELAY_DATA_MAX_BYTES : Nat := 768 * 1024
def NODE_RELAY_DATA_MAX_MESSAGE_BYTES : Nat := 8 * 1024 * 1024
def RELAY_FRAME_MAX_PAYLOAD_BYTES : Nat := 1024 * 1024
def RELAY_FRAME_DEFLATE_MIN_BYTES : Nat := 512

def NODE_RELAY_DIRECTION_NODE : Nat := 1
def NODE_RELAY_DIRECTION_CONTROL_PLANE : Nat := 2

inductive NodeRelayError
  | dataFrameInvalid
  | dataFrameTooLarge
  | relayFrameInvalid
  | relayFrameTooLarge
  | dataMessageTooLarge
  | backpressureLimit
  | channelClosed
  | frameEncodingInvalid
  | frameKindInvalid
  | frameSequenceInvalid
  | decryptFailed
  | inflateFailed
  | dataFragmentInvalid
  | dataAssemblyLimit
  | dataAssemblyBytesLimit
  | framePayloadInvalid
  | messageInvalid
  | socket
deriving DecidableEq

/-! ## Frames -/

structure NodeRelayDataFrame where
  streamId : Nat
  data : Bytes
  binary : Bool
  more : Bool
deriving DecidableEq

def isNodeRelayDataFrame (raw : Bytes) : Bool := raw.head? = some 0xb2

def encodeNodeRelayDataFrame (frame : NodeRelayDataFrame) : Except NodeRelayError Bytes :=
  if 0xffffffff < frame.streamId then .error .dataFrameInvalid
  else if NODE_RELAY_DATA_MAX_BYTES < frame.data.length then .error .dataFrameTooLarge
  else
    .ok ([0xb2, 2, .ofNat (frame.binary.toNat + 2 * frame.more.toNat)] ++
      writeUInt32BE frame.streamId ++ [0] ++ frame.data)

def decodeNodeRelayDataFrame : Bytes → Except NodeRelayError NodeRelayDataFrame
  | 0xb2 :: 2 :: flags :: a :: b :: c :: d :: _ :: data =>
    if 4 ≤ flags.toNat then .error .dataFrameInvalid
    else if NODE_RELAY_DATA_MAX_BYTES < data.length then .error .dataFrameTooLarge
    else .ok ⟨readUInt32BE a b c d, data, flags.toNat % 2 = 1, flags.toNat / 2 = 1⟩
  | _ => .error .dataFrameInvalid

inductive RelayFrameKind
  | handshake
  | data
  | cancel
  | windowUpdate
  | close
deriving DecidableEq

structure RelayFramePayload where
  kind : RelayFrameKind
  sequence : Nat
  payload : Bytes
  deflated : Bool

/-- The limits of `encodeRelayFrame`; the header is laid out as in `decodeRelayFrame`. -/
def encodeRelayFrame (frame : RelayFramePayload) : Except NodeRelayError RelayFramePayload :=
  if 0xffffffff < frame.sequence then .error .relayFrameInvalid
  else if RELAY_FRAME_MAX_PAYLOAD_BYTES < frame.payload.length then .error .relayFrameTooLarge
  else .ok frame

def decodeRelayFrame : Bytes → Except NodeRelayError RelayFramePayload
  | 0x52 :: 2 :: flags :: code :: a :: b :: c :: d :: payload =>
    match [RelayFrameKind.handshake, .data, .cancel, .windowUpdate, .close][code.toNat]? with
    | none => .error .relayFrameInvalid
    | some kind =>
      if 2 ≤ flags.toNat then .error .relayFrameInvalid
      else if RELAY_FRAME_MAX_PAYLOAD_BYTES < payload.length then .error .relayFrameTooLarge
      else .ok ⟨kind, readUInt32BE a b c d, payload, flags.toNat = 1⟩
  | _ => .error .relayFrameInvalid

/-- Twenty-four bytes: the direction, zeros, and the counter in the last eight. -/
def sequenceNonce (direction counter : Nat) : Bytes :=
  .ofNat direction :: List.replicate 15 0 ++ writeUInt32BE (counter / 2 ^ 32) ++
    writeUInt32BE counter

/-- `nacl.secretbox` with the session key, raw DEFLATE, and the JSON of parsed messages. -/
structure Codec (μ : Type) where
  secretbox : Bytes → Bytes → Bytes
  secretboxOpen : Bytes → Bytes → Option Bytes
  deflate : Bytes → Bytes
  inflate : Bytes → Option Bytes
  render : μ → Bytes
  parse : Bytes → Option μ
  isChannelClose : μ → Bool

variable {μ : Type}

def packRelayPayload (codec : Codec μ) (payload : Bytes) : Bytes × Bool :=
  if payload.length < RELAY_FRAME_DEFLATE_MIN_BYTES then (payload, false)
  else if (codec.deflate payload).length < payload.length then (codec.deflate payload, true)
  else (payload, false)

/-! ## The channel -/

structure PendingNodeRelayWrite where
  payload : Bytes
  deflated : Bool
  bytes : Nat

/-- Its timer is armed as long as it is in the table. -/
structure NodeRelayDataAssembly where
  binary : Bool
  bytes : Nat
  chunks : List Bytes

inductive Delivery (μ : Type)
  | data (frame : NodeRelayDataFrame)
  | message (message : μ)

/-- A payload that was sealed, with its nonce. -/
structure Sealed where
  nonce : Bytes
  payload : Bytes

/-- `rejections` are errors of `receive` that the `catch` behind it has still to see. No step reads
`sealedPayloads`, `transmitted` and `delivered`. -/
structure EncryptedNodeRelayChannel (μ : Type) where
  sendDirection : Nat
  receiveDirection : Nat
  dataAssemblyMaxStreams : Nat := 8
  dataAssemblyMaxBytes : Nat := 16 * 1024 * 1024
  sendSequence : Nat := 1
  sendCounter : Nat := 0
  receiveSequence : Nat := 1
  receiveCounter : Nat := 0
  closed : Bool := false
  dataAssemblies : OrderedMap Nat NodeRelayDataAssembly := .empty
  outboundControl : List PendingNodeRelayWrite := []
  outboundData : List PendingNodeRelayWrite := []
  outboundCapacityWaiters : Nat := 0
  outboundBytes : Nat := 0
  flushTimer : Bool := false
  rejections : List NodeRelayError := []
  sealedPayloads : List Sealed := []
  transmitted : List RelayFramePayload := []
  delivered : List (Delivery μ) := []

/-- One turn of the flush loop: the socket's buffer is full, or it has room and `socket.send`
returns or throws. -/
inductive Turn
  | full
  | sent
  | thrown
deriving DecidableEq

namespace EncryptedNodeRelayChannel

variable (σ : EncryptedNodeRelayChannel μ)

def releaseOutboundCapacity : EncryptedNodeRelayChannel μ :=
  if NODE_RELAY_SOCKET_MAX_BUFFERED_BYTES < σ.outboundBytes then σ
  else { σ with outboundCapacityWaiters := 0 }

def finish : EncryptedNodeRelayChannel μ :=
  if σ.closed then σ
  else
    { σ with
      closed := true
      dataAssemblies := .empty
      outboundControl := []
      outboundData := []
      outboundBytes := 0
      outboundCapacityWaiters := 0
      flushTimer := false }

/-- `fail`; the error goes to the callbacks. -/
def fail : EncryptedNodeRelayChannel μ := σ.finish

variable (codec : Codec μ)

/-- `false` when it throws. -/
def sendPlaintext (σ : EncryptedNodeRelayChannel μ)
    (write : PendingNodeRelayWrite) (thrown : Bool) : Bool × EncryptedNodeRelayChannel μ :=
  let nonce := sequenceNonce σ.sendDirection σ.sendCounter
  let sent := { σ with
    sealedPayloads := σ.sealedPayloads ++ [⟨nonce, write.payload⟩]
    sendCounter := σ.sendCounter + 1
    sendSequence := σ.sendSequence + 1 }
  if σ.closed then (false, σ)
  else
    match encodeRelayFrame
        ⟨.data, σ.sendSequence, codec.secretbox nonce write.payload, write.deflated⟩ with
    | .error _ => (false, sent)
    | .ok frame =>
      if thrown then (false, sent)
      else (true, { sent with transmitted := σ.transmitted ++ [frame] })

/-- The next write, control messages first, and the channel without it. -/
def next : Option (PendingNodeRelayWrite × EncryptedNodeRelayChannel μ) :=
  match σ.outboundControl, σ.outboundData with
  | write :: control, _ => some (write, { σ with outboundControl := control })
  | [], write :: data => some (write, { σ with outboundData := data })
  | [], [] => none

/-- The loop of `flushOutbound`. Behind the given turns the socket's buffer is full. -/
def flushLoop (codec : Codec μ) (σ : EncryptedNodeRelayChannel μ) :
    List Turn → EncryptedNodeRelayChannel μ
  | [] | .full :: _ => if σ.next.isSome then { σ with flushTimer := true } else σ
  | turn :: turns =>
    match σ.next with
    | none => σ
    | some (write, τ) =>
      let τ := { τ with outboundBytes := τ.outboundBytes - write.bytes }
      match τ.releaseOutboundCapacity.sendPlaintext codec write (turn = .thrown) with
      | (true, τ) => τ.flushLoop codec turns
      | (false, τ) => τ.fail

def flushOutbound (σ : EncryptedNodeRelayChannel μ) (turns : List Turn) :
    EncryptedNodeRelayChannel μ :=
  if σ.closed ∨ σ.next.isNone then σ else { σ with flushTimer := false }.flushLoop codec turns

def enqueuePlaintext (σ : EncryptedNodeRelayChannel μ) (payload : Bytes)
    (deflated control : Bool) (turns : List Turn) :
    Except NodeRelayError Unit × EncryptedNodeRelayChannel μ :=
  let bytes := payload.length + 40
  if σ.closed then (.error .channelClosed, σ)
  else if NODE_RELAY_SOCKET_MAX_QUEUED_BYTES < σ.outboundBytes + bytes then
    (.error .backpressureLimit, σ)
  else
    let write := ⟨payload, deflated, bytes⟩
    let σ := if control then { σ with outboundControl := σ.outboundControl ++ [write] }
      else { σ with outboundData := σ.outboundData ++ [write] }
    (.ok (), { σ with outboundBytes := σ.outboundBytes + bytes }.flushOutbound codec turns)

def send (σ : EncryptedNodeRelayChannel μ) (message : μ) (turns : List Turn) :
    Except NodeRelayError Unit × EncryptedNodeRelayChannel μ :=
  let packed := packRelayPayload codec (codec.render message)
  σ.enqueuePlaintext codec packed.1 packed.2 (!codec.isChannelClose message) turns

/-- The number of frames of a message that is not empty. -/
def fragmentCount (data : Bytes) : Nat :=
  (data.length + NODE_RELAY_DATA_MAX_BYTES - 1) / NODE_RELAY_DATA_MAX_BYTES

/-- The pieces of a message that is not empty. -/
def fragments (streamId : Nat) (data : Bytes) (binary : Bool) : List NodeRelayDataFrame :=
  (List.range (fragmentCount data)).map fun i =>
    ⟨streamId, (data.drop (i * NODE_RELAY_DATA_MAX_BYTES)).take NODE_RELAY_DATA_MAX_BYTES, binary,
      (i + 1) * NODE_RELAY_DATA_MAX_BYTES < data.length⟩

/-- The loop of `sendData`, with the turns of each frame's flush. -/
def sendFragments (codec : Codec μ) (σ : EncryptedNodeRelayChannel μ) (turns : Nat → List Turn) :
    List NodeRelayDataFrame → Except NodeRelayError Unit × EncryptedNodeRelayChannel μ
  | [] => (.ok (), σ)
  | frame :: frames =>
    match encodeNodeRelayDataFrame frame with
    | .error error => (.error error, σ)
    | .ok plaintext =>
      let packed := if frame.binary then (plaintext, false)
        else packRelayPayload codec plaintext
      match σ.enqueuePlaintext codec packed.1 packed.2 false (turns frames.length) with
      | (.error error, σ) => (.error error, σ)
      | (.ok (), σ) => σ.sendFragments codec turns frames

def sendData (σ : EncryptedNodeRelayChannel μ) (streamId : Nat) (data : Bytes)
    (binary : Bool) (turns : Nat → List Turn) :
    Except NodeRelayError Unit × EncryptedNodeRelayChannel μ :=
  if NODE_RELAY_DATA_MAX_MESSAGE_BYTES < data.length then (.error .dataMessageTooLarge, σ)
  else if data = [] then
    match encodeNodeRelayDataFrame ⟨streamId, data, binary, false⟩ with
    | .error error => (.error error, σ)
    | .ok plaintext => σ.enqueuePlaintext codec plaintext false false (turns 0)
  else
    let wireBytes := data.length + fragmentCount data * (NODE_RELAY_DATA_HEADER_BYTES + 40)
    if NODE_RELAY_SOCKET_MAX_QUEUED_BYTES < σ.outboundBytes + wireBytes then
      (.error .backpressureLimit, σ)
    else σ.sendFragments codec turns (fragments streamId data binary)

def waitForOutboundCapacity : EncryptedNodeRelayChannel μ :=
  if σ.closed ∨ σ.outboundBytes ≤ NODE_RELAY_SOCKET_MAX_BUFFERED_BYTES then σ
  else { σ with outboundCapacityWaiters := σ.outboundCapacityWaiters + 1 }

def discardDataAssembly (streamId : Nat) : EncryptedNodeRelayChannel μ :=
  { σ with dataAssemblies := σ.dataAssemblies.erase streamId }

def assembledBytes : Nat :=
  (σ.dataAssemblies.values.map (·.bytes)).sum

/-- The branch of `receive` for a data frame. An assembly that is in the table grows before its size
is checked. -/
def receiveData (frame : NodeRelayDataFrame) :
    Except NodeRelayError Unit × EncryptedNodeRelayChannel μ :=
  let found := σ.dataAssemblies.get? frame.streamId
  if found.any (·.binary ≠ frame.binary) then (.error .dataFragmentInvalid, σ)
  else if frame.more then
    if found.isNone ∧ σ.dataAssemblyMaxStreams ≤ σ.dataAssemblies.size then
      (.error .dataAssemblyLimit, σ)
    else if σ.dataAssemblyMaxBytes < σ.assembledBytes + frame.data.length then
      (.error .dataAssemblyBytesLimit, σ)
    else
      let grown := found.getD ⟨frame.binary, 0, []⟩
      let grown := { grown with bytes := grown.bytes + frame.data.length }
      if NODE_RELAY_DATA_MAX_MESSAGE_BYTES < grown.bytes then
        (.error .dataMessageTooLarge, if found.isNone then σ
          else { σ with dataAssemblies := σ.dataAssemblies.set frame.streamId grown })
      else
        let grown := { grown with chunks := grown.chunks ++ [frame.data] }
        (.ok (), { σ with dataAssemblies := σ.dataAssemblies.set frame.streamId grown })
  else
    match found with
    | none => (.ok (), { σ with delivered := σ.delivered ++ [.data frame] })
    | some assembly =>
      let grown := { assembly with bytes := assembly.bytes + frame.data.length }
      if NODE_RELAY_DATA_MAX_MESSAGE_BYTES < grown.bytes then
        (.error .dataMessageTooLarge,
          { σ with dataAssemblies := σ.dataAssemblies.set frame.streamId grown })
      else
        let data := (assembly.chunks ++ [frame.data]).flatten
        let σ := σ.discardDataAssembly frame.streamId
        (.ok (), { σ with
          delivered := σ.delivered ++ [.data ⟨frame.streamId, data, assembly.binary, false⟩] })

/-- The payload of a frame that was opened and unpacked. -/
def receivePlaintext (σ : EncryptedNodeRelayChannel μ) (plaintext : Bytes) :
    Except NodeRelayError Unit × EncryptedNodeRelayChannel μ :=
  if isNodeRelayDataFrame plaintext then
    match decodeNodeRelayDataFrame plaintext with
    | .error error => (.error error, σ)
    | .ok frame => σ.receiveData frame
  else if plaintext.head? ≠ some 0x7b then (.error .framePayloadInvalid, σ)
  else
    match codec.parse plaintext with
    | none => (.error .messageInvalid, σ)
    | some message => (.ok (), { σ with delivered := σ.delivered ++ [.message message] })

/-- `receive` up to its callback. -/
def receive (σ : EncryptedNodeRelayChannel μ) (raw : Bytes) (isBinary : Bool) :
    Except NodeRelayError Unit × EncryptedNodeRelayChannel μ :=
  if σ.closed then (.ok (), σ)
  else if !isBinary then (.error .frameEncodingInvalid, σ)
  else
    match decodeRelayFrame raw with
    | .error error => (.error error, σ)
    | .ok frame =>
      if frame.kind = .close then (.ok (), σ.finish)
      else if frame.kind ≠ .data then (.error .frameKindInvalid, σ)
      else
        let expected := σ.receiveSequence
        let σ := { σ with receiveSequence := expected + 1 }
        if frame.sequence ≠ expected then (.error .frameSequenceInvalid, σ)
        else
          let nonce := sequenceNonce σ.receiveDirection σ.receiveCounter
          let σ := { σ with receiveCounter := σ.receiveCounter + 1 }
          match codec.secretboxOpen nonce frame.payload with
          | none => (.error .decryptFailed, σ)
          | some opened =>
            match if frame.deflated then codec.inflate opened else some opened with
            | none => (.error .inflateFailed, σ)
            | some plaintext => σ.receivePlaintext codec plaintext

inductive Action (μ : Type)
  | send (message : μ) (turns : List Turn)
  | sendData (streamId : Nat) (data : Bytes) (binary : Bool) (turns : Nat → List Turn)
  | close
  | waitForOutboundCapacity
  | discardDataAssembly (streamId : Nat)
  | flush (turns : List Turn)
  | receive (raw : Bytes) (isBinary : Bool)
  | reject
  | assemblyTimeout (streamId : Nat)
  | socketClosed
  | failed

/-- What the channel does next: a call, a timer, or an event of its socket or callbacks. -/
def step (σ : EncryptedNodeRelayChannel μ) : Action μ → Option (EncryptedNodeRelayChannel μ)
  | .send message turns => some (σ.send codec message turns).2
  | .sendData streamId data binary turns => some (σ.sendData codec streamId data binary turns).2
  | .close | .socketClosed => some σ.finish
  | .waitForOutboundCapacity => some σ.waitForOutboundCapacity
  | .discardDataAssembly streamId => some (σ.discardDataAssembly streamId)
  | .flush turns =>
    if σ.flushTimer then some ({ σ with flushTimer := false }.flushOutbound codec turns)
    else none
  | .receive raw isBinary =>
    match σ.receive codec raw isBinary with
    | (.ok (), σ) => some σ
    | (.error error, σ) => some { σ with rejections := σ.rejections ++ [error] }
  | .reject =>
    match σ.rejections with
    | [] => none
    | _ :: rejections => some ({ σ with rejections } : EncryptedNodeRelayChannel μ).fail
  | .assemblyTimeout streamId =>
    if σ.dataAssemblies.contains streamId then some (σ.discardDataAssembly streamId).fail
    else none
  | .failed => some σ.fail

end EncryptedNodeRelayChannel

end TaskHandoff.NodeRelay
