import TaskHandoff.Lib.OrderedMap
import Mathlib.Logic.Function.Basic

/-! # The sockets of a relay channel

One encrypted session carries a main socket and any number of auxiliary ones.
Both ends of the channel have the same socket and keep the same registry of
their auxiliary sockets; the node end also has the opens that wait for an
answer. This module has the state, the boundary to the session, and how a
socket and a channel end. What the session answers to a write is chosen by the
environment, and so is which sockets the tunnel still holds when the channel
ends.
-/

namespace TaskHandoff.Relay

/-! ## Constants -/

def NODE_RELAY_MAIN_CHANNEL_ID : String := "main"

def NODE_RELAY_MAIN_STREAM_ID : Nat := 0

def NODE_RELAY_STREAM_MAX_QUEUED_BYTES : Nat := 4 * 1024 * 1024

def NODE_RELAY_STREAM_HIGH_WATER_BYTES : Nat := 1024 * 1024

/-! ## Sockets -/

/-- One frame of a socket. A text frame is its UTF-8 bytes. -/
structure Message where
  data : List UInt8
  binary : Bool

def Message.bytes (message : Message) : Nat := message.data.length

/-- What closed a socket. -/
inductive CloseCause where
  /-- Its own `close`, while the channel was open. -/
  | localClose
  | peerClosed
  | rejected
  | openFailed
  /-- The session refused a write that was deferred by a remote pause. -/
  | flushFailed
  | channelEnded
deriving DecidableEq

/-- `readyState`, with the cause of a `CLOSED` one beside it. -/
inductive ReadyState where
  | OPEN
  | CLOSED (cause : CloseCause)
deriving DecidableEq

/-- `NodeRelayChannelSocket` of the node and `MultiplexedNodeRelaySocket` of the
control plane. A waiter is a promise without data, so the list of them is their
number. -/
structure NodeRelayChannelSocket where
  channelId : String
  streamId : Nat
  readyState : ReadyState
  /-- A `message` listener is attached. -/
  listening : Bool
  queued : List Message
  queuedBytes : Nat
  outbound : List Message
  outboundBytes : Nat
  writableWaiters : Nat
  paused : Bool
  remotePaused : Bool

namespace NodeRelayChannelSocket

def create (channelId : String) (streamId : Nat) : NodeRelayChannelSocket where
  channelId := channelId
  streamId := streamId
  readyState := .OPEN
  listening := false
  queued := []
  queuedBytes := 0
  outbound := []
  outboundBytes := 0
  writableWaiters := 0
  paused := false
  remotePaused := false

/-- The state part of `remoteClosed`. -/
def drop (socket : NodeRelayChannelSocket) (cause : CloseCause) : NodeRelayChannelSocket :=
  { socket with
    readyState := .CLOSED cause
    queued := []
    queuedBytes := 0
    outbound := []
    outboundBytes := 0
    writableWaiters := 0 }

end NodeRelayChannelSocket

/-! ## The channel -/

inductive ChannelEnd where
  | node
  | controlPlane
deriving DecidableEq

/-- What the session queues together with the data of the sockets. -/
inductive Item where
  | data (socket : Nat) (streamId : Nat) (message : Message)
  | channelClose (socket : Nat) (channelId : String) (code : Nat) (reason : String)

/-- What the session does with one write. -/
inductive Answer where
  | accept
  /-- It throws: a limit is reached. -/
  | refuse
  /-- The transport fails while the write is flushed, and the session with it. -/
  | fail (throws : Bool)
deriving DecidableEq

structure PendingOpen where
  streamId : Nat
  socket : Nat

/-- One end of a relay channel. Sockets are objects that outlive their
registration, so they have numbers of their own; the main socket is `0`. -/
structure NodeChannel where
  channelEnd : ChannelEnd
  sockets : Nat → NodeRelayChannelSocket
  nextSocket : Nat
  aux : OrderedMap String Nat
  auxByStreamId : OrderedMap Nat Nat
  pendingOpens : OrderedMap String PendingOpen
  nextAuxStreamId : Nat
  closed : Bool
  sessionClosed : Bool
  /-- The session's queue of data and closes, and what left it. -/
  outboundData : List Item
  wire : List Item
  /-- The session's queue is above its small high-water mark. -/
  aboveHighWater : Bool
  /-- Writers, by socket, that wait for the session's queue to drain. -/
  capacityWaiters : List Nat
  /-- Writers, by socket, that a socket released and that did not run on yet. -/
  released : List Nat
  /-- The session's answers to the writes of the current step, then `accept`. -/
  answers : List Answer
  /-- The sockets the tunnel holds in the current step. -/
  tunnelStreams : List Nat
  /-- The messages whose `send` returned, and the sockets whose `channel-close` the
  session did not take. -/
  accepted : List (Nat × Message)
  refusedCloses : List Nat

namespace NodeChannel

variable (w : NodeChannel)
variable (s : Nat)

def updateSocket (f : NodeRelayChannelSocket → NodeRelayChannelSocket) : NodeChannel :=
  { w with sockets := Function.update w.sockets s (f (w.sockets s)) }

def isOpen : Bool :=
  decide ((w.sockets s).readyState = .OPEN)

/-! ## The end of a socket and of the channel -/

/-- `resolve` of the waiters a socket had; they run on later. -/
def resolve (waiters : Nat) : NodeChannel :=
  { w with released := w.released ++ List.replicate waiters s }

/-- The socket is closed from underneath; its writers are released. -/
def remoteClosed (cause : CloseCause) : NodeChannel :=
  if w.isOpen s then
    (w.updateSocket s fun socket => socket.drop cause).resolve s (w.sockets s).writableWaiters
  else w

/-- `finish` of the session: nothing that is queued will be sent. -/
def finishSession : NodeChannel :=
  if w.sessionClosed then w
  else { w with sessionClosed := true, outboundData := [], capacityWaiters := [] }

def unregister (channelId : String) (s : Nat) : NodeChannel :=
  { w with
    aux := w.aux.erase channelId
    auxByStreamId := w.auxByStreamId.erase (w.sockets s).streamId }

/-- `emitChannelClose`, over what ends the channel and what announces a close. -/
def emitChannelCloseWith (endChannel : NodeChannel → NodeChannel)
    (sendClose : Nat → String → NodeChannel → NodeChannel) (cause : CloseCause)
    (w : NodeChannel) (channelId : String) : NodeChannel :=
  if channelId = NODE_RELAY_MAIN_CHANNEL_ID then endChannel w
  else
    let settled := { w with pendingOpens := w.pendingOpens.erase channelId }
    match settled.aux.get? channelId with
    | none => settled
    | some s => (sendClose s channelId (settled.unregister channelId s)).remoteClosed s cause

/-- `close` of a socket. -/
def closeSocketWith (endChannel : NodeChannel → NodeChannel)
    (sendClose : Nat → String → NodeChannel → NodeChannel) (cause : CloseCause)
    (w : NodeChannel) (s : Nat) : NodeChannel :=
  if w.isOpen s then
    (w.updateSocket s fun socket => { socket with readyState := .CLOSED cause }).emitChannelCloseWith
      endChannel sendClose cause (w.sockets s).channelId
  else w

/-- `close` of a socket when the channel is already marked closed: the channel
does not end again and `sendClose` returns at once. -/
def closeSocketAtEnd : NodeChannel :=
  closeSocketWith id (fun _ _ w => w) .channelEnded w s

/-- `dispose` of the tunnel session, which is the node's: it closes the sockets it holds. -/
def disposeTunnel : NodeChannel :=
  match w.channelEnd with
  | .node => w.tunnelStreams.foldl closeSocketAtEnd w
  | .controlPlane => w

def clearRegistry : NodeChannel :=
  { w with
    pendingOpens := .empty
    aux := .empty
    auxByStreamId := .empty }

/-- `close` of the channel. -/
def close : NodeChannel :=
  if w.closed then w
  else
    let disposed := { w with closed := true }.disposeTunnel
    let ended := disposed.aux.values.foldl (fun w s => w.remoteClosed s .channelEnded)
      disposed.clearRegistry
    (ended.remoteClosed 0 .channelEnded).finishSession

/-- The session ends by itself and takes the channel with it. -/
def sessionEnd : NodeChannel :=
  if w.sessionClosed then w else w.finishSession.close

/-! ## Writes -/

/-- A write to the session; control messages are queued apart from the data and
leave no item. The answer says whether the call returned. -/
def handOver (item : Option Item) : NodeChannel × Bool :=
  if w.sessionClosed then (w, false)
  else
    match w.answers with
    | [] => ({ w with outboundData := w.outboundData ++ item.toList }, true)
    | .accept :: rest =>
      ({ w with answers := rest, outboundData := w.outboundData ++ item.toList }, true)
    | .refuse :: rest => ({ w with answers := rest }, false)
    | .fail throws :: rest => ({ w with answers := rest }.sessionEnd, !throws)

/-- A write whose failure is swallowed, as for pings, pauses and resumes. -/
def sendControl : NodeChannel :=
  if w.closed then w else (w.handOver none).1

/-- A reply inside a message handler: a throw there fails the session. -/
def reply : NodeChannel :=
  match w.handOver none with
  | (sent, true) => sent
  | (sent, false) => sent.sessionEnd

/-- A `channel-close` that the session does not take is given up. -/
def sendClose (code : Nat) (reason : String) (s : Nat) (channelId : String) (w : NodeChannel) :
    NodeChannel :=
  if w.closed then w
  else
    match w.handOver (some (.channelClose s channelId code (reason.take 512).toString)) with
    | (sent, true) => sent
    | (sent, false) => { sent with refusedCloses := sent.refusedCloses ++ [s] }

def closeSocket (code : Nat) (reason : String) : NodeChannel :=
  if w.closed then w.closeSocketAtEnd s
  else closeSocketWith close (sendClose code reason) .localClose w s

end NodeChannel

end TaskHandoff.Relay
