import TaskHandoff.Relay.ChannelState
import TaskHandoff.Lib.Machine

/-! # A relay channel in operation

The methods of a socket, the handlers of a channel end, and one step of the
channel. The listeners of a socket are code of the tunnel; what they do in turn
are commands of their own.
-/

namespace TaskHandoff.Relay

namespace NodeChannel

/-! ## Writing to a socket -/

variable (w : NodeChannel)
variable (s : Nat)

/-- The `send` of this message returned. -/
def recordAccepted (message : Message) : NodeChannel :=
  { w with accepted := w.accepted ++ [(s, message)] }

def send (message : Message) : NodeChannel :=
  if !w.isOpen s then w
  else if (w.sockets s).remotePaused then
    if NODE_RELAY_STREAM_MAX_QUEUED_BYTES < (w.sockets s).outboundBytes + message.bytes then
      w.closeSocket s 1013 "Node relay stream writer is too slow."
    else
      (w.updateSocket s fun socket =>
        { socket with
          outbound := socket.outbound ++ [message]
          outboundBytes := socket.outboundBytes + message.bytes }).recordAccepted s message
  else
    match w.handOver (some (.data s (w.sockets s).streamId message)) with
    | (sent, true) => sent.recordAccepted s message
    | (sent, false) => sent

/-- The loop of the socket's `flushOutbound`, over the messages that are queued. -/
def flushOutbound (s : Nat) : List Message → NodeChannel → NodeChannel
  | [], w => w
  | item :: rest, w =>
    if (w.sockets s).remotePaused || !w.isOpen s then w
    else
      let shifted := w.updateSocket s fun socket =>
        { socket with outbound := rest, outboundBytes := socket.outboundBytes - item.bytes }
      match shifted.handOver (some (.data s (w.sockets s).streamId item)) with
      | (sent, true) => flushOutbound s rest sent
      | (sent, false) => sent.remoteClosed s .flushFailed

def releaseWriters : NodeChannel :=
  (w.updateSocket s fun socket => { socket with writableWaiters := 0 }).resolve s
    (w.sockets s).writableWaiters

def remotePause : NodeChannel :=
  w.updateSocket s fun socket => { socket with remotePaused := true }

def remoteResume : NodeChannel :=
  if (w.sockets s).remotePaused then
    let resumed := w.updateSocket s fun socket => { socket with remotePaused := false }
    (flushOutbound s (w.sockets s).outbound resumed).releaseWriters s
  else w

/-- `waitForOutboundCapacity` of the session. -/
def waitForOutboundCapacity : NodeChannel :=
  if w.sessionClosed || !w.aboveHighWater then w
  else { w with capacityWaiters := w.capacityWaiters ++ [s] }

def waitForWritable : NodeChannel :=
  if (w.sockets s).remotePaused || !(w.sockets s).outbound.isEmpty then
    w.updateSocket s fun socket => { socket with writableWaiters := socket.writableWaiters + 1 }
  else w.waitForOutboundCapacity s

/-- A released writer of `s` runs on. -/
def continueWait : NodeChannel :=
  { w with released := w.released.erase s }.waitForOutboundCapacity s

/-! ## Reading from a socket -/

def pause : NodeChannel :=
  if (w.sockets s).paused || !w.isOpen s then w
  else (w.updateSocket s fun socket => { socket with paused := true }).sendControl

/-- `flushInbound`: an open socket may be paused by its listener after `taken` messages. -/
def flushInbound (taken : Nat) : NodeChannel :=
  let socket := w.sockets s
  if socket.paused || !socket.listening || socket.queued.isEmpty then w
  else
    let rest := if w.isOpen s then socket.queued.drop taken else []
    let read := w.updateSocket s fun socket =>
      { socket with queued := rest, queuedBytes := (rest.map Message.bytes).sum }
    if rest.isEmpty then read else read.pause s

def resume (taken : Nat) : NodeChannel :=
  if !(w.sockets s).paused || !w.isOpen s then w
  else
    let read := (w.updateSocket s fun socket => { socket with paused := false }).flushInbound s taken
    if (read.sockets s).paused then read else read.sendControl

/-- `on("message", ..)`. -/
def listen (taken : Nat) : NodeChannel :=
  let listening := w.updateSocket s fun socket => { socket with listening := true }
  if (w.sockets s).paused then listening.resume s taken else listening.flushInbound s taken

/-- `off("message", ..)` of the last listener. -/
def unlisten : NodeChannel :=
  w.updateSocket s fun socket => { socket with listening := false }

def deliver (message : Message) : NodeChannel :=
  let socket := w.sockets s
  if !w.isOpen s then w
  else if !socket.paused && socket.listening then w
  else if NODE_RELAY_STREAM_MAX_QUEUED_BYTES < socket.queuedBytes + message.bytes then
    w.closeSocket s 1013 "Node relay stream consumer is too slow."
  else
    let queued := w.updateSocket s fun socket =>
      { socket with
        queued := socket.queued ++ [message]
        queuedBytes := socket.queuedBytes + message.bytes }
    if !socket.paused && decide (NODE_RELAY_STREAM_HIGH_WATER_BYTES ≤ socket.queuedBytes + message.bytes)
    then queued.pause s
    else queued

/-! ## Auxiliary channels -/

variable (channelId : String)
variable (streamId : Nat)

/-- A new socket in both maps. -/
def register : NodeChannel :=
  { w with
    sockets := Function.update w.sockets w.nextSocket (.create channelId streamId)
    nextSocket := w.nextSocket + 1
    aux := w.aux.set channelId w.nextSocket
    auxByStreamId := w.auxByStreamId.set streamId w.nextSocket }

def removeAux (s : Nat) : NodeChannel :=
  let streamId := (w.sockets s).streamId
  { w with
    aux := if w.aux.get? channelId = some s then w.aux.erase channelId else w.aux
    auxByStreamId :=
      if w.auxByStreamId.get? streamId = some s then w.auxByStreamId.erase streamId
      else w.auxByStreamId }

def openAuxChannel : NodeChannel :=
  if w.closed || w.pendingOpens.contains channelId || w.aux.contains channelId ||
      decide (0xffffffff < w.nextAuxStreamId) then w
  else
    let s := w.nextSocket
    let registered := { w.register channelId w.nextAuxStreamId with
      nextAuxStreamId := w.nextAuxStreamId + 1
      pendingOpens := w.pendingOpens.set channelId ⟨w.nextAuxStreamId, s⟩ }
    match registered.handOver none with
    | (sent, true) => sent
    | (sent, false) =>
      ({ sent with pendingOpens := sent.pendingOpens.erase channelId }.removeAux channelId s).remoteClosed
        s .openFailed

/-- The timer of a pending open. -/
def openTimeout : NodeChannel :=
  match w.pendingOpens.get? channelId with
  | none => w
  | some pending =>
    { w with pendingOpens := w.pendingOpens.erase channelId }.closeSocket pending.socket 1011
      "Node relay channel open timed out."

/-! ## Messages of the peer -/

inductive SessionMessage where
  | relayPing
  | relayPong
  | channelOpen (channelId : String) (streamId : Nat)
  | channelAccept (channelId : String) (streamId : Nat)
  | channelReject (channelId : String)
  | channelClose (channelId : String)
  | streamPause (streamId : Nat)
  | streamResume (streamId : Nat)

/-- The socket of a stream, the main one included. -/
def streamSocket : Option Nat :=
  if streamId = NODE_RELAY_MAIN_STREAM_ID then some 0 else w.auxByStreamId.get? streamId

/-- The tunnel answers the end of the main socket by closing the sockets it holds. -/
def closeTunnelStreams : NodeChannel :=
  w.tunnelStreams.foldl (fun w s => w.closeSocket s 1001 "closed") w

def handleChannelClose : NodeChannel :=
  if channelId = NODE_RELAY_MAIN_CHANNEL_ID then
    (w.remoteClosed 0 .peerClosed).closeTunnelStreams.close
  else
    match w.aux.get? channelId with
    | none => w
    | some s => (w.unregister channelId s).remoteClosed s .peerClosed

/-- `channel-accept` at the node end. -/
def handleChannelAccept : NodeChannel :=
  match w.pendingOpens.get? channelId with
  | none => w
  | some pending =>
    if pending.streamId ≠ streamId ∨ w.auxByStreamId.get? streamId ≠ some pending.socket then
      w.sessionEnd
    else { w with pendingOpens := w.pendingOpens.erase channelId }

/-- `channel-reject` at the node end. -/
def handleChannelReject : NodeChannel :=
  match w.pendingOpens.get? channelId with
  | none => w
  | some pending =>
    ({ w with pendingOpens := w.pendingOpens.erase channelId }.removeAux channelId
      pending.socket).remoteClosed pending.socket .rejected

/-- `channel-open` at the control-plane end. A tunnel that does not know the
channel closes the socket before it says so. -/
def handleChannelOpen (attached : Bool) : NodeChannel :=
  if channelId = NODE_RELAY_MAIN_CHANNEL_ID ∨ w.aux.contains channelId = true ∨
      w.auxByStreamId.contains streamId = true then w.reply
  else
    let s := w.nextSocket
    let registered := w.register channelId streamId
    if attached then registered.reply
    else
      let refused := registered.closeSocket s 1008 "Unknown reverse tunnel channel."
      { refused with
        aux := refused.aux.erase channelId
        auxByStreamId := refused.auxByStreamId.erase streamId }.sendClose 1008
          "Unknown reverse tunnel channel." s channelId

def handleMessage (message : SessionMessage) (attached : Bool) : NodeChannel :=
  if w.closed then w
  else
    match message, w.channelEnd with
    | .relayPing, _ => w.reply
    | .relayPong, _ => w
    | .channelOpen _ _, .node => w.reply
    | .channelOpen channelId streamId, .controlPlane =>
      w.handleChannelOpen channelId streamId attached
    | .channelAccept channelId streamId, .node => w.handleChannelAccept channelId streamId
    | .channelReject channelId, .node => w.handleChannelReject channelId
    | .channelAccept _ _, .controlPlane | .channelReject _, .controlPlane => w.sessionEnd
    | .channelClose channelId, _ => w.handleChannelClose channelId
    | .streamPause streamId, _ =>
      match w.streamSocket streamId with
      | none => w
      | some s => w.remotePause s
    | .streamResume streamId, _ =>
      match w.streamSocket streamId with
      | none => w
      | some s => w.remoteResume s

def handleData (message : Message) : NodeChannel :=
  if w.closed then w
  else
    match w.streamSocket streamId with
    | none => w
    | some s => w.deliver s message

/-! ## Steps -/

inductive Command where
  | openAux (channelId : String)
  | openTimeout (channelId : String)
  | send (s : Nat) (message : Message)
  | closeSocket (s : Nat) (code : Nat) (reason : String)
  | ping (s : Nat)
  | listen (s : Nat) (taken : Nat)
  | unlisten (s : Nat)
  | pause (s : Nat)
  | resume (s : Nat) (taken : Nat)
  | waitForWritable (s : Nat)
  | continueWait (s : Nat)
  | closeChannel
  | receive (message : SessionMessage) (attached : Bool)
  | receiveData (streamId : Nat) (message : Message)
  /-- The session's queue moves on, or its length passes the high-water mark. -/
  | flush (count : Nat)
  | backlog (above : Bool)
  /-- The transport failed or the peer closed it. -/
  | sessionEnd

/-- A command with what the environment does during its step. -/
structure Action where
  command : Command
  answers : List Answer := []
  tunnelStreams : List Nat := []

/-- A command needs its socket to exist, a peer's message a session to come by,
a writer that runs on a promise that was released; only the node end dials. -/
def enabled : Command → Bool
  | .openAux _ | .openTimeout _ => decide (w.channelEnd = .node)
  | .send s _ | .closeSocket s _ _ | .ping s | .listen s _ | .unlisten s | .pause s
  | .resume s _ | .waitForWritable s => decide (s < w.nextSocket)
  | .continueWait s => decide (s ∈ w.released)
  | .receive _ _ | .receiveData _ _ => !w.sessionClosed
  | .closeChannel | .flush _ | .backlog _ | .sessionEnd => true

def perform : Command → NodeChannel
  | .openAux channelId => w.openAuxChannel channelId
  | .openTimeout channelId => w.openTimeout channelId
  | .send s message => w.send s message
  | .closeSocket s code reason => w.closeSocket s code reason
  | .ping s => if w.isOpen s then w.sendControl else w
  | .listen s taken => w.listen s taken
  | .unlisten s => w.unlisten s
  | .pause s => w.pause s
  | .resume s taken => w.resume s taken
  | .waitForWritable s => w.waitForWritable s
  | .continueWait s => w.continueWait s
  | .closeChannel => w.close
  | .receive message attached => w.handleMessage message attached
  | .receiveData streamId message => w.handleData streamId message
  | .flush count =>
    { w with
      wire := w.wire ++ w.outboundData.take count
      outboundData := w.outboundData.drop count }
  | .backlog above =>
    { w with
      aboveHighWater := above
      capacityWaiters := if above then w.capacityWaiters else [] }
  | .sessionEnd => w.sessionEnd

def step (action : Action) : Option NodeChannel :=
  if w.enabled action.command then
    some ({ w with answers := action.answers, tunnelStreams := action.tunnelStreams }.perform
      action.command)
  else none

/-- A channel end whose main socket is open and that has no other. -/
def start (channelEnd : ChannelEnd) : NodeChannel where
  channelEnd := channelEnd
  sockets s :=
    if s = 0 then .create NODE_RELAY_MAIN_CHANNEL_ID NODE_RELAY_MAIN_STREAM_ID
    else (NodeRelayChannelSocket.create "" 0).drop .channelEnded
  nextSocket := 1
  aux := .empty
  auxByStreamId := .empty
  pendingOpens := .empty
  nextAuxStreamId := 1
  closed := false
  sessionClosed := false
  outboundData := []
  wire := []
  aboveHighWater := false
  capacityWaiters := []
  released := []
  answers := []
  tunnelStreams := []
  accepted := []
  refusedCloses := []

end NodeChannel

end TaskHandoff.Relay
