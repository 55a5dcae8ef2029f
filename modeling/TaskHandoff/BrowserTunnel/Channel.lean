import TaskHandoff.BrowserTunnel.Codec
import TaskHandoff.Lib.Machine
import TaskHandoff.Lib.OrderedMap

/-! # The browser tunnel of a controlled instance

`attachBrowserTunnel` serves the streams of one WebSocket: each is a TCP connection to a target,
with a window of credit in either direction. The targets' events, the callbacks of their writes,
the timers and the WebSocket's events come in any order. -/

namespace TaskHandoff.BrowserTunnel

open Machine

def maxQueuedBytesPerStream : Nat := 1024 * 1024
def maxChannelBufferedBytes : Nat := 16 * 1024 * 1024

/-- What a tunnel takes from outside: its options, the parsers of the handshake and of an open
frame's payload, and the WebSocket's `bufferedAmount` at each reading. -/
structure Runtime where
  maxStreams : Nat := 128
  idleTimeoutMs : Nat := 5 * 60 * 1000
  /-- The initial window of a `BrowserTunnelHelloSchema`. -/
  hello : List UInt8 → Option Nat
  /-- The host and the port of a `BrowserTunnelOpenPayloadSchema`. -/
  openPayload : List UInt8 → Option (String × Nat)
  bufferedAmount : Nat → Nat

inductive StreamState
  | connecting
  | opened
  | closed
deriving DecidableEq

/-- A `BrowserTunnelStream` with its target. The target is `paused`, `destroyed` or has been told to
end its side (`halfClosed`); `inFlight` are the sizes of the writes whose callback is to come, and
`connected`, `finished` and `gone` say that the target's connect, end and close events have come.
`arrived` are the payloads of the data frames for the stream, `written` those written to the target
and `credited` the sizes its callbacks gave back; `read` are the bytes that came from the target,
`granted` is the send credit given so far and `sent` are the frames the WebSocket took for it. -/
structure Stream where
  id : Nat
  host : String
  port : Nat
  state : StreamState
  receiveCredit : Nat
  sendCredit : Nat
  queued : List (List UInt8)
  queuedBytes : Nat
  lastActivityAt : Nat
  connectTimer : Bool
  paused : Bool
  destroyed : Bool
  halfClosed : Bool
  inFlight : List Nat
  connected : Bool
  finished : Bool
  gone : Bool
  arrived : List (List UInt8)
  written : List (List UInt8)
  credited : List Nat
  read : List UInt8
  granted : Nat
  sent : List Frame

namespace Stream

def start (id : Nat) (host : String) (port window now : Nat) : Stream where
  id
  host
  port
  state := .connecting
  receiveCredit := initialWindowBytes
  sendCredit := window
  queued := []
  queuedBytes := 0
  lastActivityAt := now
  connectTimer := true
  paused := true
  destroyed := false
  halfClosed := false
  inFlight := []
  connected := false
  finished := false
  gone := false
  arrived := []
  written := []
  credited := []
  read := []
  granted := window
  sent := []

def log (f : Frame) (st : Stream) : Stream := { st with sent := st.sent ++ [f] }

/-- What `removeStream` does to the stream. -/
def remove (destroy : Bool) (st : Stream) : Stream :=
  { st with
    state := .closed
    connectTimer := false
    queued := []
    queuedBytes := 0
    destroyed := st.destroyed || destroy }

/-- The size of the next chunk for the peer. -/
def chunkBytes (current : List UInt8) (st : Stream) : Nat :=
  min current.length (min st.sendCredit maxDataBytes)

/-- A chunk of the first queued buffer is sent. -/
def advance (now : Nat) (current : List UInt8) (rest : List (List UInt8)) (st : Stream) : Stream :=
  { st with
    sendCredit := st.sendCredit - st.chunkBytes current
    queuedBytes := st.queuedBytes - st.chunkBytes current
    lastActivityAt := now
    queued :=
      if st.chunkBytes current = current.length then rest
      else current.drop (st.chunkBytes current) :: rest }

/-- A chunk came from the target. -/
def enqueue (now : Nat) (chunk : List UInt8) (st : Stream) : Stream :=
  { st with
    paused := true
    queued := st.queued ++ [chunk]
    queuedBytes := st.queuedBytes + chunk.length
    lastActivityAt := now
    read := st.read ++ chunk }

def connect (now : Nat) (st : Stream) : Stream :=
  { st with connectTimer := false, state := .opened, lastActivityAt := now }

/-- A data frame came for the stream. -/
def arrive (payload : List UInt8) (st : Stream) : Stream :=
  { st with arrived := st.arrived ++ [payload] }

/-- A data frame within the credit is written to the target. -/
def accept (payload : List UInt8) (st : Stream) : Stream :=
  { st with
    receiveCredit := st.receiveCredit - payload.length
    written := st.written ++ [payload]
    inFlight := st.inFlight ++ [payload.length] }

/-- The callback of the first write in flight, for a stream that is not closed. -/
def credit (bytes : Nat) (rest : List Nat) (st : Stream) : Stream :=
  { st with
    receiveCredit := min initialWindowBytes (st.receiveCredit + bytes)
    inFlight := rest
    credited := st.credited ++ [bytes] }

def grant (bytes : Nat) (st : Stream) : Stream :=
  { st with sendCredit := st.sendCredit + bytes, granted := st.granted + bytes }

end Stream

/-- The channel. `replies` are the error frames for ids that have no stream of their own,
`bufferedReads` counts the readings of `bufferedAmount`, and `escaped` says that an exception left
a handler that nothing guards. -/
structure Tunnel where
  objects : List Stream
  streams : OrderedMap Nat Nat
  ready : Bool
  closed : Bool
  socketOpen : Bool
  peerInitialWindow : Nat
  now : Nat
  bufferedReads : Nat
  replies : List (Nat × TunnelError)
  escaped : Bool

namespace Tunnel

def start : Tunnel where
  objects := []
  streams := OrderedMap.empty
  ready := false
  closed := false
  socketOpen := true
  peerInitialWindow := initialWindowBytes
  now := 0
  bufferedReads := 0
  replies := []
  escaped := false

variable (s : Tunnel)

def modify (i : Nat) (f : Stream → Stream) : Tunnel :=
  { s with objects := s.objects.modify i f }

/-- The WebSocket takes frames. -/
def writable : Bool := !s.closed && s.socketOpen

def removeStream (destroy : Bool) (s : Tunnel) (i : Nat) : Tunnel :=
  match s.objects[i]? with
  | none => s
  | some st =>
    if st.state = .closed then s
    else { s.modify i (.remove destroy) with streams := s.streams.erase st.id }

def closeChannel : Tunnel :=
  if s.closed then s
  else
    { s.streams.values.foldl (removeStream true) { s with closed := true } with
      streams := OrderedMap.empty
      socketOpen := false }

variable (r : Runtime)

/-- `send`, for data of the given size. -/
def send (size : Nat) (s : Tunnel) : Tunnel × Bool :=
  if s.closed || !s.socketOpen then (s, false)
  else
    let t := { s with bufferedReads := s.bufferedReads + 1 }
    if r.bufferedAmount s.bufferedReads + size > maxChannelBufferedBytes then
      (t.closeChannel, false)
    else (t, true)

/-- A frame of the stream `i`, with whether the WebSocket took it. `none` where encoding it
throws. -/
def sendFrame (i : Nat) (f : Frame) (s : Tunnel) : Option (Tunnel × Bool) :=
  match encodeFrame f with
  | none => none
  | some bytes =>
    let sent := s.send r bytes.length
    some (if sent.2 then sent.1.modify i (.log f) else sent.1, sent.2)

/-- An error frame for an id that has no stream of its own. -/
def reply (id : Nat) (e : TunnelError) (s : Tunnel) : Option Tunnel :=
  match encodeFrame (e.frame id) with
  | none => none
  | some bytes =>
    let sent := s.send r bytes.length
    some (if sent.2 then { sent.1 with replies := sent.1.replies ++ [(id, e)] } else sent.1)

def streamError (i : Nat) (st : Stream) (e : TunnelError) (s : Tunnel) : Option Tunnel :=
  (s.sendFrame r i (e.frame st.id)).map fun sent => sent.1.removeStream true i

/-- `flushTargetData`, with whether it threw: chunks go to the peer while there is credit, and the
target is read again behind the last one. -/
def flushTargetData (r : Runtime) (i : Nat) : Nat → Tunnel → Tunnel × Bool
  | 0, s => (s, false)
  | fuel + 1, s =>
    match s.objects[i]? with
    | none => (s, false)
    | some st =>
      if st.state = .opened then
        match st.queued with
        | [] => (s.modify i fun st => { st with paused := false }, false)
        | current :: rest =>
          if 0 < st.sendCredit then
            match s.sendFrame r i ⟨.data, st.id, current.take (st.chunkBytes current)⟩ with
            | none => (s, true)
            | some (t, false) => (t, false)
            | some (t, true) => flushTargetData r i fuel (t.modify i (.advance s.now current rest))
          else (s, false)
      else (s, false)

/-- The turns the loop of `flushTargetData` may take. -/
def flushFuel (st : Stream) : Nat := (st.queued.map fun b => b.length + 1).sum + 1

def flush (i : Nat) (s : Tunnel) : Tunnel × Bool :=
  match s.objects[i]? with
  | none => (s, false)
  | some st => flushTargetData r i (flushFuel st) s

/-! ## The host of a target -/

/-- One part of a loopback alias: one to three digits, at most 255. -/
def aliasPart (part : List Char) : Bool :=
  0 < part.length && part.length ≤ 3 && part.all Char.isDigit &&
    part.foldl (fun n c => n * 10 + (c.toNat - '0'.toNat)) 0 ≤ 255

/-- `127-a-b-c.internal` stands for the loopback address `127.a.b.c`. -/
def targetHost (host : String) : String :=
  let chars := host.toList
  let front := "127-".toList
  let back := ".internal".toList
  let parts := ((chars.drop front.length).take (chars.length - front.length - back.length)).splitOn
    '-'
  if front.isPrefixOf chars && back.isSuffixOf chars && parts.length = 3 && parts.all aliasPart then
    String.ofList ("127".toList ++ parts.flatMap fun part => '.' :: part)
  else host

/-! ## Handlers -/

def openStream (id : Nat) (host : String) (port : Nat) (s : Tunnel) : Option Tunnel :=
  if (s.streams.get? id).isSome then s.reply r id .alreadyOpen
  else if s.streams.size ≥ r.maxStreams then s.reply r id .streamLimit
  else
    some { s with
      objects := s.objects ++ [.start id (targetHost host) port s.peerInitialWindow s.now]
      streams := s.streams.set id s.objects.length }

/-- A step of a handler that may throw, with whether it did. -/
def attempt : Option Tunnel → Tunnel × Bool
  | none => (s, true)
  | some t => (t, false)

/-- A frame for the stream `i`. -/
def streamFrame (f : Frame) (i : Nat) (st : Stream) (s : Tunnel) : Tunnel × Bool :=
  match f.type with
  | .data =>
    if st.state ≠ .opened ∨ f.payload.length > st.receiveCredit then
      s.attempt ((s.streamError r i st .receiveWindow).map fun s =>
        s.modify i (.arrive f.payload))
    else (s.modify i fun st => (st.arrive f.payload).accept f.payload, false)
  | .windowUpdate =>
    match decodeWindowUpdate f with
    | none => (s, true)
    | some bytes =>
      if st.sendCredit + bytes > maxWindowBytes then
        s.attempt (s.streamError r i st .sendWindow)
      else (s.modify i (.grant bytes)).flush r i
  | .halfClose => (s.modify i fun st => { st with halfClosed := true }, false)
  | .close | .error => (s.removeStream true i, false)
  | .opens | .openOk => (s, false)

/-- `handleFrame`, with whether it threw. -/
def handleFrame (f : Frame) (s : Tunnel) : Tunnel × Bool :=
  if f.type = .opens then
    match r.openPayload f.payload with
    | none => (s, true)
    | some payload => s.attempt (s.openStream r f.streamId payload.1 payload.2)
  else
    match s.streams.get? f.streamId with
    | none => if f.type = .close then (s, false) else s.attempt (s.reply r f.streamId .closed)
    | some i =>
      let s := s.modify i fun st => { st with lastActivityAt := s.now }
      match s.objects[i]? with
      | none => (s, false)
      | some st => s.streamFrame r f i st

/-- The bytes of `encodeBrowserTunnelReady`. -/
def readyBytes : Nat :=
  ("\x7b\"type\":\"browser-tunnel.ready\",\"protocolVersion\":\"2026-08-29\"," ++
    "\"initialWindowBytes\":262144\x7d").length

/-- The message handler. What throws in it closes the channel. -/
def message (bytes : List UInt8) (isBinary : Bool) (s : Tunnel) : Tunnel :=
  if s.ready then
    if isBinary then
      match decodeFrame bytes with
      | none => s.closeChannel
      | some f =>
        let handled := s.handleFrame r f
        if handled.2 then handled.1.closeChannel else handled.1
    else s.closeChannel
  else
    match r.hello bytes with
    | none => s.closeChannel
    | some window =>
      (({ s with peerInitialWindow := window, ready := true } : Tunnel).send r readyBytes).1

/-- A handler outside of the guard: what throws in it escapes. -/
def unguarded (handled : Tunnel × Bool) : Tunnel :=
  if handled.2 then { handled.1 with escaped := true } else handled.1

/-- The target connects. -/
def onConnect (i : Nat) (st : Stream) (s : Tunnel) : Tunnel :=
  let s := s.modify i fun st => { st with connected := true }
  if st.state ≠ .connecting then s
  else
    let s := s.modify i (.connect s.now)
    unguarded (s.attempt ((s.sendFrame r i ⟨.openOk, st.id, []⟩).map fun sent =>
      sent.1.modify i fun st => { st with paused := false }))

/-- The target has data. -/
def onData (i : Nat) (st : Stream) (chunk : List UInt8) (s : Tunnel) : Tunnel :=
  if st.state ≠ .opened then s
  else
    let s := s.modify i (.enqueue s.now chunk)
    if st.queuedBytes + chunk.length > maxQueuedBytesPerStream then
      unguarded (s.attempt (s.streamError r i st .producedTooMuch))
    else unguarded (s.flush r i)

/-- The target ends its side. -/
def onEnd (i : Nat) (st : Stream) (s : Tunnel) : Tunnel :=
  let s := s.modify i fun st => { st with finished := true }
  if st.state = .closed then s
  else
    unguarded (s.attempt ((s.sendFrame r i ⟨.halfClose, st.id, []⟩).map fun sent => sent.1))

def onError (i : Nat) (st : Stream) (s : Tunnel) : Tunnel :=
  if st.state = .closed then s
  else unguarded (s.attempt (s.streamError r i st .connectFailed))

def onClose (i : Nat) (st : Stream) (s : Tunnel) : Tunnel :=
  let s := s.modify i fun st => { st with gone := true }
  if st.state = .closed then s
  else
    unguarded (s.attempt ((s.sendFrame r i ⟨.close, st.id, []⟩).map fun sent =>
      sent.1.removeStream false i))

/-- The callback of a write to the target. -/
def onWritten (i : Nat) (st : Stream) (bytes : Nat) (rest : List Nat) (s : Tunnel) : Tunnel :=
  if st.state = .closed then s.modify i fun st => { st with inFlight := rest }
  else
    let s := s.modify i (.credit bytes rest)
    unguarded (s.attempt (((windowUpdate st.id bytes).bind fun f => s.sendFrame r i f).map
      fun sent => sent.1))

def onConnectTimer (i : Nat) (st : Stream) (s : Tunnel) : Tunnel :=
  let s := s.modify i fun st => { st with connectTimer := false }
  unguarded (s.attempt (s.streamError r i st .connectTimeout))

/-- The idle timer's round over the streams. A round that throws stops there. -/
def idleRound (r : Runtime) : List Nat → Tunnel → Tunnel
  | [], s => s
  | i :: rest, s =>
    match s.objects[i]? with
    | none => idleRound r rest s
    | some st =>
      if st.state = .closed ∨ s.now ≤ st.lastActivityAt + r.idleTimeoutMs then idleRound r rest s
      else
        match s.streamError r i st .idleTimeout with
        | none => unguarded (s, true)
        | some t => idleRound r rest t

/-! ## Runs -/

inductive Action
  | message (bytes : List UInt8) (isBinary : Bool)
  | connected (i : Nat)
  | data (i : Nat) (chunk : List UInt8)
  | ended (i : Nat)
  | failed (i : Nat)
  | closed (i : Nat)
  /-- The first write in flight to a target is done. -/
  | written (i : Nat)
  | connectTimer (i : Nat)
  | idleTimer
  /-- The clock is read as `now` from here on. -/
  | clock (now : Nat)
  /-- The WebSocket leaves its open state; its close event is still to come. -/
  | socketLeaves
  | socketClosed
  | socketFailed
  | close

/-- One event. A target sends nothing before it is connected, behind its end or when it is
destroyed, and its close event is its last one. -/
def step (s : Tunnel) : Action → Option Tunnel
  | .message bytes isBinary => some (s.message r bytes isBinary)
  | .connected i =>
    match s.objects[i]? with
    | none => none
    | some st =>
      if st.connected ∨ st.destroyed ∨ st.gone then none else some (s.onConnect r i st)
  | .data i chunk =>
    match s.objects[i]? with
    | none => none
    | some st =>
      if st.connected = false ∨ st.finished ∨ st.destroyed ∨ st.gone then none
      else some (s.onData r i st chunk)
  | .ended i =>
    match s.objects[i]? with
    | none => none
    | some st =>
      if st.connected = false ∨ st.finished ∨ st.destroyed ∨ st.gone then none
      else some (s.onEnd r i st)
  | .failed i =>
    match s.objects[i]? with
    | none => none
    | some st => if st.gone then none else some (s.onError r i st)
  | .closed i =>
    match s.objects[i]? with
    | none => none
    | some st => if st.gone then none else some (s.onClose r i st)
  | .written i =>
    match s.objects[i]? with
    | none => none
    | some st =>
      match st.inFlight with
      | [] => none
      | bytes :: rest => some (s.onWritten r i st bytes rest)
  | .connectTimer i =>
    match s.objects[i]? with
    | none => none
    | some st => if st.connectTimer then some (s.onConnectTimer r i st) else none
  | .idleTimer => if s.closed then none else some (idleRound r s.streams.values s)
  | .clock now => some { s with now }
  | .socketLeaves => some { s with socketOpen := false }
  | .socketClosed | .socketFailed | .close => some s.closeChannel

end Tunnel

end TaskHandoff.BrowserTunnel
