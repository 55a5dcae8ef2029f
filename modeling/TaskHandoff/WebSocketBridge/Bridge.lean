import TaskHandoff.Lib.Machine

/-! # Bridging two WebSockets

`bridgeWebSockets` joins a client and an upstream socket. A frame goes on at once when the other
socket is open, is parked until it opens otherwise, and is chained behind the earlier writes when
that socket sends asynchronously. Every limit and every failed send closes both sockets. -/

namespace TaskHandoff.WebSocketBridge

open Machine

universe u

inductive Side
  | client
  | upstream
deriving DecidableEq

def Side.other : Side → Side
  | .client => .upstream
  | .upstream => .client

@[simp] theorem Side.other_other (x : Side) : x.other.other = x := by cases x <;> rfl

theorem Side.eq_or_other (x y : Side) : x = y ∨ x = y.other := by cases x <;> cases y <;> decide

/-- `readyState`. A socket that `close` was called on does not open again, whether or not it was
open before. -/
inductive Phase
  | connecting
  | opened
  | shut
deriving DecidableEq

/-- The options of a bridge, with the source's defaults. -/
structure Options where
  pendingFrameLimit : Nat := 256
  maxFrameBytes : Nat := 8 * 1024 * 1024
  maxTotalBytes : Nat := 1024 * 1024 * 1024
  maxBufferedBytes : Nat := 16 * 1024 * 1024
  upstreamOpenTimeoutMs : Nat := 0

/-- `WebSocketFrame`. -/
structure Frame (δ : Type u) where
  data : δ
  isBinary : Bool
  bytes : Nat

/-- What a send meets at its socket: the bytes buffered there, and whether `send` throws. -/
structure Gauge where
  bufferedAmount : Nat := 0
  throws : Bool := false

instance : Inhabited Gauge := ⟨{}⟩

/-- One socket with the queues that lead to it: the parked frames and their bytes, the tail of its
asynchronous writes with the write in flight and their bytes. `handed` are the frames `send` or
`sendAsync` took, `received` those that came from the socket. `hasOpened` and `ended` say that its
open and its close event have happened, `parted` that the close was a normal one which met the
other socket still there. -/
structure Socket (δ : Type u) where
  phase : Phase
  sendAsync : Bool
  pending : List (Frame δ) := []
  pendingBytes : Nat := 0
  tail : List (Frame δ) := []
  inFlight : Option (Frame δ) := none
  writeBytes : Nat := 0
  paused : Bool := false
  handed : List (Frame δ) := []
  received : List (Frame δ) := []
  hasOpened : Bool
  ended : Bool := false
  parted : Bool := false

/-- The bridge. `failed` says that a limit was exceeded or that a send failed. -/
structure Bridge (δ : Type u) where
  client : Socket δ
  upstream : Socket δ
  clientClosed : Bool := false
  upstreamOpened : Bool
  openTimer : Bool
  totalBytes : Nat := 0
  failed : Bool := false

variable {δ : Type u}

namespace Socket

def shut (d : Socket δ) : Socket δ := { d with phase := .shut }

variable (f : Frame δ)

/-- A synchronous `sendFrame`. -/
def hand (d : Socket δ) : Socket δ := { d with handed := d.handed ++ [f] }

/-- A write chained on the tail of the asynchronous ones. -/
def chain (d : Socket δ) : Socket δ :=
  { d with tail := d.tail ++ [f], writeBytes := d.writeBytes + f.bytes }

def park (d : Socket δ) : Socket δ :=
  { d with pending := d.pending ++ [f], pendingBytes := d.pendingBytes + f.bytes }

def dequeued (d : Socket δ) : Socket δ :=
  { d with pendingBytes := d.pendingBytes - f.bytes }

def log (d : Socket δ) : Socket δ := { d with received := d.received ++ [f] }

/-- The next chained write begins: an open socket gets its frame. -/
def write (rest : List (Frame δ)) (d : Socket δ) : Socket δ :=
  { d with tail := rest, inFlight := some f, handed := d.handed ++ [f] }

end Socket

namespace Bridge

variable (b : Bridge δ)

def socket : Side → Socket δ
  | .client => b.client
  | .upstream => b.upstream

def modify (x : Side) (f : Socket δ → Socket δ) : Bridge δ :=
  match x with
  | .client => { b with client := f b.client }
  | .upstream => { b with upstream := f b.upstream }

@[simp] theorem socket_modify_self (x : Side) (f : Socket δ → Socket δ) :
    (b.modify x f).socket x = f (b.socket x) := by
  cases x <;> rfl

@[simp] theorem socket_modify_other (x : Side) (f : Socket δ → Socket δ) :
    (b.modify x f).socket x.other = b.socket x.other := by
  cases x <;> rfl

@[simp] theorem socket_modify_of_other (x : Side) (f : Socket δ → Socket δ) :
    (b.modify x.other f).socket x = b.socket x := by
  cases x <;> rfl

@[simp] theorem upstreamOpened_modify (x : Side) (f : Socket δ → Socket δ) :
    (b.modify x f).upstreamOpened = b.upstreamOpened := by
  cases x <;> rfl

def closeWebSocket (x : Side) : Bridge δ := b.modify x .shut

/-- Both sockets closed behind a limit or a failed send. -/
def fail : Bridge δ :=
  { (b.closeWebSocket .client).closeWebSocket .upstream with failed := true }

variable (o : Options)

@[simp] theorem socket_fail (x : Side) : b.fail.socket x = (b.socket x).shut := by cases x <;> rfl

/-- `acceptFrame`: count the bytes of a frame against the limits of the bridge. -/
def acceptFrame (bytes : Nat) (b : Bridge δ) : Bridge δ × Bool :=
  let b := { b with totalBytes := b.totalBytes + bytes }
  if bytes > o.maxFrameBytes ∨ b.totalBytes > o.maxTotalBytes then (b.fail, false) else (b, true)

/-- `forward` to an open socket. -/
def forward (x : Side) (f : Frame δ) (g : Gauge) (b : Bridge δ) : Bridge δ × Bool :=
  if g.bufferedAmount + f.bytes > o.maxBufferedBytes then (b.fail, false)
  else if (b.socket x).sendAsync then
    if (b.socket x).writeBytes + f.bytes > o.maxBufferedBytes then (b.fail, false)
    else ((b.modify x (.chain f)).modify x.other fun d => { d with paused := true }, true)
  else if g.throws then (b.fail, false)
  else (b.modify x (.hand f), true)

/-- `queue` for a socket that is not open. -/
def queue (x : Side) (f : Frame δ) (g : Gauge) (b : Bridge δ) : Bridge δ :=
  if (b.socket x).pending.length ≥ o.pendingFrameLimit then b.fail
  else if g.bufferedAmount + (b.socket x).pendingBytes + f.bytes > o.maxBufferedBytes then b.fail
  else b.modify x (.park f)

/-- The loop of `flush` over the frames taken out of the queue. -/
def flushFrames (o : Options) (x : Side) : List (Frame δ) → List Gauge → Bridge δ → Bridge δ
  | [], _, b => b
  | f :: fs, gs, b =>
    let sent := (b.modify x (.dequeued f)).forward o x f (gs.headD default)
    if sent.2 then flushFrames o x fs gs.tail sent.1 else sent.1

def flush (x : Side) (gs : List Gauge) (b : Bridge δ) : Bridge δ :=
  if (b.socket x).phase = .opened then
    flushFrames o x (b.socket x).pending gs (b.modify x fun d => { d with pending := [] })
  else b

/-- The message handler of a socket, for a frame that came from `x`. -/
def receiveFrame (x : Side) (f : Frame δ) (g : Gauge) (b : Bridge δ) : Bridge δ :=
  let accepted := (b.modify x (.log f)).acceptFrame o f.bytes
  if accepted.2 then
    if (accepted.1.socket x.other).phase = .opened then (accepted.1.forward o x.other f g).1
    else accepted.1.queue o x.other f g
  else accepted.1

variable (x : Side)

/-- The end of one asynchronous write: its bytes are free, and the source goes on when none are
left. -/
def settleWrite (f : Frame δ) (b : Bridge δ) : Bridge δ :=
  let b := b.modify x fun d => { d with writeBytes := d.writeBytes - f.bytes, inFlight := none }
  if (b.socket x).writeBytes = 0 ∧ (b.socket x.other).phase = .opened then
    b.modify x.other fun d => { d with paused := false }
  else b

/-- The turn of the next chained write. A socket that is no longer open is passed over. -/
def turn (f : Frame δ) (rest : List (Frame δ)) (b : Bridge δ) : Bridge δ :=
  if (b.socket x).phase = .opened then b.modify x (.write f rest)
  else (b.modify x fun d => { d with tail := rest }).settleWrite x f

/-- The open event. -/
def opens (x : Side) (gs : List Gauge) (b : Bridge δ) : Bridge δ :=
  let b := b.modify x fun d => { d with phase := .opened, hasOpened := true }
  match x with
  | .client => b.flush o .client gs
  | .upstream =>
    ({ b with openTimer := false, upstreamOpened := true } : Bridge δ).flush o .upstream gs

/-- The close event. `handled` is the answer of `onUpstreamCloseBeforeOpen`. -/
def closes (handled : Bool) (b : Bridge δ) : Bridge δ :=
  let normal := !b.failed && (b.socket x.other).phase != .shut
  let b := b.modify x fun d => { d with phase := .shut, ended := true, parted := normal }
  let b := { b with openTimer := false }
  match x with
  | .client => ({ b with clientClosed := true } : Bridge δ).closeWebSocket .upstream
  | .upstream =>
    if !b.upstreamOpened && !b.clientClosed && handled then b else b.closeWebSocket .client

/-- The error event. `handled` is the answer of `onUpstreamErrorBeforeOpen`. -/
def errs (handled : Bool) (b : Bridge δ) : Bridge δ :=
  match x with
  | .client =>
    ({ b with openTimer := false, clientClosed := true } : Bridge δ).closeWebSocket .upstream
  | .upstream =>
    if !b.upstreamOpened && !b.clientClosed && handled then b else b.closeWebSocket .client

/-- The timer over the upstream's open event. -/
def openTimeout : Bridge δ :=
  let b := { b with openTimer := false }
  if !b.upstreamOpened && !b.clientClosed then
    (b.closeWebSocket .client).closeWebSocket .upstream
  else b

def close : Bridge δ :=
  (({ b with openTimer := false } : Bridge δ).closeWebSocket .upstream).closeWebSocket .client

/-! ## Runs -/

/-- The two sockets when the bridge is made: their states, and which of them send
asynchronously. -/
structure Ends where
  client : Phase
  upstreamOpen : Bool
  clientAsync : Bool
  upstreamAsync : Bool

/-- The bridge with its handlers in place. -/
def connect (e : Ends) : Bridge δ where
  client :=
    { phase := e.client, sendAsync := e.clientAsync, hasOpened := e.client != .connecting }
  upstream :=
    { phase := if e.upstreamOpen then .opened else .connecting, sendAsync := e.upstreamAsync,
      hasOpened := e.upstreamOpen }
  upstreamOpened := e.upstreamOpen
  openTimer := o.upstreamOpenTimeoutMs != 0 && !e.upstreamOpen

/-- `bridgeWebSockets`: the client frames captured before are replayed, each with what its send
meets. -/
def bridgeWebSockets (e : Ends) (initialClientFrames : List (Frame δ × Gauge)) : Bridge δ :=
  initialClientFrames.foldl (fun b f => b.receiveFrame o .client f.1 f.2) (connect o e)

/-- The events of the sockets, the turns and ends of their asynchronous writes, the timer and the
method of the bridge. -/
inductive Action (δ : Type u)
  /-- The open event of a socket. -/
  | opens (x : Side) (gs : List Gauge)
  | message (x : Side) (data : δ) (isBinary : Bool) (g : Gauge)
  /-- The next chained write of a socket has its turn. -/
  | turn (x : Side)
  /-- The write in flight to a socket ends. -/
  | written (x : Side) (ok : Bool)
  /-- A socket leaves the open state by itself; its close event is still to come. -/
  | leaves (x : Side)
  | closes (x : Side) (handled : Bool)
  | errs (x : Side) (handled : Bool)
  | openTimeout
  | close

/-- The frame a message handler makes of its message. -/
def frameOf (frameBytes : δ → Nat) (data : δ) (isBinary : Bool) : Frame δ :=
  ⟨data, isBinary, frameBytes data⟩

/-- One event. A socket sends messages from its open event to its close event. -/
def step (frameBytes : δ → Nat) (o : Options) (b : Bridge δ) : Action δ → Option (Bridge δ)
  | .opens x gs => if (b.socket x).phase = .connecting then some (b.opens o x gs) else none
  | .message x data isBinary g =>
    if (b.socket x).hasOpened ∧ ¬(b.socket x).ended then
      some (b.receiveFrame o x (frameOf frameBytes data isBinary) g)
    else none
  | .turn x =>
    match (b.socket x).inFlight, (b.socket x).tail with
    | none, f :: rest => some (b.turn x f rest)
    | _, _ => none
  | .written x ok =>
    match (b.socket x).inFlight with
    | none => none
    | some f => some ((if ok then b else b.fail).settleWrite x f)
  | .leaves x => some (b.closeWebSocket x)
  | .closes x handled => if (b.socket x).ended then none else some (b.closes x handled)
  | .errs x handled => if (b.socket x).ended then none else some (b.errs x handled)
  | .openTimeout => if b.openTimer then some b.openTimeout else none
  | .close => some b.close

end Bridge

end TaskHandoff.WebSocketBridge
