import TaskHandoff.Lib.OrderedMap
import TaskHandoff.Lib.Machine

/-! # The browser multiplexer

Browser channels of the control-plane subprotocol share one encrypted relay
channel. A multiplexer opens channels, accepts those of its peer, queues frames
until the window of the receiver has room, and returns credit when a consumer is
done with a frame. Callbacks of the wire and of consumers return or throw here;
what they lead to comes as later actions.
-/

namespace TaskHandoff.Browser

/-! ## Messages -/

def windowBytes : Nat := 128 * 1024
def maxChannels : Nat := 4
def maxMessageBytes : Nat := 64 * 1024 + 9
def maxQueuedBytes : Nat := 2 * 1024 * 1024
def headerBytes : Nat := 7
def maxTunnelId : Nat := 0xffffffff

structure BrowserChannelMessage where
  bytes : List UInt8
  binary : Bool

def BrowserChannelMessage.size (message : BrowserChannelMessage) : Nat := message.bytes.length

inductive RelayBrowserControl where
  | channelOpen (tunnelId : Nat) (instanceId : String)
  | channelOpened (tunnelId : Nat)
  | channelClose (tunnelId : Nat)
  | channelClosed (tunnelId : Nat)
  | channelError (tunnelId : Nat) (errorCode : String)
  | windowUpdate (tunnelId creditBytes : Nat)

def RelayBrowserControl.tunnelId : RelayBrowserControl → Nat
  | .channelOpen tunnelId _ => tunnelId
  | .channelOpened tunnelId => tunnelId
  | .channelClose tunnelId => tunnelId
  | .channelClosed tunnelId => tunnelId
  | .channelError tunnelId _ => tunnelId
  | .windowUpdate tunnelId _ => tunnelId

def validTunnelId (tunnelId : Nat) : Bool := 0 < tunnelId && tunnelId ≤ maxTunnelId

/-- The schema of control messages. -/
def RelayBrowserControl.valid : RelayBrowserControl → Bool
  | .channelOpen tunnelId instanceId =>
    validTunnelId tunnelId && 1 ≤ instanceId.length && instanceId.length ≤ 160
  | .channelError tunnelId errorCode =>
    validTunnelId tunnelId && 1 ≤ errorCode.length && errorCode.length ≤ 160
  | .windowUpdate tunnelId creditBytes =>
    validTunnelId tunnelId && 0 < creditBytes && creditBytes ≤ windowBytes
  | .channelOpened tunnelId => validTunnelId tunnelId
  | .channelClose tunnelId => validTunnelId tunnelId
  | .channelClosed tunnelId => validTunnelId tunnelId

structure RelayBrowserData where
  tunnelId : Nat
  message : BrowserChannelMessage

/-! ## The data codec -/

def uint32Bytes (n : Nat) : List UInt8 :=
  [UInt8.ofNat (n / 2 ^ 24), UInt8.ofNat (n / 2 ^ 16), UInt8.ofNat (n / 2 ^ 8), UInt8.ofNat n]

def encodeRelayBrowserData (frame : RelayBrowserData) : Option (List UInt8) :=
  if !validTunnelId frame.tunnelId then none
  else if frame.message.size = 0 || maxMessageBytes < frame.message.size then none
  else
    some ([0x57, 1, if frame.message.binary then 1 else 0] ++ uint32Bytes frame.tunnelId ++
      frame.message.bytes)

def decodeRelayBrowserData (bytes : List UInt8) : Option RelayBrowserData :=
  match bytes with
  | magic :: version :: binary :: a :: b :: c :: d :: payload =>
    if payload.length = 0 || maxMessageBytes < payload.length || magic ≠ 0x57 ||
        version ≠ 1 || 1 < binary then none
    else
      let tunnelId := a.toNat * 2 ^ 24 + b.toNat * 2 ^ 16 + c.toNat * 2 ^ 8 + d.toNat
      if validTunnelId tunnelId then some ⟨tunnelId, ⟨payload, binary = 1⟩⟩ else none
  | _ => none

theorem uint32Bytes_toNat {n : Nat} (h : n ≤ maxTunnelId) :
    (UInt8.ofNat (n / 2 ^ 24)).toNat * 2 ^ 24 + (UInt8.ofNat (n / 2 ^ 16)).toNat * 2 ^ 16 +
      (UInt8.ofNat (n / 2 ^ 8)).toNat * 2 ^ 8 + (UInt8.ofNat n).toNat = n := by
  simp only [UInt8.toNat_ofNat', maxTunnelId] at h ⊢
  omega

theorem uint32Bytes_read (a b c d : UInt8) :
    uint32Bytes (a.toNat * 2 ^ 24 + b.toNat * 2 ^ 16 + c.toNat * 2 ^ 8 + d.toNat) =
      [a, b, c, d] := by
  have ha := a.toNat_lt
  have hb := b.toNat_lt
  have hc := c.toNat_lt
  have hd := d.toNat_lt
  simp only [uint32Bytes, List.cons.injEq, and_true, ← UInt8.toNat_inj, UInt8.toNat_ofNat']
  omega

/-- A message is read as a frame exactly when it is what the frame is written as. -/
theorem decodeRelayBrowserData_eq_some_iff (bytes : List UInt8) (frame : RelayBrowserData) :
    decodeRelayBrowserData bytes = some frame ↔ encodeRelayBrowserData frame = some bytes := by
  constructor
  · intro h
    unfold decodeRelayBrowserData at h
    split at h
    swap
    · cases h
    rename_i magic version binary a b c d payload
    split at h
    · cases h
    rename_i hheader
    simp only [Bool.or_eq_true, decide_eq_true_eq, not_or, not_not, Nat.not_lt] at hheader
    obtain ⟨⟨⟨⟨hpos, hle⟩, rfl⟩, rfl⟩, hbinary⟩ := hheader
    obtain ⟨hid, hframe⟩ := Option.ite_none_right_eq_some.mp h
    cases hframe
    have hflag : (if binary = 1 then 1 else 0) = binary := by
      have hcases : binary = 0 ∨ binary = 1 := by
        rw [UInt8.lt_iff_toNat_lt] at hbinary
        simp only [← UInt8.toNat_inj]
        simp at hbinary ⊢
        omega
      rcases hcases with rfl | rfl <;> rfl
    simp only [encodeRelayBrowserData, hid, BrowserChannelMessage.size, uint32Bytes_read]
    simp [hpos, Nat.not_lt.mpr hle, hflag]
  · intro h
    unfold encodeRelayBrowserData at h
    split at h
    · cases h
    rename_i hid
    split at h
    · cases h
    rename_i hsize
    obtain ⟨tunnelId, payload, binary⟩ := frame
    have hid : validTunnelId tunnelId = true := by simpa using hid
    have hrange : 0 < tunnelId ∧ tunnelId ≤ maxTunnelId := by simpa [validTunnelId] using hid
    simp only [Bool.or_eq_true, decide_eq_true_eq, not_or, Nat.not_lt] at hsize
    obtain ⟨hpos, hle⟩ := hsize
    rw [← Option.some.inj h]
    simp only [uint32Bytes, List.cons_append, List.nil_append, decodeRelayBrowserData,
      uint32Bytes_toNat hrange.2, hid, if_true]
    simp only [BrowserChannelMessage.size] at hpos hle
    cases binary <;> simp [hpos, Nat.not_lt.mpr hle]

/-! ## Channels and the multiplexer -/

structure BrowserError where
  code : Option String

def browserChannelError (code : String) : BrowserError := ⟨some code⟩

inductive Message where
  | control (value : RelayBrowserControl)
  | data (frame : RelayBrowserData)

def Message.tunnelId : Message → Nat
  | .control value => value.tunnelId
  | .data frame => frame.tunnelId

/-- What the wire does with each message of one step: the error it throws, if it throws. -/
abbrev Wire := Message → Option BrowserError

inductive Outcome where
  | resolved
  | rejected (error : BrowserError)

/-- The handlers of a channel: those given to `open`, those made of an accepted peer, or none
while the peer is being accepted. -/
inductive ChannelHandlers where
  | absent
  | caller
  | peer
deriving DecidableEq

structure QueuedMessage where
  message : BrowserChannelMessage
  promise : Nat

/-- A channel object. `opening` is the promise of `open` while it can be settled, which is as
long as the open timer runs; `incoming` and `consuming` are the chain of received frames. -/
structure ChannelState where
  ref : Nat
  handlers : ChannelHandlers
  opened : Bool
  sendCredit : Nat
  receiveCredit : Nat
  queuedBytes : Nat
  queue : List QueuedMessage
  incoming : List BrowserChannelMessage
  consuming : Option BrowserChannelMessage
  opening : Option Nat

/-- A call of the accept callback that has not settled. -/
structure Accepting where
  ref : Nat
  tunnelId : Nat
deriving DecidableEq

/-- A multiplexer, the messages it gave to its wire, and what has happened: promises returned
and settled, peers accepted and closed, frames by channel, and error codes raised. -/
structure Multiplexer where
  accepts : Bool
  channels : OrderedMap Nat ChannelState
  nextId : Nat
  closed : Bool
  pumping : Bool
  accepting : List Accepting
  objects : Nat
  promises : Nat
  outbox : List Message
  settled : List (Nat × Outcome)
  peers : List Nat
  peersClosed : List Nat
  accepted : List RelayBrowserData
  transmitted : List RelayBrowserData
  received : List RelayBrowserData
  delivered : List RelayBrowserData
  raised : List String

namespace Multiplexer

def init (accepts : Bool) : Multiplexer where
  accepts := accepts
  channels := .empty
  nextId := 0
  closed := false
  pumping := false
  accepting := []
  objects := 0
  promises := 0
  outbox := []
  settled := []
  peers := []
  peersClosed := []
  accepted := []
  transmitted := []
  received := []
  delivered := []
  raised := []

/-! ## Small operations -/

variable (m : Multiplexer)

/-- The channel object `ref`, as long as it is the one its id stands for. -/
def live (tunnelId ref : Nat) : Option ChannelState :=
  (m.channels.get? tunnelId).filter fun state => state.ref = ref

variable (tunnelId : Nat)

def setChannel (state : ChannelState) : Multiplexer :=
  { m with channels := m.channels.set tunnelId state }

def settle (promise : Nat) (outcome : Outcome) : Multiplexer :=
  { m with settled := m.settled ++ [(promise, outcome)] }

variable (wire : Wire)

/-- Hand a message to the wire, which does not take it when it throws. -/
def transmit (m : Multiplexer) (message : Message) : Multiplexer :=
  if (wire message).isSome then m else { m with outbox := m.outbox ++ [message] }

def raise (code : String) : Multiplexer :=
  { m with raised := m.raised ++ [code] }

def schedulePump : Multiplexer :=
  if m.pumping || m.closed then m else { m with pumping := true }

/-- Make a channel object, unless the multiplexer is closed or full. -/
def create (handlers : ChannelHandlers) (opening : Option Nat) : Option Multiplexer :=
  if m.closed || maxChannels ≤ m.channels.size then none
  else
    let state : ChannelState :=
      { ref := m.objects, handlers := handlers, opened := false, sendCredit := windowBytes
        receiveCredit := windowBytes, queuedBytes := 0, queue := [], incoming := []
        consuming := none, opening := opening }
    some { m.setChannel tunnelId state with objects := m.objects + 1 }

/-- The notice of an end: an error with its code, or a close. -/
def endNotice (error : Option BrowserError) : RelayBrowserControl :=
  match error with
  | some error =>
    .channelError tunnelId (((error.code.getD "BROWSER_CHANNEL_CLOSED").take 160).toString)
  | none => .channelClose tunnelId

/-- End a live channel object: settle its promises, close its consumer, tell the peer. -/
def endChannel (m : Multiplexer) (tunnelId ref : Nat) (error : Option BrowserError)
    (notify : Bool) : Multiplexer :=
  match m.live tunnelId ref with
  | none => m
  | some state =>
    let outcome := Outcome.rejected (error.getD (browserChannelError "BROWSER_CHANNEL_CLOSED"))
    let ended :=
      { m with
        channels := m.channels.erase tunnelId
        settled := m.settled ++ (state.opening.toList ++ state.queue.map (·.promise)).map
          fun promise => (promise, outcome)
        peersClosed := m.peersClosed ++ if state.handlers = .peer then [ref] else [] }
    if notify && !m.closed then ended.transmit wire (.control (endNotice tunnelId error))
    else ended

/-! ## The methods -/

def openChannel (m : Multiplexer) (instanceId : String) (aborted : Bool) : Multiplexer :=
  let promise := m.promises
  let m := { m with promises := m.promises + 1 }
  if m.closed || aborted then
    m.settle promise (.rejected (browserChannelError "BROWSER_CHANNEL_CLOSED"))
  else
    let tunnelId := m.nextId + 1
    let m := { m with nextId := tunnelId }
    match m.create tunnelId .caller (some promise) with
    | none => m.settle promise (.rejected (browserChannelError "BROWSER_CHANNEL_LIMIT"))
    | some created =>
      let message := Message.control (.channelOpen tunnelId instanceId)
      if (wire message).isSome then
        created.endChannel wire tunnelId m.objects
          (some (browserChannelError "BROWSER_CHANNEL_CLOSED")) false
      else created.transmit wire message

def controlOpen (m : Multiplexer) (tunnelId : Nat) : Multiplexer :=
  if !m.accepts then m.raise "BROWSER_CHANNEL_OPEN_UNSUPPORTED"
  else if m.channels.contains tunnelId then m.raise "BROWSER_CHANNEL_ID_REUSED"
  else
    match m.create tunnelId .absent none with
    | none => m.transmit wire (.control (.channelError tunnelId "BROWSER_CHANNEL_LIMIT"))
    | some created => { created with accepting := created.accepting ++ [⟨m.objects, tunnelId⟩] }

def controlOpened (state : ChannelState) : Multiplexer :=
  match state.opened, state.opening with
  | false, some promise =>
    ((m.setChannel tunnelId { state with opened := true, opening := none }).settle promise
      .resolved).schedulePump
  | _, _ => m.raise "BROWSER_CHANNEL_STATE_INVALID"

def controlWindowUpdate (tunnelId creditBytes : Nat) (state : ChannelState) : Multiplexer :=
  if windowBytes < state.sendCredit + creditBytes then m.raise "BROWSER_CHANNEL_WINDOW_INVALID"
  else
    (m.setChannel tunnelId
      { state with sendCredit := state.sendCredit + creditBytes }).schedulePump

/-- A control message of the peer; one that does not parse throws, and a closed multiplexer
reads none. -/
def control (m : Multiplexer) (value : RelayBrowserControl) : Multiplexer :=
  if !value.valid || m.closed then m
  else
    match value with
    | .channelOpen tunnelId _ => m.controlOpen wire tunnelId
    | _ =>
      match m.channels.get? value.tunnelId with
      | none => m
      | some state =>
        match value with
        | .channelOpened tunnelId => m.controlOpened tunnelId state
        | .windowUpdate tunnelId creditBytes => m.controlWindowUpdate tunnelId creditBytes state
        | .channelError tunnelId errorCode =>
          m.endChannel wire tunnelId state.ref (some (browserChannelError errorCode)) false
        | .channelClose tunnelId =>
          (m.endChannel wire tunnelId state.ref none false).transmit wire
            (.control (.channelClosed tunnelId))
        | .channelClosed tunnelId => m.endChannel wire tunnelId state.ref none false
        | .channelOpen _ _ => m

/-- The accept callback returned a peer. -/
def acceptResolved (m : Multiplexer) (call : Accepting) : Multiplexer :=
  let m := { m with
    accepting := m.accepting.filter (· ≠ call)
    peers := m.peers ++ [call.ref] }
  match m.live call.tunnelId call.ref with
  | none => { m with peersClosed := m.peersClosed ++ [call.ref] }
  | some state =>
    let opened := m.setChannel call.tunnelId { state with handlers := .peer, opened := true }
    let message := Message.control (.channelOpened call.tunnelId)
    match wire message with
    | some error =>
      opened.endChannel wire call.tunnelId call.ref
        (some (browserChannelError (error.code.getD "BROWSER_CHANNEL_OPEN_FAILED"))) true
    | none => (opened.transmit wire message).schedulePump

/-- The accept callback failed, with a code or without. -/
def acceptRejected (m : Multiplexer) (call : Accepting) (code : Option String) : Multiplexer :=
  { m with accepting := m.accepting.filter (· ≠ call) }.endChannel wire call.tunnelId call.ref
    (some (browserChannelError (code.getD "BROWSER_CHANNEL_OPEN_FAILED"))) true

/-- A data frame of the peer: it joins the chain of its channel if the window has room. -/
def data (m : Multiplexer) (frame : RelayBrowserData) : Multiplexer :=
  match m.channels.get? frame.tunnelId with
  | none => m
  | some state =>
    if !state.opened || frame.message.size = 0 || maxMessageBytes < frame.message.size ||
        state.receiveCredit < frame.message.size then
      (m.raise "BROWSER_CHANNEL_WINDOW_INVALID").endChannel wire frame.tunnelId state.ref
        (some (browserChannelError "BROWSER_CHANNEL_WINDOW_INVALID")) true
    else
      let taken := m.setChannel frame.tunnelId
        { state with
          receiveCredit := state.receiveCredit - frame.message.size
          incoming := state.incoming ++ [frame.message] }
      { taken with received := m.received ++ [frame] }

/-- The chain of a channel hands its next frame to the consumer. -/
def startDelivery (tunnelId ref : Nat) : Option Multiplexer :=
  match m.live tunnelId ref with
  | none => none
  | some state =>
    match state.consuming, state.incoming with
    | none, message :: incoming =>
      let started := m.setChannel tunnelId
        { state with incoming := incoming, consuming := some message }
      some { started with delivered := m.delivered ++ [⟨tunnelId, message⟩] }
    | _, _ => none

/-- The consumer is done with a frame, or failed on it. -/
def finishDelivery (m : Multiplexer) (tunnelId ref : Nat) (failed : Bool) : Option Multiplexer :=
  match m.live tunnelId ref with
  | none => none
  | some state =>
    match state.consuming with
    | none => none
    | some message =>
      let update := Message.control (.windowUpdate tunnelId message.size)
      let failure := some (browserChannelError "BROWSER_CHANNEL_CONSUMER_FAILED")
      if failed then some (m.endChannel wire tunnelId ref failure true)
      else
        let credited := m.setChannel tunnelId
          { state with
            receiveCredit := state.receiveCredit + message.size
            consuming := none }
        if (wire update).isSome then some (credited.endChannel wire tunnelId ref failure true)
        else some (credited.transmit wire update)

/-- `send` of the connection to a channel object. -/
def send (m : Multiplexer) (tunnelId ref : Nat) (message : BrowserChannelMessage) : Multiplexer :=
  let promise := m.promises
  let m := { m with promises := m.promises + 1 }
  match m.live tunnelId ref with
  | none => m.settle promise (.rejected (browserChannelError "BROWSER_CHANNEL_CLOSED"))
  | some state =>
    if message.size = 0 || maxMessageBytes < message.size ||
        maxQueuedBytes < state.queuedBytes + message.size then
      let error := browserChannelError "BROWSER_CHANNEL_QUEUE_LIMIT"
      (m.endChannel wire tunnelId ref (some error) true).settle promise (.rejected error)
    else
      let queued := m.setChannel tunnelId
        { state with
          queue := state.queue ++ [⟨message, promise⟩]
          queuedBytes := state.queuedBytes + message.size }
      let logged := { queued with accepted := m.accepted ++ [(⟨tunnelId, message⟩ : RelayBrowserData)] }
      logged.schedulePump

/-- One channel of a pump turn, and whether it leaves frames for another turn. -/
def pumpChannel (turn : Multiplexer × Bool) (tunnelId : Nat) : Multiplexer × Bool :=
  let m := turn.1
  match m.channels.get? tunnelId with
  | none => turn
  | some state =>
    match state.queue with
    | [] => turn
    | next :: queue =>
      if !state.opened || state.sendCredit < next.message.size then turn
      else
        let frame : RelayBrowserData := ⟨tunnelId, next.message⟩
        let shifted := m.setChannel tunnelId
          { state with
            queue := queue
            queuedBytes := state.queuedBytes - next.message.size
            sendCredit := state.sendCredit - next.message.size }
        let error := browserChannelError "BROWSER_CHANNEL_CLOSED"
        if (wire (.data frame)).isSome then
          ((shifted.settle next.promise (.rejected error)).endChannel wire tunnelId state.ref
            (some error) true, turn.2)
        else
          let sent := (shifted.transmit wire (.data frame)).settle next.promise .resolved
          ({ sent with transmitted := m.transmitted ++ [frame] }, turn.2 || !queue.isEmpty)

/-- The turn a pump timer starts: one frame for each channel that has credit. -/
def pumpTurn (m : Multiplexer) : Multiplexer :=
  let turn := m.channels.keys.foldl (pumpChannel wire) ({ m with pumping := false }, false)
  if turn.2 then turn.1.schedulePump else turn.1

def close (m : Multiplexer) (error : BrowserError) : Multiplexer :=
  m.channels.entries.foldl
    (fun m entry => m.endChannel wire entry.1 entry.2.ref (some error) false)
    { m with closed := true }

/-! ## Steps -/

inductive Action where
  | openChannel (instanceId : String) (aborted : Bool)
  | abort (tunnelId : Nat)
  | openTimeout (tunnelId : Nat)
  | control (value : RelayBrowserControl)
  | acceptResolved (call : Accepting)
  | acceptRejected (call : Accepting) (code : Option String)
  | peerClosed (tunnelId ref : Nat) (error : Option BrowserError)
  | data (frame : RelayBrowserData)
  | startDelivery (tunnelId ref : Nat)
  | finishDelivery (tunnelId ref : Nat) (failed : Bool)
  | send (tunnelId ref : Nat) (message : BrowserChannelMessage)
  | closeChannel (tunnelId ref : Nat)
  | pump
  | close (error : BrowserError)

/-- End the channel whose open promise is pending: its signal aborted or its timer fired. -/
def endOpening (m : Multiplexer) (tunnelId : Nat) (code : String) : Option Multiplexer :=
  match m.channels.get? tunnelId with
  | none => none
  | some state =>
    if state.opening.isSome then
      some (m.endChannel wire tunnelId state.ref (some (browserChannelError code)) true)
    else none

def step (move : Action × Wire) : Option Multiplexer :=
  match move.1 with
  | .openChannel instanceId aborted => some (m.openChannel move.2 instanceId aborted)
  | .abort tunnelId => m.endOpening move.2 tunnelId "BROWSER_CHANNEL_CANCELLED"
  | .openTimeout tunnelId => m.endOpening move.2 tunnelId "BROWSER_CHANNEL_OPEN_TIMEOUT"
  | .control value => some (m.control move.2 value)
  | .acceptResolved call =>
    if call ∈ m.accepting then some (m.acceptResolved move.2 call) else none
  | .acceptRejected call code =>
    if call ∈ m.accepting then some (m.acceptRejected move.2 call code) else none
  | .peerClosed tunnelId ref error => some (m.endChannel move.2 tunnelId ref error true)
  | .data frame => some (m.data move.2 frame)
  | .startDelivery tunnelId ref => m.startDelivery tunnelId ref
  | .finishDelivery tunnelId ref failed => m.finishDelivery move.2 tunnelId ref failed
  | .send tunnelId ref message => some (m.send move.2 tunnelId ref message)
  | .closeChannel tunnelId ref => some (m.endChannel move.2 tunnelId ref none true)
  | .pump => if m.pumping then some (m.pumpTurn move.2) else none
  | .close error => some (m.close move.2 error)

end Multiplexer

end TaskHandoff.Browser
