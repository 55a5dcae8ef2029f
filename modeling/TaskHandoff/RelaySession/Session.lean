import TaskHandoff.Browser.Multiplexer
import TaskHandoff.RelaySession.Bodies

/-! # An encrypted relay session

The frames of the peer, the answers of the bridge and the close of the session meet here. Request
bodies, response transfers and browser channels are the components of their own modules; they
share the socket and are closed together. -/

namespace TaskHandoff.RelaySession

open Browser (Multiplexer Wire browserChannelError)

/-! ## The session -/

/-- What the session calls on its bridge for the actor. -/
inductive BridgeCall where
  | request (requestId : String)
  | subscribe
  | openTty (streamId : String)
  | ttyInput (terminal : Nat)
deriving DecidableEq

inductive TerminalPhase where
  | opening
  | failed
  | opened
  | closed
deriving DecidableEq

/-- A call of `openTty` and the terminal it returned. -/
structure Terminal where
  streamId : String
  phase : TerminalPhase

/-- `EncryptedControlPlaneRelaySession`. `terminals` are the calls of `openTty`, `subscriptions`
tells of each subscription whether it is open, and `handed` holds the calls on the bridge, each
with whether the session was closing. -/
structure EncryptedControlPlaneRelaySession where
  bodies : Bodies.State
  transfers : Transfers.State
  browser : Multiplexer
  ttys : OrderedMap String Nat
  terminals : List Terminal
  subscription : Option Nat
  subscriptions : List Bool
  handed : List (BridgeCall × Bool)

namespace EncryptedControlPlaneRelaySession

def initial : EncryptedControlPlaneRelaySession :=
  ⟨.initial, .initial, .init true, OrderedMap.empty, [], none, [], []⟩

variable (s : EncryptedControlPlaneRelaySession)

def link : Link := s.bodies.link

def hand (call : BridgeCall) : EncryptedControlPlaneRelaySession :=
  { s with handed := s.handed ++ [(call, s.link.closing)] }

def setPhase (terminal : Nat) (phase : TerminalPhase) : EncryptedControlPlaneRelaySession :=
  { s with terminals := s.terminals.modify terminal fun t => { t with phase } }

def unsubscribe : EncryptedControlPlaneRelaySession :=
  match s.subscription with
  | none => s
  | some k => { s with subscription := none, subscriptions := s.subscriptions.set k false }

def closeTtys : EncryptedControlPlaneRelaySession :=
  { s with
    terminals := s.terminals.mapIdx fun k t =>
      if k ∈ s.ttys.values then { t with phase := .closed } else t
    ttys := OrderedMap.empty }

/-! ## The frames of the peer -/

/-- A request with the id and the size of its binary body, if it has one. -/
def request (requestId : String) (body : Option (Nat × Nat)) : EncryptedControlPlaneRelaySession :=
  match body with
  | none => s.hand (.request requestId)
  | some (bodyId, size) =>
    let opened := { s with bodies := s.bodies.openBody requestId bodyId size }
    opened.hand (.request requestId)

/-- `event-subscribe`. The old subscription ends first; when the bridge throws there is no new
one. -/
def subscribe (granted : Bool) : EncryptedControlPlaneRelaySession :=
  let ended := s.unsubscribe.hand .subscribe
  if granted then
    { ended with
      subscription := some ended.subscriptions.length
      subscriptions := ended.subscriptions ++ [true] }
  else { ended with subscription := s.subscription }

def ttyOpen (streamId : String) : EncryptedControlPlaneRelaySession :=
  let opening := { s with terminals := s.terminals ++ [(⟨streamId, .opening⟩ : Terminal)] }
  opening.hand (.openTty streamId)

/-- The bridge returned a terminal, or failed to. -/
def ttyAnswered (terminal : Nat) (t : Terminal)
    (granted : Bool) : EncryptedControlPlaneRelaySession :=
  if granted then
    if s.link.closing then s.setPhase terminal .closed
    else { s.setPhase terminal .opened with ttys := s.ttys.set t.streamId terminal }
  else s.setPhase terminal .failed

def ttyInput (streamId : String) : EncryptedControlPlaneRelaySession :=
  match s.ttys.get? streamId with
  | none => s
  | some terminal => s.hand (.ttyInput terminal)

def ttyClose (streamId : String) : EncryptedControlPlaneRelaySession :=
  match s.ttys.get? streamId with
  | none => s
  | some terminal => { s.setPhase terminal .closed with ttys := s.ttys.erase streamId }

/-! ## Steps -/

inductive Action where
  | request (requestId : String) (body : Option (Nat × Nat))
  | subscribe (granted : Bool)
  | ttyOpen (streamId : String)
  | ttyAnswered (terminal : Nat) (granted : Bool)
  | ttyInput (streamId : String)
  | ttyClose (streamId : String)
  | cancel (requestId : String) (fails : List Bool)
  /-- A body frame, or what streams, idle timers and routes do. -/
  | body (a : Bodies.State.Action)
  /-- A binary answer, an acknowledgement or a stall timer. -/
  | transfer (a : Transfers.Action)
  | browser (a : Multiplexer.Action) (wire : Wire)
  | socketClosing
  | close
  | closeEvent

/-- What the bodies do by themselves. -/
def ownBody : Bodies.State.Action → Bool
  | .frame _ _ _ | .drain _ _ | .read _ _ | .readEnd _ | .destroy _ | .idle _ | .routed _ _
  | .answered _ => true
  | _ => false

/-- What the transfers do by themselves. -/
def ownTransfer : Transfers.Action → Bool
  | .ready _ _ _ _ | .ack _ _ _ | .stall _ _ => true
  | _ => false

/-- What happens at the multiplexer: it accepts channels and opens none. -/
def ownBrowser : Multiplexer.Action → Bool
  | .openChannel _ _ | .close _ => false
  | _ => true

/-- Step the bodies and the transfers with the same event. -/
def both (a : Bodies.State.Action) (b : Transfers.Action) :
    Option EncryptedControlPlaneRelaySession :=
  match s.bodies.step a, Transfers.step s.transfers b with
  | some bodies, some transfers => some { s with bodies, transfers }
  | _, _ => none

/-- What closing does before the bodies and the transfers are aborted. -/
def release : EncryptedControlPlaneRelaySession :=
  let s := s.unsubscribe.closeTtys
  { s with
    browser := s.browser.close (fun _ => none) (browserChannelError "BROWSER_CHANNEL_CLOSED") }

/-- A frame is read as long as the socket's close event has not come. -/
def frame (s t : EncryptedControlPlaneRelaySession) : Option EncryptedControlPlaneRelaySession :=
  if s.link.closed then none else some t

def step : Action → Option EncryptedControlPlaneRelaySession
  | .request requestId body => s.frame (s.request requestId body)
  | .subscribe granted => s.frame (s.subscribe granted)
  | .ttyOpen streamId => s.frame (s.ttyOpen streamId)
  | .ttyAnswered terminal granted =>
    match s.terminals[terminal]? with
    | none => none
    | some t =>
      if t.phase = .opening then some (s.ttyAnswered terminal t granted) else none
  | .ttyInput streamId => s.frame (s.ttyInput streamId)
  | .ttyClose streamId => s.frame (s.ttyClose streamId)
  | .cancel requestId fails => s.both (.cancel requestId) (.cancel requestId fails)
  | .body a =>
    if ownBody a then (s.bodies.step a).map fun bodies => { s with bodies } else none
  | .transfer a =>
    if ownTransfer a then (Transfers.step s.transfers a).map fun transfers => { s with transfers }
    else none
  | .browser a wire =>
    if ownBrowser a then (s.browser.step (a, wire)).map fun browser => { s with browser }
    else none
  | .socketClosing => s.both .socketClosing .socketClosing
  | .close => s.release.both .close .close
  | .closeEvent => s.release.both .closeEvent .closeEvent

end EncryptedControlPlaneRelaySession

end TaskHandoff.RelaySession
