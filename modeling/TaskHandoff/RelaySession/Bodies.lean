import TaskHandoff.RelaySession.Responses

/-! # Request bodies of an encrypted relay session

A request may announce a body, whose frames are written to a stream that the route reads. The
assembly is kept under the body id and the request id that the peer chose; a route that answers
closes it, an idle timer, a cancel and the session's close abort it. -/

namespace TaskHandoff.RelaySession

/-- A decoded body frame. -/
structure BodyFrame where
  bodyId : Nat
  offset : Nat
  bytes : List UInt8
  final : Bool

/-- `RelayBodyAssembly` with its stream, its timer and its request. `written` are the bytes the
stream took, `readBytes` those the route has read, `carried` the frames that came for the body,
and `acks` the offsets acknowledged to the peer. -/
structure Assembly where
  bodyId : Nat
  requestId : String
  size : Nat
  received : Nat
  acknowledged : Nat
  pendingAck : Option Nat
  drainBound : Bool
  timer : Bool
  written : List UInt8
  ended : Bool
  destroyed : Bool
  readBytes : List UInt8
  sawEnd : Bool
  answered : Bool
  carried : List (Nat × List UInt8)
  acks : List Nat

namespace Assembly

/-- `openBody`. -/
def start (bodyId : Nat) (requestId : String) (size : Nat) : Assembly :=
  ⟨bodyId, requestId, size, 0, 0, none, false, true, [], false, false, [], false, false, [], []⟩

/-- `flushBodyAck`, with whether its send threw. A closing session sends nothing. -/
def flushBodyAck (link : Link) (fails : List Bool) (a : Assembly) : Assembly × Bool :=
  match a.pendingAck with
  | none => (a, false)
  | some offset =>
    if offset ≤ a.acknowledged then (a, false)
    else
      let a := { a with acknowledged := offset, pendingAck := none }
      if link.closing then (a, false)
      else if (attempt link fails).1 then (a, true)
      else ({ a with acks := a.acks ++ [offset] }, false)

/-- Write to the stream. A write behind its end destroys it. -/
def write (bytes : List UInt8) (writable : Bool) (a : Assembly) : Assembly × Bool :=
  if a.ended then ({ a with destroyed := true }, false)
  else ({ a with written := a.written ++ bytes }, writable)

/-- The rest of a chunk behind its write: acknowledge what was written, now or at the drain, and
end the stream behind the last chunk. -/
def acknowledge (link : Link) (fails : List Bool) (final : Bool) (w : Assembly × Bool) : Assembly :=
  let a := { w.1 with pendingAck := some w.1.received }
  let flushed := if w.2 then a.flushBodyAck link fails else ({ a with drainBound := true }, false)
  if flushed.2 then flushed.1
  else if final ∧ flushed.1.received = flushed.1.size then { flushed.1 with ended := true }
  else flushed.1

/-- `acceptBodyChunk` for the assembly of the frame. Where it throws (a wrong offset, too many
bytes, a failed acknowledgement, a last chunk too early), what was done before stays; the guard of
`receive` takes the exception. -/
def acceptBodyChunk (link : Link) (fails : List Bool) (f : BodyFrame) (writable : Bool)
    (a : Assembly) : Assembly :=
  let a := { a with carried := a.carried ++ [(f.offset, f.bytes)] }
  if a.destroyed then a
  else if f.offset ≠ a.received then a
  else
    let a := { a with received := a.received + f.bytes.length }
    if a.size < a.received then a
    else acknowledge link fails f.final (a.write f.bytes writable)

/-- What `closeBody` and `abortBody` do to an assembly they take off the tables. -/
def dispose (a : Assembly) : Assembly := { a with timer := false, destroyed := true }

end Assembly

namespace Bodies

structure State where
  link : Link
  assemblies : List Assembly
  /-- Body ids and the numbers of their assemblies. -/
  bodies : OrderedMap Nat Nat
  bodyByRequest : OrderedMap String Nat
  /-- An exception left a handler that nothing guards. -/
  escaped : Bool

namespace State

def initial : State := ⟨.start, [], OrderedMap.empty, OrderedMap.empty, false⟩

variable (s : State)

def modify (i : Nat) (f : Assembly → Assembly) : State :=
  { s with assemblies := s.assemblies.modify i f }

def openBody (requestId : String) (bodyId size : Nat) : State :=
  { s with
    assemblies := s.assemblies ++ [.start bodyId requestId size]
    bodies := s.bodies.set bodyId s.assemblies.length
    bodyByRequest := s.bodyByRequest.set requestId bodyId }

/-- `closeBody` and `abortBody`: they differ only in the error the stream is destroyed with. -/
def abortBody (i : Nat) : State :=
  match s.assemblies[i]? with
  | none => s
  | some a =>
    if s.bodies.get? a.bodyId = some i then
      { s.modify i Assembly.dispose with
        bodies := s.bodies.erase a.bodyId
        bodyByRequest := s.bodyByRequest.erase a.requestId }
    else s

def abortAll : State := s.bodies.values.foldl abortBody s

/-- The drain listener of a stream, outside of every guard. -/
def drain (i : Nat) (a : Assembly) (fails : List Bool) : State :=
  let s := s.modify i fun a => { a with drainBound := false }
  if s.bodies.get? a.bodyId = some i then
    let flushed := a.flushBodyAck s.link fails
    let s := s.modify i fun a => (a.flushBodyAck s.link fails).1
    { s with escaped := s.escaped || flushed.2 }
  else s

inductive Action where
  /-- A request envelope with a binary body. -/
  | request (requestId : String) (bodyId size : Nat)
  /-- A body frame; the stream tells whether it takes more. -/
  | frame (f : BodyFrame) (writable : Bool) (fails : List Bool)
  | drain (i : Nat) (fails : List Bool)
  /-- The route reads some bytes, or the end. -/
  | read (i count : Nat)
  | readEnd (i : Nat)
  /-- The route, or the stream by itself behind its end, destroys the stream. -/
  | destroy (i : Nat)
  | idle (i : Nat)
  | cancel (requestId : String)
  /-- The bridge returned and the last bytes are acknowledged. -/
  | routed (i : Nat) (fails : List Bool)
  /-- The response, or its transfer, is done or has failed. -/
  | answered (i : Nat)
  | socketClosing
  | close
  | closeEvent

def step : Action → Option State
  | .request requestId bodyId size =>
    if s.link.closed then none else some (s.openBody requestId bodyId size)
  | .frame f writable fails =>
    if s.link.closed then none
    else
      match s.bodies.get? f.bodyId with
      | none => some s
      | some i => some (s.modify i (Assembly.acceptBodyChunk s.link fails f writable))
  | .drain i fails =>
    match s.assemblies[i]? with
    | none => none
    | some a =>
      if a.drainBound ∧ a.destroyed = false ∧ a.ended = false then some (s.drain i a fails)
      else none
  | .read i count =>
    match s.assemblies[i]? with
    | none => none
    | some a =>
      if a.destroyed then none
      else some (s.modify i fun a =>
        { a with readBytes := a.written.take (a.readBytes.length + count) })
  | .readEnd i =>
    match s.assemblies[i]? with
    | none => none
    | some a =>
      if a.destroyed = false ∧ a.ended ∧ a.readBytes = a.written then
        some (s.modify i fun a => { a with sawEnd := true })
      else none
  | .destroy i => some (s.modify i fun a => { a with destroyed := true })
  | .idle i =>
    match s.assemblies[i]? with
    | none => none
    | some a =>
      if a.timer then some ((s.modify i fun a => { a with timer := false }).abortBody i)
      else none
  | .cancel requestId =>
    if s.link.closed then none
    else
      match (s.bodyByRequest.get? requestId).bind s.bodies.get? with
      | none => some s
      | some i => some (s.abortBody i)
  | .routed i fails =>
    match s.assemblies[i]? with
    | none => none
    | some a =>
      if a.answered then none
      else some (s.modify i fun a => (a.flushBodyAck s.link fails).1)
  | .answered i =>
    match s.assemblies[i]? with
    | none => none
    | some a =>
      if a.answered then none
      else some ((s.abortBody i).modify i fun a => { a with answered := true })
  | .socketClosing => some { s with link := { s.link with socketOpen := false } }
  | .close => some { s.abortAll with link := s.link.close }
  | .closeEvent => if s.link.closed then none else some { s.abortAll with link := .closeEvent }

end State

end Bodies

end TaskHandoff.RelaySession
