import Mathlib.Data.List.Sort
import TaskHandoff.Lib.Machine
import TaskHandoff.Lib.OrderedMap

/-! # Response transfers of an encrypted relay session

A binary response is cut into chunks that all transfers of a session send within one window.
Acknowledgements, aborts and new transfers pump again; what a send does at the socket is the
environment's, so that it may fail at any chunk. -/

namespace TaskHandoff.RelaySession

/-! ## The socket of a session -/

/-- `closing` is the session's own flag, and `closed` holds behind the socket's close event. -/
structure Link where
  closing : Bool
  socketOpen : Bool
  closed : Bool

namespace Link

def start : Link := ⟨false, true, false⟩

/-- The session closes, and its socket begins to. -/
def close (link : Link) : Link := { link with closing := true, socketOpen := false }

/-- The close event of the socket. -/
def closeEvent : Link := ⟨true, false, true⟩

end Link

/-- Whether the next write fails: the socket is not open, or it holds too many bytes. The
environment gives the second as a list, and what it does not give succeeds. -/
def attempt (link : Link) (fails : List Bool) : Bool × List Bool :=
  if link.socketOpen then (fails.headD false, fails.tail) else (true, fails)

/-! ## Transfers -/

def chunkBytes : Nat := 256 * 1024

/-- `RELAY_RESPONSE_WINDOW_BYTES`. -/
def responseWindow : Nat := 4 * chunkBytes

/-- `RELAY_RESPONSE_GLOBAL_WINDOW_BYTES`. -/
def globalWindow : Nat := 4 * chunkBytes

def maxTotalBytes : Nat := 64 * 1024 * 1024

def maxId : Nat := 0xffffffff

/-- A pending response. `timer` says that its stall timer is armed. -/
structure Transfer where
  responseId : Nat
  requestId : String
  data : List UInt8
  acked : Nat
  nextOffset : Nat
  timer : Bool

namespace Transfer

variable (t : Transfer)

def size : Nat := t.data.length

def inFlight : Nat := t.nextOffset - t.acked

def unsent : Nat := t.size - t.nextOffset

/-- `armResponseStallTimer`. A fresh deadline and an old one are not told apart: an armed timer
may fire at any time. -/
def arm : Transfer := { t with timer := decide (t.acked < t.nextOffset) }

end Transfer

/-- A frame with a chunk of a response. -/
structure ResponseFrame where
  responseId : Nat
  offset : Nat
  bytes : List UInt8
  final : Bool

/-- The tables of the transfers. `frames` are the chunks sent, `begun` the transfers with a
promise, and `settled` its resolutions and rejections, as often as they happen. -/
structure Responses where
  nextResponseId : Nat
  responses : List Transfer
  responseByRequest : OrderedMap String Nat
  frames : List ResponseFrame
  begun : List (Nat × List UInt8)
  settled : List (Nat × Bool)

namespace Responses

def empty : Responses := ⟨0, [], OrderedMap.empty, [], [], []⟩

variable (r : Responses)

def find (responseId : Nat) : Option Transfer :=
  r.responses.find? (·.responseId = responseId)

/-- `responseInFlightBytes`. -/
def inFlightBytes : Nat := (r.responses.map Transfer.inFlight).sum

def unsentBytes : Nat := (r.responses.map Transfer.unsent).sum

def update (responseId : Nat) (f : Transfer → Transfer) : Responses :=
  { r with responses := r.responses.map fun t => if t.responseId = responseId then f t else t }

/-- Take a transfer off the tables and settle its promise. -/
def remove (t : Transfer) (resolved : Bool) : Responses :=
  { r with
    responses := r.responses.filter (·.responseId ≠ t.responseId)
    responseByRequest := r.responseByRequest.erase t.requestId
    settled := r.settled ++ [(t.responseId, resolved)] }

/-- Send the bytes of a transfer up to an offset. -/
def sendChunk (t : Transfer) (stop : Nat) : Responses :=
  { r.update t.responseId fun u => { u with nextOffset := stop } with
    frames := r.frames ++
      [⟨t.responseId, t.nextOffset, (t.data.drop t.nextOffset).take (stop - t.nextOffset),
        decide (t.size ≤ stop)⟩] }

/-! ## Pumping -/

/-- The state of the pump: the tables, what the next writes do, and whether the round sent. -/
structure Pump where
  tables : Responses
  fails : List Bool
  advanced : Bool

/-- One round over the transfers that had unsent bytes at its start. An abort inside the round
does not pump again. -/
def pumpRound (link : Link) : List Nat → Responses → List Bool → Pump
  | [], r, fails => ⟨r, fails, false⟩
  | id :: rest, r, fails =>
    match r.find id with
    | none => pumpRound link rest r fails
    | some t =>
      if responseWindow ≤ t.inFlight then pumpRound link rest r fails
      else if globalWindow ≤ r.inFlightBytes then ⟨r, fails, false⟩
      else
        let available := globalWindow - r.inFlightBytes
        let stop := min (min (t.nextOffset + chunkBytes) t.size) (t.nextOffset + available)
        match attempt link fails with
        | (true, fails) => pumpRound link rest (r.remove t false) fails
        | (false, fails) => { pumpRound link rest (r.sendChunk t stop) fails with advanced := true }

/-- The transfers with unsent bytes, those with less in flight first. -/
def waiting : List Nat :=
  ((r.responses.filter fun t => t.nextOffset < t.size).insertionSort
    fun left right => left.inFlight ≤ right.inFlight).map (·.responseId)

/-- Rounds until one sends nothing. Each round before the last sends a byte, so the unsent bytes
bound their number. -/
def pumpRounds (link : Link) : Nat → Responses → List Bool → Responses
  | 0, r, _ => r
  | fuel + 1, r, fails =>
    let round := pumpRound link r.waiting r fails
    if round.advanced then pumpRounds link fuel round.tables round.fails else round.tables

variable (link : Link)
variable (fails : List Bool)

def pumpResponses (r : Responses) : Responses :=
  if link.closing then r
  else
    let pumped := pumpRounds link (r.unsentBytes + 1) r fails
    { pumped with responses := pumped.responses.map Transfer.arm }

def finishResponse (t : Transfer) : Responses :=
  if (r.find t.responseId).isSome then r.remove t true else r

def abortResponse (t : Transfer) (r : Responses) : Responses :=
  if (r.find t.responseId).isSome then pumpResponses link fails (r.remove t false) else r

/-! ## The operations -/

/-- The metadata of a response fits its schema. `details` are its content type and filename. -/
def metadataFits (details : Bool) (data : List UInt8) : Bool :=
  details && decide (r.nextResponseId + 1 ≤ maxId) && decide (data.length ≤ maxTotalBytes)

/-- `sendBinaryResponse`. The header is not sent by a closing session, which goes on all the
same; without the header the call throws and there is no promise. -/
def sendBinaryResponse (requestId : String) (details : Bool)
    (data : List UInt8) (r : Responses) : Responses :=
  let numbered := { r with nextResponseId := r.nextResponseId + 1 }
  let register : Responses :=
    { numbered with
      responses := r.responses ++ [⟨numbered.nextResponseId, requestId, data, 0, 0, false⟩]
      responseByRequest := r.responseByRequest.set requestId numbered.nextResponseId
      begun := r.begun ++ [(numbered.nextResponseId, data)] }
  if r.metadataFits details data then
    if link.closing then
      if data = [] then numbered else pumpResponses link fails register
    else
      match attempt link fails with
      | (true, _) => numbered
      | (false, fails) => if data = [] then numbered else pumpResponses link fails register
  else numbered

def acceptResponseAck (responseId offset : Nat) (r : Responses) : Responses :=
  match r.find responseId with
  | none => r
  | some t =>
    if offset ≤ t.acked ∨ t.size < offset then abortResponse link fails t r
    else if t.nextOffset < offset then abortResponse link fails t r
    else
      let acked := r.update responseId fun u => { u with acked := offset, timer := false }
      if t.size ≤ offset then pumpResponses link fails (acked.finishResponse t)
      else pumpResponses link fails acked

/-- The response part of a `cancel` envelope. -/
def cancel (requestId : String) (r : Responses) : Responses :=
  match (r.responseByRequest.get? requestId).bind r.find with
  | none => r
  | some t => abortResponse link fails t r

/-- An armed stall timer fires. -/
def stall (responseId : Nat) (r : Responses) : Option Responses :=
  match r.find responseId with
  | none => none
  | some t => if t.timer then some (abortResponse link fails t r) else none

/-- Closing aborts what is in the table. -/
def abortAll (r : Responses) : Responses :=
  r.responses.foldl (fun r t => abortResponse link [] t r) r

end Responses

/-! ## Steps -/

namespace Transfers

structure State where
  link : Link
  tables : Responses

def State.initial : State := ⟨.start, .empty⟩

inductive Action where
  /-- A binary answer of the bridge is ready. -/
  | ready (requestId : String) (details : Bool) (data : List UInt8) (fails : List Bool)
  | ack (responseId offset : Nat) (fails : List Bool)
  | cancel (requestId : String) (fails : List Bool)
  | stall (responseId : Nat) (fails : List Bool)
  /-- The socket leaves its open state. -/
  | socketClosing
  | close
  | closeEvent

/-- Frames arrive until the socket's close event; what runs already may come at any time. -/
def step (s : State) : Action → Option State
  | .ready requestId details data fails =>
    some { s with tables := s.tables.sendBinaryResponse s.link fails requestId details data }
  | .ack responseId offset fails =>
    if s.link.closed then none
    else some { s with tables := s.tables.acceptResponseAck s.link fails responseId offset }
  | .cancel requestId fails =>
    if s.link.closed then none
    else some { s with tables := s.tables.cancel s.link fails requestId }
  | .stall responseId fails =>
    (s.tables.stall s.link fails responseId).map fun tables => { s with tables }
  | .socketClosing => some { s with link := { s.link with socketOpen := false } }
  | .close => some ⟨s.link.close, s.tables.abortAll s.link.close⟩
  | .closeEvent =>
    if s.link.closed then none else some ⟨.closeEvent, s.tables.abortAll .closeEvent⟩

end Transfers

end TaskHandoff.RelaySession
