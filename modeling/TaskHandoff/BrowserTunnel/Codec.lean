import Mathlib.Algebra.GroupWithZero.Nat
import Mathlib.Data.List.Basic

/-! # Frames of the browser tunnel

A frame is a header of nine bytes (its type, the stream id and the length of the payload, both in
big-endian order) and the payload. `none` stands for a thrown protocol error. -/

namespace TaskHandoff.BrowserTunnel

open Option

def frameHeaderBytes : Nat := 9
def initialWindowBytes : Nat := 256 * 1024
def maxDataBytes : Nat := 64 * 1024
def maxControlBytes : Nat := 4 * 1024
def maxWindowBytes : Nat := 16 * 1024 * 1024

/-- `BrowserTunnelFrameType`. -/
inductive FrameType
  | opens
  | openOk
  | data
  | halfClose
  | close
  | error
  | windowUpdate
deriving DecidableEq

namespace FrameType

def code : FrameType → UInt8
  | .opens => 1
  | .openOk => 2
  | .data => 3
  | .halfClose => 4
  | .close => 5
  | .error => 6
  | .windowUpdate => 7

def ofCode (b : UInt8) : Option FrameType :=
  [opens, openOk, data, halfClose, close, error, windowUpdate].find? fun t => t.code == b

@[simp] theorem ofCode_code (t : FrameType) : ofCode t.code = some t := by cases t <;> rfl

end FrameType

structure Frame where
  type : FrameType
  streamId : Nat
  payload : List UInt8
deriving DecidableEq

/-! ## Numbers of four bytes -/

def writeUInt32BE (n : Nat) : List UInt8 :=
  [.ofNat (n / 2 ^ 24), .ofNat (n / 2 ^ 16), .ofNat (n / 2 ^ 8), .ofNat n]

def readUInt32BE (a b c d : UInt8) : Nat :=
  ((a.toNat * 2 ^ 8 + b.toNat) * 2 ^ 8 + c.toNat) * 2 ^ 8 + d.toNat

theorem readUInt32BE_write {n : Nat} (h : n < 2 ^ 32) :
    readUInt32BE (.ofNat (n / 2 ^ 24)) (.ofNat (n / 2 ^ 16)) (.ofNat (n / 2 ^ 8)) (.ofNat n) = n := by
  simp only [readUInt32BE, UInt8.toNat_ofNat']
  omega

theorem writeUInt32BE_read (a b c d : UInt8) :
    writeUInt32BE (readUInt32BE a b c d) = [a, b, c, d] := by
  have ha := a.toNat_lt
  have hb := b.toNat_lt
  have hc := c.toNat_lt
  have hd := d.toNat_lt
  simp only [writeUInt32BE, readUInt32BE, List.cons.injEq, and_true, ← UInt8.toNat_inj,
    UInt8.toNat_ofNat']
  omega

theorem readUInt32BE_lt (a b c d : UInt8) : readUInt32BE a b c d < 2 ^ 32 := by
  have ha := a.toNat_lt
  have hb := b.toNat_lt
  have hc := c.toNat_lt
  have hd := d.toNat_lt
  simp only [readUInt32BE]
  omega

/-! ## Frames -/

/-- `assertFrame`. The type is known by construction, and the payload is a buffer. -/
def assertFrame (f : Frame) : Bool :=
  0 < f.streamId && f.streamId ≤ 0xffffffff &&
    f.payload.length ≤ (if f.type = .data then maxDataBytes else maxControlBytes) &&
    (f.payload.isEmpty || !(f.type = .openOk || f.type = .halfClose || f.type = .close))

def encodeFrame (f : Frame) : Option (List UInt8) :=
  if assertFrame f then
    some (f.type.code :: (writeUInt32BE f.streamId ++ writeUInt32BE f.payload.length ++ f.payload))
  else none

def decodeFrame : List UInt8 → Option Frame
  | t :: a :: b :: c :: d :: k :: l :: m :: n :: payload =>
    match FrameType.ofCode t with
    | none => none
    | some type =>
      if readUInt32BE a b c d = 0 then none
      else if readUInt32BE k l m n ≠ payload.length then none
      else
        let f : Frame := ⟨type, readUInt32BE a b c d, payload⟩
        if assertFrame f then some f else none
  | _ => none

variable {f : Frame}

theorem assertFrame_eq_true : assertFrame f = true ↔ 0 < f.streamId ∧ f.streamId ≤ 0xffffffff ∧
      f.payload.length ≤ (if f.type = .data then maxDataBytes else maxControlBytes) ∧
      (f.payload = [] ∨ ¬(f.type = .openOk ∨ f.type = .halfClose ∨ f.type = .close)) := by
  simp [assertFrame, and_assoc]

variable {bytes : List UInt8}

theorem decode_encode (h : encodeFrame f = some bytes) : decodeFrame bytes = some f := by
  simp only [encodeFrame, ite_none_right_eq_some, some.injEq] at h
  have hassert := assertFrame_eq_true.mp h.1
  have hid : f.streamId < 2 ^ 32 := by omega
  have hlength : f.payload.length < 2 ^ 32 := by
    have hmax := hassert.2.2.1
    simp only [maxDataBytes, maxControlBytes] at hmax
    split at hmax <;> omega
  rw [← h.2]
  simp only [writeUInt32BE, List.cons_append, List.nil_append, decodeFrame, FrameType.ofCode_code,
    readUInt32BE_write hid, readUInt32BE_write hlength]
  rw [if_neg (by omega), if_neg (by simp), if_pos h.1]

theorem encode_decode (h : decodeFrame bytes = some f) : encodeFrame f = some bytes := by
  unfold decodeFrame at h
  split at h
  case h_1 t a b c d k l m n payload =>
    split at h
    · cases h
    rename_i type htype
    simp only [ite_none_left_eq_some, ite_none_right_eq_some] at h
    obtain ⟨_, hlength, hassert, hf⟩ := h
    have hcode : type.code = t := by
      have hfound := List.find?_some htype
      simpa using hfound
    cases hf
    rw [encodeFrame, if_pos hassert, hcode]
    simp only [writeUInt32BE_read]
    rw [← not_not.mp hlength, writeUInt32BE_read]
    rfl
  case h_2 => cases h

/-- A message is decoded as a frame exactly when it is the encoding of the frame. -/
theorem decodeFrame_eq_some_iff : decodeFrame bytes = some f ↔ encodeFrame f = some bytes :=
  ⟨encode_decode, decode_encode⟩

theorem decodeFrame_streamId (h : decodeFrame bytes = some f) :
    0 < f.streamId ∧ f.streamId ≤ 0xffffffff := by
  have hencoded := encode_decode h
  simp only [encodeFrame, ite_none_right_eq_some] at hencoded
  have hassert := assertFrame_eq_true.mp hencoded.1
  exact ⟨hassert.1, hassert.2.1⟩

/-! ## Window updates -/

/-- The frame of `encodeBrowserTunnelWindowUpdate`. -/
def windowUpdate (streamId bytes : Nat) : Option Frame :=
  if bytes = 0 ∨ bytes > maxWindowBytes then none
  else some ⟨.windowUpdate, streamId, writeUInt32BE bytes⟩

/-- `decodeBrowserTunnelWindowUpdate`. -/
def decodeWindowUpdate (f : Frame) : Option Nat :=
  match f.type, f.payload with
  | .windowUpdate, [a, b, c, d] =>
    if readUInt32BE a b c d = 0 ∨ readUInt32BE a b c d > maxWindowBytes then none
    else some (readUInt32BE a b c d)
  | _, _ => none

theorem decodeWindowUpdate_windowUpdate {streamId bytes : Nat}
    (h : windowUpdate streamId bytes = some f) : decodeWindowUpdate f = some bytes := by
  simp only [windowUpdate, ite_none_left_eq_some, some.injEq] at h
  have hlt : bytes < 2 ^ 32 := by
    have hmax := h.1
    simp only [maxWindowBytes] at hmax
    omega
  rw [← h.2]
  simp only [decodeWindowUpdate, writeUInt32BE, readUInt32BE_write hlt]
  exact if_neg h.1

/-! ## Errors -/

/-- The bytes of a text of ASCII characters. -/
def asciiBytes (text : String) : List UInt8 := text.toList.map fun c => .ofNat c.toNat

/-- The errors the tunnel reports, each with its code and its message. -/
inductive TunnelError
  | alreadyOpen
  | streamLimit
  | connectTimeout
  | producedTooMuch
  | connectFailed
  | closed
  | receiveWindow
  | sendWindow
  | idleTimeout

namespace TunnelError

def code : TunnelError → String
  | .alreadyOpen => "BROWSER_TUNNEL_PROTOCOL_ERROR"
  | .streamLimit => "BROWSER_TUNNEL_STREAM_LIMIT"
  | .connectTimeout => "BROWSER_TUNNEL_CONNECT_TIMEOUT"
  | .producedTooMuch | .receiveWindow | .sendWindow => "BROWSER_TUNNEL_FLOW_CONTROL"
  | .connectFailed => "BROWSER_TUNNEL_CONNECT_FAILED"
  | .closed => "BROWSER_TUNNEL_CLOSED"
  | .idleTimeout => "BROWSER_TUNNEL_IDLE_TIMEOUT"

def message : TunnelError → String
  | .alreadyOpen => "Stream id is already open."
  | .streamLimit => "Browser tunnel stream limit reached."
  | .connectTimeout => "Target connection timed out."
  | .producedTooMuch => "Target produced data faster than the browser consumed it."
  | .connectFailed => "Target connection failed."
  | .closed => "Browser tunnel stream is closed."
  | .receiveWindow => "Browser tunnel receive window exceeded."
  | .sendWindow => "Browser tunnel send window exceeded."
  | .idleTimeout => "Browser tunnel stream was idle for too long."

/-- `JSON.stringify` of the payload. -/
def json (e : TunnelError) : String :=
  "\x7b\"code\":\"" ++ e.code ++ "\",\"message\":\"" ++ e.message ++ "\"\x7d"

def payload (e : TunnelError) : List UInt8 := asciiBytes e.json

theorem length_payload (e : TunnelError) : e.payload.length ≤ maxControlBytes := by
  have hcode : e.code.toList.length ≤ 64 := by cases e <;> decide +kernel
  have hmessage : e.message.toList.length ≤ 64 := by cases e <;> decide +kernel
  simp [payload, json, asciiBytes, maxControlBytes]
  omega

/-- The frame of `encodeBrowserTunnelError`. -/
def frame (streamId : Nat) (e : TunnelError) : Frame := ⟨.error, streamId, e.payload⟩

end TunnelError

end TaskHandoff.BrowserTunnel
