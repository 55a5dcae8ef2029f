import TaskHandoff.Lib.JsText

/-! # UTF-8 and code units

A code point is encoded in one to four bytes. Decoding puts U+FFFD for every
maximal part that is no character; it gives back the characters that were
encoded, and three U+FFFD for an encoded surrogate.
-/

namespace TaskHandoff.Utf8

open JsText List UInt8

abbrev Bytes := List UInt8

/-! ## Code points -/

def replacement : UInt16 := 0xfffd

/-- The code units of a code point. -/
def codeUnits (codePoint : Nat) : Text :=
  if codePoint < 0x10000 then [UInt16.ofNat codePoint]
  else [UInt16.ofNat (0xd800 + (codePoint - 0x10000) / 0x400),
    UInt16.ofNat (0xdc00 + (codePoint - 0x10000) % 0x400)]

def isHigh (unit : UInt16) : Bool := 0xd800 ≤ unit && unit ≤ 0xdbff
def isLow (unit : UInt16) : Bool := 0xdc00 ≤ unit && unit ≤ 0xdfff

def isSurrogate (codePoint : Nat) : Prop := 0xd800 ≤ codePoint ∧ codePoint ≤ 0xdfff

instance (codePoint : Nat) : Decidable (isSurrogate codePoint) :=
  inferInstanceAs (Decidable (_ ∧ _))

/-- A code point that is no surrogate. -/
def isScalar (codePoint : Nat) : Prop := codePoint < 0x110000 ∧ ¬ isSurrogate codePoint

instance (codePoint : Nat) : Decidable (isScalar codePoint) := inferInstanceAs (Decidable (_ ∧ _))

/-- The code point of a surrogate pair. -/
def pairCodePoint (high low : Nat) : Nat := 0x10000 + (high - 0xd800) * 0x400 + (low - 0xdc00)

/-! ## Encoding -/

def encode (codePoint : Nat) : Bytes :=
  if codePoint ≤ 0x7f then [ofNat codePoint]
  else if codePoint ≤ 0x7ff then
    [ofNat (0xc0 + codePoint / 0x40), ofNat (0x80 + codePoint % 0x40)]
  else if codePoint ≤ 0xffff then
    [ofNat (0xe0 + codePoint / 0x1000), ofNat (0x80 + codePoint / 0x40 % 0x40),
      ofNat (0x80 + codePoint % 0x40)]
  else
    [ofNat (0xf0 + codePoint / 0x40000), ofNat (0x80 + codePoint / 0x1000 % 0x40),
      ofNat (0x80 + codePoint / 0x40 % 0x40), ofNat (0x80 + codePoint % 0x40)]

/-- Encode code units; an unpaired surrogate becomes U+FFFD. -/
def encodeText : Text → Bytes
  | [] => []
  | unit :: rest =>
    match rest with
    | [] =>
      if isHigh unit || isLow unit then encode replacement.toNat else encode unit.toNat
    | next :: rest' =>
      if isHigh unit && isLow next then
        encode (pairCodePoint unit.toNat next.toNat) ++ encodeText rest'
      else if isHigh unit || isLow unit then
        encode replacement.toNat ++ encodeText (next :: rest')
      else encode unit.toNat ++ encodeText (next :: rest')

/-! ## Decoding -/

/-- A character of which bytes are missing, and the range of the next one. -/
structure Pending where
  needed : Nat
  lower : Nat
  upper : Nat
  codePoint : Nat

/-- The first byte of a character. -/
def lead (byte : UInt8) : Text × Option Pending :=
  let b := byte.toNat
  if b < 0x80 then (codeUnits b, none)
  else if 0xc2 ≤ b ∧ b ≤ 0xdf then ([], some ⟨1, 0x80, 0xbf, b - 0xc0⟩)
  else if 0xe0 ≤ b ∧ b ≤ 0xef then
    ([], some ⟨2, if b = 0xe0 then 0xa0 else 0x80, if b = 0xed then 0x9f else 0xbf, b - 0xe0⟩)
  else if 0xf0 ≤ b ∧ b ≤ 0xf4 then
    ([], some ⟨3, if b = 0xf0 then 0x90 else 0x80, if b = 0xf4 then 0x8f else 0xbf, b - 0xf0⟩)
  else ([replacement], none)

/-- The next byte; where it does not fit, it begins a character. -/
def continueWith (p : Pending) (byte : UInt8) : Text × Option Pending :=
  if p.lower ≤ byte.toNat ∧ byte.toNat ≤ p.upper then
    let codePoint := p.codePoint * 0x40 + (byte.toNat - 0x80)
    if p.needed = 1 then (codeUnits codePoint, none)
    else ([], some ⟨p.needed - 1, 0x80, 0xbf, codePoint⟩)
  else (replacement :: (lead byte).1, (lead byte).2)

def decodeFrom : Option Pending → Bytes → Text
  | none, [] => []
  | some _, [] => [replacement]
  | none, byte :: rest => (lead byte).1 ++ decodeFrom (lead byte).2 rest
  | some p, byte :: rest => (continueWith p byte).1 ++ decodeFrom (continueWith p byte).2 rest

def decode (bytes : Bytes) : Text := decodeFrom none bytes

/-! ## What was encoded -/

theorem toNat_byte {n : Nat} (h : n < 256) : (ofNat n).toNat = n := toNat_ofNat_of_lt' h

theorem decodeFrom_lead {byte : UInt8} {units : Text} {p : Option Pending}
    (h : lead byte = (units, p)) (rest : Bytes) :
    decodeFrom none (byte :: rest) = units ++ decodeFrom p rest := by
  rw [decodeFrom, h]

section Continuation

variable {lower upper codePoint b : Nat} (hlower : lower ≤ b) (hupper : b ≤ upper) (hb : b < 256)
variable (rest : Bytes)

include hlower hupper hb

theorem decodeFrom_next (needed : Nat) :
    decodeFrom (some ⟨needed + 2, lower, upper, codePoint⟩) (ofNat b :: rest) =
      decodeFrom (some ⟨needed + 1, 0x80, 0xbf, codePoint * 0x40 + (b - 0x80)⟩) rest := by
  have hstep : continueWith ⟨needed + 2, lower, upper, codePoint⟩ (ofNat b) =
      ([], some ⟨needed + 1, 0x80, 0xbf, codePoint * 0x40 + (b - 0x80)⟩) := by
    have hneeded : ¬ needed + 2 = 1 := by omega
    simp only [continueWith, toNat_byte hb, hlower, hupper, and_self, if_true, hneeded, if_false]
    rfl
  rw [decodeFrom, hstep, nil_append]

theorem decodeFrom_last : decodeFrom (some ⟨1, lower, upper, codePoint⟩) (ofNat b :: rest) =
      codeUnits (codePoint * 0x40 + (b - 0x80)) ++ decodeFrom none rest := by
  have hstep : continueWith ⟨1, lower, upper, codePoint⟩ (ofNat b) =
      (codeUnits (codePoint * 0x40 + (b - 0x80)), none) := by
    simp only [continueWith, toNat_byte hb, hlower, hupper, and_self, if_true]
  rw [decodeFrom, hstep]

end Continuation

variable {b codePoint : Nat}

theorem lead_two (hlower : 0xc2 ≤ b) (hupper : b ≤ 0xdf) :
    lead (ofNat b) = ([], some ⟨1, 0x80, 0xbf, b - 0xc0⟩) := by
  rw [lead, toNat_byte (by omega)]
  simp only [if_neg (show ¬ b < 0x80 by omega), if_pos (And.intro hlower hupper)]

theorem lead_three (hlower : 0xe0 ≤ b) (hupper : b ≤ 0xef) :
    lead (ofNat b) = ([], some ⟨2, if b = 0xe0 then 0xa0 else 0x80,
      if b = 0xed then 0x9f else 0xbf, b - 0xe0⟩) := by
  rw [lead, toNat_byte (by omega)]
  simp only [if_neg (show ¬ b < 0x80 by omega), if_neg (show ¬ (0xc2 ≤ b ∧ b ≤ 0xdf) by omega),
    if_pos (And.intro hlower hupper)]

theorem lead_four (hlower : 0xf0 ≤ b) (hupper : b ≤ 0xf4) :
    lead (ofNat b) = ([], some ⟨3, if b = 0xf0 then 0x90 else 0x80,
      if b = 0xf4 then 0x8f else 0xbf, b - 0xf0⟩) := by
  rw [lead, toNat_byte (by omega)]
  simp only [if_neg (show ¬ b < 0x80 by omega), if_neg (show ¬ (0xc2 ≤ b ∧ b ≤ 0xdf) by omega),
    if_neg (show ¬ (0xe0 ≤ b ∧ b ≤ 0xef) by omega), if_pos (And.intro hlower hupper)]

theorem decode_encode_one (h : codePoint ≤ 0x7f) (rest : Bytes) :
    decode (ofNat codePoint :: rest) = codeUnits codePoint ++ decode rest := by
  have hlead : lead (ofNat codePoint) = (codeUnits codePoint, none) := by
    rw [lead, toNat_byte (by omega)]
    exact if_pos (by omega)
  exact decodeFrom_lead hlead rest

theorem decode_encode_two (h1 : 0x7f < codePoint) (h2 : codePoint ≤ 0x7ff) (rest : Bytes) :
    decode (ofNat (0xc0 + codePoint / 0x40) :: ofNat (0x80 + codePoint % 0x40) ::
      rest) = codeUnits codePoint ++ decode rest := by
  have hvalue : (0xc0 + codePoint / 0x40 - 0xc0) * 0x40 + (0x80 + codePoint % 0x40 - 0x80) =
      codePoint := by omega
  rw [decode, decodeFrom_lead (lead_two (by omega) (by omega)), nil_append,
    decodeFrom_last (by omega) (by omega) (by omega), hvalue, decode]

theorem decode_encode_three (h1 : 0x7ff < codePoint) (h2 : codePoint ≤ 0xffff)
    (hscalar : ¬ isSurrogate codePoint) (rest : Bytes) :
    decode (ofNat (0xe0 + codePoint / 0x1000) ::
      ofNat (0x80 + codePoint / 0x40 % 0x40) :: ofNat (0x80 + codePoint % 0x40) ::
      rest) = codeUnits codePoint ++ decode rest := by
  have hvalue : ((0xe0 + codePoint / 0x1000 - 0xe0) * 0x40 +
      (0x80 + codePoint / 0x40 % 0x40 - 0x80)) * 0x40 + (0x80 + codePoint % 0x40 - 0x80) =
      codePoint := by omega
  unfold isSurrogate at hscalar
  have hlower : (if 0xe0 + codePoint / 0x1000 = 0xe0 then 0xa0 else 0x80) ≤
      0x80 + codePoint / 0x40 % 0x40 := by split <;> omega
  have hupper : 0x80 + codePoint / 0x40 % 0x40 ≤
      if 0xe0 + codePoint / 0x1000 = 0xed then 0x9f else 0xbf := by split <;> omega
  rw [decode, decodeFrom_lead (lead_three (by omega) (by omega)), nil_append,
    decodeFrom_next hlower hupper (by omega) _ 0, decodeFrom_last (by omega) (by omega) (by omega),
    hvalue, decode]

theorem decode_encode_four (h1 : 0xffff < codePoint) (h2 : codePoint < 0x110000) (rest : Bytes) :
    decode (ofNat (0xf0 + codePoint / 0x40000) :: ofNat (0x80 + codePoint / 0x1000 % 0x40) ::
      ofNat (0x80 + codePoint / 0x40 % 0x40) :: ofNat (0x80 + codePoint % 0x40) ::
      rest) = codeUnits codePoint ++ decode rest := by
  have hvalue : (((0xf0 + codePoint / 0x40000 - 0xf0) * 0x40 +
      (0x80 + codePoint / 0x1000 % 0x40 - 0x80)) * 0x40 +
      (0x80 + codePoint / 0x40 % 0x40 - 0x80)) * 0x40 + (0x80 + codePoint % 0x40 - 0x80) =
      codePoint := by omega
  have hlower : (if 0xf0 + codePoint / 0x40000 = 0xf0 then 0x90 else 0x80) ≤
      0x80 + codePoint / 0x1000 % 0x40 := by split <;> omega
  have hupper : 0x80 + codePoint / 0x1000 % 0x40 ≤
      if 0xf0 + codePoint / 0x40000 = 0xf4 then 0x8f else 0xbf := by split <;> omega
  rw [decode, decodeFrom_lead (lead_four (by omega) (by omega)), nil_append,
    decodeFrom_next hlower hupper (by omega) _ 1,
    decodeFrom_next (by omega) (by omega) (by omega) _ 0,
    decodeFrom_last (by omega) (by omega) (by omega), hvalue, decode]

theorem decode_encode (h : isScalar codePoint) (rest : Bytes) :
    decode (encode codePoint ++ rest) = codeUnits codePoint ++ decode rest := by
  obtain ⟨hmax, hscalar⟩ := h
  unfold encode
  split
  next h1 => exact decode_encode_one h1 rest
  rename_i h1
  split
  next h2 => exact decode_encode_two (by omega) h2 rest
  next h2 =>
    split
    next h3 => exact decode_encode_three (by omega) h3 hscalar rest
    next h3 => exact decode_encode_four (by omega) hmax rest

theorem lead_continuation (hlower : 0x80 ≤ b) (hupper : b ≤ 0xbf) :
    lead (ofNat b) = ([replacement], none) := by
  rw [lead, toNat_byte (by omega)]
  simp only [if_neg (show ¬ b < 0x80 by omega), if_neg (show ¬ (0xc2 ≤ b ∧ b ≤ 0xdf) by omega),
    if_neg (show ¬ (0xe0 ≤ b ∧ b ≤ 0xef) by omega), if_neg (show ¬ (0xf0 ≤ b ∧ b ≤ 0xf4) by omega)]

/-- None of the three bytes of a surrogate is part of a character. -/
theorem decode_encode_surrogate (h : isSurrogate codePoint) (rest : Bytes) :
    decode (encode codePoint ++ rest) =
      replacement :: replacement :: replacement :: decode rest := by
  obtain ⟨hlower, hupper⟩ := h
  have hencode : encode codePoint = [ofNat 0xed,
      ofNat (0x80 + codePoint / 0x40 % 0x40), ofNat (0x80 + codePoint % 0x40)] := by
    have hfirst : 0xe0 + codePoint / 0x1000 = 0xed := by omega
    rw [encode, if_neg (by omega), if_neg (by omega), if_pos (by omega), hfirst]
  have hsecond : continueWith ⟨2, 0x80, 0x9f, 13⟩ (ofNat (0x80 + codePoint / 0x40 % 0x40)) =
      ([replacement, replacement], none) := by
    have hbyte : (ofNat (0x80 + codePoint / 0x40 % 0x40)).toNat =
      0x80 + codePoint / 0x40 % 0x40 := toNat_byte (by omega)
    rw [continueWith, if_neg (by simp only; omega), lead_continuation (by omega) (by omega)]
  rw [hencode, decode, cons_append, decodeFrom_lead (lead_three (by omega) (by omega)),
    cons_append, decodeFrom]
  have hstart : (⟨2, if 0xed = 0xe0 then 0xa0 else 0x80, if 0xed = 0xed then 0x9f else 0xbf,
      0xed - 0xe0⟩ : Pending) = ⟨2, 0x80, 0x9f, 13⟩ := rfl
  rw [hstart, hsecond]
  have hthird := decodeFrom_lead (@lead_continuation (0x80 + codePoint % 0x40) (by omega)
    (by omega)) rest
  exact congrArg (fun t => replacement :: replacement :: t) hthird

theorem encode_ne_nil (codePoint : Nat) : encode codePoint ≠ [] := by
  unfold encode
  split
  · exact nofun
  split
  · exact nofun
  · split <;> exact nofun

theorem encode_bytes (h : codePoint < 0x110000) :
    ∀ byte ∈ encode codePoint, byte.toNat = codePoint ∨ 0x80 ≤ byte.toNat := by
  intro byte hbyte
  unfold encode at hbyte
  split at hbyte
  next h1 =>
    rw [mem_singleton.mp hbyte, toNat_byte (by omega)]
    exact .inl rfl
  rename_i h1
  split at hbyte
  next h2 =>
    simp only [mem_cons, not_mem_nil, or_false] at hbyte
    rcases hbyte with rfl | rfl <;> rw [toNat_byte (by omega)] <;> omega
  rename_i h2
  split at hbyte
  next h3 =>
    simp only [mem_cons, not_mem_nil, or_false] at hbyte
    rcases hbyte with rfl | rfl | rfl <;> rw [toNat_byte (by omega)] <;> omega
  next h3 =>
    simp only [mem_cons, not_mem_nil, or_false] at hbyte
    rcases hbyte with rfl | rfl | rfl | rfl <;> rw [toNat_byte (by omega)] <;> omega

end TaskHandoff.Utf8
