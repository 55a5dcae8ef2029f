import TaskHandoff.Lib.Utf8

/-! # Decoding JSON strings

`decodeJsonString` turns a quoted JSON string into its value. It collects bytes
and decodes them as UTF-8 in the end, so a surrogate without a partner, which
only an escape can denote, is read as three U+FFFD.
-/

namespace TaskHandoff.ModelRelay

open List UInt16 Utf8
open JsText (Text)
open Utf8 (Bytes codeUnits isHigh isLow isScalar isSurrogate pairCodePoint replacement)

def quote : UInt8 := 0x22
def backslash : UInt8 := 0x5c

/-! ## Decoding -/

/-- The shifts and masks of the source as quotients and remainders. -/
def utf8Bytes (codePoint : Nat) : Bytes := encode codePoint

def simpleEscapes : List (UInt8 × UInt8) :=
  [(0x22, 0x22), (0x5c, 0x5c), (0x2f, 0x2f), (0x62, 0x08), (0x66, 0x0c), (0x6e, 0x0a),
    (0x72, 0x0d), (0x74, 0x09)]

def simpleEscape (byte : UInt8) : Option UInt8 := simpleEscapes.lookup byte

/-- The digit of a byte read as ASCII, that is, without its highest bit. -/
def hexDigit (byte : UInt8) : Option Nat :=
  let b := byte.toNat % 0x80
  if 0x30 ≤ b ∧ b ≤ 0x39 then some (b - 0x30)
  else if 0x41 ≤ b ∧ b ≤ 0x46 then some (b - 0x37)
  else if 0x61 ≤ b ∧ b ≤ 0x66 then some (b - 0x57)
  else none

def readHexUnit (a b c d : UInt8) : Option Nat :=
  match hexDigit a, hexDigit b, hexDigit c, hexDigit d with
  | some a, some b, some c, some d => some (((a * 16 + b) * 16 + c) * 16 + d)
  | _, _, _, _ => none

/-- The parts of the content between the quotes, concatenated. -/
def decodeContent : Bytes → Option Bytes
  | [] => some []
  | byte :: rest =>
    if byte ≠ backslash then (decodeContent rest).map (byte :: ·)
    else
      match rest with
      | [] => none
      | escape :: rest =>
        match simpleEscape escape with
        | some byte => (decodeContent rest).map (byte :: ·)
        | none =>
          if escape ≠ 0x75 then none
          else
            match rest with
            | a :: b :: c :: d :: rest =>
              match readHexUnit a b c d with
              | none => none
              | some unit =>
                match rest with
                | slash :: u :: a :: b :: c :: d :: rest' =>
                  if 0xd800 ≤ unit ∧ unit ≤ 0xdbff ∧ slash = backslash ∧ u = 0x75 then
                    match readHexUnit a b c d with
                    | some low =>
                      if 0xdc00 ≤ low ∧ low ≤ 0xdfff then
                        (decodeContent rest').map
                          (utf8Bytes (pairCodePoint unit low) ++ ·)
                      else
                        (decodeContent (slash :: u :: a :: b :: c :: d :: rest')).map
                          (utf8Bytes unit ++ ·)
                    | none =>
                      (decodeContent (slash :: u :: a :: b :: c :: d :: rest')).map
                        (utf8Bytes unit ++ ·)
                  else
                    (decodeContent (slash :: u :: a :: b :: c :: d :: rest')).map
                      (utf8Bytes unit ++ ·)
                | rest => (decodeContent rest).map (utf8Bytes unit ++ ·)
            | _ => none

/-- Decode a raw quoted JSON string, including UTF-8 content and escapes. -/
def decodeJsonString (raw : Bytes) : Option Text :=
  if raw.length < 2 ∨ raw.head? ≠ some quote ∨ raw.getLast? ≠ some quote then none
  else (decodeContent (raw.tail.dropLast)).map decode

/-! ## The syntax of strings -/

structure PlainChar where
  codePoint : Nat
  scalar : isScalar codePoint
  control : 0x20 ≤ codePoint
  notQuote : codePoint ≠ 0x22
  notBackslash : codePoint ≠ 0x5c

structure SimpleEscape where
  byte : UInt8
  char : UInt8
  escape : simpleEscape byte = some char

structure HexDigit where
  byte : UInt8
  value : Nat
  ascii : byte.toNat < 0x80
  digit : hexDigit byte = some value

inductive StringChar where
  | plain (char : PlainChar)
  | escaped (escape : SimpleEscape)
  | unicode (a b c d : HexDigit)

/-- The characters between the quotes of a JSON string. -/
abbrev JsonString := List StringChar

namespace StringChar

def render : StringChar → Bytes
  | plain char => utf8Bytes char.codePoint
  | escaped escape => [backslash, escape.byte]
  | unicode a b c d => [backslash, 0x75, a.byte, b.byte, c.byte, d.byte]

/-- The code units a character denotes. -/
def value : StringChar → Text
  | plain char => codeUnits char.codePoint
  | escaped escape => codeUnits escape.char.toNat
  | unicode a b c d => [ofNat (((a.value * 16 + b.value) * 16 + c.value) * 16 + d.value)]

end StringChar

namespace JsonString

def content (s : JsonString) : Bytes := s.flatMap StringChar.render

def render (s : JsonString) : Bytes := quote :: s.content ++ [quote]

def value (s : JsonString) : Text := s.flatMap StringChar.value

end JsonString

/-- Three U+FFFD for every surrogate without a partner. -/
def readUnpaired : Text → Text
  | [] => []
  | unit :: rest =>
    match rest with
    | [] =>
      if isHigh unit || isLow unit then [replacement, replacement, replacement] else [unit]
    | next :: rest' =>
      if isHigh unit && isLow next then unit :: next :: readUnpaired rest'
      else if isHigh unit || isLow unit then
        replacement :: replacement :: replacement :: readUnpaired (next :: rest')
      else unit :: readUnpaired (next :: rest')

/-- The value the scanner reads. -/
def JsonString.readValue (s : JsonString) : Text := readUnpaired s.value

/-! ## Decoding what was written -/

/-- The low half of a pair right behind a high one. -/
def lowUnit (unit : Nat) : Bytes → Option (Nat × Bytes)
  | slash :: u :: a :: b :: c :: d :: rest =>
    if 0xd800 ≤ unit ∧ unit ≤ 0xdbff ∧ slash = backslash ∧ u = 0x75 then
      match readHexUnit a b c d with
      | some low => if 0xdc00 ≤ low ∧ low ≤ 0xdfff then some (low, rest) else none
      | none => none
    else none
  | _ => none

variable {byte : UInt8} {unit codePoint high low : Nat} {a b c d : HexDigit}

theorem decodeContent_plain (h : byte ≠ backslash) (rest : Bytes) :
    decodeContent (byte :: rest) = (decodeContent rest).map (byte :: ·) := by
  rw [decodeContent.eq_def]
  exact if_pos h

theorem decodeContent_escape {escape byte : UInt8} (h : simpleEscape escape = some byte)
    (rest : Bytes) :
    decodeContent (backslash :: escape :: rest) = (decodeContent rest).map (byte :: ·) := by
  rw [decodeContent.eq_def]
  simp only [ne_eq, not_true, if_false, h]

theorem decodeContent_unicode {a b c d : UInt8} (h : readHexUnit a b c d = some unit)
    (rest : Bytes) : decodeContent (backslash :: 0x75 :: a :: b :: c :: d :: rest) =
      match lowUnit unit rest with
      | some (low, rest') => (decodeContent rest').map (utf8Bytes (pairCodePoint unit low) ++ ·)
      | none => (decodeContent rest).map (utf8Bytes unit ++ ·) := by
  have hescape : simpleEscape 0x75 = none := by decide
  rw [decodeContent.eq_def]
  simp only [ne_eq, not_true, if_false, hescape, h]
  split
  next slash u a b c d rest' =>
    simp only [lowUnit]
    split
    · split
      · split <;> rfl
      · rfl
    · rfl
  next hshort =>
    have hnone : lowUnit unit rest = none := by
      unfold lowUnit
      split
      next slash u a b c d rest' => exact (hshort slash u a b c d rest' rfl).elim
      · rfl
    rw [hnone]

theorem decodeContent_append {bytes : Bytes} (h : ∀ byte ∈ bytes, byte ≠ backslash)
    (rest : Bytes) : decodeContent (bytes ++ rest) = (decodeContent rest).map (bytes ++ ·) := by
  induction bytes with
  | nil => simp
  | cons byte bytes ih =>
    rw [cons_append, decodeContent_plain (h byte mem_cons_self),
      ih fun b hb => h b (mem_cons_of_mem _ hb), Option.map_map]
    rfl

/-! ## Digits and units -/

theorem hexDigit_lt {digit : Nat} (h : hexDigit byte = some digit) : digit < 16 := by
  unfold hexDigit at h
  simp only at h
  split at h
  · cases h
    omega
  split at h
  · cases h
    omega
  split at h
  · cases h
    omega
  · cases h

/-- The unit of an escape. -/
def hexUnit (a b c d : HexDigit) : Nat := ((a.value * 16 + b.value) * 16 + c.value) * 16 + d.value

theorem hexUnit_lt (a b c d : HexDigit) : hexUnit a b c d < 0x10000 := by
  have ha := hexDigit_lt a.digit
  have hb := hexDigit_lt b.digit
  have hc := hexDigit_lt c.digit
  have hd := hexDigit_lt d.digit
  unfold hexUnit
  omega

theorem readHexUnit_digits (a b c d : HexDigit) :
    readHexUnit a.byte b.byte c.byte d.byte = some (hexUnit a b c d) := by
  simp only [readHexUnit, a.digit, b.digit, c.digit, d.digit]
  rfl

theorem simpleEscape_lt {byte char : UInt8} (h : simpleEscape byte = some char) :
    char.toNat ≤ 0x7f := by
  obtain ⟨before, after, htable, -⟩ := lookup_eq_some_iff.mp h
  have hall : simpleEscapes.all (fun entry => decide (entry.2.toNat ≤ 0x7f)) = true := by decide
  have hentry := all_eq_true.mp hall (byte, char) (htable ▸ mem_append_right _ mem_cons_self)
  exact of_decide_eq_true hentry

theorem PlainChar.bytes (char : PlainChar) :
    ∀ byte ∈ utf8Bytes char.codePoint, byte ≠ quote ∧ byte ≠ backslash := by
  intro byte hbyte
  have hquote := char.notQuote
  have hbackslash := char.notBackslash
  have hrange := encode_bytes char.scalar.1 byte hbyte
  constructor
  · rintro rfl
    have hvalue : quote.toNat = 0x22 := rfl
    omega
  rintro rfl
  have hvalue : backslash.toNat = 0x5c := rfl
  omega

/-! ## Surrogates -/

theorem isHigh_iff (unit : UInt16) :
    isHigh unit = true ↔ 0xd800 ≤ unit.toNat ∧ unit.toNat ≤ 0xdbff := by
  simp [isHigh, le_iff_toNat_le]

theorem isLow_iff (unit : UInt16) :
    isLow unit = true ↔ 0xdc00 ≤ unit.toNat ∧ unit.toNat ≤ 0xdfff := by
  simp [isLow, le_iff_toNat_le]

theorem isHigh_of_isLow {unit : UInt16} (h : isLow unit = true) : isHigh unit = false := by
  have hrange := (isLow_iff unit).mp h
  rw [Bool.eq_false_iff, ne_eq, isHigh_iff]
  omega

section ReadUnpaired

variable {unit : UInt16}

attribute [local simp] readUnpaired

theorem readUnpaired_pair {next : UInt16} (hhigh : isHigh unit = true) (hlow : isLow next = true)
    (t : Text) : readUnpaired (unit :: next :: t) = unit :: next :: readUnpaired t := by
  simp [hhigh, hlow]

theorem readUnpaired_high (hhigh : isHigh unit = true) {t : Text}
    (hnext : ∀ next ∈ t.head?, isLow next = false) : readUnpaired (unit :: t) =
      replacement :: replacement :: replacement :: readUnpaired t := by
  cases t with
  | nil => simp [hhigh]
  | cons next t =>
    have hnext := hnext next rfl
    simp [hhigh, hnext]

theorem readUnpaired_low (hlow : isLow unit = true) (t : Text) : readUnpaired (unit :: t) =
    replacement :: replacement :: replacement :: readUnpaired t := by
  have hhigh := isHigh_of_isLow hlow
  cases t with
  | nil => simp [hlow]
  | cons next t => simp [hhigh, hlow]

theorem readUnpaired_other (hhigh : isHigh unit = false) (hlow : isLow unit = false) (t : Text) :
    readUnpaired (unit :: t) = unit :: readUnpaired t := by
  cases t with
  | nil => simp [hhigh, hlow]
  | cons next t => simp [hhigh, hlow]

end ReadUnpaired

theorem toNat_unit {n : Nat} (h : n < 0x10000) : (ofNat n).toNat = n := toNat_ofNat_of_lt' h

theorem readUnpaired_codeUnits (h : isScalar codePoint) (t : Text) :
    readUnpaired (codeUnits codePoint ++ t) = codeUnits codePoint ++ readUnpaired t := by
  obtain ⟨hmax, hscalar⟩ := h
  unfold isSurrogate at hscalar
  unfold codeUnits
  split
  next hsmall =>
    have hunit := toNat_unit hsmall
    refine readUnpaired_other ?_ ?_ t
    · rw [Bool.eq_false_iff, ne_eq, isHigh_iff]
      omega
    · rw [Bool.eq_false_iff, ne_eq, isLow_iff]
      omega
  next hlarge =>
    refine readUnpaired_pair ?_ ?_ t
    · rw [isHigh_iff, toNat_unit (by omega)]
      omega
    · rw [isLow_iff, toNat_unit (by omega)]
      omega

theorem codeUnits_pair (hhigh : 0xd800 ≤ high ∧ high ≤ 0xdbff)
    (hlow : 0xdc00 ≤ low ∧ low ≤ 0xdfff) :
    codeUnits (pairCodePoint high low) = [ofNat high, ofNat low] := by
  have hfirst : 0xd800 + (pairCodePoint high low - 0x10000) / 0x400 = high := by
    unfold pairCodePoint
    omega
  have hsecond : 0xdc00 + (pairCodePoint high low - 0x10000) % 0x400 = low := by
    unfold pairCodePoint
    omega
  have hlarge : ¬ pairCodePoint high low < 0x10000 := by
    unfold pairCodePoint
    omega
  rw [codeUnits, if_neg hlarge, hfirst, hsecond]

theorem isScalar_pair (hhigh : 0xd800 ≤ high ∧ high ≤ 0xdbff)
    (hlow : 0xdc00 ≤ low ∧ low ≤ 0xdfff) : isScalar (pairCodePoint high low) := by
  unfold isScalar isSurrogate pairCodePoint
  omega

/-! ## Decoding the content of a string -/

/-- The code decodes the content of the string, to the value read. -/
def Decodes (s : JsonString) : Prop :=
  ∃ bytes, decodeContent s.content = some bytes ∧ decode bytes = s.readValue

variable {s : JsonString}

theorem decodes_plain (char : PlainChar) (h : Decodes s) : Decodes (.plain char :: s) := by
  obtain ⟨bytes, hbytes, hvalue⟩ := h
  refine ⟨utf8Bytes char.codePoint ++ bytes, ?_, ?_⟩
  · have happend := decodeContent_append (fun byte hbyte => (char.bytes byte hbyte).2) s.content
    exact happend.trans (by rw [hbytes]; rfl)
  · rw [utf8Bytes, decode_encode char.scalar, hvalue]
    exact (readUnpaired_codeUnits char.scalar s.value).symm

theorem decodes_escaped (escape : SimpleEscape) (h : Decodes s) :
    Decodes (.escaped escape :: s) := by
  obtain ⟨bytes, hbytes, hvalue⟩ := h
  have hsmall := simpleEscape_lt escape.escape
  have hscalar : isScalar escape.char.toNat := by
    unfold isScalar isSurrogate
    omega
  refine ⟨escape.char :: bytes, ?_, ?_⟩
  · exact (decodeContent_escape escape.escape s.content).trans (by rw [hbytes]; rfl)
  have hencode : encode escape.char.toNat = [escape.char] := by
    rw [encode, if_pos hsmall, UInt8.ofNat_toNat]
  have hdecode := decode_encode hscalar bytes
  rw [hencode] at hdecode
  exact hdecode.trans (by rw [hvalue]; exact (readUnpaired_codeUnits hscalar s.value).symm)

theorem content_unicode (a b c d : HexDigit) (s : JsonString) :
    JsonString.content (.unicode a b c d :: s) =
      backslash :: 0x75 :: a.byte :: b.byte :: c.byte :: d.byte :: s.content := rfl

theorem value_unicode (a b c d : HexDigit) (s : JsonString) :
    JsonString.value (.unicode a b c d :: s) = ofNat (hexUnit a b c d) :: s.value := rfl

theorem decodes_unit (h : Decodes s) (hlone : lowUnit (hexUnit a b c d) s.content = none)
    (hread : isSurrogate (hexUnit a b c d) → readUnpaired (ofNat (hexUnit a b c d) :: s.value) =
        replacement :: replacement :: replacement :: s.readValue) :
    Decodes (.unicode a b c d :: s) := by
  obtain ⟨bytes, hbytes, hvalue⟩ := h
  refine ⟨utf8Bytes (hexUnit a b c d) ++ bytes, ?_, ?_⟩
  · rw [content_unicode, decodeContent_unicode (readHexUnit_digits a b c d), hlone, hbytes]
    rfl
  rw [JsonString.readValue, value_unicode, utf8Bytes]
  by_cases hsurrogate : isSurrogate (hexUnit a b c d)
  · rw [decode_encode_surrogate hsurrogate, hvalue, hread hsurrogate]
  have hlt := hexUnit_lt a b c d
  have hscalar : isScalar (hexUnit a b c d) := ⟨by omega, hsurrogate⟩
  have hunits : codeUnits (hexUnit a b c d) = [ofNat (hexUnit a b c d)] := if_pos hlt
  have hother := readUnpaired_codeUnits hscalar s.value
  rw [hunits] at hother
  rw [decode_encode hscalar, hvalue, hunits]
  exact hother.symm

theorem decodes_pair {a b c d a' b' c' d' : HexDigit} (h : Decodes s)
    (hhigh : 0xd800 ≤ hexUnit a b c d ∧ hexUnit a b c d ≤ 0xdbff)
    (hlow : 0xdc00 ≤ hexUnit a' b' c' d' ∧ hexUnit a' b' c' d' ≤ 0xdfff) :
    Decodes (.unicode a b c d :: .unicode a' b' c' d' :: s) := by
  obtain ⟨bytes, hbytes, hvalue⟩ := h
  refine ⟨utf8Bytes (pairCodePoint (hexUnit a b c d) (hexUnit a' b' c' d')) ++ bytes, ?_, ?_⟩
  · have hpair : lowUnit (hexUnit a b c d) (JsonString.content (.unicode a' b' c' d' :: s)) =
        some (hexUnit a' b' c' d', s.content) := by
      rw [content_unicode, lowUnit, if_pos ⟨hhigh.1, hhigh.2, rfl, rfl⟩, readHexUnit_digits]
      exact if_pos hlow
    rw [content_unicode, decodeContent_unicode (readHexUnit_digits a b c d), hpair]
    simp only
    rw [hbytes]
    rfl
  · have hunits := codeUnits_pair hhigh hlow
    have hscalar := isScalar_pair hhigh hlow
    have hread := readUnpaired_codeUnits hscalar s.value
    rw [hunits] at hread
    rw [utf8Bytes, decode_encode hscalar, hvalue, hunits]
    exact hread.symm

theorem decodes_high (h : Decodes s) (hhigh : 0xd800 ≤ hexUnit a b c d ∧ hexUnit a b c d ≤ 0xdbff)
    (hlone : lowUnit (hexUnit a b c d) s.content = none)
    (hnext : ∀ next ∈ s.value.head?, isLow next = false) : Decodes (.unicode a b c d :: s) := by
  have hlt := hexUnit_lt a b c d
  have hunit : isHigh (ofNat (hexUnit a b c d)) = true := by
    rw [isHigh_iff, toNat_unit hlt]
    exact hhigh
  exact decodes_unit h hlone fun _ => readUnpaired_high hunit hnext

theorem head?_codeUnits (h : isScalar codePoint) (t : Text) :
    ∀ next ∈ (codeUnits codePoint ++ t).head?, isLow next = false := by
  obtain ⟨hmax, hscalar⟩ := h
  unfold isSurrogate at hscalar
  intro next hnext
  rw [Bool.eq_false_iff, ne_eq, isLow_iff]
  unfold codeUnits at hnext
  split at hnext
  next hsmall =>
    cases hnext
    rw [toNat_unit hsmall]
    omega
  next hlarge =>
    cases hnext
    rw [toNat_unit (by omega)]
    omega

theorem lowUnit_of_head {content : Bytes}
    (h : ∀ byte ∈ content.head?, byte ≠ backslash) : lowUnit unit content = none := by
  unfold lowUnit
  split
  next slash u a b c d rest =>
    rw [if_neg]
    rintro ⟨-, -, rfl, -⟩
    exact h backslash rfl rfl
  · rfl

theorem decodes_high_cons (h : Decodes s) (htail : Decodes s.tail)
    (hhigh : 0xd800 ≤ hexUnit a b c d ∧ hexUnit a b c d ≤ 0xdbff) :
    Decodes (.unicode a b c d :: s) := by
  cases s with
  | nil => exact decodes_high h hhigh rfl fun _ hnext => absurd hnext nofun
  | cons next s =>
    cases next with
    | plain char =>
      refine decodes_high h hhigh (lowUnit_of_head ?_) (head?_codeUnits char.scalar (JsonString.value s))
      intro byte hbyte
      change byte ∈ (utf8Bytes char.codePoint ++ JsonString.content s).head? at hbyte
      cases hchar : utf8Bytes char.codePoint with
      | nil => exact absurd hchar (encode_ne_nil _)
      | cons first bytes =>
        rw [hchar] at hbyte
        obtain rfl := Option.some.inj hbyte
        exact (char.bytes first (hchar ▸ mem_cons_self)).2
    | escaped escape =>
      have hsmall := simpleEscape_lt escape.escape
      have hscalar : isScalar escape.char.toNat := by
        unfold isScalar isSurrogate
        omega
      refine decodes_high h hhigh ?_ (head?_codeUnits hscalar (JsonString.value s))
      have hescape : escape.byte ≠ 0x75 := by
        intro heq
        have hsome := escape.escape
        rw [heq] at hsome
        cases hsome
      change lowUnit _ (backslash :: escape.byte :: JsonString.content s) = none
      unfold lowUnit
      split
      next slash u a b c d rest heq =>
        obtain ⟨-, rfl, -⟩ : backslash = slash ∧ escape.byte = u ∧ _ := by simpa using heq
        exact if_neg fun hpair => hescape hpair.2.2.2
      · rfl
    | unicode a' b' c' d' =>
      by_cases hlow : 0xdc00 ≤ hexUnit a' b' c' d' ∧ hexUnit a' b' c' d' ≤ 0xdfff
      · exact decodes_pair htail hhigh hlow
      refine decodes_high h hhigh ?_ ?_
      · rw [content_unicode, lowUnit, if_pos ⟨hhigh.1, hhigh.2, rfl, rfl⟩, readHexUnit_digits]
        exact if_neg hlow
      intro next hnext
      rw [value_unicode] at hnext
      cases hnext
      rw [Bool.eq_false_iff, ne_eq, isLow_iff, toNat_unit (hexUnit_lt a' b' c' d')]
      exact hlow

theorem decodes_unicode (h : Decodes s) (htail : Decodes s.tail) :
    Decodes (.unicode a b c d :: s) := by
  have hlt := hexUnit_lt a b c d
  by_cases hhigh : 0xd800 ≤ hexUnit a b c d ∧ hexUnit a b c d ≤ 0xdbff
  · exact decodes_high_cons h htail hhigh
  have hlone : lowUnit (hexUnit a b c d) s.content = none := by
    unfold lowUnit
    split
    next slash u a b c d rest =>
      rw [if_neg]
      rintro ⟨hlower, hupper, -⟩
      exact hhigh ⟨hlower, hupper⟩
    · rfl
  refine decodes_unit h hlone fun hsurrogate => readUnpaired_low ?_ s.value
  rw [isLow_iff, toNat_unit hlt]
  unfold isSurrogate at hsurrogate
  omega

theorem decodes (s : JsonString) : Decodes s := by
  have hboth : Decodes s ∧ Decodes s.tail := by
    induction s with
    | nil => exact ⟨⟨[], rfl, rfl⟩, ⟨[], rfl, rfl⟩⟩
    | cons char s ih =>
      refine ⟨?_, ih.1⟩
      cases char with
      | plain char => exact decodes_plain char ih.1
      | escaped escape => exact decodes_escaped escape ih.1
      | unicode a b c d => exact decodes_unicode ih.1 ih.2
  exact hboth.1

/-- The code reads a JSON string as its value with U+FFFD for unpaired surrogates. -/
theorem decodeJsonString_render (s : JsonString) :
    decodeJsonString s.render = some s.readValue := by
  obtain ⟨bytes, hbytes, hvalue⟩ := decodes s
  have hcontent : s.render.tail.dropLast = s.content := by simp [JsonString.render]
  have hwell : ¬ (s.render.length < 2 ∨ s.render.head? ≠ some quote ∨
      s.render.getLast? ≠ some quote) := by
    rw [JsonString.render, getLast?_concat]
    simp
  rw [decodeJsonString, if_neg hwell, hcontent, hbytes, Option.map_some, hvalue]

/-! ## Values without unpaired surrogates -/

theorem readUnpaired_eq {t : Text} (h : replacement ∉ readUnpaired t) : readUnpaired t = t := by
  fun_induction readUnpaired t with
  | case1 => rfl
  | case2 unit hlone => simp at h
  | case3 unit hpaired => rfl
  | case4 unit next rest hpair ih =>
    simp only [mem_cons, not_or] at h
    rw [ih h.2.2]
  | case5 unit next rest hpair hlone ih => simp at h
  | case6 unit next rest hpair hpaired ih =>
    simp only [mem_cons, not_or] at h
    rw [ih h.2]

/-! ## Agreement with JSON -/

/-- Every surrogate has its partner. -/
def Paired : Text → Bool
  | [] => true
  | unit :: rest =>
    match rest with
    | [] => !(isHigh unit || isLow unit)
    | next :: rest' =>
      if isHigh unit && isLow next then Paired rest'
      else !(isHigh unit || isLow unit) && Paired (next :: rest')

theorem readUnpaired_eq_iff (t : Text) : readUnpaired t = t ↔ Paired t = true := by
  have hlone {unit : UInt16} (h : (isHigh unit || isLow unit) = true) : replacement ≠ unit := by
    rintro rfl
    cases h
  fun_induction readUnpaired t with
  | case1 => exact iff_of_true rfl rfl
  | case2 unit h => simp [Paired, h, hlone h]
  | case3 unit h => simp [Paired, h]
  | case4 unit next rest hpair ih => simp [Paired, hpair, ih]
  | case5 unit next rest hpair h ih => simp [Paired, hpair, h, hlone h]
  | case6 unit next rest hpair h ih => simp [Paired, hpair, h, ih]

/-- Every backslash begins an escape, whose four digits are such as `digit` tells. -/
def WellEscaped (digit : UInt8 → Bool) : Bytes → Bool
  | [] => true
  | byte :: rest =>
    if byte ≠ backslash then WellEscaped digit rest
    else
      match rest with
      | [] => false
      | escape :: rest =>
        if (simpleEscape escape).isSome then WellEscaped digit rest
        else
          match rest with
          | a :: b :: c :: d :: rest =>
            escape = 0x75 && [a, b, c, d].all digit && WellEscaped digit rest
          | _ => false

/-- The digits the code reads. -/
def readsDigit (byte : UInt8) : Bool := (hexDigit byte).isSome

/-- The digits of JSON. -/
def isHexDigit (byte : UInt8) : Bool := byte < 0x80 && readsDigit byte

theorem readHexUnit_isSome (a b c d : UInt8) :
    (readHexUnit a b c d).isSome = [a, b, c, d].all readsDigit := by
  cases ha : hexDigit a <;> cases hb : hexDigit b <;> cases hc : hexDigit c <;>
    cases hd : hexDigit d <;> simp [readHexUnit, readsDigit, ha, hb, hc, hd]

theorem decodeContent_unicode_isSome {unit : Nat} {a b c d : UInt8}
    (h : readHexUnit a b c d = some unit) (rest : Bytes) :
    (decodeContent (backslash :: 0x75 :: a :: b :: c :: d :: rest)).isSome =
      (decodeContent rest).isSome := by
  rw [decodeContent_unicode h]
  cases hlow : lowUnit unit rest with
  | none => exact Option.isSome_map
  | some pair =>
    unfold lowUnit at hlow
    split at hlow
    next slash u a b c d rest =>
      obtain ⟨⟨-, -, rfl, rfl⟩, hlow⟩ := Option.ite_none_right_eq_some.mp hlow
      cases hread : readHexUnit a b c d with
      | none => simp [hread] at hlow
      | some low =>
        simp only [hread] at hlow
        obtain ⟨-, hrange, rfl⟩ := by simpa using hlow
        have hnone : lowUnit low rest = none := by
          unfold lowUnit
          split
          · exact if_neg fun hhigh => by omega
          · rfl
        rw [decodeContent_unicode hread, hnone]
        simp
    · cases hlow

theorem decodeContent_isSome (content : Bytes) :
    (decodeContent content).isSome = WellEscaped readsDigit content := by
  fun_induction WellEscaped readsDigit content with
  | case1 => rfl
  | case2 byte rest hplain ih => rw [decodeContent_plain hplain, Option.isSome_map, ih]
  | case3 byte h => rw [decodeContent.eq_def]; simp [h]
  | case4 byte h escape rest hsimple ih =>
    obtain ⟨char, hchar⟩ := Option.isSome_iff_exists.mp hsimple
    rw [of_not_not h, decodeContent_escape hchar, Option.isSome_map, ih]
  | case5 byte h escape hsimple a b c d rest ih =>
    rw [← ih, ← readHexUnit_isSome, of_not_not h]
    by_cases hu : escape = 0x75
    · rw [hu]
      cases hread : readHexUnit a b c d with
      | none =>
        rw [decodeContent.eq_def]
        simp [hread, show simpleEscape 0x75 = none from rfl]
      | some unit => simp [decodeContent_unicode_isSome hread]
    · rw [decodeContent.eq_def]
      simp [Option.not_isSome_iff_eq_none.mp hsimple, hu]
  | case6 byte h escape rest hsimple hshort =>
    rw [decodeContent.eq_def, of_not_not h]
    simp only [ne_eq, not_true, if_false, Option.not_isSome_iff_eq_none.mp hsimple]
    split <;> rfl

/-- A token is read as JSON has it exactly if no surrogate in its value lacks its partner, and a
malformed one is refused exactly if some escape is malformed also to the eye of the code. -/
theorem decodeJsonString_iff (s : JsonString) (content : Bytes) :
    (decodeJsonString s.render = some s.value ↔ Paired s.value = true) ∧
      (WellEscaped isHexDigit content = false →
        (decodeJsonString (quote :: content ++ [quote]) = none ↔
          WellEscaped readsDigit content = false)) := by
  constructor
  · rw [decodeJsonString_render, Option.some_inj]
    exact readUnpaired_eq_iff s.value
  intro _
  have hwell : ¬ ((quote :: content ++ [quote]).length < 2 ∨
      (quote :: content ++ [quote]).head? ≠ some quote ∨
      (quote :: content ++ [quote]).getLast? ≠ some quote) := by
    rw [getLast?_concat]
    simp
  have hcontent : (quote :: content ++ [quote]).tail.dropLast = content := by simp
  rw [decodeJsonString, if_neg hwell, hcontent, Option.map_eq_none_iff, ← decodeContent_isSome,
    Option.isSome_eq_false_iff, Option.isNone_iff_eq_none]

/-- The token of a high surrogate alone. -/
def loneSurrogate : JsonString :=
  [.unicode ⟨0x64, 13, by simp, rfl⟩ ⟨0x38, 8, by simp, rfl⟩ ⟨0x30, 0, by simp, rfl⟩
    ⟨0x30, 0, by simp, rfl⟩]

/-- It is read as U+FFFD, and an escape with letters for digits is taken. -/
theorem decodeJsonString_disagrees :
    decodeJsonString loneSurrogate.render ≠ some loneSurrogate.value ∧
      WellEscaped isHexDigit [0x5c, 0x75, 0xc4, 0xb1, 0xc4, 0xb1] = false ∧
      decodeJsonString [0x22, 0x5c, 0x75, 0xc4, 0xb1, 0xc4, 0xb1, 0x22] = some [0xd1d1] :=
  ⟨by rw [decodeJsonString_render]; decide, by decide, by decide⟩

end TaskHandoff.ModelRelay
