import TaskHandoff.ModelRelay.JsonTokens

/-! # JSON texts

A text is a syntax tree with its white space. Its segments are its bytes and
strings in order, each string value with the path that leads to it. On the text
of a tree the lexer returns the segments of the tree.
-/

namespace TaskHandoff.ModelRelay

open Utf8 (Bytes)

/-! ## White space and literals -/

structure Space where
  bytes : Bytes
  white : ∀ byte ∈ bytes, isWhitespace byte = true

def isDigit (byte : UInt8) : Bool := 0x30 ≤ byte && byte ≤ 0x39

structure Digits where
  bytes : Bytes
  nonempty : bytes ≠ []
  digits : ∀ byte ∈ bytes, isDigit byte = true

structure Exponent where
  letter : UInt8
  isLetter : letter = 0x65 ∨ letter = 0x45
  sign : Option Bool
  digits : Digits

structure JsonNumber where
  negative : Bool
  integer : Digits
  noLeadingZero : integer.bytes.head? = some 0x30 → integer.bytes = [0x30]
  fraction : Option Digits
  exponent : Option Exponent

inductive Literal where
  | bool (value : Bool)
  | null
  | number (number : JsonNumber)

def Exponent.render (e : Exponent) : Bytes :=
  e.letter :: (match e.sign with
    | none => []
    | some true => [0x2b]
    | some false => [0x2d]) ++ e.digits.bytes

def JsonNumber.render (n : JsonNumber) : Bytes :=
  (if n.negative then [0x2d] else []) ++ n.integer.bytes ++
    (match n.fraction with
      | none => []
      | some digits => 0x2e :: digits.bytes) ++
    (match n.exponent with
      | none => []
      | some e => e.render)

def Literal.render : Literal → Bytes
  | bool true => [0x74, 0x72, 0x75, 0x65]
  | bool false => [0x66, 0x61, 0x6c, 0x73, 0x65]
  | null => [0x6e, 0x75, 0x6c, 0x6c]
  | number n => n.render

/-! ## Syntax trees -/

mutual

inductive Json where
  | literal (literal : Literal)
  | string (string : JsonString)
  | emptyArray (space : Space)
  | array (elements : Elements)
  | emptyObject (space : Space)
  | object (members : Members)

inductive Elements where
  | last (before : Space) (value : Json) (after : Space)
  | more (before : Space) (value : Json) (after : Space) (rest : Elements)

inductive Members where
  | last (before : Space) (key : JsonString) (colon space : Space) (value : Json) (after : Space)
  | more (before : Space) (key : JsonString) (colon space : Space) (value : Json) (after : Space)
      (rest : Members)

end

structure JsonText where
  before : Space
  value : Json
  after : Space

mutual

def Json.render : Json → Bytes
  | .literal literal => literal.render
  | .string string => string.render
  | .emptyArray space => 0x5b :: (space.bytes ++ [0x5d])
  | .array elements => 0x5b :: (elements.render ++ [0x5d])
  | .emptyObject space => 0x7b :: (space.bytes ++ [0x7d])
  | .object members => 0x7b :: (members.render ++ [0x7d])

def Elements.render : Elements → Bytes
  | .last before value after => before.bytes ++ (value.render ++ after.bytes)
  | .more before value after rest =>
    before.bytes ++ (value.render ++ (after.bytes ++ 0x2c :: rest.render))

def Members.render : Members → Bytes
  | .last before key colon space value after =>
    before.bytes ++ (key.render ++ (colon.bytes ++ 0x3a ::
      (space.bytes ++ (value.render ++ after.bytes))))
  | .more before key colon space value after rest =>
    before.bytes ++ (key.render ++ (colon.bytes ++ 0x3a ::
      (space.bytes ++ (value.render ++ (after.bytes ++ 0x2c :: rest.render)))))

end

def JsonText.render (t : JsonText) : Bytes :=
  t.before.bytes ++ (t.value.render ++ t.after.bytes)

/-! ## Segments -/

/-- The strings of a text and its other bytes. A value has the path that leads to it; `start` is
the first byte of one that is no string. -/
inductive Segment where
  | byte (byte : UInt8)
  | start (byte : UInt8) (path : ValuePath)
  | key (key : JsonString)
  | string (string : JsonString) (path : ValuePath)

def Segment.source : Segment → Bytes
  | byte b => [b]
  | start b _ => [b]
  | key s => s.render
  | string s _ => s.render

def Space.segments (s : Space) : List Segment := s.bytes.map .byte

def Literal.segments (path : ValuePath) (l : Literal) : List Segment :=
  match l.render with
  | [] => []
  | byte :: rest => .start byte path :: rest.map .byte

section Segments

-- What a step along a key adds to the path.
variable (readKey : JsonString → Option JsText.Text)

mutual

def Json.segments (path : ValuePath) : Json → List Segment
  | .literal literal => literal.segments path
  | .string string => [.string string path]
  | .emptyArray space => .start 0x5b path :: (space.segments ++ [.byte 0x5d])
  | .array elements => .start 0x5b path :: (elements.segments (path ++ [none]) ++ [.byte 0x5d])
  | .emptyObject space => .start 0x7b path :: (space.segments ++ [.byte 0x7d])
  | .object members => .start 0x7b path :: (members.segments path ++ [.byte 0x7d])

def Elements.segments (path : ValuePath) : Elements → List Segment
  | .last before value after => before.segments ++ (value.segments path ++ after.segments)
  | .more before value after rest =>
    before.segments ++ (value.segments path ++ (after.segments ++
      .byte 0x2c :: rest.segments path))

def Members.segments (path : ValuePath) : Members → List Segment
  | .last before key colon space value after =>
    before.segments ++ .key key :: (colon.segments ++ .byte 0x3a ::
      (space.segments ++ (value.segments (path ++ [readKey key]) ++ after.segments)))
  | .more before key colon space value after rest =>
    before.segments ++ .key key :: (colon.segments ++ .byte 0x3a ::
      (space.segments ++ (value.segments (path ++ [readKey key]) ++ (after.segments ++
        .byte 0x2c :: rest.segments path))))

end

def JsonText.segments (t : JsonText) : List Segment :=
  t.before.segments ++ (t.value.segments readKey [] ++ t.after.segments)

end Segments

/-! ## The source of the segments -/

theorem Space.segments_source (space : Space) :
    space.segments.flatMap Segment.source = space.bytes := by
  rw [Space.segments, List.flatMap_map]
  exact List.flatMap_singleton' space.bytes

theorem Literal.segments_source (path : ValuePath) (l : Literal) :
    (l.segments path).flatMap Segment.source = l.render := by
  unfold Literal.segments
  cases l.render with
  | nil => rfl
  | cons byte rest =>
    rw [List.flatMap_cons, List.flatMap_map]
    exact congrArg (byte :: ·) (List.flatMap_singleton' rest)

section Source

variable (readKey : JsonString → Option JsText.Text)

mutual

theorem Json.segments_source : ∀ (value : Json) (path : ValuePath),
    (value.segments readKey path).flatMap Segment.source = value.render
  | .literal literal, path => literal.segments_source path
  | .string string, path => List.append_nil _
  | .emptyArray space, path => by
    simp [Json.segments, Json.render, Space.segments_source, Segment.source]
  | .array elements, path => by
    simp [Json.segments, Json.render, Elements.segments_source elements, Segment.source]
  | .emptyObject space, path => by
    simp [Json.segments, Json.render, Space.segments_source, Segment.source]
  | .object members, path => by
    simp [Json.segments, Json.render, Members.segments_source members, Segment.source]

theorem Elements.segments_source : ∀ (elements : Elements) (path : ValuePath),
    (elements.segments readKey path).flatMap Segment.source = elements.render
  | .last before value after, path => by
    simp [Elements.segments, Elements.render, Space.segments_source, Json.segments_source value]
  | .more before value after rest, path => by
    simp [Elements.segments, Elements.render, Space.segments_source, Json.segments_source value,
      Elements.segments_source rest, Segment.source]

theorem Members.segments_source : ∀ (members : Members) (path : ValuePath),
    (members.segments readKey path).flatMap Segment.source = members.render
  | .last before key colon space value after, path => by
    simp [Members.segments, Members.render, Space.segments_source, Json.segments_source value,
      Segment.source]
  | .more before key colon space value after rest, path => by
    simp [Members.segments, Members.render, Space.segments_source, Json.segments_source value,
      Members.segments_source rest, Segment.source]

end

theorem JsonText.segments_source (t : JsonText) :
    (t.segments readKey).flatMap Segment.source = t.render := by
  simp [JsonText.segments, JsonText.render, Space.segments_source, Json.segments_source]

end Source

/-- The piece the lexer returns for a segment. -/
def Segment.piece (paths : List (List JsText.Text)) : Segment → Piece
  | byte b => .byte b false
  | start b path => .byte b (isModelPath paths path)
  | key s => .token s.render false
  | string s path => .token s.render (isModelPath paths path)

/-! ## Bytes of white space and literals -/

/-- A byte that is neither white space nor part of the structure. -/
def isPlain (byte : UInt8) : Bool :=
  !isWhitespace byte && byte ∉ ([quote, 0x7b, 0x5b, 0x7d, 0x5d, 0x2c, 0x3a] : List UInt8)

theorem ne_of_holds {p : UInt8 → Bool} {byte other : UInt8} (h : p byte = true)
    (hother : p other = false) : byte ≠ other := by
  rintro rfl
  rw [hother] at h
  cases h

theorem isPlain_digit {byte : UInt8} (h : isDigit byte = true) : isPlain byte = true := by
  have hne : ∀ other, isDigit other = false → byte ≠ other := fun _ => ne_of_holds h
  simp (disch := decide) [isPlain, isWhitespace, hne]

theorem Exponent.plain (e : Exponent) : ∀ byte ∈ e.render, isPlain byte = true := by
  intro byte hbyte
  simp only [Exponent.render, List.cons_append, List.mem_cons, List.mem_append] at hbyte
  rcases hbyte with rfl | hsign | hdigit
  · rcases e.isLetter with hletter | hletter <;> rw [hletter] <;> decide
  · split at hsign
    · exact absurd hsign List.not_mem_nil
    · rw [List.mem_singleton.mp hsign]
      decide
    · rw [List.mem_singleton.mp hsign]
      decide
  · exact isPlain_digit (e.digits.digits byte hdigit)

theorem JsonNumber.plain (n : JsonNumber) : ∀ byte ∈ n.render, isPlain byte = true := by
  intro byte hbyte
  simp only [JsonNumber.render, List.mem_append] at hbyte
  rcases hbyte with ((hminus | hdigit) | hfraction) | hexponent
  · split at hminus
    · rw [List.mem_singleton.mp hminus]
      decide
    · exact absurd hminus List.not_mem_nil
  · exact isPlain_digit (n.integer.digits byte hdigit)
  · split at hfraction
    · exact absurd hfraction List.not_mem_nil
    · rcases List.mem_cons.mp hfraction with rfl | hdigit
      · decide
      next digits _ => exact isPlain_digit (digits.digits byte hdigit)
  · split at hexponent
    · exact absurd hexponent List.not_mem_nil
    next e _ => exact e.plain byte hexponent

theorem Literal.plain (l : Literal) : ∀ byte ∈ l.render, isPlain byte = true := by
  cases l with
  | bool value => cases value <;> simp [Literal.render, isPlain, isWhitespace, quote]
  | null => simp [Literal.render, isPlain, isWhitespace, quote]
  | number n => exact n.plain

theorem Literal.render_ne_nil (l : Literal) : l.render ≠ [] := by
  cases l with
  | bool value => cases value <;> exact nofun
  | null => exact nofun
  | number n =>
    intro hnil
    simp only [Literal.render, JsonNumber.render, List.append_eq_nil_iff] at hnil
    exact n.integer.nonempty hnil.1.1.2

/-! ## Lexing the parts -/

section Lexing

variable {paths : List (List JsText.Text)}

open Lexer

/-- A lexer outside of strings. -/
abbrev outside (p : Position) : Lexer := ⟨p, none⟩

variable {p : Position} {byte : UInt8}

theorem lex_byte (hquote : byte ≠ quote) (rest : Bytes) : lex paths (outside p) (byte :: rest) =
      (.byte byte (p.slot = .value && isModelPath paths p.valuePath && !isWhitespace byte) ::
        (lex paths (outside (p.structural byte)) rest).1,
        (lex paths (outside (p.structural byte)) rest).2) := by
  have hstep : step paths (outside p) byte =
      ([.byte byte (p.slot = .value && isModelPath paths p.valuePath && !isWhitespace byte)],
        outside (p.structural byte)) := if_neg hquote
  rw [lex, hstep]
  rfl

theorem structural_white (h : isWhitespace byte = true) (p : Position) : p.structural byte = p := by
  have hne : ∀ other, isWhitespace other = false → byte ≠ other := fun _ => ne_of_holds h
  simp (disch := decide) [Position.structural, h, hne]

theorem white_ne_quote (h : isWhitespace byte = true) : byte ≠ quote := ne_of_holds h rfl

theorem lex_space (space : Space) (p : Position) : lex paths (outside p) space.bytes =
      (space.segments.map (Segment.piece paths), outside p) := by
  obtain ⟨bytes, hwhite⟩ := space
  simp only [Space.segments]
  induction bytes with
  | nil => rfl
  | cons byte bytes ih =>
    have hbyte := hwhite byte List.mem_cons_self
    rw [lex_byte (white_ne_quote hbyte), structural_white hbyte,
      ih fun b hb => hwhite b (List.mem_cons_of_mem _ hb)]
    simp [Segment.piece, hbyte]

theorem plain_bytes (h : isPlain byte = true) (p : Position) :
    byte ≠ quote ∧ isWhitespace byte = false ∧
      p.structural byte = if p.slot = .value then { p with slot := .none } else p := by
  have hne : ∀ other, isPlain other = false → byte ≠ other := fun _ => ne_of_holds h
  have hwhite : isWhitespace byte = false := (Bool.not_eq_true' _).mp (Bool.and_eq_true_iff.mp h).1
  simp (disch := decide) [Position.structural, hwhite, hne]

theorem lex_plain {bytes : Bytes} (h : ∀ byte ∈ bytes, isPlain byte = true)
    (hslot : p.slot = .none) : lex paths (outside p) bytes =
      (bytes.map fun byte => Segment.piece paths (.byte byte), outside p) := by
  induction bytes with
  | nil => rfl
  | cons byte bytes ih =>
    obtain ⟨hquote, hwhite, hstructural⟩ := plain_bytes (h byte List.mem_cons_self) p
    rw [hslot, if_neg nofun] at hstructural
    rw [lex_byte hquote, hstructural, ih fun b hb => h b (List.mem_cons_of_mem _ hb)]
    simp [Segment.piece, hslot]

/-! ## Lexing strings -/

theorem lex_inside {bytes : Bytes} (h : ∀ byte ∈ bytes, byte ≠ quote ∧ byte ≠ backslash)
    (p : Position) (role : StringRole) (declared : Bool) (raw : Bytes) :
    lex paths ⟨p, some ⟨role, declared, false, raw⟩⟩ bytes =
      ([], ⟨p, some ⟨role, declared, false, raw ++ bytes⟩⟩) := by
  induction bytes generalizing raw with
  | nil => simp [lex]
  | cons byte bytes ih =>
    obtain ⟨hquote, hslash⟩ := h byte List.mem_cons_self
    have hstep : step paths ⟨p, some ⟨role, declared, false, raw⟩⟩ byte =
        ([], ⟨p, some ⟨role, declared, false, raw ++ [byte]⟩⟩) := by
      simp [step, hquote, hslash]
    rw [lex, hstep]
    rw [ih fun b hb => h b (List.mem_cons_of_mem _ hb), List.append_assoc]
    rfl

theorem HexDigit.bytes (d : HexDigit) : d.byte ≠ quote ∧ d.byte ≠ backslash := by
  have hdigit : ∀ other, hexDigit other = none → d.byte ≠ other := by
    rintro _ hother rfl
    cases hother.symm.trans d.digit
  exact ⟨hdigit quote rfl, hdigit backslash rfl⟩

theorem lex_char (char : StringChar) (p : Position) (role : StringRole) (declared : Bool)
    (raw : Bytes) : lex paths ⟨p, some ⟨role, declared, false, raw⟩⟩ char.render =
      ([], ⟨p, some ⟨role, declared, false, raw ++ char.render⟩⟩) := by
  have hslash : step paths ⟨p, some ⟨role, declared, false, raw⟩⟩ backslash =
      ([], ⟨p, some ⟨role, declared, true, raw ++ [backslash]⟩⟩) := by
    have hquote : ¬ backslash = quote := by decide
    simp [step, hquote]
  have hescaped : ∀ byte, step paths ⟨p, some ⟨role, declared, true, raw ++ [backslash]⟩⟩ byte =
      ([], ⟨p, some ⟨role, declared, false, raw ++ [backslash, byte]⟩⟩) := by
    simp [step]
  cases char with
  | plain char => exact lex_inside char.bytes p role declared raw
  | escaped escape =>
    rw [StringChar.render, lex, hslash]
    rw [lex, hescaped]
    rfl
  | unicode a b c d =>
    have hdigits : ∀ byte ∈ [a.byte, b.byte, c.byte, d.byte], byte ≠ quote ∧ byte ≠ backslash := by
      intro byte hbyte
      simp only [List.mem_cons, List.not_mem_nil, or_false] at hbyte
      rcases hbyte with rfl | rfl | rfl | rfl
      · exact a.bytes
      · exact b.bytes
      · exact c.bytes
      · exact d.bytes
    rw [StringChar.render, lex, hslash]
    rw [lex, hescaped]
    rw [lex_inside hdigits, List.append_assoc]
    rfl

theorem lex_content (s : JsonString) (p : Position) (role : StringRole) (declared : Bool)
    (raw : Bytes) : lex paths ⟨p, some ⟨role, declared, false, raw⟩⟩ s.content =
      ([], ⟨p, some ⟨role, declared, false, raw ++ s.content⟩⟩) := by
  induction s generalizing raw with
  | nil => simp [JsonString.content, lex]
  | cons char s ih =>
    have hcons : JsonString.content (char :: s) = char.render ++ JsonString.content s := rfl
    rw [hcons, lex_append, lex_char, ih, List.append_assoc]
    rfl

theorem lex_string (s : JsonString) (p : Position) : lex paths (outside p) s.render =
      ([.token s.render (openString paths p).declared],
        outside (closed p { openString paths p with raw := s.render })) := by
  have hopen : step paths (outside p) quote = ([], ⟨p, some (openString paths p)⟩) := by simp [step]
  have hcontent := @lex_content paths s p (openString paths p).role (openString paths p).declared
    [quote]
  rw [JsonString.render, List.cons_append, lex, hopen]
  rw [lex_append]
  have hstate : openString paths p =
      ⟨(openString paths p).role, (openString paths p).declared, false, [quote]⟩ := rfl
  rw [hstate, hcontent]
  rfl

/-! ## Lexing values -/

/-- The keys of the open containers, from the root. -/
def framesPath (frames : List (Container × Option JsText.Text)) : ValuePath :=
  (frames.map (·.2)).reverse

/-- A value with this path is expected. -/
structure Expects (paths : List (List JsText.Text)) (p : Position) (path : ValuePath) : Prop where
  frames : framesPath p.frames = path
  slot : p.slot ≠ .key
  declared : isModelPath paths p.valuePath = isModelPath paths path
  value : p.slot = .value ∨ isModelPath paths path = false

/-- The position behind a value. -/
def behind (p : Position) (valuePath : ValuePath) : Position := ⟨p.frames, .none, valuePath⟩

/-- The key that the scanner reads. -/
def scannedKey (key : JsonString) : Option JsText.Text :=
  if key.render.length ≤ DEFAULT_MAX_KEY_BYTES then some key.readValue else none

theorem readKey_render (key : JsonString) : readKey key.render = scannedKey key := by
  rw [readKey, decodeJsonString_render]
  rfl

variable {path : ValuePath}

section

variable (h : Expects paths p path)

include h

theorem Expects.start (hwhite : isWhitespace byte = false) :
    (decide (p.slot = .value) && isModelPath paths p.valuePath && !isWhitespace byte) =
      isModelPath paths path := by
  rw [h.declared, hwhite]
  rcases h.value with hvalue | hundeclared
  · simp [hvalue]
  · simp [hundeclared]

theorem lex_string_value (s : JsonString) : lex paths (outside p) s.render =
      ([Segment.piece paths (.string s path)], outside (behind p p.valuePath)) := by
  have hrole : (openString paths p).role = .value := by simp [openString, h.slot]
  have hdeclared : (openString paths p).declared = isModelPath paths path := by
    simp [openString, h.slot, h.declared]
  rw [lex_string, hdeclared, closed, hrole]
  rfl

theorem lex_literal (l : Literal) : lex paths (outside p) l.render =
      ((l.segments path).map (Segment.piece paths), outside (behind p p.valuePath)) := by
  have hplain := l.plain
  unfold Literal.segments
  cases hrender : l.render with
  | nil => exact absurd hrender l.render_ne_nil
  | cons byte bytes =>
    rw [hrender] at hplain
    obtain ⟨hquote, hwhite, hstructural⟩ := plain_bytes (hplain byte List.mem_cons_self) p
    have hbehind : p.structural byte = behind p p.valuePath := by
      rw [hstructural]
      cases hslot : p.slot with
      | key => exact absurd hslot h.slot
      | value => rfl
      | none =>
        cases p
        cases hslot
        rfl
    rw [lex_byte hquote, h.start hwhite, hbehind,
      lex_plain (fun b hb => hplain b (List.mem_cons_of_mem _ hb)) rfl, List.map_cons,
      List.map_map]
    rfl

end

theorem lex_mark (hquiet : (decide (p.slot = .value) && isModelPath paths p.valuePath) = false)
    (hquote : byte ≠ quote) (rest : Bytes) : lex paths (outside p) (byte :: rest) =
      (Segment.piece paths (.byte byte) :: (lex paths (outside (p.structural byte)) rest).1,
        (lex paths (outside (p.structural byte)) rest).2) := by
  rw [lex_byte hquote, hquiet]
  rfl

theorem lex_start (h : Expects paths p path) (hquote : byte ≠ quote)
    (hwhite : isWhitespace byte = false) (rest : Bytes) :
    lex paths (outside p) (byte :: rest) = (Segment.piece paths (.start byte path) ::
        (lex paths (outside (p.structural byte)) rest).1,
        (lex paths (outside (p.structural byte)) rest).2) := by
  rw [lex_byte hquote, h.start hwhite]
  rfl

/-- What the lexer makes of a part of the text. -/
def Lexes (paths : List (List JsText.Text)) (p : Position) (bytes : Bytes)
    (segments : List Segment) (p' : Position) : Prop :=
  lex paths (outside p) bytes = (segments.map (Segment.piece paths), outside p')

theorem Lexes.append {p q r : Position} {a b : Bytes} {x y : List Segment}
    (ha : Lexes paths p a x q) (hb : Lexes paths q b y r) : Lexes paths p (a ++ b) (x ++ y) r := by
  unfold Lexes at *
  rw [lex_append, ha, hb, List.map_append]

theorem Lexes.space (space : Space) (p : Position) : Lexes paths p space.bytes space.segments p :=
  lex_space space p

variable {segments : List Segment}

theorem Lexes.mark {p q : Position}
    (hquiet : (decide (p.slot = .value) && isModelPath paths p.valuePath) = false)
    (hquote : byte ≠ quote) {rest : Bytes}
    (hrest : Lexes paths (p.structural byte) rest segments q) :
    Lexes paths p (byte :: rest) (.byte byte :: segments) q := by
  unfold Lexes at *
  rw [lex_mark hquiet hquote, hrest]
  rfl

theorem Lexes.start {p q : Position} (h : Expects paths p path) (hquote : byte ≠ quote)
    (hwhite : isWhitespace byte = false) {rest : Bytes}
    (hrest : Lexes paths (p.structural byte) rest segments q) :
    Lexes paths p (byte :: rest) (.start byte path :: segments) q := by
  unfold Lexes at *
  rw [lex_start h hquote hwhite, hrest]
  rfl

theorem Lexes.nil (p : Position) : Lexes paths p [] [] p := rfl

theorem Lexes.key (key : JsonString) (frames : List (Container × Option JsText.Text))
    (old : Option JsText.Text) (valuePath : ValuePath) :
    Lexes paths ⟨(.object, old) :: frames, .key, valuePath⟩ key.render [.key key]
      ⟨(.object, scannedKey key) :: frames, .none, valuePath⟩ := by
  have hstring := @lex_string paths key ⟨(.object, old) :: frames, .key, valuePath⟩
  unfold Lexes
  rw [hstring]
  have hkey := readKey_render key
  rw [← hkey]
  rfl

theorem isModelPath_of_mem_none (h : none ∈ path) : isModelPath paths path = false := by
  rw [isModelPath, List.any_eq_false]
  intro candidate _ hequal
  rw [of_decide_eq_true hequal] at h
  obtain ⟨key, -, hkey⟩ := List.mem_map.mp h
  cases hkey

theorem framesPath_cons (frame : Container × Option JsText.Text)
    (frames : List (Container × Option JsText.Text)) :
    framesPath (frame :: frames) = framesPath frames ++ [frame.2] := by
  simp [framesPath]

theorem expects_member (frames : List (Container × Option JsText.Text)) (key : Option JsText.Text) :
    Expects paths ⟨(.object, key) :: frames, .value, framesPath frames ++ [key]⟩
      (framesPath frames ++ [key]) where
  frames := framesPath_cons ..
  slot := nofun
  declared := rfl
  value := .inl rfl

theorem structural_colon (frames : List (Container × Option JsText.Text))
    (key : Option JsText.Text) (valuePath : ValuePath) :
    Position.structural ⟨(.object, key) :: frames, .none, valuePath⟩ 0x3a =
      ⟨(.object, key) :: frames, .value, framesPath frames ++ [key]⟩ := by
  have hpath := framesPath_cons (Container.object, key) frames
  rw [← hpath]
  rfl

variable (hpaths : ∀ path ∈ paths, path ≠ [])

include hpaths

theorem isModelPath_nil : isModelPath paths [] = false := by
  rw [isModelPath, List.any_eq_false]
  intro candidate hcandidate hequal
  have hnil := of_decide_eq_true hequal
  exact hpaths candidate hcandidate (List.map_eq_nil_iff.mp hnil.symm)

theorem expects_root : Expects paths .start [] where
  frames := rfl
  slot := nofun
  declared := rfl
  value := .inr (isModelPath_nil hpaths)

theorem expects_element (frames : List (Container × Option JsText.Text)) :
    Expects paths ⟨(.array, none) :: frames, .value, []⟩ (framesPath frames ++ [none]) where
  frames := framesPath_cons ..
  slot := nofun
  declared := by
    rw [isModelPath_nil hpaths, isModelPath_of_mem_none (List.mem_append_right _ List.mem_cons_self)]
  value := .inl rfl

omit hpaths

mutual

theorem Json.lexes (hpaths : ∀ path ∈ paths, path ≠ []) :
    ∀ (value : Json) {p : Position} {path : ValuePath}, Expects paths p path →
    ∃ valuePath, (valuePath = p.valuePath ∨ valuePath = []) ∧
      Lexes paths p value.render (value.segments scannedKey path) (behind p valuePath)
  | .literal literal, p, path, h => ⟨p.valuePath, .inl rfl, lex_literal h literal⟩
  | .string string, p, path, h => ⟨p.valuePath, .inl rfl, lex_string_value h string⟩
  | .emptyArray space, p, path, h => by
    have hquiet : (decide (Slot.value = .value) && isModelPath paths []) = false := by
      rw [isModelPath_nil hpaths]
      rfl
    exact ⟨[], .inr rfl, .start h (by decide) (by decide)
      ((Lexes.space space _).append (.mark hquiet (by decide) (.nil _)))⟩
  | .array elements, p, path, h => by
    have helements := Elements.lexes hpaths elements p.frames
    rw [h.frames] at helements
    exact ⟨[], .inr rfl, .start h (by decide) (by decide)
      (helements.append (.mark rfl (by decide) (.nil _)))⟩
  | .emptyObject space, p, path, h => by
    exact ⟨[], .inr rfl, .start h (by decide) (by decide)
      ((Lexes.space space _).append (.mark rfl (by decide) (.nil _)))⟩
  | .object members, p, path, h => by
    obtain ⟨key, valuePath, hmembers⟩ := Members.lexes hpaths members p.frames none []
    rw [h.frames] at hmembers
    exact ⟨[], .inr rfl, .start h (by decide) (by decide)
      (hmembers.append (.mark rfl (by decide) (.nil _)))⟩

theorem Elements.lexes (hpaths : ∀ path ∈ paths, path ≠ []) :
    ∀ (elements : Elements) (frames : List (Container × Option JsText.Text)),
    Lexes paths ⟨(.array, none) :: frames, .value, []⟩ elements.render
      (elements.segments scannedKey (framesPath frames ++ [none]))
      ⟨(.array, none) :: frames, .none, []⟩
  | .last before value after, frames => by
    obtain ⟨valuePath, hpath, hvalue⟩ := Json.lexes hpaths value (expects_element hpaths frames)
    obtain rfl : valuePath = [] := hpath.elim id id
    exact (Lexes.space before _).append (hvalue.append (Lexes.space after _))
  | .more before value after rest, frames => by
    obtain ⟨valuePath, hpath, hvalue⟩ := Json.lexes hpaths value (expects_element hpaths frames)
    obtain rfl : valuePath = [] := hpath.elim id id
    have hrest := Elements.lexes hpaths rest frames
    exact (Lexes.space before _).append (hvalue.append ((Lexes.space after _).append
      (.mark rfl (by decide) hrest)))

theorem Members.lexes (hpaths : ∀ path ∈ paths, path ≠ []) : ∀ (members : Members)
    (frames : List (Container × Option JsText.Text)) (old : Option JsText.Text)
    (valuePath : ValuePath), ∃ key valuePath',
      Lexes paths ⟨(.object, old) :: frames, .key, valuePath⟩ members.render
        (members.segments scannedKey (framesPath frames))
        ⟨(.object, key) :: frames, .none, valuePath'⟩
  | .last before key colon space value after, frames, old, valuePath => by
    obtain ⟨valuePath', -, hvalue⟩ :=
      Json.lexes hpaths value (expects_member frames (scannedKey key))
    refine ⟨scannedKey key, valuePath', (Lexes.space before _).append
      ((Lexes.key key frames old valuePath).append ((Lexes.space colon _).append
        (.mark rfl (by decide) ?_)))⟩
    rw [structural_colon]
    exact (Lexes.space space _).append (hvalue.append (Lexes.space after _))
  | .more before key colon space value after rest, frames, old, valuePath => by
    obtain ⟨valuePath', -, hvalue⟩ :=
      Json.lexes hpaths value (expects_member frames (scannedKey key))
    obtain ⟨key', valuePath'', hrest⟩ :=
      Members.lexes hpaths rest frames (scannedKey key) valuePath'
    refine ⟨key', valuePath'', (Lexes.space before _).append
      ((Lexes.key key frames old valuePath).append ((Lexes.space colon _).append
        (.mark rfl (by decide) ?_)))⟩
    rw [structural_colon]
    exact (Lexes.space space _).append (hvalue.append ((Lexes.space after _).append
      (.mark rfl (by decide) hrest)))

end

include hpaths in
theorem JsonText.lexes (t : JsonText) : ∃ p, Lexes paths .start t.render
    (t.segments scannedKey) p := by
  obtain ⟨valuePath, -, hvalue⟩ := Json.lexes hpaths t.value (expects_root hpaths)
  exact ⟨_, (Lexes.space t.before _).append (hvalue.append (Lexes.space t.after _))⟩

end Lexing

end TaskHandoff.ModelRelay
