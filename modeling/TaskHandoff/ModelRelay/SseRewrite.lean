import TaskHandoff.ModelRelay.RelayRequest
import TaskHandoff.Lib.Lines

/-! # Rewriting server-sent events

`rewriteSseModelResponseBody` frames the upstream stream into lines and events, and rewrites the
joined data payload of an event through the scanner. How the stream is cut into chunks makes no
difference. The payload that is rewritten is one whose first byte other than spaces and tabs is a
brace, which is not the same as a JSON object.
-/

namespace TaskHandoff.ModelRelay

open List Option
open JsText (Text)
open Utf8 (Bytes encodeText)
open Lines (LF CR Line Block Clean)

/-! ## Lines -/

structure SseLine where
  raw : Bytes
  content : Bytes
  terminator : Bytes

def splitLine (raw : Bytes) : SseLine :=
  let unended := if raw.getLast? = some LF then raw.dropLast else raw
  let content := if unended.getLast? = some CR then unended.dropLast else unended
  ⟨raw, content, raw.drop content.length⟩

/-- The lines of the data behind the first bytes of a line, and the bytes that are carried over. A
CR at the end waits for the next chunk. -/
def scanLines (line : Bytes) : Bytes → List SseLine × Bytes
  | [] => ([], line)
  | byte :: rest =>
    if byte = LF then
      let r := scanLines [] rest
      (splitLine (line ++ [byte]) :: r.1, r.2)
    else if byte = CR then
      match rest with
      | [] => ([], line ++ [byte])
      | next :: rest' =>
        if next = LF then
          let r := scanLines [] rest'
          (splitLine (line ++ [byte, next]) :: r.1, r.2)
        else
          let r := scanLines [] (next :: rest')
          (splitLine (line ++ [byte]) :: r.1, r.2)
    else scanLines (line ++ [byte]) rest

def sseLines (carry : Bytes) : List Bytes → List SseLine
  | [] => if carry = [] then [] else [splitLine carry]
  | chunk :: chunks =>
    let r := scanLines [] (carry ++ chunk)
    r.1 ++ sseLines r.2 chunks

/-! ## The payload of an event -/

structure JsonModelRewriteMapping where
  paths : List (List Text)
  externalName : Option Text
  expectedUpstreamName : Option Text

def responseReplacement (mapping : JsonModelRewriteMapping) (value : Text) : Option Bytes :=
  match mapping.expectedUpstreamName, mapping.externalName with
  | some expected, some name =>
    if value = expected then some (encodeText (stringify name)) else none
  | _, _ => none

def rewriteJsonModelBuffer (buffer : Bytes) (mapping : JsonModelRewriteMapping) : Bytes :=
  match scanChunks (rewriteOptions mapping.paths (responseReplacement mapping) false
      DEFAULT_MAX_STRING_BYTES) () [buffer] with
  | .ok output => output
  | .error error => nomatch error

/-- The external name in quotes. -/
def externalToken (mapping : JsonModelRewriteMapping) : Bytes :=
  encodeText (stringify (mapping.externalName.getD []))

/-- The bytes of `data:`. -/
def dataPrefix : Bytes := [0x64, 0x61, 0x74, 0x61, 0x3a]

/-- Decoding as ASCII drops the highest bit of a byte. -/
def ascii (bytes : Bytes) : Bytes := bytes.map (· &&& 0x7f)

def afterPrefix (content : Bytes) : Bytes :=
  let payload := content.drop 5
  if payload.head? = some 0x20 then payload.tail else payload

def dataPayload (content : Bytes) : Option Bytes :=
  if ascii (content.take 5) = dataPrefix then some (afterPrefix content) else none

def looksLikeJson : Bytes → Bool
  | [] => false
  | byte :: rest => if byte = 0x20 ∨ byte = 0x09 then looksLikeJson rest else byte = 0x7b

def splitOnNewline (buffer : Bytes) : List Bytes := buffer.splitOn LF

def joinPayloads (payloads : List Bytes) : Bytes := [LF].intercalate payloads

def rewriteSseEventData (payloads : List Bytes) (mapping : JsonModelRewriteMapping) :
    Option (List Bytes) :=
  if payloads = [] then none
  else
    let joined := joinPayloads payloads
    if looksLikeJson joined then
      let rewritten := rewriteJsonModelBuffer joined mapping
      if rewritten = joined then none
      else
        let parts := splitOnNewline rewritten
        if parts.length = payloads.length then some parts else none
    else none

/-! ## The stream -/

/-- The lines with the parts in place of the payloads. -/
def replacePayloads : List SseLine → List Bytes → List Bytes
  | [], _ => []
  | line :: lines, parts =>
    match dataPayload line.content, parts with
    | some payload, part :: parts =>
      (line.content.take (line.content.length - payload.length) ++ part ++ line.terminator) ::
        replacePayloads lines parts
    | _, parts => line.raw :: replacePayloads lines parts

def flushEvent (mapping : JsonModelRewriteMapping) (lines : List SseLine) : List Bytes :=
  let payloads := lines.filterMap fun line => dataPayload line.content
  match rewriteSseEventData payloads mapping with
  | none => lines.map SseLine.raw
  | some rewritten => replacePayloads lines rewritten

def upstreamStreamError : ModelRelayError where
  statusCode := 502
  code := "MODEL_RELAY_UPSTREAM_STREAM_ERROR"
  message := "The upstream SSE event exceeded the relay frame limit."

/-- What is yielded, and the error that ends it. -/
def rewriteEvents (mapping : JsonModelRewriteMapping) (maxEventBytes : Nat)
    (lines : List SseLine) (eventBytes : Nat) : List SseLine → List Bytes × Option ModelRelayError
  | [] => (flushEvent mapping lines, none)
  | line :: rest =>
    let eventBytes := eventBytes + line.raw.length
    if maxEventBytes < eventBytes then ([], some upstreamStreamError)
    else if line.content = [] then
      let r := rewriteEvents mapping maxEventBytes [] 0 rest
      (flushEvent mapping lines ++ line.raw :: r.1, r.2)
    else rewriteEvents mapping maxEventBytes (lines ++ [line]) eventBytes rest

def rewriteSseModelResponseBody (body : List Bytes) (mapping : JsonModelRewriteMapping)
    (maxEventBytes : Nat) : List Bytes × Option ModelRelayError :=
  rewriteEvents mapping maxEventBytes [] 0 (sseLines [] body)

/-! ## Framing -/

def SseLine.of (line : Line) : SseLine := ⟨line.raw, line.content, line.terminator⟩

theorem splitLine_raw (line : Line) (hclean : Clean line.content)
    (hends : line.terminator ∈ [[], [LF], [CR], [CR, LF]]) : splitLine line.raw = .of line := by
  have ⟨content, terminator⟩ := line
  have hlf : content.getLast? ≠ some LF := fun h => hclean.1 (mem_of_getLast? h)
  have hcr : content.getLast? ≠ some CR := fun h => hclean.2 (mem_of_getLast? h)
  have hne : CR ≠ LF := by decide
  simp only [mem_cons, not_mem_nil, or_false] at hends
  rcases hends with rfl | rfl | rfl | rfl
  · simp [splitLine, SseLine.of, Line.raw, hlf, hcr]
  · simp [splitLine, SseLine.of, Line.raw, hcr]
  · simp [splitLine, SseLine.of, Line.raw, hne]
  · have hsplit : content ++ [CR, LF] = content ++ [CR] ++ [LF] := by simp
    simp only [splitLine, SseLine.of, Line.raw, hsplit, getLast?_concat, dropLast_concat, if_true]
    simp

/-- The beginning of a line, with the CR that may end it. -/
def Carried (carry : Bytes) : Prop := ∃ line, Clean line ∧ (carry = line ∨ carry = line ++ [CR])

theorem scanLines_carried (line data : Bytes) (h : Clean line) :
    Carried (scanLines line data).2 := by
  induction line, data using scanLines.induct with
  | case1 line => exact ⟨line, h, .inl rfl⟩
  | case2 line rest ih =>
    rw [scanLines.eq_def]
    exact ih .nil
  | case3 line hne => exact ⟨line, h, .inr rfl⟩
  | case4 line rest hne ih => exact ih .nil
  | case5 line next rest hnext hne ih =>
    rw [scanLines.eq_def]
    simp only [if_neg hne, if_neg hnext, if_true]
    exact ih .nil
  | case6 line byte rest hlf hcr ih =>
    rw [scanLines.eq_def]
    simp only [if_neg hlf, if_neg hcr]
    exact ih (h.append_singleton hlf hcr)

variable {line : Bytes}

theorem splitLine_lf (h : Clean line) :
    splitLine (line ++ [LF]) = .of ⟨line, [LF]⟩ := splitLine_raw ⟨line, [LF]⟩ h (by simp)

theorem splitLine_cr (h : Clean line) :
    splitLine (line ++ [CR]) = .of ⟨line, [CR]⟩ := splitLine_raw ⟨line, [CR]⟩ h (by simp)

theorem splitLine_crlf (h : Clean line) : splitLine (line ++ [CR, LF]) = .of ⟨line, [CR, LF]⟩ :=
  splitLine_raw ⟨line, [CR, LF]⟩ h (by simp)

theorem scanLines_lines (line data : Bytes) (h : Clean line) (more : Bytes) :
    (Lines.linesFrom line (data ++ more)).map .of =
      (scanLines line data).1 ++ (Lines.lines ((scanLines line data).2 ++ more)).map .of := by
  induction line, data using scanLines.induct with
  | case1 line =>
    have hcarry := Lines.linesFrom_append_clean [] h more
    rw [scanLines, Lines.lines, hcarry]
    rfl
  | case2 line rest ih =>
    rw [scanLines.eq_def]
    simp only [if_true]
    rw [cons_append, Lines.linesFrom_cons_lf, map_cons, ih .nil, splitLine_lf h]
    rfl
  | case3 line hne =>
    have hcarry := Lines.linesFrom_append_clean [] h (CR :: more)
    have hscan : scanLines line [CR] = ([], line ++ [CR]) := by
      rw [scanLines.eq_def]
      simp only [if_neg hne, if_true]
    rw [hscan, Lines.lines, append_assoc, singleton_append, hcarry]
    rfl
  | case4 line rest hne ih =>
    rw [scanLines.eq_def]
    simp only [if_neg hne, if_true]
    rw [cons_append, cons_append, Lines.linesFrom_cons_crlf, map_cons, ih .nil, splitLine_crlf h]
    rfl
  | case5 line next rest hnext hne ih =>
    have hhead : (next :: rest ++ more).head? ≠ some LF := fun heq => hnext (some.inj heq)
    rw [scanLines.eq_def]
    simp only [if_neg hne, if_neg hnext, if_true]
    rw [cons_append, Lines.linesFrom_cons_cr line hhead, map_cons, ih .nil, splitLine_cr h]
    rfl
  | case6 line byte rest hlf hcr ih =>
    rw [scanLines.eq_def]
    simp only [if_neg hlf, if_neg hcr]
    rw [cons_append, Lines.linesFrom_cons_plain line hlf hcr]
    exact ih (h.append_singleton hlf hcr)

/-- The lines do not depend on the chunks. -/
theorem sseLines_eq (chunks : List Bytes) {carry : Bytes} (h : Carried carry) :
    sseLines carry chunks = (Lines.lines (carry ++ chunks.flatten)).map .of := by
  induction chunks generalizing carry with
  | nil =>
    obtain ⟨line, hclean, hcarry⟩ := h
    rw [sseLines, flatten_nil]
    split
    next hempty => rw [hempty]; rfl
    rename_i hne
    rcases hcarry with rfl | rfl
    · have hlines := Lines.linesFrom_append_clean [] hclean []
      have hsplit := splitLine_raw ⟨carry, []⟩ hclean (by simp)
      rw [Line.raw, append_nil] at hsplit
      rw [Lines.lines, hlines, nil_append, Lines.linesFrom, if_neg hne, hsplit]
      rfl
    · have hlines := Lines.linesFrom_append_clean [] hclean [CR]
      rw [append_nil, Lines.lines, hlines, splitLine_cr hclean]
      rfl
  | cons chunk chunks ih =>
    have hscan := scanLines_lines [] (carry ++ chunk) .nil chunks.flatten
    rw [sseLines, ih (scanLines_carried [] _ .nil), flatten_cons, ← append_assoc]
    exact hscan.symm

/-! ## Tokens do not depend on the paths -/

def Piece.plain : Piece → Piece
  | byte b _ => .byte b false
  | token raw _ => .token raw false

def Lexer.plain (l : Lexer) : Lexer :=
  { l with string := l.string.map fun t => { t with declared := false } }

variable (paths : List (List Text))

theorem Lexer.openString_plain (p : Position) :
    { openString paths p with declared := false } = openString [] p := by
  simp [openString, isModelPath]

theorem Lexer.step_plain (l : Lexer) (byte : UInt8) : l.plain.step [] byte =
      ((l.step paths byte).1.map Piece.plain, (l.step paths byte).2.plain) := by
  have ⟨position, string⟩ := l
  cases string with
  | none =>
    by_cases hquote : byte = quote
    · simp [step, plain, hquote, ← openString_plain paths position]
    · simp [step, plain, hquote, isModelPath, Piece.plain]
  | some t =>
    by_cases hclose : t.escaped = false ∧ byte = quote
    · simp [step, plain, hclose, closed, Piece.plain]
    · simp only [step, plain, map_some, if_neg hclose, map_nil]

theorem Lexer.lex_plain (l : Lexer) (bytes : Bytes) :
    l.plain.lex [] bytes = ((l.lex paths bytes).1.map Piece.plain, (l.lex paths bytes).2.plain) := by
  induction bytes generalizing l with
  | nil => rfl
  | cons byte bytes ih => simp only [lex, step_plain paths l byte, ih, map_append]

theorem token_of_text {t : JsonText} {paths : List (List Text)} {raw : Bytes} {declared : Bool}
    (h : .token raw declared ∈ (Lexer.start.lex paths t.render).1) :
    ∃ s : JsonString, raw = s.render := by
  have hpaths : ∀ path ∈ ([] : List (List Text)), path ≠ [] := nofun
  have ⟨p, hlexes⟩ := JsonText.lexes hpaths t
  have hlex : Lexer.start.lex [] t.render = ((t.segments scannedKey).map (Segment.piece []),
    ⟨p, none⟩) := hlexes
  have hplain := congrArg Prod.fst (Lexer.lex_plain paths .start t.render)
  have hmem : Piece.token raw false ∈ (Lexer.start.lex [] t.render).1 := by
    rw [show Lexer.start.lex [] t.render = Lexer.start.plain.lex [] t.render from rfl, hplain]
    exact mem_map_of_mem h
  rw [hlex] at hmem
  have ⟨segment, _, hsegment⟩ := mem_map.mp hmem
  cases segment with
  | byte b => cases hsegment
  | start b path => cases hsegment
  | key s => exact ⟨s, (Piece.token.inj hsegment).1.symm⟩
  | string s path => exact ⟨s, (Piece.token.inj hsegment).1.symm⟩

/-! ## What rewriting does to the bytes -/

section Rewriting

variable (mapping : JsonModelRewriteMapping)

def Piece.rewritten : Piece → Bytes
  | byte b _ => [b]
  | token raw declared =>
    if declared ∧ raw.length ≤ DEFAULT_MAX_STRING_BYTES then
      ((decodeJsonString raw).bind (responseReplacement mapping)).getD raw
    else raw

theorem emitPiece_rewriting (piece : Piece) :
    emitPiece (rewriteOptions mapping.paths (responseReplacement mapping) false
      DEFAULT_MAX_STRING_BYTES) () piece = .ok (piece.rewritten mapping, ()) := by
  cases piece with
  | byte b declared => cases declared <;> rfl
  | token raw declared =>
    cases declared with
    | false => rfl
    | true =>
      simp only [emitPiece, Piece.rewritten, true_and]
      split
      next hlimit =>
        rw [if_pos (show raw.length ≤ DEFAULT_MAX_STRING_BYTES from hlimit)]
        cases decodeJsonString raw <;> rfl
      next hlimit =>
        rw [if_neg (show ¬ raw.length ≤ DEFAULT_MAX_STRING_BYTES from hlimit)]
        rfl

theorem emit_rewriting (pieces : List Piece) :
    emit (rewriteOptions mapping.paths (responseReplacement mapping) false
      DEFAULT_MAX_STRING_BYTES) () pieces = .ok (pieces.flatMap (Piece.rewritten mapping), ()) := by
  induction pieces with
  | nil => rfl
  | cons piece pieces ih =>
    rw [emit, emitPiece_rewriting, andThen, ih]
    rfl

theorem rewriteJsonModelBuffer_eq (buffer : Bytes) : rewriteJsonModelBuffer buffer mapping =
      (Lexer.start.lex mapping.paths buffer).1.flatMap (Piece.rewritten mapping) ++
        (Lexer.start.lex mapping.paths buffer).2.openRaw := by
  have ⟨r, hr⟩ := @JsonModelScanner.push_total Unit Empty
    (rewriteOptions mapping.paths (responseReplacement mapping) false DEFAULT_MAX_STRING_BYTES) rfl
    (fun _ value => ⟨(responseReplacement mapping value, ()), rfl⟩) (.new ()) buffer
  have ⟨htracks, emitted, hemit, houtput⟩ := push_lex (tracks_start _ ()) hr
  have hemitted : emitted =
      (Lexer.start.lex mapping.paths buffer).1.flatMap (Piece.rewritten mapping) :=
    congrArg Prod.fst (Except.ok.inj (hemit.symm.trans (emit_rewriting mapping _)))
  have hfinish := finish_passed htracks
  have hscan : scanChunks (rewriteOptions mapping.paths (responseReplacement mapping) false
      DEFAULT_MAX_STRING_BYTES) () [buffer] = .ok (r.1 ++ r.2.finish) := by
    rw [scanChunks, JsonModelScanner.pushAll_eq, flatten_singleton, hr]
    rfl
  have hpassed : r.1 = emitted ++ (Lexer.start.lex mapping.paths buffer).2.passed (rewriteOptions
      mapping.paths (responseReplacement mapping) false DEFAULT_MAX_STRING_BYTES) := houtput
  rw [rewriteJsonModelBuffer, hscan]
  rw [hpassed, append_assoc, hemitted]
  exact congrArg _ hfinish

end Rewriting

/-! ## Bytes that are no controls -/

/-- Bytes from the space on. -/
def Printed (bytes : Bytes) : Prop := ∀ byte ∈ bytes, 0x20 ≤ byte.toNat

theorem Printed.append {a b : Bytes} (ha : Printed a) (hb : Printed b) : Printed (a ++ b) := by
  intro byte hbyte
  rcases mem_append.mp hbyte with h | h
  · exact ha byte h
  · exact hb byte h

theorem Printed.clean {bytes : Bytes} (h : Printed bytes) : Clean bytes := by
  constructor
  · intro hmem
    exact absurd (h LF hmem) (by decide)
  · intro hmem
    exact absurd (h CR hmem) (by decide)

theorem printed_encode {codePoint : Nat} (hlower : 0x20 ≤ codePoint)
    (hupper : codePoint < 0x110000) : Printed (Utf8.encode codePoint) := by
  intro byte hbyte
  have hbytes := Utf8.encode_bytes hupper byte hbyte
  omega

theorem StringChar.render_printed (char : StringChar) : Printed char.render := by
  cases char with
  | plain char => exact printed_encode char.control char.scalar.1
  | escaped escape =>
    have hall : simpleEscapes.all (fun entry => decide (0x20 ≤ entry.1.toNat)) = true := by decide
    have ⟨before, after, htable, _⟩ := lookup_eq_some_iff.mp escape.escape
    have hentry := all_eq_true.mp hall (escape.byte, escape.char)
      (htable ▸ mem_append_right _ mem_cons_self)
    intro byte hbyte
    simp only [render, mem_cons, not_mem_nil, or_false] at hbyte
    rcases hbyte with rfl | rfl
    · decide
    · exact of_decide_eq_true hentry
  | unicode a b c d =>
    have hdigit (x : HexDigit) : 0x20 ≤ x.byte.toNat := by
      have hvalue := x.digit
      unfold hexDigit at hvalue
      by_contra hlow
      rw [if_neg (by omega), if_neg (by omega), if_neg (by omega)] at hvalue
      cases hvalue
    intro byte hbyte
    simp only [render, mem_cons, not_mem_nil, or_false] at hbyte
    rcases hbyte with rfl | rfl | rfl | rfl | rfl | rfl
    · decide
    · decide
    · exact hdigit a
    · exact hdigit b
    · exact hdigit c
    · exact hdigit d

theorem JsonString.render_printed (s : JsonString) : Printed s.render := by
  intro byte hbyte
  simp only [JsonString.render, JsonString.content, cons_append, mem_cons,
    mem_append, mem_flatMap, not_mem_nil, or_false] at hbyte
  rcases hbyte with rfl | ⟨char, _, hchar⟩ | rfl
  · decide
  · exact char.render_printed byte hchar
  · decide

/-! ## A quoted name is a JSON string -/

theorem encodeText_cons {unit : UInt16} (hhigh : Utf8.isHigh unit = false)
    (hlow : Utf8.isLow unit = false) (t : Text) :
    encodeText (unit :: t) = Utf8.encode unit.toNat ++ encodeText t := by
  cases t with
  | nil => simp [encodeText, hhigh, hlow]
  | cons next t => rw [encodeText]; simp [hhigh, hlow]

theorem encodeText_ascii (units : Text) (h : units.all (· < 0x80) = true) (t : Text) :
    encodeText (units ++ t) = units.map UInt16.toUInt8 ++ encodeText t := by
  induction units with
  | nil => rfl
  | cons unit units ih =>
    have ⟨hunit, hunits⟩ := Bool.and_eq_true_iff.mp h
    have hlt : unit.toNat < 0x80 := UInt16.lt_iff_toNat_lt.mp (of_decide_eq_true hunit)
    have hhigh : Utf8.isHigh unit = false := Bool.eq_false_iff.mpr fun h => by
      have := (isHigh_iff unit).mp h
      omega
    have hlow : Utf8.isLow unit = false := Bool.eq_false_iff.mpr fun h => by
      have := (isLow_iff unit).mp h
      omega
    rw [cons_append, encodeText_cons hhigh hlow, ih hunits, Utf8.encode,
      if_pos (Nat.le_of_lt_succ hlt)]
    rfl

/-- The character a digit of an escape is. -/
def hexDigitOf (n : Nat) (h : n < 0x10) : HexDigit where
  byte := (hexChar n).toUInt8
  value := n
  ascii := by revert n; decide
  digit := by revert n; decide

theorem quoteUnit_char (unit : UInt16) :
    ∃ char : StringChar, ∀ t, encodeText (quoteUnit unit ++ t) = char.render ++ encodeText t := by
  unfold quoteUnit
  split
  · exact ⟨.escaped ⟨0x62, 0x08, rfl⟩, encodeText_ascii _ rfl⟩
  split
  · exact ⟨.escaped ⟨0x74, 0x09, rfl⟩, encodeText_ascii _ rfl⟩
  split
  · exact ⟨.escaped ⟨0x6e, 0x0a, rfl⟩, encodeText_ascii _ rfl⟩
  split
  · exact ⟨.escaped ⟨0x66, 0x0c, rfl⟩, encodeText_ascii _ rfl⟩
  split
  · exact ⟨.escaped ⟨0x72, 0x0d, rfl⟩, encodeText_ascii _ rfl⟩
  split
  · exact ⟨.escaped ⟨0x22, 0x22, rfl⟩, encodeText_ascii _ rfl⟩
  split
  · exact ⟨.escaped ⟨0x5c, 0x5c, rfl⟩, encodeText_ascii _ rfl⟩
  have hlt := unit.toNat_lt
  split
  · have hdigit (n : Nat) (h : n < 0x10) : hexChar n < 0x80 := by revert n; decide
    refine ⟨.unicode (hexDigitOf (unit.toNat / 0x1000) (by omega))
      (hexDigitOf (unit.toNat / 0x100 % 0x10) (by omega))
      (hexDigitOf (unit.toNat / 0x10 % 0x10) (by omega)) (hexDigitOf (unit.toNat % 0x10) (by omega)),
      encodeText_ascii _ ?_⟩
    simp only [unicodeEscape, all_cons, all_nil, Bool.and_eq_true, decide_eq_true_eq, and_true]
    exact ⟨by decide, by decide, hdigit _ (by omega), hdigit _ (by omega), hdigit _ (by omega),
      hdigit _ (by omega)⟩
  next hquote hslash hplain =>
    simp only [Bool.or_eq_true, decide_eq_true_eq, not_or, Bool.not_eq_true] at hplain
    have ⟨⟨hcontrol, hhigh⟩, hlow⟩ := hplain
    refine ⟨.plain ⟨unit.toNat, ⟨by omega, fun hsurrogate => ?_⟩, ?_, ?_, ?_⟩,
      encodeText_cons hhigh hlow⟩
    · rcases Nat.lt_or_ge unit.toNat 0xdc00 with hlt | hge
      · exact Bool.eq_false_iff.mp hhigh ((isHigh_iff unit).mpr ⟨hsurrogate.1, by omega⟩)
      · exact Bool.eq_false_iff.mp hlow ((isLow_iff unit).mpr ⟨hge, hsurrogate.2⟩)
    · exact UInt16.le_iff_toNat_le.mp (UInt16.not_lt.mp hcontrol)
    · exact fun h => hquote (UInt16.toNat_inj.mp h)
    · exact fun h => hslash (UInt16.toNat_inj.mp h)

theorem quoteUnits_content (name : Text) :
    ∃ s : JsonString, ∀ t, encodeText (quoteUnits name ++ t) = s.content ++ encodeText t := by
  induction name using quoteUnits.induct with
  | case1 => exact ⟨[], fun t => rfl⟩
  | case2 unit =>
    obtain ⟨char, hchar⟩ := quoteUnit_char unit
    exact ⟨[char], fun t => by simpa [JsonString.content, quoteUnits] using hchar t⟩
  | case3 unit next rest hpair ih =>
    obtain ⟨s, hs⟩ := ih
    obtain ⟨hhigh, hlow⟩ := Bool.and_eq_true_iff.mp hpair
    have hlarge : 0x10000 ≤ Utf8.pairCodePoint unit.toNat next.toNat := by
      unfold Utf8.pairCodePoint
      omega
    refine ⟨.plain ⟨_, isScalar_pair ((isHigh_iff unit).mp hhigh) ((isLow_iff next).mp hlow),
      by omega, by omega, by omega⟩ :: s, fun t => ?_⟩
    rw [quoteUnits, if_pos hpair, cons_append, cons_append, encodeText, if_pos hpair, hs]
    exact (append_assoc ..).symm
  | case4 unit next rest hpair ih =>
    obtain ⟨s, hs⟩ := ih
    obtain ⟨char, hchar⟩ := quoteUnit_char unit
    refine ⟨char :: s, fun t => ?_⟩
    rw [quoteUnits, if_neg hpair, append_assoc, hchar, hs]
    exact (append_assoc ..).symm

theorem stringify_render (name : Text) : ∃ s : JsonString, encodeText (stringify name) = s.render := by
  have ⟨s, hs⟩ := quoteUnits_content name
  refine ⟨s, ?_⟩
  rw [stringify, cons_append, encodeText_cons rfl rfl, hs]
  rfl

theorem externalToken_printed (mapping : JsonModelRewriteMapping) :
    Printed (externalToken mapping) := by
  have ⟨s, hs⟩ := stringify_render (mapping.externalName.getD [])
  rw [externalToken, hs]
  exact s.render_printed

theorem replacement_eq {mapping : JsonModelRewriteMapping} {value : Text} {token : Bytes}
    (h : responseReplacement mapping value = some token) : token = externalToken mapping := by
  unfold responseReplacement at h
  split at h
  next expected name _ hname =>
    split at h
    · rw [← some.inj h, externalToken, hname]
      rfl
    · cases h
  · cases h

/-! ## Tokens are quoted -/

/-- The bytes behind the first quote of a string, up to the quote that ends it. -/
def closes : Bool → Bytes → Bool
  | _, [] => false
  | escaped, byte :: rest =>
    if escaped = false ∧ byte = quote then rest = [] else closes (!escaped && byte = backslash) rest

def Quoted (raw : Bytes) : Prop := ∃ content, raw = quote :: content ∧ closes false content = true

theorem closes_unique {escaped : Bool} {v w x y : Bytes} (hv : closes escaped v = true)
    (hw : closes escaped w = true) (h : v ++ x = w ++ y) : v = w := by
  induction v generalizing escaped w with
  | nil => cases hv
  | cons byte v ih =>
    cases w with
    | nil => cases hw
    | cons byte' w =>
      obtain ⟨rfl, hrest⟩ := cons.inj h
      rw [closes] at hv hw
      by_cases hend : escaped = false ∧ byte = quote
      · rw [if_pos hend] at hv hw
        rw [of_decide_eq_true hv, of_decide_eq_true hw]
      · rw [if_neg hend] at hv hw
        rw [ih hv hw hrest]

/-- Whatever ends the open string makes it a quoted one. -/
def Lexer.Opened (l : Lexer) : Prop := ∀ t, l.string = some t → ∃ content,
  t.raw = quote :: content ∧ ∀ rest, closes t.escaped rest = true →
    closes false (content ++ rest) = true

theorem Lexer.step_quoted {l : Lexer} (h : l.Opened) (byte : UInt8) :
    (∀ raw declared, .token raw declared ∈ (l.step paths byte).1 → Quoted raw) ∧
      (l.step paths byte).2.Opened := by
  obtain ⟨position, string⟩ := l
  cases string with
  | none =>
    by_cases hquote : byte = quote
    · simp only [step, if_pos hquote]
      refine ⟨by simp, fun t ht => ?_⟩
      cases ht
      exact ⟨[], rfl, fun rest hrest => hrest⟩
    · simp only [step, if_neg hquote]
      exact ⟨by simp, fun t ht => by cases ht⟩
  | some t =>
    obtain ⟨content, hraw, hcloses⟩ := h t rfl
    by_cases hclose : t.escaped = false ∧ byte = quote
    · simp only [step, if_pos hclose]
      refine ⟨fun raw declared hmem => ?_, fun t ht => by cases ht⟩
      have heq : raw = t.raw ++ [quote] := (Piece.token.inj (mem_singleton.mp hmem)).1
      exact ⟨content ++ [quote], by rw [heq, hraw, cons_append],
        hcloses [quote] (by simp [closes, hclose.1])⟩
    simp only [step, if_neg hclose]
    refine ⟨by simp, fun t' ht' => ?_⟩
    cases ht'
    refine ⟨content ++ [byte], by rw [hraw, cons_append], fun rest hrest => ?_⟩
    rw [append_assoc]
    exact hcloses _ (by rw [singleton_append, closes, if_neg hclose]; exact hrest)

theorem Lexer.lex_quoted {l : Lexer} (h : l.Opened) {bytes raw : Bytes} {declared : Bool}
    (hmem : .token raw declared ∈ (l.lex paths bytes).1) : Quoted raw := by
  induction bytes generalizing l with
  | nil => cases hmem
  | cons byte bytes ih =>
    have ⟨htokens, hopened⟩ := step_quoted paths h byte
    rcases mem_append.mp hmem with hmem | hmem
    · exact htokens raw declared hmem
    · exact ih hopened hmem

theorem JsonString.render_quoted (s : JsonString) : Quoted s.render := by
  have hmem : .token s.render false ∈ (Lexer.lex [] (outside .start) s.render).1 := by
    rw [lex_string]
    exact mem_singleton_self _
  exact Lexer.lex_quoted [] (l := outside .start) nofun hmem

/-! ## Model names in a text -/

/-- A text with its model names set apart. -/
inductive Mark where
  | byte (byte : UInt8)
  | name (raw : Bytes)
deriving DecidableEq

namespace Mark

def source : Mark → Bytes
  | byte b => [b]
  | name raw => raw

def rewritten (token : Bytes) : Mark → Bytes
  | byte b => [b]
  | name _ => token

def name? : Mark → Option Bytes
  | byte _ => none
  | name raw => some raw

/-- The name is another string than what replaces it. -/
def Valid (token : Bytes) : Mark → Prop
  | byte _ => True
  | name raw => Quoted raw ∧ raw ≠ token

end Mark

section Names

open Mark

variable {token : Bytes} (htoken : Quoted token)

include htoken

/-- Behind the first byte of a name, another reading of the text comes to its end too, or shows
the replacement further on. -/
theorem closes_overlap {escaped : Bool} {v w x y : Bytes} {ns : List Mark}
    (hv : closes escaped v = true) (hw : closes escaped w = true)
    (hns : ∀ n ∈ ns, n.Valid token) (hsource : v ++ x = ns.flatMap source)
    (hrewritten : w ++ y = ns.flatMap (rewritten token)) : v = w ∨ token.length ≤ w.length := by
  induction ns generalizing escaped v w with
  | nil =>
    rw [(append_eq_nil_iff.mp hsource).1] at hv
    cases hv
  | cons n ns ih =>
    cases v with
    | nil => cases hv
    | cons b v =>
      cases w with
      | nil => cases hw
      | cons b' w =>
        rw [closes] at hv hw
        cases n with
        | byte c =>
          obtain ⟨rfl, hsource'⟩ := cons.inj hsource
          obtain ⟨rfl, hrewritten'⟩ := cons.inj hrewritten
          by_cases hend : escaped = false ∧ b' = quote
          · rw [if_pos hend] at hv hw
            rw [of_decide_eq_true hv, of_decide_eq_true hw]
            exact .inl rfl
          rw [if_neg hend] at hv hw
          have hrest := ih hv hw (fun n hn => hns n (mem_cons_of_mem _ hn)) hsource' hrewritten'
          exact hrest.imp (congrArg _) Nat.le_succ_of_le
        | name raw =>
          obtain ⟨⟨content, rfl, -⟩, -⟩ := hns _ mem_cons_self
          obtain ⟨rest, rfl, hrest⟩ := htoken
          obtain ⟨rfl, -⟩ := cons.inj hsource
          obtain ⟨rfl, hbehind⟩ := cons.inj hrewritten
          cases escaped with
          | false =>
            rw [if_pos ⟨rfl, rfl⟩] at hv hw
            rw [of_decide_eq_true hv, of_decide_eq_true hw]
            exact .inl rfl
          | true =>
            rw [if_neg (by simp)] at hw
            rw [closes_unique hw hrest hbehind]
            exact .inr (Nat.le_refl _)

theorem name_ne_byte {raw x y : Bytes} {b : UInt8} {ns : List Mark}
    (hraw : Valid token (.name raw)) (hns : ∀ n ∈ ns, n.Valid token)
    (hsource : raw ++ x = (Mark.byte b :: ns).flatMap source)
    (hrewritten : token ++ y = (Mark.byte b :: ns).flatMap (rewritten token)) : False := by
  obtain ⟨⟨v, rfl, hv⟩, hne⟩ := hraw
  have ⟨w, hw', hw⟩ := htoken
  subst hw'
  rcases closes_overlap htoken hv hw hns (cons.inj hsource).2 (cons.inj hrewritten).2 with h | h
  · exact hne (congrArg _ h)
  · exact Nat.not_succ_le_self _ h

/-- A text and what becomes of it tell its names. -/
theorem marks_unique {ms ns : List Mark} (hms : ∀ m ∈ ms, m.Valid token)
    (hns : ∀ n ∈ ns, n.Valid token) (hsource : ms.flatMap source = ns.flatMap source)
    (hrewritten : ms.flatMap (rewritten token) = ns.flatMap (rewritten token)) : ms = ns := by
  have hnonempty (n : Mark) (hn : n.Valid token) (ns : List Mark) :
      (n :: ns).flatMap source ≠ [] := by
    cases n with
    | byte => exact nofun
    | name raw =>
      obtain ⟨⟨content, rfl, -⟩, -⟩ := hn
      exact nofun
  induction ms generalizing ns with
  | nil =>
    cases ns with
    | nil => rfl
    | cons n ns => exact absurd hsource.symm (hnonempty n (hns n mem_cons_self) ns)
  | cons m ms ih =>
    cases ns with
    | nil => exact absurd hsource (hnonempty m (hms m mem_cons_self) ms)
    | cons n ns =>
      have ⟨hm, hms'⟩ := forall_mem_cons.mp hms
      have ⟨hn, hns'⟩ := forall_mem_cons.mp hns
      cases m with
      | byte b =>
        cases n with
        | byte c =>
          obtain ⟨rfl, hsource'⟩ := cons.inj hsource
          rw [ih hms' hns' hsource' (cons.inj hrewritten).2]
        | name raw => exact (name_ne_byte htoken hn hms' hsource.symm hrewritten.symm).elim
      | name raw =>
        cases n with
        | byte c => exact (name_ne_byte htoken hm hns' hsource hrewritten).elim
        | name raw' =>
          obtain ⟨⟨⟨v, rfl, hv⟩, -⟩, ⟨⟨w, rfl, hw⟩, -⟩⟩ := And.intro hm hn
          obtain rfl := closes_unique hv hw (cons.inj hsource).2
          rw [ih hms' hns' (append_cancel_left hsource) (append_cancel_left hrewritten)]

end Names

/-! ## What rewriting changes -/

section Rewritten

variable (mapping : JsonModelRewriteMapping)

/-- A string at a declared path that is replaced by another one. -/
def Piece.isName : Piece → Bool
  | byte _ _ => false
  | token raw declared => declared && raw.length ≤ DEFAULT_MAX_STRING_BYTES &&
      ((decodeJsonString raw).bind (responseReplacement mapping)).any (· ≠ raw)

def Piece.marks (piece : Piece) : List Mark :=
  if piece.isName mapping then [.name piece.source] else piece.source.map .byte

/-- A text as the scanner reads it. -/
def marked (buffer : Bytes) : List Mark :=
  let r := Lexer.start.lex mapping.paths buffer
  r.1.flatMap (Piece.marks mapping) ++ r.2.openRaw.map .byte

def modelNames (buffer : Bytes) : List Bytes := (marked mapping buffer).filterMap Mark.name?

theorem flatMap_bytes {f : Mark → Bytes} (hbyte : ∀ b, f (.byte b) = [b]) (bytes : Bytes) :
    (bytes.map Mark.byte).flatMap f = bytes := by
  rw [flatMap_map, flatMap_congr fun b _ => hbyte b]
  exact flatMap_singleton' bytes

theorem Piece.marks_source (piece : Piece) :
    (piece.marks mapping).flatMap Mark.source = piece.source := by
  unfold marks
  split
  · exact flatMap_singleton ..
  · exact flatMap_bytes (fun _ => rfl) _

theorem Piece.marks_rewritten (piece : Piece) :
    (piece.marks mapping).flatMap (Mark.rewritten (externalToken mapping)) =
      piece.rewritten mapping := by
  unfold marks
  cases piece with
  | byte b declared => rfl
  | token raw declared =>
    rw [Piece.rewritten, isName]
    by_cases hread : declared ∧ raw.length ≤ DEFAULT_MAX_STRING_BYTES
    · rw [if_pos hread, hread.1, decide_eq_true hread.2, Bool.and_self, Bool.true_and]
      cases hvalue : (decodeJsonString raw).bind (responseReplacement mapping) with
      | none => exact flatMap_bytes (fun _ => rfl) raw
      | some token =>
        have ⟨value, _, hreplacement⟩ := bind_eq_some_iff.mp hvalue
        by_cases hsame : token = raw
        · rw [any_some, if_neg (by simp [hsame])]
          exact (flatMap_bytes (fun _ => rfl) raw).trans hsame.symm
        · rw [any_some, if_pos (by simp [hsame]), flatMap_singleton]
          exact (replacement_eq hreplacement).symm
    · rw [if_neg hread, if_neg fun h => hread ?_]
      · exact flatMap_bytes (fun _ => rfl) raw
      · have ⟨hboth, _⟩ := Bool.and_eq_true_iff.mp h
        exact (Bool.and_eq_true_iff.mp hboth).imp_right of_decide_eq_true

variable {mapping}

theorem marked_source (buffer : Bytes) : (marked mapping buffer).flatMap Mark.source = buffer := by
  have hsource := Lexer.start.lex_source mapping.paths buffer
  rw [marked, flatMap_append, flatMap_assoc, flatMap_bytes fun _ => rfl]
  simp only [Piece.marks_source]
  exact hsource

theorem marked_rewritten (buffer : Bytes) :
    (marked mapping buffer).flatMap (Mark.rewritten (externalToken mapping)) =
      rewriteJsonModelBuffer buffer mapping := by
  rw [marked, flatMap_append, flatMap_assoc, flatMap_bytes fun _ => rfl, rewriteJsonModelBuffer_eq]
  simp only [Piece.marks_rewritten]

theorem name_mem_marked {buffer raw : Bytes} (h : .name raw ∈ marked mapping buffer) :
    raw ≠ externalToken mapping ∧
      .token raw true ∈ (Lexer.start.lex mapping.paths buffer).1 := by
  rcases mem_append.mp h with h | h
  swap
  · exact absurd (mem_map.mp h) (by simp)
  obtain ⟨piece, hpiece, h⟩ := mem_flatMap.mp h
  unfold Piece.marks at h
  split at h
  next hname =>
    cases piece with
    | byte => cases hname
    | token raw' declared =>
      cases mem_singleton.mp h
      simp only [Piece.isName, Bool.and_eq_true] at hname
      have ⟨⟨hdeclared, _⟩, hany⟩ := hname
      have ⟨token, hvalue, hne⟩ := (any_eq_true _ _).mp hany
      have ⟨value, _, hreplacement⟩ := bind_eq_some_iff.mp hvalue
      refine ⟨?_, hdeclared ▸ hpiece⟩
      rw [← replacement_eq hreplacement]
      exact (of_decide_eq_true hne).symm
  · exact absurd (mem_map.mp h) (by simp)

theorem marked_valid (buffer : Bytes) :
    ∀ m ∈ marked mapping buffer, m.Valid (externalToken mapping) := by
  intro m hm
  cases m with
  | byte => trivial
  | name raw =>
    have ⟨hne, htoken⟩ := name_mem_marked hm
    exact ⟨Lexer.lex_quoted _ (by rintro _ ⟨⟩) htoken, hne⟩

theorem externalToken_quoted : Quoted (externalToken mapping) := by
  have ⟨s, hs⟩ := stringify_render (mapping.externalName.getD [])
  rw [externalToken, hs]
  exact s.render_quoted

theorem mem_modelNames {buffer raw : Bytes} :
    raw ∈ modelNames mapping buffer ↔ .name raw ∈ marked mapping buffer := by
  unfold modelNames
  rw [mem_filterMap]
  constructor
  · rintro ⟨m, hm, hname⟩
    cases m with
    | byte => cases hname
    | name raw' => exact some.inj hname ▸ hm
  · exact fun h => ⟨_, h, rfl⟩

/-- A text changes exactly if it has a model name. -/
theorem rewriteJsonModelBuffer_same (buffer : Bytes) :
    rewriteJsonModelBuffer buffer mapping = buffer ↔ modelNames mapping buffer = [] := by
  have hbytes (f : Mark → Bytes) (hf : ∀ b, f (.byte b) = [b]) : (buffer.map .byte).flatMap f = buffer :=
    flatMap_bytes hf buffer
  constructor
  · intro hsame
    have hmarks := marks_unique externalToken_quoted (marked_valid buffer)
      (by simp [Mark.Valid] : ∀ n ∈ buffer.map Mark.byte, _)
      ((marked_source buffer).trans (hbytes _ fun _ => rfl).symm)
      ((marked_rewritten buffer).trans (hsame.trans (hbytes _ fun _ => rfl).symm))
    refine eq_nil_iff_forall_not_mem.mpr fun name hname => ?_
    rw [mem_modelNames, hmarks] at hname
    exact absurd (mem_map.mp hname) (by simp)
  · intro hnone
    rw [← marked_rewritten]
    conv_rhs => rw [← @marked_source mapping buffer]
    refine flatMap_congr fun m hm => ?_
    cases m with
    | byte => rfl
    | name raw => exact absurd (mem_modelNames.mpr hm) (by simp [hnone])

theorem rewritten_noReturn {buffer : Bytes} (h : CR ∉ buffer) :
    CR ∉ rewriteJsonModelBuffer buffer mapping := by
  rw [← @marked_source mapping buffer] at h
  rw [← marked_rewritten]
  intro hmem
  have ⟨m, hm, hbyte⟩ := mem_flatMap.mp hmem
  cases m with
  | byte b => exact h (mem_flatMap.mpr ⟨.byte b, hm, hbyte⟩)
  | name raw => exact (externalToken_printed mapping).clean.2 hbyte

theorem count_rewritten (ms : List Mark) {token : Bytes} (h : LF ∉ token) :
    (ms.flatMap (Mark.rewritten token)).count LF + (ms.filterMap Mark.name?).flatten.count LF =
      (ms.flatMap Mark.source).count LF := by
  induction ms with
  | nil => rfl
  | cons m ms ih =>
    rw [flatMap_cons, flatMap_cons, count_append, count_append, ← ih]
    cases m with
    | byte b => exact Nat.add_assoc ..
    | name raw =>
      have hzero : (Mark.rewritten token (.name raw)).count LF = 0 := count_eq_zero.mpr h
      have hcons : (Mark.name raw :: ms).filterMap Mark.name? = raw :: ms.filterMap Mark.name? := rfl
      rw [hzero, hcons, flatten_cons, count_append, Mark.source]
      omega

/-- The lines are kept exactly if no name goes over one. -/
theorem count_rewritten_iff (buffer : Bytes) :
    (rewriteJsonModelBuffer buffer mapping).count LF = buffer.count LF ↔
      ∀ name ∈ modelNames mapping buffer, LF ∉ name := by
  have hcount := count_rewritten (marked mapping buffer) (externalToken_printed mapping).clean.1
  rw [marked_source, marked_rewritten] at hcount
  have hnone : (modelNames mapping buffer).flatten.count LF = 0 ↔
      ∀ name ∈ modelNames mapping buffer, LF ∉ name := by
    rw [count_eq_zero]
    simp
  rw [← hnone, modelNames]
  omega

theorem names_of_text {t : JsonText} {name : Bytes} (h : name ∈ modelNames mapping t.render) :
    LF ∉ name := by
  have ⟨s, hs⟩ := token_of_text (name_mem_marked (mem_modelNames.mp h)).2
  exact hs ▸ s.render_printed.clean.1

end Rewritten

end TaskHandoff.ModelRelay
