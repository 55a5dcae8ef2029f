import TaskHandoff.ModelRelay.JsonText

/-! # Rewriting is exact

A scanner that does not throw outputs the text with the string values at the
declared paths replaced, also when the text ends early, and however it is cut
into chunks. It reads strings as `scannerReading` tells: a key of more than
1024 bytes is not read at all, and an unpaired surrogate as three U+FFFD.
-/

namespace TaskHandoff.ModelRelay

open List Lexer JsonModelScanner
open JsText (Text)
open Utf8 (Bytes)

/-! ## The rewritten text -/

/-- How keys and values are read. -/
structure Reading where
  key : JsonString → Option Text
  value : JsonString → Text

def exactReading : Reading := ⟨fun key => some key.value, JsonString.value⟩
def scannerReading : Reading := ⟨scannedKey, JsonString.readValue⟩

section Rewriting

variable (reading : Reading) (paths : List (List Text)) (replace : Text → Option Bytes)
variable (maxStringBytes : Nat)

/-- A string value at a declared path that is short enough may be replaced. -/
def Segment.rewritten : Segment → Bytes
  | .string s path =>
    if isModelPath paths path ∧ s.render.length ≤ maxStringBytes then
      (replace (reading.value s)).getD s.render
    else s.render
  | segment => segment.source

/-- The rewriting of the first `n` bytes: a string that is cut off stays as it is. -/
def rewriteUpTo (rewritten : Segment → Bytes) : List Segment → Nat → Bytes
  | [], _ => []
  | segment :: rest, n =>
    if segment.source.length ≤ n then
      rewritten segment ++ rewriteUpTo rewritten rest (n - segment.source.length)
    else segment.source.take n

def JsonText.rewritten (t : JsonText) : Bytes :=
  (t.segments reading.key).flatMap (Segment.rewritten reading paths replace maxStringBytes)

def JsonText.rewrittenUpTo (t : JsonText) (n : Nat) : Bytes :=
  rewriteUpTo (Segment.rewritten reading paths replace maxStringBytes) (t.segments reading.key) n

end Rewriting

variable (paths : List (List Text))

/-- A scanner that replaces values and throws nothing. -/
def rewriteOptions (replace : Text → Option Bytes)
    (failOnOversizedValue : Bool) (maxStringBytes : Nat) : JsonModelScannerOptions Unit Empty where
  paths := paths
  onModelValue := fun _ value => .ok (replace value, ())
  onInvalidModelValue := none
  failOnOversizedValue := failOnOversizedValue
  maxStringBytes := maxStringBytes

/-- The outputs for the chunks, and that at the end. -/
def scanChunks {τ ε : Type} (options : JsonModelScannerOptions τ ε) (closure : τ)
    (chunks : List Bytes) : Except ε Bytes :=
  ((new closure).pushAll options chunks).map fun r => r.1 ++ r.2.finish

/-! ## The source of pieces and segments -/

theorem JsonString.render_ne_nil (s : JsonString) : s.render ≠ [] := nofun

theorem Segment.source_ne_nil (segment : Segment) : segment.source ≠ [] := by
  cases segment with
  | byte b => exact nofun
  | start b path => exact nofun
  | key s => exact s.render_ne_nil
  | string s path => exact s.render_ne_nil

theorem Segment.piece_source (segment : Segment) :
    (segment.piece paths).source = segment.source := by
  cases segment <;> rfl

/-- The part of an open string. -/
def Lexer.openRaw (l : Lexer) : Bytes :=
  match l.string with
  | none => []
  | some t => t.raw

theorem Lexer.step_source (l : Lexer) (byte : UInt8) :
    (l.step paths byte).1.flatMap Piece.source ++ (l.step paths byte).2.openRaw =
      l.openRaw ++ [byte] := by
  unfold step
  cases hstring : l.string with
  | none =>
    simp only
    split
    next hquote => simp [openRaw, openString, hstring, hquote]
    next hquote => simp [openRaw, Piece.source, hstring]
  | some t =>
    simp only
    split
    next hclose => simp [openRaw, Piece.source, hstring, hclose.2]
    next hopen => simp [openRaw, hstring]

theorem Lexer.lex_source (l : Lexer) (bytes : Bytes) :
    (l.lex paths bytes).1.flatMap Piece.source ++ (l.lex paths bytes).2.openRaw =
      l.openRaw ++ bytes := by
  induction bytes generalizing l with
  | nil => simp [lex]
  | cons byte bytes ih =>
    have hstep := l.step_source paths byte
    rw [lex, flatMap_append, append_assoc, ih, ← append_assoc, hstep, append_assoc]
    rfl

theorem Lexer.lex_open {l : Lexer} {t : OpenString}
    (hopen : l.string = some t) {bytes : Bytes} (hclosed : (l.lex paths bytes).2.string = none) :
    ∃ more declared rest, more ≠ [] ∧
      (l.lex paths bytes).1 = .token (t.raw ++ more) declared :: rest := by
  induction bytes generalizing l t with
  | nil => cases hopen.symm.trans hclosed
  | cons byte bytes ih =>
    by_cases hclose : t.escaped = false ∧ byte = quote
    · have hstep : l.step paths byte = ([.token (t.raw ++ [quote]) t.declared],
          ⟨closed l.position { t with raw := t.raw ++ [quote] }, none⟩) := by
        rw [step, hopen]
        exact if_pos hclose
      rw [lex, hstep]
      exact ⟨[quote], _, _, by simp, rfl⟩
    · have hstep : l.step paths byte = ([], { l with string := some { t with
          escaped := !t.escaped && byte = backslash, raw := t.raw ++ [byte] } }) := by
        rw [step, hopen]
        exact if_neg hclose
      rw [lex, hstep] at hclosed ⊢
      obtain ⟨more, declared, rest, -, hrest⟩ := ih rfl hclosed
      refine ⟨byte :: more, declared, rest, cons_ne_nil _ _, ?_⟩
      rw [hrest, append_assoc]
      rfl

/-! ## What the segments emit -/

section Exact

variable (reading : Reading) (paths : List (List Text)) (replace : Text → Option Bytes)
variable (failOnOversizedValue : Bool) (maxStringBytes : Nat)

theorem emitPiece_rewritten (segment : Segment) :
    emitPiece (rewriteOptions paths replace failOnOversizedValue maxStringBytes) ()
        (segment.piece paths) =
      .ok (segment.rewritten scannerReading paths replace maxStringBytes, ()) := by
  cases segment with
  | byte b => rfl
  | start b path =>
    change emitPiece _ () (.byte b (isModelPath paths path)) = .ok ([b], ())
    cases isModelPath paths path <;> rfl
  | key s => rfl
  | string s path =>
    change emitPiece _ () (.token s.render (isModelPath paths path)) =
      .ok (if isModelPath paths path = true ∧ s.render.length ≤ maxStringBytes then
        (replace s.readValue).getD s.render else s.render, ())
    cases isModelPath paths path with
    | false => rfl
    | true =>
      simp only [emitPiece, true_and, decodeJsonString_render]
      by_cases hlimit : s.render.length ≤ maxStringBytes
      · rw [if_pos hlimit, if_pos (show _ ≤ (rewriteOptions ..).maxStringBytes from hlimit)]
        rfl
      · rw [if_neg hlimit, if_neg (show ¬ _ ≤ (rewriteOptions ..).maxStringBytes from hlimit)]
        cases failOnOversizedValue <;> rfl

theorem emit_rewritten (segments : List Segment) :
    emit (rewriteOptions paths replace failOnOversizedValue maxStringBytes) ()
        (segments.map (Segment.piece paths)) =
      .ok (segments.flatMap (Segment.rewritten scannerReading paths replace maxStringBytes), ()) := by
  induction segments with
  | nil => rfl
  | cons segment segments ih =>
    rw [map_cons, emit, emitPiece_rewritten, andThen, ih]
    rfl

theorem rewriteUpTo_append (rewritten : Segment → Bytes) (a b : List Segment) (n : Nat) :
    rewriteUpTo rewritten (a ++ b) ((a.flatMap Segment.source).length + n) =
      a.flatMap rewritten ++ rewriteUpTo rewritten b n := by
  induction a with
  | nil => simp
  | cons segment a ih =>
    have hlength : ((segment :: a).flatMap Segment.source).length =
        segment.source.length + (a.flatMap Segment.source).length := by
      simp
    have hrest : segment.source.length + (a.flatMap Segment.source).length + n -
        segment.source.length = (a.flatMap Segment.source).length + n := by omega
    rw [cons_append, hlength, rewriteUpTo, if_pos (by omega), hrest, ih, flatMap_cons, append_assoc]

theorem rewriteUpTo_open (rewritten : Segment → Bytes) {segment : Segment} {rest : List Segment}
    {raw more : Bytes} (hsource : segment.source = raw ++ more) (hmore : more ≠ []) :
    rewriteUpTo rewritten (segment :: rest) raw.length = raw := by
  have hlength := length_pos_iff.mpr hmore
  have hcut : ¬ segment.source.length ≤ raw.length := by
    rw [hsource, length_append]
    omega
  rw [rewriteUpTo, if_neg hcut, hsource, take_left]

theorem rewriteUpTo_zero (rewritten : Segment → Bytes) (segments : List Segment) :
    rewriteUpTo rewritten segments 0 = [] := by
  cases segments with
  | nil => rfl
  | cons segment rest =>
    have hsource : segment.source = [] ++ segment.source := rfl
    exact rewriteUpTo_open rewritten hsource segment.source_ne_nil

theorem sources_of_pieces {segments : List Segment} {pieces : List Piece}
    (h : segments.map (Segment.piece paths) = pieces) :
    pieces.flatMap Piece.source = segments.flatMap Segment.source := by
  rw [← h, flatMap_map]
  exact flatMap_congr fun segment _ => segment.piece_source paths

variable {paths}

/-- What was scanned of the text and what remains of it, in segments. -/
structure Cut (paths : List (List Text)) (t : JsonText) (text : Bytes) where
  done : List Segment
  rest : List Segment
  split : t.segments scannedKey = done ++ rest
  lexed : (start.lex paths text).1 = done.map (Segment.piece paths)
  source : text = done.flatMap Segment.source ++ (start.lex paths text).2.openRaw
  cut : ∀ rewritten : Segment → Bytes,
    rewriteUpTo rewritten rest (start.lex paths text).2.openRaw.length =
      (start.lex paths text).2.openRaw

theorem exists_cut (hpaths : ∀ path ∈ paths, path ≠ []) {t : JsonText} {text : Bytes}
    (hbegins : text <+: t.render) : Nonempty (Cut paths t text) := by
  obtain ⟨remaining, hremaining⟩ := hbegins
  obtain ⟨p, hlexes⟩ := JsonText.lexes hpaths t
  have hlex : start.lex paths t.render =
      ((t.segments scannedKey).map (Segment.piece paths), ⟨p, none⟩) := hlexes
  rw [← hremaining, lex_append] at hlex
  have hpieces := congrArg Prod.fst hlex
  have hend : ((start.lex paths text).2.lex paths remaining).2.string = none :=
    congrArg (fun r => r.2.string) hlex
  obtain ⟨done, rest, hsplit, hdone, hrest⟩ := map_eq_append_iff.mp hpieces.symm
  have hsource := start.lex_source paths text
  rw [← hdone, sources_of_pieces paths rfl] at hsource
  refine ⟨done, rest, hsplit, hdone.symm, hsource.symm, fun rewritten => ?_⟩
  cases hstring : (start.lex paths text).2.string with
  | none =>
    have hraw : (start.lex paths text).2.openRaw = [] := by rw [openRaw, hstring]
    rw [hraw]
    exact rewriteUpTo_zero rewritten rest
  | some open_ =>
    have hraw : (start.lex paths text).2.openRaw = open_.raw := by rw [openRaw, hstring]
    obtain ⟨more, declared, pieces, hmore, htoken⟩ := lex_open paths hstring hend
    rw [htoken] at hrest
    obtain ⟨segment, segments, rfl, hsegment, -⟩ := map_eq_cons_iff.mp hrest
    have hsegmentsource : segment.source = open_.raw ++ more := by
      rw [← segment.piece_source paths, hsegment]
      rfl
    rw [hraw]
    exact rewriteUpTo_open rewritten hsegmentsource hmore

theorem finish_passed {τ ε : Type} {options : JsonModelScannerOptions τ ε} {l : Lexer}
    {s : JsonModelScanner τ} (h : Tracks options l s) :
    l.passed options ++ s.finish = l.openRaw := by
  unfold passed openRaw finish
  cases hstring : l.string with
  | none => exact (h.closed hstring).2
  | some t => rw [(h.opened t hstring).parts, OpenString.passed_held]

/-- Scanning a text, or the beginning of one, in any chunks rewrites exactly the string values at
the declared paths. -/
theorem rewrite_exact (hpaths : ∀ path ∈ paths, path ≠ []) (t : JsonText) {text : Bytes}
    (hbegins : text <+: t.render) {chunks : List Bytes} (hchunks : chunks.flatten = text) :
    scanChunks (rewriteOptions paths replace failOnOversizedValue maxStringBytes) () chunks =
        .ok (t.rewrittenUpTo scannerReading paths replace maxStringBytes text.length) ∧
      (text = t.render → t.rewrittenUpTo scannerReading paths replace maxStringBytes text.length =
        t.rewritten scannerReading paths replace maxStringBytes) := by
  constructor
  · obtain ⟨r, hr⟩ := @push_total Unit Empty
      (rewriteOptions paths replace failOnOversizedValue maxStringBytes) rfl
      (fun _ value => ⟨(replace value, ()), rfl⟩) (.new ()) text
    obtain ⟨htracks, emitted, hemit, houtput⟩ := push_lex (tracks_start _ ()) hr
    obtain ⟨cut⟩ := exists_cut hpaths hbegins
    have hemitted : emitted = cut.done.flatMap
        (Segment.rewritten scannerReading paths replace maxStringBytes) := by
      have hdone := emit_rewritten paths replace failOnOversizedValue maxStringBytes cut.done
      rw [← cut.lexed] at hdone
      exact congrArg Prod.fst (Except.ok.inj (hemit.symm.trans hdone))
    have hfinish := finish_passed htracks
    have hlength : text.length = (cut.done.flatMap Segment.source).length +
        (start.lex paths text).2.openRaw.length := by
      conv_lhs => rw [cut.source]
      rw [length_append]
    rw [scanChunks, pushAll_eq, hchunks, hr, hlength]
    change _ = Except.ok (rewriteUpTo _ (t.segments scannedKey) _)
    rw [cut.split, rewriteUpTo_append, cut.cut, ← hemitted]
    change Except.ok (r.1 ++ r.2.finish) = _
    have hpassed : r.1 = emitted ++ (start.lex paths text).2.passed
        (rewriteOptions paths replace failOnOversizedValue maxStringBytes) := houtput
    rw [hpassed, append_assoc]
    exact congrArg (fun raw => Except.ok (emitted ++ raw)) hfinish
  · rintro rfl
    have hfull := rewriteUpTo_append
      (Segment.rewritten scannerReading paths replace maxStringBytes) (t.segments scannedKey) [] 0
    rw [JsonText.segments_source, append_nil] at hfull
    exact hfull.trans (append_nil _)

end Exact

/-! ## Where the scanner reads otherwise -/

def asciiChar (n : Nat) (h : 0x20 ≤ n ∧ n < 0x80 ∧ n ≠ 0x22 ∧ n ≠ 0x5c) : StringChar :=
  .plain ⟨n, by unfold Utf8.isScalar Utf8.isSurrogate; omega, h.1, h.2.2.1, h.2.2.2⟩

def noSpace : Space := ⟨[], nofun⟩

def modelKey : JsonString :=
  [asciiChar 0x6d (by decide), asciiChar 0x6f (by decide), asciiChar 0x64 (by decide),
    asciiChar 0x65 (by decide), asciiChar 0x6c (by decide)]

/-- An object with one string value. -/
def exampleText (key value : JsonString) : JsonText :=
  ⟨noSpace, .object (.last noSpace key noSpace noSpace (.string value) noSpace), noSpace⟩

/-- The name "a". -/
def exampleName : JsonString := [asciiChar 0x61 (by decide)]

def exampleReplacement : Bytes := [0x22, 0x62, 0x22]

def exampleChunks : List Bytes :=
  [[0x7b, 0x22, 0x6d, 0x6f], [0x64, 0x65, 0x6c, 0x22, 0x3a, 0x22, 0x61, 0x22]]

/-- The text in two chunks that miss its last byte. -/
theorem rewrite_exact_example :
    scanChunks (rewriteOptions [[JsText.text "model"]] (fun _ => some exampleReplacement) false
        1024) () exampleChunks =
      .ok ((exampleText modelKey exampleName).rewrittenUpTo scannerReading
        [[JsText.text "model"]] (fun _ => some exampleReplacement) 1024 12) ∧
    (exampleText modelKey exampleName).rewrittenUpTo scannerReading [[JsText.text "model"]]
        (fun _ => some exampleReplacement) 1024 12 =
      [0x7b, 0x22, 0x6d, 0x6f, 0x64, 0x65, 0x6c, 0x22, 0x3a, 0x22, 0x62, 0x22] := by
  constructor
  · exact (@rewrite_exact [[JsText.text "model"]] (fun _ => some exampleReplacement) false 1024
      (by decide) (exampleText modelKey exampleName) exampleChunks.flatten ⟨[0x7d], by decide +kernel⟩
      exampleChunks rfl).1
  · decide +kernel

/-- The property for one way to read strings and one set of paths. -/
def RewritesExactly (reading : Reading) (paths : List (List Text)) : Prop :=
  ∀ (replace : Text → Option Bytes) (failOnOversizedValue : Bool) (maxStringBytes : Nat)
    (t : JsonText) (text : Bytes) (chunks : List Bytes), text <+: t.render →
    chunks.flatten = text →
    scanChunks (rewriteOptions paths replace failOnOversizedValue maxStringBytes) () chunks =
      .ok (t.rewrittenUpTo reading paths replace maxStringBytes text.length)

theorem RewritesExactly.whole {reading : Reading} {paths : List (List Text)}
    (h : RewritesExactly reading paths) (replace : Text → Option Bytes) (t : JsonText) :
    (scanChunks (rewriteOptions paths replace false 1024) () [t.render]).toOption =
      some (t.rewrittenUpTo reading paths replace 1024 t.render.length) :=
  congrArg Except.toOption
    (h replace false 1024 t t.render [t.render] ⟨[], append_nil _⟩ (append_nil _))

/-- The escape of an unpaired surrogate. -/
def surrogateString : JsonString :=
  [.unicode ⟨0x64, 13, by decide, by decide⟩ ⟨0x38, 8, by decide, by decide⟩
    ⟨0x30, 0, by decide, by decide⟩ ⟨0x30, 0, by decide, by decide⟩]

def longKey : JsonString := List.replicate 1023 (asciiChar 0x61 (by decide))

/-- An array with one string value. -/
def exampleArray (value : JsonString) : JsonText :=
  ⟨noSpace, .array (.last noSpace (.string value) noSpace), noSpace⟩

/-- The value with an unpaired surrogate is read as another one, the value behind the long key is
not found, and an element of an array is taken for the root. -/
theorem rewrite_not_exact : ¬ RewritesExactly exactReading [[JsText.text "model"]] ∧
      ¬ RewritesExactly exactReading [[JsonString.value longKey]] ∧
      ¬ RewritesExactly exactReading [[]] := by
  refine ⟨fun h => ?_, fun h => ?_, fun h => ?_⟩
  · have hwhole := h.whole (fun value => if value = [0xd800] then some exampleReplacement else none)
      (exampleText modelKey surrogateString)
    revert hwhole
    decide +kernel
  · have hwhole := h.whole (fun _ => some exampleReplacement) (exampleText longKey exampleName)
    revert hwhole
    decide +kernel
  · have hwhole := h.whole (fun _ => some exampleReplacement) (exampleArray exampleName)
    revert hwhole
    decide +kernel

end TaskHandoff.ModelRelay
