import TaskHandoff.ModelRelay.JsonRewrite

/-! # Relay requests fail closed

`createModelRelayRequestBody` resolves the model of a request from a prefix of
the body and streams the remainder through the same scanner. If the call
resolves and the body ends, the request had exactly one model field, and only
its value is replaced.
-/

namespace TaskHandoff.ModelRelay

open List Option Members JsonModelScanner JsonString
open JsText (Text)
open Utf8 (Bytes encodeText isHigh isLow)

/-! ## Errors -/

structure ModelRelayError where
  statusCode : Nat
  code : String
  message : String
deriving DecidableEq

def invalidRequestModel : ModelRelayError where
  statusCode := 400
  code := "MODEL_RELAY_INVALID_REQUEST_MODEL"
  message := "The relay request must contain exactly one top-level string model field."

def ambiguousModelName : ModelRelayError where
  statusCode := 400
  code := "MODEL_RELAY_AMBIGUOUS_MODEL_NAME"
  message := "The relay request contains more than one model field."

def requestTooLarge : ModelRelayError where
  statusCode := 413
  code := "MODEL_RELAY_REQUEST_PROLOGUE_TOO_LARGE"
  message := "The relay request model field was not found within the configured limit."

def missingRequestModel : ModelRelayError where
  statusCode := 400
  code := "MODEL_RELAY_INVALID_REQUEST_MODEL"
  message := "The relay request does not contain a top-level model field."

/-! ## Quoting a name -/

def hexChar (n : Nat) : UInt16 := UInt16.ofNat (if n < 10 then 0x30 + n else 0x57 + n)

/-- The escape of a unit, with lower-case digits. -/
def unicodeEscape (unit : UInt16) : Text :=
  [0x5c, 0x75, hexChar (unit.toNat / 0x1000), hexChar (unit.toNat / 0x100 % 0x10),
    hexChar (unit.toNat / 0x10 % 0x10), hexChar (unit.toNat % 0x10)]

def quoteUnit (unit : UInt16) : Text :=
  if unit = 0x08 then [0x5c, 0x62]
  else if unit = 0x09 then [0x5c, 0x74]
  else if unit = 0x0a then [0x5c, 0x6e]
  else if unit = 0x0c then [0x5c, 0x66]
  else if unit = 0x0d then [0x5c, 0x72]
  else if unit = 0x22 then [0x5c, 0x22]
  else if unit = 0x5c then [0x5c, 0x5c]
  else if unit < 0x20 || isHigh unit || isLow unit then unicodeEscape unit
  else [unit]

/-- Surrogate pairs stay as they are. -/
def quoteUnits : Text → Text
  | [] => []
  | unit :: rest =>
    match rest with
    | [] => quoteUnit unit
    | next :: rest' =>
      if isHigh unit && isLow next then unit :: next :: quoteUnits rest'
      else quoteUnit unit ++ quoteUnits (next :: rest')

/-- `JSON.stringify` of a string. -/
def stringify (name : Text) : Text := 0x22 :: quoteUnits name ++ [0x22]

/-! ## The body of a request -/

structure RelayRequestInput where
  resolveUpstreamModelName : Text → Except ModelRelayError Text
  maxPrologueBytes : Nat
  maxStringBytes : Option Nat
  paths : Option (List (List Text))

/-- The external and the upstream name, once a model field was found. -/
abbrev Resolved := Option (Text × Text)

def onModelValue (input : RelayRequestInput) (resolved : Resolved) (value : Text) :
    Except ModelRelayError (Option Bytes × Resolved) :=
  match resolved with
  | some _ => .error ambiguousModelName
  | none =>
    match input.resolveUpstreamModelName value with
    | .error error => .error error
    | .ok upstream =>
      .ok (if upstream = value then none else some (encodeText (stringify upstream)),
        some (value, upstream))

def scannerOptions (input : RelayRequestInput) :
    JsonModelScannerOptions Resolved ModelRelayError where
  paths := input.paths.getD [[JsText.text "model"]]
  onModelValue := onModelValue input
  onInvalidModelValue := some invalidRequestModel
  failOnOversizedValue := true
  maxStringBytes := input.maxStringBytes.getD DEFAULT_MAX_STRING_BYTES

/-- Hold back output until the model is resolved; then the remainder of the chunk is left, and
the chunks behind it. -/
def prologue (input : RelayRequestInput) : JsonModelScanner Resolved → Bytes → List Bytes →
    Except ModelRelayError (JsonModelScanner Resolved × Bytes × Bytes × List Bytes)
  | s, held, [] => .ok (s, held, [], [])
  | s, held, chunk :: chunks =>
    match s.pushUntilMatch (scannerOptions input) chunk with
    | .error error => .error error
    | .ok (output, remainder, s) =>
      if input.maxPrologueBytes < (held ++ output).length then .error requestTooLarge
      else if s.closure.isSome then .ok (s, held ++ output, remainder, chunks)
      else prologue input s (held ++ output) chunks

/-- The output of a stream, and the error it fails with. -/
structure RelayBody where
  output : Bytes
  error : Option ModelRelayError

/-- Stream the chunks through the scanner. -/
def replay (input : RelayRequestInput) : JsonModelScanner Resolved → List Bytes → RelayBody
  | s, [] => ⟨s.finish, none⟩
  | s, chunk :: chunks =>
    match s.push (scannerOptions input) chunk with
    | .error error => ⟨[], some error⟩
    | .ok (output, s) =>
      let rest := replay input s chunks
      ⟨output ++ rest.output, rest.error⟩

structure ModelRelayRequestBody where
  body : RelayBody
  externalModelName : Text
  upstreamModelName : Text

def createModelRelayRequestBody (input : RelayRequestInput) (chunks : List Bytes) :
    Except ModelRelayError ModelRelayRequestBody :=
  match prologue input (.new none) [] chunks with
  | .error error => .error error
  | .ok (s, held, remainder, chunks) =>
    match s.closure with
    | none => .error missingRequestModel
    | some (external, upstream) =>
      let rest := replay input s (if remainder = [] then chunks else remainder :: chunks)
      .ok ⟨⟨held ++ rest.output, rest.error⟩, external, upstream⟩

/-! ## The model fields of a document -/

def modelName : Text := JsText.text "model"

/-- The values of the members with the key "model". -/
def Members.modelValues : Members → List Json
  | .last _ key _ _ value _ => if key.value = modelName then [value] else []
  | .more _ key _ _ value _ rest =>
    if key.value = modelName then value :: rest.modelValues else rest.modelValues

/-- The members with their model values replaced. -/
def Members.renderModel (token : Bytes) : Members → Bytes
  | .last before key colon space value after =>
    before.bytes ++ (key.render ++ (colon.bytes ++ 0x3a :: (space.bytes ++
      ((if key.value = modelName then token else value.render) ++ after.bytes))))
  | .more before key colon space value after rest =>
    before.bytes ++ (key.render ++ (colon.bytes ++ 0x3a :: (space.bytes ++
      ((if key.value = modelName then token else value.render) ++
        (after.bytes ++ 0x2c :: rest.renderModel token)))))

/-- An object as a text. -/
structure JsonObject where
  before : Space
  members : Space ⊕ Members
  after : Space

namespace JsonObject

def text (o : JsonObject) : JsonText :=
  ⟨o.before, match o.members with
    | .inl space => .emptyObject space
    | .inr members => .object members, o.after⟩

def modelValues (o : JsonObject) : List Json :=
  match o.members with
  | .inl _ => []
  | .inr members => members.modelValues

def renderModel (o : JsonObject) (token : Bytes) : Bytes :=
  match o.members with
  | .inl _ => o.text.render
  | .inr members =>
    o.before.bytes ++ (0x7b :: (members.renderModel token ++ [0x7d]) ++ o.after.bytes)

end JsonObject

/-! ## The prefix and the remainder are one scan -/

section Calls

variable {input : RelayRequestInput} {s s' : JsonModelScanner Resolved} {output : Bytes}
  {resolved resolved' : Resolved} {chunks : List Bytes} {r : ModelRelayRequestBody}

/-- A match is what sets the names. -/
def Matches (matched : Bool) (resolved : Resolved) : Prop := matched = resolved.isSome

theorem onModelValue_ok {value : Text} {replacement : Option Bytes}
    (h : onModelValue input resolved value = .ok (replacement, resolved')) :
    resolved = none ∧ ∃ upstream, input.resolveUpstreamModelName value = .ok upstream ∧
      replacement = (if upstream = value then none else some (encodeText (stringify upstream))) ∧
      resolved' = some (value, upstream) := by
  unfold onModelValue at h
  cases resolved with
  | some names => cases h
  | none =>
    cases hresolve : input.resolveUpstreamModelName value with
    | error error =>
      rw [hresolve] at h
      cases h
    | ok upstream =>
      rw [hresolve] at h
      cases h
      exact ⟨rfl, upstream, rfl, rfl, rfl⟩

theorem push_matches {bytes : Bytes} (h : s.push (scannerOptions input) bytes = .ok (output, s'))
    (hs : Matches s.matchedValue s.closure) : Matches s'.matchedValue s'.closure := by
  refine push_invariant ?_ h hs
  intro matched resolved value replacement resolved' _ hvalue
  obtain ⟨-, upstream, -, -, rfl⟩ := onModelValue_ok hvalue
  rfl

theorem prologue_ok {held held' remainder : Bytes} {rest : List Bytes}
    (h : prologue input s held chunks = .ok (s', held', remainder, rest))
    (hs : s.matchedValue = false) (hclosure : s.closure = none) :
    ∃ consumed output, chunks.flatten = consumed ++ (remainder ++ rest.flatten) ∧
      s.push (scannerOptions input) consumed = .ok (output, s') ∧ held' = held ++ output := by
  induction chunks generalizing s held with
  | nil =>
    cases h
    exact ⟨[], [], rfl, push_nil _ _, (append_nil _).symm⟩
  | cons chunk chunks ih =>
    rw [prologue] at h
    cases hpush : s.pushUntilMatch (scannerOptions input) chunk with
    | error error =>
      rw [hpush] at h
      cases h
    | ok r =>
      obtain ⟨output, unread, middle⟩ := r
      rw [hpush] at h
      simp only at h
      obtain ⟨consumed, hchunk, hconsumed, hunread⟩ := pushUntilMatch_ok hs hpush
      have hmiddle : Matches middle.matchedValue middle.closure :=
        push_matches hconsumed (by rw [hs, hclosure]; rfl)
      split at h
      · cases h
      cases hresolved : middle.closure with
      | some names =>
        rw [hresolved] at h
        cases h
        refine ⟨consumed, output, ?_, hconsumed, rfl⟩
        rw [flatten_cons, hchunk, append_assoc]
      | none =>
        rw [hresolved] at h
        have hunmatched : middle.matchedValue = false := by
          rw [hmiddle, hresolved]
          rfl
        have hnil : unread = [] := hunread hunmatched
        rw [hnil, append_nil] at hchunk
        obtain ⟨further, output', hfurther, hpushed, hheld⟩ := ih h hunmatched hresolved
        refine ⟨chunk ++ further, output ++ output', ?_, ?_, ?_⟩
        · rw [flatten_cons, hfurther, append_assoc]
        · rw [push_append, hchunk, hconsumed, andThen, hpushed]
          rfl
        · rw [hheld, append_assoc]

theorem replay_ok (h : (replay input s chunks).error = none) :
    ∃ output s', s.push (scannerOptions input) chunks.flatten = .ok (output, s') ∧
      (replay input s chunks).output = output ++ s'.finish := by
  induction chunks generalizing s with
  | nil => exact ⟨[], s, push_nil _ s, rfl⟩
  | cons chunk chunks ih =>
    rw [flatten_cons, push_append]
    cases hpush : s.push (scannerOptions input) chunk with
    | error error =>
      rw [replay, hpush] at h
      cases h
    | ok r =>
      rw [replay, hpush] at h ⊢
      obtain ⟨output, s', hrest, houtput⟩ := ih h
      refine ⟨r.1 ++ output, s', ?_, ?_⟩
      · rw [andThen, hrest]
        rfl
      · simp only [houtput, append_assoc]

/-- A call that resolves with a body that ends scanned all of the chunks, and the names are those
of a value in the prefix. -/
theorem create_ok (h : createModelRelayRequestBody input chunks = .ok r)
    (hend : r.body.error = none) :
    ∃ first rest output output' s s', chunks.flatten = first ++ rest ∧
      (new none).push (scannerOptions input) first = .ok (output, s) ∧
      s.push (scannerOptions input) rest = .ok (output', s') ∧
      s.closure = some (r.externalModelName, r.upstreamModelName) ∧
      r.body.output = output ++ (output' ++ s'.finish) := by
  unfold createModelRelayRequestBody at h
  cases hprologue : prologue input (.new none) [] chunks with
  | error error =>
    rw [hprologue] at h
    cases h
  | ok r' =>
    obtain ⟨s, held, remainder, rest⟩ := r'
    rw [hprologue] at h
    simp only at h
    cases hclosure : s.closure with
    | none =>
      rw [hclosure] at h
      cases h
    | some names =>
      rw [hclosure] at h
      cases h
      obtain ⟨consumed, output, hflatten, hpush, hheld⟩ := prologue_ok hprologue rfl rfl
      obtain ⟨output', s', hrest, houtput⟩ := replay_ok hend
      have hunread : (if remainder = [] then rest else remainder :: rest).flatten =
          remainder ++ rest.flatten := by
        split
        next hnil => rw [hnil, nil_append]
        · rfl
      rw [hunread] at hrest
      exact ⟨consumed, _, output, output', s, s', hflatten, hpush, hrest, hclosure,
        by rw [hheld, houtput]; rfl⟩

end Calls

/-! ## Model values among the segments -/

def modelPath : ValuePath := [some modelName]

theorem isModelPath_default (path : ValuePath) :
    isModelPath [[modelName]] path = decide (path = modelPath) :=
  Bool.or_false _

namespace Segment

/-- The start of a value at the path of the model: a string, or another value. -/
def modelField : Segment → Option (Option JsonString)
  | start _ path => if path = modelPath then some none else none
  | string s path => if path = modelPath then some (some s) else none
  | _ => none

def withModel (token : Bytes) (segment : Segment) : Bytes :=
  if segment.modelField.isSome then token else segment.source

variable {s : JsonString}

theorem modelField_string {segment : Segment} (h : segment.modelField = some (some s)) :
    segment = .string s modelPath := by
  cases segment with
  | byte b => cases h
  | key s => cases h
  | start b path =>
    change (if path = modelPath then some none else none) = some (some s) at h
    split at h <;> exact absurd h nofun
  | string s' path =>
    change (if path = modelPath then some (some s') else none) = some (some s) at h
    split at h
    next hpath =>
      cases h
      rw [hpath]
    · cases h

end Segment

/-- The model fields, in order. -/
def modelFields (segments : List Segment) : List (Option JsonString) :=
  segments.filterMap Segment.modelField

@[simp]
theorem modelFields_nil : modelFields [] = [] := rfl

@[simp]
theorem modelFields_append (a b : List Segment) :
    modelFields (a ++ b) = modelFields a ++ modelFields b :=
  filterMap_append

variable {segment : Segment}

theorem modelFields_cons_none (h : segment.modelField = none) (segments : List Segment) :
    modelFields (segment :: segments) = modelFields segments :=
  filterMap_cons_none h

theorem modelFields_cons_some {field : Option JsonString} (h : segment.modelField = some field)
    (segments : List Segment) : modelFields (segment :: segments) = field :: modelFields segments :=
  filterMap_cons_some h

@[simp]
theorem modelFields_byte (byte : UInt8) (segments : List Segment) :
    modelFields (.byte byte :: segments) = modelFields segments :=
  modelFields_cons_none rfl segments

@[simp]
theorem modelFields_key (key : JsonString) (segments : List Segment) :
    modelFields (.key key :: segments) = modelFields segments :=
  modelFields_cons_none rfl segments

variable {segments : List Segment}

theorem modelFields_eq_nil (h : modelFields segments = []) (hsegment : segment ∈ segments) :
    segment.modelField = none :=
  filterMap_eq_nil_iff.mp h segment hsegment

theorem withModel_quiet (h : modelFields segments = []) (token : Bytes) :
    segments.flatMap (Segment.withModel token) = segments.flatMap Segment.source := by
  refine flatMap_congr fun segment hsegment => ?_
  rw [Segment.withModel, modelFields_eq_nil h hsegment]
  rfl

theorem withModel_same (h : modelFields segments = [some s]) :
    segments.flatMap (Segment.withModel s.render) = segments.flatMap Segment.source := by
  refine flatMap_congr fun segment hsegment => ?_
  cases hfield : segment.modelField with
  | none => rw [Segment.withModel, hfield]; rfl
  | some field =>
    have hmem : field ∈ modelFields segments := mem_filterMap.mpr ⟨segment, hsegment, hfield⟩
    rw [h] at hmem
    have hstring : field = some s := mem_singleton.mp hmem
    rw [hstring] at hfield
    rw [Segment.modelField_string hfield]
    rfl

/-! ## What a request emits -/

section Emission

variable {input : RelayRequestInput}

theorem scannerOptions_paths (hpaths : input.paths = none) :
    (scannerOptions input).paths = [[modelName]] := by
  rw [scannerOptions, hpaths]
  rfl

variable {segment : Segment} {segments : List Segment} {names : Text × Text}

theorem emitPiece_quiet (h : segment.modelField = none) (resolved : Resolved) :
    emitPiece (scannerOptions input) resolved (segment.piece [[modelName]]) =
      .ok (segment.source, resolved) := by
  have hother : ∀ {path : ValuePath} {field : Option JsonString},
      (if path = modelPath then some field else none) = none →
      isModelPath [[modelName]] path = false := by
    intro path field hfield
    rw [isModelPath_default, decide_eq_false_iff_not]
    intro hpath
    rw [if_pos hpath] at hfield
    cases hfield
  cases segment with
  | byte b => rfl
  | key s => rfl
  | start b path =>
    rw [Segment.piece, hother h]
    rfl
  | string s path =>
    rw [Segment.piece, hother h]
    rfl

theorem emitPiece_start (h : segment.modelField = some none) (resolved : Resolved) :
    emitPiece (scannerOptions input) resolved (segment.piece [[modelName]]) =
      .error invalidRequestModel := by
  cases segment with
  | byte b => cases h
  | key s => cases h
  | string s path =>
    change (if path = modelPath then some (some s) else none) = some none at h
    split at h <;> exact absurd h nofun
  | start b path =>
    change (if path = modelPath then some none else none) = some none at h
    split at h
    next hpath =>
      rw [Segment.piece, isModelPath_default, decide_eq_true hpath]
      rfl
    · cases h

/-- The bytes in place of the model value. -/
def modelToken (value upstream : Text) (original : Bytes) : Bytes :=
  if upstream = value then original else encodeText (stringify upstream)

theorem emitPiece_model (h : segment.modelField = some (some s))
    (hemit : emitPiece (scannerOptions input) resolved (segment.piece [[modelName]]) =
      .ok (output, resolved')) :
    resolved = none ∧ ∃ upstream, input.resolveUpstreamModelName s.readValue = .ok upstream ∧
      output = modelToken s.readValue upstream s.render ∧
      resolved' = some (s.readValue, upstream) := by
  rw [Segment.modelField_string h, Segment.piece, isModelPath_default, decide_eq_true rfl,
    emitPiece] at hemit
  split at hemit
  · rw [decodeJsonString_render] at hemit
    simp only at hemit
    cases hvalue : (scannerOptions input).onModelValue resolved s.readValue with
    | error error =>
      rw [hvalue] at hemit
      cases hemit
    | ok r =>
      obtain ⟨hnone, upstream, hresolve, hreplacement, hresolved⟩ :=
        @onModelValue_ok input resolved r.2 s.readValue r.1 hvalue
      rw [hvalue] at hemit
      cases hemit
      refine ⟨hnone, upstream, hresolve, ?_, hresolved⟩
      rw [hreplacement, modelToken]
      split <;> rfl
  · cases hemit

theorem emit_resolved
    (h : emit (scannerOptions input) (some names) (segments.map (Segment.piece [[modelName]])) =
      .ok (output, resolved)) : modelFields segments = [] ∧ resolved = some names ∧
      output = segments.flatMap Segment.source := by
  induction segments generalizing output with
  | nil =>
    cases h
    exact ⟨rfl, rfl, rfl⟩
  | cons segment segments ih =>
    obtain ⟨first, middle, second, hpiece, hrest, rfl⟩ := andThen_ok h
    cases hfield : segment.modelField with
    | none =>
      rw [emitPiece_quiet hfield] at hpiece
      cases hpiece
      obtain ⟨hfields, hresolved, rfl⟩ := ih hrest
      exact ⟨(modelFields_cons_none hfield segments).trans hfields, hresolved, rfl⟩
    | some field =>
      cases field with
      | none =>
        rw [emitPiece_start hfield] at hpiece
        cases hpiece
      | some s => exact absurd (emitPiece_model hfield hpiece).1 nofun

theorem emit_unresolved
    (h : emit (scannerOptions input) none (segments.map (Segment.piece [[modelName]])) =
      .ok (output, some names)) : ∃ s upstream, modelFields segments = [some s] ∧
      input.resolveUpstreamModelName s.readValue = .ok upstream ∧
      names = (s.readValue, upstream) ∧
      output = segments.flatMap (Segment.withModel (modelToken s.readValue upstream s.render)) := by
  induction segments generalizing output with
  | nil => cases h
  | cons segment segments ih =>
    obtain ⟨first, middle, second, hpiece, hrest, rfl⟩ := andThen_ok h
    cases hfield : segment.modelField with
    | none =>
      rw [emitPiece_quiet hfield] at hpiece
      cases hpiece
      obtain ⟨s, upstream, hfields, hresolve, hnames, rfl⟩ := ih hrest
      refine ⟨s, upstream, ?_, hresolve, hnames, ?_⟩
      · exact (modelFields_cons_none hfield segments).trans hfields
      · rw [flatMap_cons, Segment.withModel, hfield]
        rfl
    | some field =>
      cases field with
      | none =>
        rw [emitPiece_start hfield] at hpiece
        cases hpiece
      | some s =>
        obtain ⟨-, upstream, hresolve, rfl, rfl⟩ := emitPiece_model hfield hpiece
        obtain ⟨hfields, hnames, rfl⟩ := emit_resolved hrest
        refine ⟨s, upstream, ?_, hresolve, some.inj hnames, ?_⟩
        · rw [modelFields_cons_some hfield, hfields]
        · rw [flatMap_cons, withModel_quiet hfields, Segment.withModel, hfield]
          rfl

end Emission

/-! ## Model values of a document -/

theorem StringChar.render_length (char : StringChar) :
    char.render.length ≤ 6 * char.value.length := by
  have hunits : ∀ codePoint, 1 ≤ (Utf8.codeUnits codePoint).length := by
    intro codePoint
    unfold Utf8.codeUnits
    split <;> simp
  cases char with
  | plain char =>
    have hbytes : (utf8Bytes char.codePoint).length ≤ 4 := by
      unfold utf8Bytes Utf8.encode
      split
      · simp
      split
      · simp
      · split <;> simp
    have hunit := hunits char.codePoint
    simp only [render, value]
    omega
  | escaped escape =>
    have hunit := hunits escape.char.toNat
    simp only [render, value, length_cons, length_nil]
    omega
  | unicode a b c d => simp [render, value]

theorem JsonString.content_length (s : JsonString) : s.content.length ≤ 6 * s.value.length := by
  induction s with
  | nil => simp [content]
  | cons char s ih =>
    have hcontent : content (char :: s) = char.render ++ content s := rfl
    have hvalue : value (char :: s) = char.value ++ value s := rfl
    have hchar := char.render_length
    rw [hcontent, hvalue, length_append, length_append]
    omega

theorem scannedKey_model (key : JsonString) :
    scannedKey key = some modelName ↔ key.value = modelName := by
  constructor
  · intro h
    obtain ⟨-, h⟩ := ite_none_right_eq_some.mp h
    have hread : readUnpaired key.value = modelName := some.inj h
    have hplain : Utf8.replacement ∉ readUnpaired key.value := by
      rw [hread]
      decide +kernel
    rw [← readUnpaired_eq hplain, hread]
  · intro h
    have hcontent := key.content_length
    have hlength : modelName.length = 5 := by decide +kernel
    have hshort : key.render.length ≤ DEFAULT_MAX_KEY_BYTES := by
      rw [h] at hcontent
      rw [JsonString.render, length_append, length_cons, length_singleton, DEFAULT_MAX_KEY_BYTES]
      omega
    have hread : key.readValue = modelName := by
      rw [readValue, h]
      decide +kernel
    rw [scannedKey, if_pos hshort, hread]

/-- Below the root, and not at the model. -/
def Elsewhere (path : ValuePath) : Prop := path ≠ [] ∧ path ≠ modelPath

theorem elsewhere_append {path : ValuePath} (h : path ≠ []) (key : Option Text) :
    Elsewhere (path ++ [key]) := by
  refine ⟨by simp, fun hmodel => h ?_⟩
  have hlength := congrArg length hmodel
  rw [length_append] at hlength
  exact length_eq_zero_iff.mp (Nat.succ.inj hlength)

section Quiet

variable (readKey : JsonString → Option Text)

@[simp]
theorem modelFields_bytes (bytes : Bytes) : modelFields (bytes.map Segment.byte) = [] := by
  induction bytes with
  | nil => rfl
  | cons byte bytes ih => exact ih

@[simp]
theorem modelFields_space (space : Space) : modelFields space.segments = [] :=
  modelFields_bytes space.bytes

theorem modelFields_start {path : ValuePath} (h : path ≠ modelPath) (byte : UInt8)
    (segments : List Segment) :
    modelFields (.start byte path :: segments) = modelFields segments := by
  have hfield : (Segment.start byte path).modelField = none := if_neg h
  exact modelFields_cons_none hfield segments

theorem Literal.quiet {path : ValuePath} (h : path ≠ modelPath) (l : Literal) :
    modelFields (l.segments path) = [] := by
  unfold Literal.segments
  cases l.render with
  | nil => rfl
  | cons byte rest => rw [modelFields_start h, modelFields_bytes]

mutual

theorem Json.quiet : ∀ (value : Json) {path : ValuePath}, Elsewhere path →
    modelFields (value.segments readKey path) = []
  | .literal literal, path, h => literal.quiet h.2
  | .string string, path, h => by
    have hfield : (Segment.string string path).modelField = none := if_neg h.2
    exact modelFields_cons_none hfield []
  | .emptyArray space, path, h => by
    rw [Json.segments, modelFields_start h.2]
    simp
  | .array elements, path, h => by
    have helements := Elements.quiet elements (elsewhere_append h.1 none)
    rw [Json.segments, modelFields_start h.2]
    simp [helements]
  | .emptyObject space, path, h => by
    rw [Json.segments, modelFields_start h.2]
    simp
  | .object members, path, h => by
    have hmembers := Members.quiet members h.1
    rw [Json.segments, modelFields_start h.2]
    simp [hmembers]

theorem Elements.quiet : ∀ (elements : Elements) {path : ValuePath}, Elsewhere path →
    modelFields (elements.segments readKey path) = []
  | .last before value after, path, h => by
    simp [Elements.segments, Json.quiet value h]
  | .more before value after rest, path, h => by
    simp [Elements.segments, Json.quiet value h, Elements.quiet rest h]

theorem Members.quiet : ∀ (members : Members) {path : ValuePath}, path ≠ [] →
    modelFields (members.segments readKey path) = []
  | .last before key colon space value after, path, h => by
    simp [Members.segments, Json.quiet value (elsewhere_append h _)]
  | .more before key colon space value after rest, path, h => by
    simp [Members.segments, Json.quiet value (elsewhere_append h _), Members.quiet rest h]

end

end Quiet

/-- A model value as a field: a string, or another value. -/
def Json.field : Json → Option JsonString
  | .string s => some s
  | _ => none

theorem Json.segments_model (value : Json) :
    modelFields (value.segments scannedKey modelPath) = [value.field] := by
  have hstart : ∀ byte segments,
      modelFields (.start byte modelPath :: segments) = none :: modelFields segments := by
    intro byte segments
    have hfield : (Segment.start byte modelPath).modelField = some none := by
      simp [Segment.modelField]
    exact modelFields_cons_some hfield segments
  have hbelow : modelPath ≠ [] := nofun
  cases value with
  | literal l =>
    rw [Json.segments, Literal.segments]
    cases hrender : l.render with
    | nil => exact absurd hrender l.render_ne_nil
    | cons byte rest =>
      rw [hstart, modelFields_bytes]
      rfl
  | string s =>
    have hfield : (Segment.string s modelPath).modelField = some (some s) := by
      simp [Segment.modelField]
    exact modelFields_cons_some hfield []
  | emptyArray space =>
    rw [Json.segments, hstart]
    simp [Json.field]
  | array elements =>
    have helements := elements.quiet scannedKey (elsewhere_append hbelow none)
    rw [Json.segments, hstart]
    simp [Json.field, helements]
  | emptyObject space =>
    rw [Json.segments, hstart]
    simp [Json.field]
  | object members =>
    have hmembers := members.quiet scannedKey hbelow
    rw [Json.segments, hstart]
    simp [Json.field, hmembers]

theorem member_fields (key : JsonString) (value : Json) :
    modelFields (value.segments scannedKey [scannedKey key]) =
      if key.value = modelName then [value.field] else [] := by
  split
  next hkey =>
    rw [(scannedKey_model key).mpr hkey]
    exact value.segments_model
  next hkey =>
    refine value.quiet scannedKey ⟨nofun, fun hpath => hkey ?_⟩
    exact (scannedKey_model key).mp (cons.inj hpath).1

theorem Members.fields : ∀ members : Members,
    modelFields (members.segments scannedKey []) = members.modelValues.map Json.field
  | .last before key colon space value after => by
    have hvalue := member_fields key value
    simp only [segments, modelValues, modelFields_append, modelFields_space,
      modelFields_key, modelFields_byte, hvalue, nil_append, append_nil]
    split <;> rfl
  | .more before key colon space value after rest => by
    have hvalue := member_fields key value
    simp only [segments, modelValues, modelFields_append, modelFields_space,
      modelFields_key, modelFields_byte, hvalue, fields rest, nil_append]
    split <;> rfl

theorem JsonObject.fields (o : JsonObject) :
    modelFields (o.text.segments scannedKey) = o.modelValues.map Json.field := by
  have hroot : ([] : ValuePath) ≠ modelPath := nofun
  obtain ⟨before, members, after⟩ := o
  cases members with
  | inl space => simp [JsonText.segments, text, Json.segments, modelFields_start hroot, modelValues]
  | inr members =>
    simp [JsonText.segments, text, Json.segments, modelFields_start hroot, modelValues,
      members.fields]

/-! ## The document with its model replaced -/

section Replacement

variable (token : Bytes)

@[simp]
theorem withModel_byte (byte : UInt8) : (Segment.byte byte).withModel token = [byte] := rfl

@[simp]
theorem withModel_key (key : JsonString) : (Segment.key key).withModel token = key.render := rfl

@[simp]
theorem withModel_bytes (bytes : Bytes) :
    (bytes.map Segment.byte).flatMap (Segment.withModel token) = bytes := by
  rw [flatMap_map]
  exact flatMap_singleton' bytes

@[simp]
theorem withModel_space (space : Space) :
    space.segments.flatMap (Segment.withModel token) = space.bytes :=
  withModel_bytes token space.bytes

theorem member_withModel {key : JsonString} {value : Json}
    (h : key.value = modelName → ∃ s, value = .string s) :
    (value.segments scannedKey [scannedKey key]).flatMap (Segment.withModel token) =
      if key.value = modelName then token else value.render := by
  have hfields := member_fields key value
  split at hfields
  next hkey =>
    obtain ⟨s, rfl⟩ := h hkey
    have hpath : [scannedKey key] = modelPath := by
      rw [(scannedKey_model key).mpr hkey]
      rfl
    rw [if_pos hkey, hpath, Json.segments, flatMap_singleton, Segment.withModel]
    rfl
  next hkey =>
    rw [if_neg hkey, withModel_quiet hfields]
    exact value.segments_source scannedKey _

theorem Members.withModel : ∀ members : Members,
    (∀ value ∈ members.modelValues, ∃ s, value = .string s) →
    (members.segments scannedKey []).flatMap (Segment.withModel token) = members.renderModel token
  | .last before key colon space value after, h => by
    have hvalue : key.value = modelName → ∃ s, value = .string s := by
      intro hkey
      rw [modelValues, if_pos hkey] at h
      exact h value mem_cons_self
    simp [segments, renderModel, member_withModel token hvalue]
  | .more before key colon space value after rest, h => by
    have hvalue : key.value = modelName → ∃ s, value = .string s := by
      intro hkey
      rw [modelValues, if_pos hkey] at h
      exact h value mem_cons_self
    have hrest : ∀ value ∈ rest.modelValues, ∃ s, value = .string s := by
      intro value' hmem
      rw [modelValues] at h
      split at h
      · exact h value' (mem_cons_of_mem _ hmem)
      · exact h value' hmem
    simp [segments, renderModel, member_withModel token hvalue, withModel rest hrest]

theorem JsonObject.withModel {o : JsonObject}
    (h : ∀ value ∈ o.modelValues, ∃ s, value = .string s) :
    (o.text.segments scannedKey).flatMap (Segment.withModel token) = o.renderModel token := by
  obtain ⟨before, members, after⟩ := o
  have hstart : (Segment.start 0x7b []).withModel token = [0x7b] := rfl
  cases members with
  | inl space =>
    simp [JsonText.segments, text, Json.segments, renderModel, JsonText.render, Json.render, hstart]
  | inr members =>
    have hmembers := members.withModel token h
    simp [JsonText.segments, text, Json.segments, renderModel, hstart, hmembers]

end Replacement

/-! ## Requests fail closed -/

section Request

variable {input : RelayRequestInput} (hpaths : input.paths = none) {o : JsonObject}
  {chunks : List Bytes} (hchunks : chunks.flatten = o.text.render)

include hpaths hchunks

/-- The scan of the whole text emits its segments, and nothing is held at the end. -/
theorem create_emits (h : createModelRelayRequestBody input chunks = .ok r)
    (hend : r.body.error = none) : emit (scannerOptions input) none
        ((o.text.segments scannedKey).map (Segment.piece [[modelName]])) =
      .ok (r.body.output, some (r.externalModelName, r.upstreamModelName)) := by
  have hoptions := scannerOptions_paths hpaths
  have hnonempty : ∀ path ∈ [[modelName]], path ≠ [] := by
    intro path hpath
    rw [mem_singleton.mp hpath]
    exact nofun
  obtain ⟨first, rest, output, output', s, s', hflatten, hfirst, hrest, hnames, houtput⟩ :=
    create_ok h hend
  obtain ⟨p, hlexes⟩ := o.text.lexes hnonempty
  -- The names do not change behind the prefix.
  have hkept : s'.closure = some (r.externalModelName, r.upstreamModelName) := by
    have hinvariant := push_invariant
      (P := fun _ resolved => resolved = some (r.externalModelName, r.upstreamModelName))
      (fun matched resolved value replacement resolved' hresolved hvalue =>
        absurd ((onModelValue_ok hvalue).1.symm.trans hresolved) nofun) hrest
    exact hinvariant hnames
  have hpush : (new none).push (scannerOptions input) o.text.render =
      .ok (output ++ output', s') := by
    rw [← hchunks, hflatten, push_append, hfirst, andThen, hrest]
    rfl
  obtain ⟨htracks, emitted, hemit, hpassed⟩ := push_lex (tracks_start _ none) hpush
  have hlex : Lexer.start.lex (scannerOptions input).paths o.text.render =
      ((o.text.segments scannedKey).map (Segment.piece [[modelName]]), ⟨p, none⟩) := by
    rw [hoptions]
    exact hlexes
  rw [hlex] at htracks hemit hpassed
  have hfinish : s'.finish = [] := (htracks.closed rfl).2
  have hemitted : r.body.output = emitted := by
    rw [houtput, hfinish, append_nil]
    exact hpassed.trans (append_nil _)
  rw [hemitted, ← hkept]
  exact hemit

/-- The output of a request whose body ends is the input with the value of its only model field
replaced, and a request without such a field rejects or fails before the end of its body. -/
theorem create_fails_closed :
    (∀ r, createModelRelayRequestBody input chunks = .ok r → r.body.error = none →
      ∃ s, o.modelValues = [.string s] ∧ r.externalModelName = s.readValue ∧
        input.resolveUpstreamModelName s.readValue = .ok r.upstreamModelName ∧
        r.body.output = if r.upstreamModelName = s.readValue then o.text.render
          else o.renderModel (encodeText (stringify r.upstreamModelName))) ∧
    ((¬ ∃ s, o.modelValues = [.string s]) →
      (∃ error, createModelRelayRequestBody input chunks = .error error) ∨
        ∃ r, createModelRelayRequestBody input chunks = .ok r ∧ r.body.error ≠ none) := by
  have hresolved : ∀ r, createModelRelayRequestBody input chunks = .ok r → r.body.error = none →
      ∃ s, o.modelValues = [.string s] ∧ r.externalModelName = s.readValue ∧
        input.resolveUpstreamModelName s.readValue = .ok r.upstreamModelName ∧
        r.body.output = if r.upstreamModelName = s.readValue then o.text.render
          else o.renderModel (encodeText (stringify r.upstreamModelName)) := by
    intro r h hend
    obtain ⟨s, upstream, hfields, hresolve, hnames, houtput⟩ :=
      emit_unresolved (create_emits hpaths hchunks h hend)
    obtain ⟨hexternal, rfl⟩ := Prod.mk.inj hnames
    have hvalues : o.modelValues = [.string s] := by
      have hmapped := o.fields.symm.trans hfields
      obtain ⟨value, hvalue, hfield⟩ := map_eq_singleton_iff.mp hmapped
      cases value with
      | string s' =>
        cases hfield
        exact hvalue
      | literal | emptyArray | array | emptyObject | object => cases hfield
    refine ⟨s, hvalues, hexternal, hresolve, ?_⟩
    rw [houtput, modelToken]
    split
    · rw [withModel_same hfields]
      exact o.text.segments_source scannedKey
    refine JsonObject.withModel _ fun value hvalue => ⟨s, ?_⟩
    rw [hvalues] at hvalue
    exact mem_singleton.mp hvalue
  refine ⟨hresolved, fun hnone => ?_⟩
  cases hcreate : createModelRelayRequestBody input chunks with
  | error error => exact .inl ⟨error, rfl⟩
  | ok r =>
    refine .inr ⟨r, rfl, fun hend => hnone ?_⟩
    obtain ⟨s, hvalues, -⟩ := hresolved r hcreate hend
    exact ⟨s, hvalues⟩

end Request

/-- An upstream that calls the model "b". -/
def exampleRequest : RelayRequestInput where
  resolveUpstreamModelName := fun _ => .ok (JsText.text "b")
  maxPrologueBytes := 64
  maxStringBytes := none
  paths := none

def exampleObject : JsonObject :=
  ⟨noSpace, .inr (.last noSpace modelKey noSpace noSpace (.string exampleName) noSpace), noSpace⟩

/-- An object with two model fields. -/
def exampleTwice : JsonObject :=
  ⟨noSpace, .inr (.more noSpace modelKey noSpace noSpace (.string exampleName) noSpace
    (.last noSpace modelKey noSpace noSpace (.string exampleName) noSpace)), noSpace⟩

theorem create_fails_closed_example :
    (∃ r, createModelRelayRequestBody exampleRequest [exampleObject.text.render] = .ok r ∧
      r.body.error = none ∧ r.body.output = exampleObject.renderModel exampleReplacement) ∧
    ((∃ error, createModelRelayRequestBody exampleRequest [exampleTwice.text.render] =
        .error error) ∨
      ∃ r, createModelRelayRequestBody exampleRequest [exampleTwice.text.render] = .ok r ∧
        r.body.error ≠ none) := by
  constructor
  · cases hcreate : createModelRelayRequestBody exampleRequest [exampleObject.text.render] with
    | error error =>
      have hok : (createModelRelayRequestBody exampleRequest
          [exampleObject.text.render]).toOption.isSome = true := by decide +kernel
      rw [hcreate] at hok
      cases hok
    | ok r =>
      have hbody : (createModelRelayRequestBody exampleRequest
          [exampleObject.text.render]).toOption.map (·.body.error) = some none := by
        decide +kernel
      rw [hcreate] at hbody
      have hend : r.body.error = none := some.inj hbody
      obtain ⟨s, hvalues, -, hresolve, houtput⟩ := (@create_fails_closed exampleRequest rfl
        exampleObject [exampleObject.text.render] (append_nil _)).1 r hcreate hend
      obtain rfl : exampleName = s := Json.string.inj (cons.inj hvalues).1
      have hname : JsText.text "b" = r.upstreamModelName := Except.ok.inj hresolve
      refine ⟨r, rfl, hend, ?_⟩
      rw [houtput, ← hname]
      decide +kernel
  · refine (@create_fails_closed exampleRequest rfl exampleTwice [exampleTwice.text.render]
      (append_nil _)).2 ?_
    rintro ⟨s, hvalues⟩
    have htwo : exampleTwice.modelValues.length = 2 := by decide +kernel
    rw [hvalues] at htwo
    cases htwo

end TaskHandoff.ModelRelay
