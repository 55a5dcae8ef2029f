import TaskHandoff.ModelRelay.JsonString

/-! # The byte scanner

`JsonModelScanner` passes a JSON text through in chunks and rewrites the string
values at declared paths. Between two chunks it keeps the open containers with
their current keys and the part of a string that it may have to replace. How
the text is cut into chunks does not matter.
-/

namespace TaskHandoff.ModelRelay

open List
open JsText (Text)
open Utf8 (Bytes)

def DEFAULT_MAX_STRING_BYTES : Nat := 1024
def DEFAULT_MAX_KEY_BYTES : Nat := 1024

def isWhitespace (byte : UInt8) : Bool :=
  byte = 0x20 || byte = 0x09 || byte = 0x0a || byte = 0x0d

/-! ## Positions -/

inductive Container where
  | object
  | array
deriving DecidableEq

inductive Slot where
  | key
  | value
  | none
deriving DecidableEq

/-- A path in the document; an index of an array and a key that was not read are `none`. -/
abbrev ValuePath := List (Option Text)

/-- The open containers with their current keys, innermost first, and what comes next. -/
structure Position where
  frames : List (Container × Option Text)
  slot : Slot
  valuePath : ValuePath

namespace Position

def start : Position := ⟨[], .none, []⟩

variable (p : Position)

def inObject : Bool := p.frames.head?.map (·.1) = some .object

/-- The path of the current key; without a container the source reads `keys[-1]`. -/
def keyPath : ValuePath :=
  if p.frames.isEmpty then [none] else (p.frames.map (·.2)).reverse

def setKey (key : Option Text) : Position :=
  match p.frames with
  | [] => p
  | (container, _) :: frames => { p with frames := (container, key) :: frames }

/-- A byte outside of strings. -/
def structural (byte : UInt8) : Position :=
  if byte = 0x7b then ⟨(.object, none) :: p.frames, .key, []⟩
  else if byte = 0x5b then ⟨(.array, none) :: p.frames, .value, []⟩
  else if byte = 0x7d ∨ byte = 0x5d then ⟨p.frames.tail, .none, []⟩
  else if byte = 0x2c then { p with slot := if p.inObject then .key else .value }
  else if byte = 0x3a then { p with slot := .value, valuePath := p.keyPath }
  else if !isWhitespace byte && p.slot = .value then { p with slot := .none }
  else p

end Position

def pathsEqual (path : ValuePath) (candidate : List Text) : Bool := path = candidate.map some

def isModelPath (paths : List (List Text)) (path : ValuePath) : Bool := paths.any (pathsEqual path)

/-! ## The scanner -/

inductive StringRole where
  | key
  | value
deriving DecidableEq

/-- `onModelValue` gets the state of its closure and returns it; an error is thrown. -/
structure JsonModelScannerOptions (τ ε : Type) where
  paths : List (List Text)
  onModelValue : τ → Text → Except ε (Option Bytes × τ)
  onInvalidModelValue : Option ε
  failOnOversizedValue : Bool
  maxStringBytes : Nat

/-- `stringParts` stands for the concatenation of the parts and for `stringBytes`, which is its
length wherever it is read. -/
structure JsonModelScanner (τ : Type) where
  position : Position
  inString : Bool
  stringRole : StringRole
  stringCandidate : Bool
  stringEscaped : Bool
  stringParts : Bytes
  stringDiscarded : Bool
  matchedValue : Bool
  closure : τ

section Scanner

variable {τ ε : Type} (options : JsonModelScannerOptions τ ε)

/-- Output that comes before that of the rest. -/
def prepend {α : Type} (output : Bytes) (result : Except ε (Bytes × α)) : Except ε (Bytes × α) :=
  result.map fun r => (output ++ r.1, r.2)

/-- One result after another, with both outputs. -/
def andThen {α β : Type} (result : Except ε (Bytes × α)) (next : α → Except ε (Bytes × β)) :
    Except ε (Bytes × β) :=
  match result with
  | .error error => .error error
  | .ok (output, a) => prepend output (next a)

variable {α β : Type}

theorem prepend_nil (result : Except ε (Bytes × α)) : prepend [] result = result := by
  cases result <;> rfl

theorem prepend_prepend (a b : Bytes) (result : Except ε (Bytes × α)) :
    prepend a (prepend b result) = prepend (a ++ b) result := by
  cases result with
  | error error => rfl
  | ok r => simp [prepend, Except.map]

theorem andThen_prepend (output : Bytes) (result : Except ε (Bytes × α))
    (next : α → Except ε (Bytes × β)) :
    andThen (prepend output result) next = prepend output (andThen result next) := by
  cases result with
  | error error => rfl
  | ok r => exact (prepend_prepend output r.1 (next r.2)).symm

theorem andThen_assoc {α β γ : Type} (result : Except ε (Bytes × α))
    (f : α → Except ε (Bytes × β)) (g : β → Except ε (Bytes × γ)) :
    andThen (andThen result f) g = andThen result fun a => andThen (f a) g := by
  cases result with
  | error error => rfl
  | ok r => exact andThen_prepend r.1 (f r.2) g

theorem andThen_ok {result : Except ε (Bytes × α)} {next : α → Except ε (Bytes × β)}
    {output : Bytes} {b : β} (h : andThen result next = .ok (output, b)) :
    ∃ first a second, result = .ok (first, a) ∧ next a = .ok (second, b) ∧
      output = first ++ second := by
  cases result with
  | error error => cases h
  | ok r =>
    cases hnext : next r.2 with
    | error error =>
      rw [andThen, hnext] at h
      cases h
    | ok r' =>
      rw [andThen, hnext] at h
      cases h
      exact ⟨r.1, r.2, r'.1, rfl, hnext, rfl⟩

namespace JsonModelScanner

def new (closure : τ) : JsonModelScanner τ where
  position := .start
  inString := false
  stringRole := .value
  stringCandidate := false
  stringEscaped := false
  stringParts := []
  stringDiscarded := false
  matchedValue := false
  closure := closure

def startString (s : JsonModelScanner τ) : JsonModelScanner τ :=
  let role := if s.position.slot = .key && s.position.inObject then .key else .value
  { s with
    inString := true
    stringEscaped := false
    stringParts := []
    stringDiscarded := false
    stringRole := role
    stringCandidate := role = .value && isModelPath options.paths s.position.valuePath }

def stringLimit (s : JsonModelScanner τ) : Nat :=
  match s.stringRole with
  | .key => DEFAULT_MAX_KEY_BYTES
  | .value => options.maxStringBytes

/-- The bytes of the string are output as they come. -/
def passesOn (s : JsonModelScanner τ) : Bool :=
  s.stringDiscarded || (s.stringRole ≠ .key && !s.stringCandidate)

/-- The string is too long to be kept. -/
def discard (s : JsonModelScanner τ) (parts : Bytes) : Except ε (Bytes × JsonModelScanner τ) :=
  match s.stringRole, options.failOnOversizedValue, options.onInvalidModelValue with
  | .value, true, some error => .error error
  | _, _, _ => .ok (parts, { s with stringParts := [], stringDiscarded := true })

def appendStringPart (s : JsonModelScanner τ) (part : Bytes) :
    Except ε (Bytes × JsonModelScanner τ) :=
  if part = [] then .ok ([], s)
  else if s.passesOn then .ok (part, s)
  else if (s.stringParts ++ part).length ≤ s.stringLimit options then
    .ok ([], { s with stringParts := s.stringParts ++ part })
  else s.discard options (s.stringParts ++ part)

/-- The end of a string: a key is read, a value at a declared path may be replaced. -/
def closeString (s : JsonModelScanner τ) : Except ε (Bytes × JsonModelScanner τ) :=
  let raw := s.stringParts
  let closed := { s with
    inString := false
    stringRole := .value
    stringCandidate := false
    stringParts := []
    position := { s.position with slot := .none } }
  match s.stringRole with
  | .key =>
    let key := if raw = [] then none else decodeJsonString raw
    .ok (raw, { closed with position := closed.position.setKey key })
  | .value =>
    if !s.stringCandidate || raw = [] then .ok (raw, closed)
    else
      match decodeJsonString raw with
      | none =>
        match options.onInvalidModelValue with
        | some error => .error error
        | none => .ok (raw, closed)
      | some value =>
        match options.onModelValue s.closure value with
        | .error error => .error error
        | .ok (replacement, closure) =>
          .ok (replacement.getD raw, { closed with matchedValue := true, closure := closure })

def finishString (s : JsonModelScanner τ) (part : Bytes) : Except ε (Bytes × JsonModelScanner τ) :=
  andThen (s.appendStringPart options part) fun s => s.closeString options

/-- What a byte outside of strings throws where a model value is expected. -/
def invalidValue (s : JsonModelScanner τ) (byte : UInt8) : Option ε :=
  if s.position.slot = .value && isModelPath options.paths s.position.valuePath &&
      !isWhitespace byte then
    options.onInvalidModelValue
  else none

def advance (s : JsonModelScanner τ) (byte : UInt8) : JsonModelScanner τ :=
  { s with position := s.position.structural byte }

/-- The loop over a chunk. `passed` holds the bytes from `passFrom` on, which are those of the open
string in this chunk; the second component of the result is what was not consumed. -/
def scan (stopAfterMatch : Bool) : JsonModelScanner τ → Bytes → Bytes →
    Except ε (Bytes × Bytes × JsonModelScanner τ)
  | s, passed, [] =>
    if s.inString then (s.appendStringPart options passed).map fun r => (r.1, [], r.2)
    else .ok (passed, [], s)
  | s, passed, byte :: rest =>
    if s.inString then
      if s.stringEscaped then
        scan stopAfterMatch { s with stringEscaped := false } (passed ++ [byte]) rest
      else if byte = backslash then
        scan stopAfterMatch { s with stringEscaped := true } (passed ++ [byte]) rest
      else if byte = quote then
        match s.finishString options (passed ++ [byte]) with
        | .error error => .error error
        | .ok (output, s) =>
          if stopAfterMatch && s.matchedValue then .ok (output, rest, s)
          else prepend output (scan stopAfterMatch s [] rest)
      else scan stopAfterMatch s (passed ++ [byte]) rest
    else if byte = quote then
      prepend passed (scan stopAfterMatch (s.startString options) [byte] rest)
    else
      match s.invalidValue options byte with
      | some error => .error error
      | none =>
        -- A match before this chunk ends the loop here, and what was passed is not output.
        if stopAfterMatch && s.matchedValue then .ok ([], rest, s.advance byte)
        else scan stopAfterMatch (s.advance byte) (passed ++ [byte]) rest

def push (s : JsonModelScanner τ) (chunk : Bytes) : Except ε (Bytes × JsonModelScanner τ) :=
  (scan options false s [] chunk).map fun r => (r.1, r.2.2)

/-- The output, the bytes of the chunk that were not consumed, and the scanner. -/
def pushUntilMatch (s : JsonModelScanner τ) (chunk : Bytes) :
    Except ε (Bytes × Bytes × JsonModelScanner τ) :=
  scan options true s [] chunk

def finish (s : JsonModelScanner τ) : Bytes := s.stringParts

/-- Push the chunks one after the other. -/
def pushAll : JsonModelScanner τ → List Bytes → Except ε (Bytes × JsonModelScanner τ)
  | s, [] => .ok ([], s)
  | s, chunk :: chunks =>
    match s.push options chunk with
    | .error error => .error error
    | .ok (output, s) => prepend output (pushAll s chunks)

/-! ## The cut into chunks -/

variable {s : JsonModelScanner τ}

theorem appendStringPart_direct (h : s.passesOn = true) (part : Bytes) :
    s.appendStringPart options part = .ok (part, s) := by
  unfold appendStringPart
  split
  next hnil => rw [hnil]
  · rfl

variable {part output bytes : Bytes} {s' : JsonModelScanner τ} {byte : UInt8}

theorem appendStringPart_fits (h : s.passesOn = false)
    (hfits : (s.stringParts ++ part).length ≤ s.stringLimit options) :
    s.appendStringPart options part =
      .ok ([], { s with stringParts := s.stringParts ++ part }) := by
  unfold appendStringPart
  split
  next hnil => rw [hnil, append_nil]
  · rw [if_neg (by simp [h])]

theorem appendStringPart_discard (h : s.passesOn = false) (hpart : part ≠ [])
    (hlong : ¬ (s.stringParts ++ part).length ≤ s.stringLimit options) :
    s.appendStringPart options part = s.discard options (s.stringParts ++ part) := by
  rw [appendStringPart, if_neg hpart, if_neg (by simp [h]), if_neg hlong]

theorem discard_append (s : JsonModelScanner τ) (parts part : Bytes) :
    s.discard options (parts ++ part) =
      andThen (s.discard options parts) fun s => s.appendStringPart options part := by
  unfold discard
  split
  · rfl
  · rw [andThen, appendStringPart_direct options rfl]
    rfl

theorem appendStringPart_append (s : JsonModelScanner τ) (a b : Bytes) :
    s.appendStringPart options (a ++ b) =
      andThen (s.appendStringPart options a) fun s => s.appendStringPart options b := by
  by_cases ha : a = []
  · rw [ha]
    exact (prepend_nil _).symm
  cases hdirect : s.passesOn with
  | true =>
    rw [appendStringPart_direct options hdirect, appendStringPart_direct options hdirect, andThen,
      appendStringPart_direct options hdirect]
    rfl
  | false =>
    by_cases hfits : (s.stringParts ++ a).length ≤ s.stringLimit options
    · rw [appendStringPart_fits options hdirect hfits, andThen, prepend_nil]
      by_cases hboth : (s.stringParts ++ (a ++ b)).length ≤ s.stringLimit options
      · rw [appendStringPart_fits options hdirect hboth, appendStringPart_fits options]
        · simp only [append_assoc]
        · exact hdirect
        · rwa [append_assoc]
      have hb : b ≠ [] := by
        rintro rfl
        rw [append_nil] at hboth
        exact hboth hfits
      have hab : a ++ b ≠ [] := fun h => hb (append_eq_nil_iff.mp h).2
      rw [appendStringPart_discard options hdirect hab hboth, appendStringPart_discard options]
      · simp only [append_assoc]
        rfl
      · exact hdirect
      · exact hb
      · rwa [append_assoc]
    · have hab : a ++ b ≠ [] := fun h => ha (append_eq_nil_iff.mp h).1
      have hlong : ¬ (s.stringParts ++ (a ++ b)).length ≤ s.stringLimit options := by
        simp only [length_append] at hfits ⊢
        omega
      rw [appendStringPart_discard options hdirect hab hlong,
        appendStringPart_discard options hdirect ha hfits, ← append_assoc]
      exact discard_append options s _ b

theorem appendStringPart_eq (h : s.appendStringPart options part = .ok (output, s')) :
    ∃ parts discarded, s' = { s with stringParts := parts, stringDiscarded := discarded } := by
  unfold appendStringPart at h
  split at h
  · cases h
    exact ⟨_, _, rfl⟩
  split at h
  · cases h
    exact ⟨_, _, rfl⟩
  split at h
  · cases h
    exact ⟨_, _, rfl⟩
  · unfold discard at h
    split at h
    · cases h
    · cases h
      exact ⟨_, _, rfl⟩

theorem appendStringPart_escaped (s : JsonModelScanner τ) (part : Bytes) (escaped : Bool) :
    appendStringPart options { s with stringEscaped := escaped } part =
      (s.appendStringPart options part).map
        fun r => (r.1, { r.2 with stringEscaped := escaped }) := by
  by_cases hpart : part = []
  · rw [hpart]
    rfl
  cases hdirect : s.passesOn with
  | true =>
    have hdirect' : passesOn { s with stringEscaped := escaped } = true := hdirect
    rw [appendStringPart_direct options hdirect, appendStringPart_direct options hdirect']
    rfl
  | false =>
    have hdirect' : passesOn { s with stringEscaped := escaped } = false := hdirect
    by_cases hfits : (s.stringParts ++ part).length ≤ s.stringLimit options
    · rw [appendStringPart_fits options hdirect hfits, appendStringPart_fits options hdirect' hfits]
      rfl
    rw [appendStringPart_discard options hdirect hpart hfits,
      appendStringPart_discard options hdirect' hpart hfits]
    unfold discard
    cases s.stringRole <;> cases options.failOnOversizedValue <;>
      cases options.onInvalidModelValue <;> rfl

theorem finishString_append (s : JsonModelScanner τ) (a b : Bytes) :
    s.finishString options (a ++ b) =
      andThen (s.appendStringPart options a) fun s => s.finishString options b := by
  rw [finishString, appendStringPart_append, andThen_assoc]
  rfl

/-- What the end of a chunk does with the bytes that were not passed on. -/
def flush (s : JsonModelScanner τ) (passed : Bytes) : Except ε (Bytes × JsonModelScanner τ) :=
  if s.inString then s.appendStringPart options passed else .ok (passed, s)

section Step

variable {options}
variable {s : JsonModelScanner τ} {byte : UInt8} (passed rest : Bytes)

attribute [local simp] scan

theorem scan_open (stop : Bool) (hin : s.inString = true)
    (hopen : s.stringEscaped = true ∨ byte ≠ quote) : scan options stop s passed (byte :: rest) =
      scan options stop { s with stringEscaped := !s.stringEscaped && byte = backslash }
        (passed ++ [byte]) rest := by
  rw [scan, if_pos hin]
  cases hescaped : s.stringEscaped with
  | true => rfl
  | false =>
    have hquote : byte ≠ quote := hopen.resolve_left (by simp [hescaped])
    by_cases hslash : byte = backslash
    · simp [hslash]
    have hsame : { s with stringEscaped := false } = s := by
      cases s
      cases hescaped
      rfl
    simp [hslash, hquote, hsame]

theorem scan_close (hin : s.inString = true) (hescaped : s.stringEscaped = false) :
    scan options false s passed (quote :: rest) =
      andThen (s.finishString options (passed ++ [quote])) fun s => scan options false s [] rest := by
  have hslash : quote ≠ backslash := by decide
  rw [scan, if_pos hin, if_neg (by simp [hescaped]), if_neg hslash]
  cases s.finishString options (passed ++ [quote]) <;> rfl

theorem scan_quote (stop : Bool) (hin : s.inString = false) :
    scan options stop s passed (quote :: rest) =
      prepend passed (scan options stop (s.startString options) [quote] rest) := by
  simp [hin]

theorem scan_structural (hin : s.inString = false) (hquote : byte ≠ quote) :
    scan options false s passed (byte :: rest) = match s.invalidValue options byte with
      | some error => .error error
      | none => scan options false (s.advance byte) (passed ++ [byte]) rest := by
  simp [hin, hquote]

end Step

theorem scan_flush (s : JsonModelScanner τ) (passed rest : Bytes) :
    scan options false s passed rest =
      andThen (s.flush options passed) fun s => scan options false s [] rest := by
  induction rest generalizing s passed with
  | nil =>
    cases hin : s.inString with
    | false => simp [scan, flush, hin, andThen, prepend, Except.map]
    | true =>
      simp only [scan, flush, hin, if_true]
      cases happ : s.appendStringPart options passed with
      | error error => rfl
      | ok r =>
        obtain ⟨parts, discarded, heq⟩ := appendStringPart_eq options happ
        have hin' : r.2.inString = true := by rw [heq]; exact hin
        simp only [andThen, hin', if_true, appendStringPart]
        simp [prepend, Except.map]
  | cons byte rest ih =>
    cases hin : s.inString with
    | false =>
      simp only [flush, hin, Bool.false_eq_true, if_false, andThen]
      by_cases hquote : byte = quote
      · rw [hquote, scan_quote passed rest false hin, scan_quote [] rest false hin, prepend_nil]
      rw [scan_structural passed rest hin hquote, scan_structural [] rest hin hquote]
      cases s.invalidValue options byte with
      | some error => rfl
      | none =>
        have hout : (s.advance byte).inString = false := hin
        rw [ih (s.advance byte) (passed ++ [byte]), ih (s.advance byte) ([] ++ [byte])]
        simp only [flush, hout, Bool.false_eq_true, if_false, andThen, prepend_prepend,
          nil_append]
    | true =>
      simp only [flush, hin, if_true]
      by_cases hclose : s.stringEscaped = false ∧ byte = quote
      · rw [hclose.2, scan_close passed rest hin hclose.1, finishString_append, andThen_assoc]
        cases happ : s.appendStringPart options passed with
        | error error => rfl
        | ok r =>
          obtain ⟨parts, discarded, heq⟩ := appendStringPart_eq options happ
          have hin' : r.2.inString = true := by rw [heq]; exact hin
          have hescaped' : r.2.stringEscaped = false := by rw [heq]; exact hclose.1
          simp only [andThen, scan_close [] rest hin' hescaped', nil_append]
      · have hopen : s.stringEscaped = true ∨ byte ≠ quote := by
          rw [← Bool.not_eq_false]
          exact Decidable.not_and_iff_or_not.mp hclose
        have hsplit := appendStringPart_escaped options s passed
          (!s.stringEscaped && byte = backslash)
        rw [scan_open passed rest false hin hopen, ih, flush, if_pos (show _ = true from hin),
          appendStringPart_append, hsplit, andThen_assoc]
        cases happ : s.appendStringPart options passed with
        | error error => rfl
        | ok r =>
          obtain ⟨parts, discarded, heq⟩ := appendStringPart_eq options happ
          have hin' : r.2.inString = true := by rw [heq]; exact hin
          have hescaped' : r.2.stringEscaped = s.stringEscaped := by rw [heq]
          have hopen' : r.2.stringEscaped = true ∨ byte ≠ quote := hescaped'.symm ▸ hopen
          simp only [andThen, Except.map]
          rw [scan_open [] rest false hin' hopen', ih, flush, if_pos (show _ = true from hin'),
            hescaped']
          rfl

theorem scan_append (s : JsonModelScanner τ) (passed a b : Bytes) :
    scan options false s passed (a ++ b) =
      andThen (scan options false s passed a) fun r => scan options false r.2 [] b := by
  induction a generalizing s passed with
  | nil =>
    have hend : scan options false s passed [] =
        (s.flush options passed).map fun r => (r.1, [], r.2) := by
      unfold scan flush
      split <;> rfl
    rw [scan_flush, hend]
    cases s.flush options passed <;> rfl
  | cons byte a ih =>
    rw [cons_append]
    cases hin : s.inString with
    | false =>
      by_cases hquote : byte = quote
      · rw [hquote, scan_quote passed _ false hin, scan_quote passed _ false hin, ih,
          andThen_prepend]
      rw [scan_structural passed _ hin hquote, scan_structural passed _ hin hquote]
      cases s.invalidValue options byte with
      | some error => rfl
      | none => exact ih _ _
    | true =>
      by_cases hclose : s.stringEscaped = false ∧ byte = quote
      · rw [hclose.2, scan_close passed _ hin hclose.1, scan_close passed _ hin hclose.1,
          andThen_assoc]
        simp only [ih]
      have hopen : s.stringEscaped = true ∨ byte ≠ quote := by
        rw [← Bool.not_eq_false]
        exact Decidable.not_and_iff_or_not.mp hclose
      rw [scan_open passed _ false hin hopen, scan_open passed _ false hin hopen, ih]

theorem push_append (s : JsonModelScanner τ) (a b : Bytes) :
    s.push options (a ++ b) = andThen (s.push options a) fun s => s.push options b := by
  unfold push
  rw [scan_append]
  cases scan options false s [] a with
  | error error => rfl
  | ok r =>
    simp only [andThen, Except.map]
    cases scan options false r.2.2 [] b <;> rfl

theorem push_nil (s : JsonModelScanner τ) : s.push options [] = .ok ([], s) := by
  cases hin : s.inString <;> simp [push, scan, hin, appendStringPart, Except.map]

/-- However the text is cut into chunks, they are scanned as one. -/
theorem pushAll_eq (s : JsonModelScanner τ) (chunks : List Bytes) :
    s.pushAll options chunks = s.push options chunks.flatten := by
  induction chunks generalizing s with
  | nil => exact (push_nil options s).symm
  | cons chunk chunks ih =>
    rw [flatten_cons, push_append, pushAll]
    cases s.push options chunk with
    | error error => rfl
    | ok r => simp only [andThen, ih]

/-! ## One byte -/

theorem closeString_closed
    (h : s.closeString options = .ok (output, s')) : s'.inString = false ∧ s'.stringParts = [] := by
  unfold closeString at h
  simp only at h
  split at h
  · cases h
    simp
  split at h
  · cases h
    exact ⟨rfl, rfl⟩
  split at h
  · split at h
    · cases h
    · cases h
      exact ⟨rfl, rfl⟩
  · split at h
    · cases h
    · cases h
      exact ⟨rfl, rfl⟩

theorem finishString_closed
    (h : s.finishString options part = .ok (output, s')) : s'.inString = false := by
  obtain ⟨first, middle, second, -, hclose, -⟩ := andThen_ok h
  exact (closeString_closed options hclose).1

variable {options}

theorem push_quote (hin : s.inString = false) :
    s.push options [quote] = (s.startString options).appendStringPart options [quote] := by
  rw [push, scan_quote [] [] false hin, scan]
  cases (s.startString options).appendStringPart options [quote] <;> rfl

theorem push_structural (hin : s.inString = false) (hquote : byte ≠ quote) : s.push options [byte] =
      match s.invalidValue options byte with
      | some error => .error error
      | none => .ok ([byte], s.advance byte) := by
  rw [push, scan_structural [] [] hin hquote]
  cases s.invalidValue options byte with
  | some error => rfl
  | none =>
    rw [scan, if_neg (by rw [advance]; simp [hin])]
    rfl

theorem push_open (hin : s.inString = true) (hopen : s.stringEscaped = true ∨ byte ≠ quote) :
    s.push options [byte] =
      appendStringPart options { s with stringEscaped := !s.stringEscaped && byte = backslash }
        [byte] := by
  rw [push, scan_open [] [] false hin hopen, scan, if_pos (show _ = true from hin), nil_append]
  cases appendStringPart options { s with stringEscaped := !s.stringEscaped && byte = backslash }
    [byte] <;> rfl

theorem push_close (hin : s.inString = true) (hescaped : s.stringEscaped = false) :
    s.push options [quote] = s.finishString options [quote] := by
  rw [push, scan_close [] [] hin hescaped, nil_append, finishString]
  cases s.appendStringPart options [quote] with
  | error error => rfl
  | ok r =>
    simp only [andThen]
    cases hclose : r.2.closeString options with
    | error error => rfl
    | ok r' =>
      have hout := (closeString_closed options hclose).1
      simp [prepend, Except.map, scan, hout]

/-! ## Stopping after a match -/

/-- Up to where it stops, a scan that stops after a match is one that does not; without a match
it does not stop. -/
theorem scan_stop {passed bytes output rest : Bytes} (hunmatched : s.matchedValue = false)
    (h : scan options true s passed bytes = .ok (output, rest, s')) :
    ∃ consumed, bytes = consumed ++ rest ∧
      scan options false s passed consumed = .ok (output, [], s') ∧
      (s'.matchedValue = false → rest = []) := by
  induction bytes generalizing s passed output with
  | nil =>
    have hend : scan options true s passed [] = scan options false s passed [] := by rw [scan, scan]
    have hrest : rest = [] := by
      rw [scan] at h
      split at h
      · cases happ : s.appendStringPart options passed with
        | error error =>
          rw [happ] at h
          cases h
        | ok r =>
          rw [happ] at h
          cases h
          rfl
      · cases h
        rfl
    subst hrest
    exact ⟨[], rfl, hend.symm.trans h, fun _ => rfl⟩
  | cons byte bytes ih =>
    cases hin : s.inString with
    | false =>
      by_cases hquote : byte = quote
      · subst hquote
        rw [scan_quote passed bytes true hin] at h
        cases hscan : scan options true (s.startString options) [quote] bytes with
        | error error =>
          rw [hscan] at h
          cases h
        | ok r =>
          obtain ⟨second, remainder, scanner⟩ := r
          rw [hscan] at h
          cases h
          obtain ⟨consumed, rfl, hconsumed, hrest⟩ :=
            ih (s := s.startString options) hunmatched hscan
          refine ⟨quote :: consumed, rfl, ?_, hrest⟩
          rw [scan_quote passed consumed false hin, hconsumed]
          rfl
      · rw [scan, if_neg (by simp [hin]), if_neg hquote] at h
        cases hinvalid : s.invalidValue options byte with
        | some error =>
          rw [hinvalid] at h
          cases h
        | none =>
          rw [hinvalid] at h
          simp only [hunmatched, Bool.and_false, Bool.false_eq_true, if_false] at h
          obtain ⟨consumed, rfl, hconsumed, hrest⟩ := ih (s := s.advance byte) hunmatched h
          refine ⟨byte :: consumed, rfl, ?_, hrest⟩
          rw [scan_structural passed consumed hin hquote, hinvalid]
          exact hconsumed
    | true =>
      by_cases hclose : s.stringEscaped = false ∧ byte = quote
      · obtain ⟨hescaped, rfl⟩ := hclose
        have hslash : quote ≠ backslash := by decide
        rw [scan, if_pos hin, if_neg (by simp [hescaped]), if_neg hslash] at h
        cases hfinish : s.finishString options (passed ++ [quote]) with
        | error error =>
          rw [hfinish] at h
          cases h
        | ok r =>
          obtain ⟨first, middle⟩ := r
          rw [hfinish] at h
          simp only [Bool.true_and] at h
          cases hmatched : middle.matchedValue with
          | true =>
            rw [hmatched] at h
            cases h
            have hout := finishString_closed options hfinish
            refine ⟨[quote], rfl, ?_, fun hfalse => absurd (hmatched.symm.trans hfalse) nofun⟩
            rw [scan_close passed [] hin hescaped, hfinish]
            simp [andThen, scan, hout, prepend, Except.map]
          | false =>
            rw [hmatched] at h
            cases hscan : scan options true middle [] bytes with
            | error error =>
              simp only [hscan] at h
              cases h
            | ok r =>
              obtain ⟨second, remainder, scanner⟩ := r
              simp only [hscan] at h
              cases h
              obtain ⟨consumed, rfl, hconsumed, hrest⟩ := ih hmatched hscan
              refine ⟨quote :: consumed, rfl, ?_, hrest⟩
              rw [scan_close passed consumed hin hescaped, hfinish, andThen, hconsumed]
              rfl
      · have hopen : s.stringEscaped = true ∨ byte ≠ quote := by
          rw [← Bool.not_eq_false]
          exact Decidable.not_and_iff_or_not.mp hclose
        rw [scan_open passed bytes true hin hopen] at h
        obtain ⟨consumed, rfl, hconsumed, hrest⟩ := ih
          (s := { s with stringEscaped := !s.stringEscaped && byte = backslash }) hunmatched h
        refine ⟨byte :: consumed, rfl, ?_, hrest⟩
        rw [scan_open passed consumed false hin hopen]
        exact hconsumed

theorem pushUntilMatch_ok {chunk output rest : Bytes} (hunmatched : s.matchedValue = false)
    (h : s.pushUntilMatch options chunk = .ok (output, rest, s')) :
    ∃ consumed, chunk = consumed ++ rest ∧ s.push options consumed = .ok (output, s') ∧
      (s'.matchedValue = false → rest = []) := by
  obtain ⟨consumed, hchunk, hconsumed, hrest⟩ := scan_stop hunmatched h
  refine ⟨consumed, hchunk, ?_, hrest⟩
  rw [push, hconsumed]
  rfl

/-! ## The closure -/

/-- What holds of the closure, and of whether a value was matched, holds until the closure is
called again. -/
theorem push_invariant {P : Bool → τ → Prop}
    (hvalue : ∀ matched closure value replacement closure', P matched closure →
      options.onModelValue closure value = .ok (replacement, closure') → P true closure')
    (h : s.push options bytes = .ok (output, s')) (hs : P s.matchedValue s.closure) :
    P s'.matchedValue s'.closure := by
  induction bytes generalizing s output with
  | nil =>
    rw [push_nil] at h
    cases h
    exact hs
  | cons byte bytes ih =>
    have hsplit := push_append options s [byte] bytes
    rw [singleton_append] at hsplit
    rw [hsplit] at h
    obtain ⟨first, middle, second, hbyte, hrest, rfl⟩ := andThen_ok h
    refine ih hrest ?_
    have hkept : ∀ {a b : JsonModelScanner τ} {part output : Bytes},
        a.appendStringPart options part = .ok (output, b) → P a.matchedValue a.closure →
        P b.matchedValue b.closure := by
      intro a b part output happ ha
      obtain ⟨parts, discarded, rfl⟩ := appendStringPart_eq options happ
      exact ha
    cases hin : s.inString with
    | false =>
      by_cases hquote : byte = quote
      · rw [hquote, push_quote hin] at hbyte
        exact hkept hbyte hs
      rw [push_structural hin hquote] at hbyte
      cases hinvalid : s.invalidValue options byte with
      | some error =>
        rw [hinvalid] at hbyte
        cases hbyte
      | none =>
        rw [hinvalid] at hbyte
        cases hbyte
        exact hs
    | true =>
      by_cases hclose : s.stringEscaped = false ∧ byte = quote
      · rw [hclose.2, push_close hin hclose.1] at hbyte
        obtain ⟨part, closing, output, happ, hend, rfl⟩ := andThen_ok hbyte
        have hclosing := hkept happ hs
        unfold closeString at hend
        simp only at hend
        split at hend
        · cases hend
          exact hclosing
        split at hend
        · cases hend
          exact hclosing
        split at hend
        · split at hend
          · cases hend
          · cases hend
            exact hclosing
        · split at hend
          · cases hend
          next replacement closure' hmodel =>
            cases hend
            exact hvalue _ _ _ _ _ hclosing hmodel
      · have hopen : s.stringEscaped = true ∨ byte ≠ quote := by
          rw [← Bool.not_eq_false]
          exact Decidable.not_and_iff_or_not.mp hclose
        rw [push_open hin hopen] at hbyte
        exact hkept hbyte hs

/-! ## Scanners that do not throw -/

theorem appendStringPart_total (hinvalid : options.onInvalidModelValue = none)
    (s : JsonModelScanner τ) (part : Bytes) : ∃ r, s.appendStringPart options part = .ok r := by
  unfold appendStringPart discard
  rw [hinvalid]
  split
  · exact ⟨_, rfl⟩
  split
  · exact ⟨_, rfl⟩
  split
  · exact ⟨_, rfl⟩
  · cases s.stringRole <;> cases options.failOnOversizedValue <;> exact ⟨_, rfl⟩

theorem closeString_total (hinvalid : options.onInvalidModelValue = none)
    (hvalue : ∀ closure value, ∃ r, options.onModelValue closure value = .ok r)
    (s : JsonModelScanner τ) : ∃ r, s.closeString options = .ok r := by
  unfold closeString
  rw [hinvalid]
  cases s.stringRole with
  | key => exact ⟨_, rfl⟩
  | value =>
    simp only
    split
    · exact ⟨_, rfl⟩
    cases decodeJsonString s.stringParts with
    | none => exact ⟨_, rfl⟩
    | some value =>
      obtain ⟨r, hr⟩ := hvalue s.closure value
      simp only [hr]
      exact ⟨_, rfl⟩

theorem andThen_total {α β : Type} {result : Except ε (Bytes × α)}
    {next : α → Except ε (Bytes × β)} (hresult : ∃ r, result = .ok r)
    (hnext : ∀ a, ∃ r, next a = .ok r) : ∃ r, andThen result next = .ok r := by
  obtain ⟨r, rfl⟩ := hresult
  obtain ⟨r', hr'⟩ := hnext r.2
  rw [andThen, hr']
  exact ⟨_, rfl⟩

theorem push_total (hinvalid : options.onInvalidModelValue = none)
    (hvalue : ∀ closure value, ∃ r, options.onModelValue closure value = .ok r)
    (s : JsonModelScanner τ) (bytes : Bytes) : ∃ r, s.push options bytes = .ok r := by
  induction bytes generalizing s with
  | nil => exact ⟨_, push_nil options s⟩
  | cons byte bytes ih =>
    have hsplit := push_append options s [byte] bytes
    rw [singleton_append] at hsplit
    rw [hsplit]
    refine andThen_total ?_ ih
    cases hin : s.inString with
    | false =>
      by_cases hquote : byte = quote
      · rw [hquote, push_quote hin]
        exact appendStringPart_total hinvalid _ _
      · rw [push_structural hin hquote, invalidValue, hinvalid, ite_self]
        exact ⟨_, rfl⟩
    | true =>
      by_cases hclose : s.stringEscaped = false ∧ byte = quote
      · rw [hclose.2, push_close hin hclose.1]
        exact andThen_total (appendStringPart_total hinvalid _ _)
          (closeString_total hinvalid hvalue)
      have hopen : s.stringEscaped = true ∨ byte ≠ quote := by
        rw [← Bool.not_eq_false]
        exact Decidable.not_and_iff_or_not.mp hclose
      rw [push_open hin hopen]
      exact appendStringPart_total hinvalid _ _

end JsonModelScanner

end Scanner

end TaskHandoff.ModelRelay
