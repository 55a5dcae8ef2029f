import TaskHandoff.ModelRelay.JsonScanner

/-! # Tokens

A lexer cuts a text into bytes and whole string tokens, and tells which of them
stand where a model value is expected. What the scanner outputs is what the
tokens emit, one after the other, and the part of an open string.
-/

namespace TaskHandoff.ModelRelay

open List JsonModelScanner
open Utf8 (Bytes)

/-! ## The lexer -/

/-- A byte outside of strings or a string; the flag tells of a declared path. -/
inductive Piece where
  | byte (byte : UInt8) (declared : Bool)
  | token (raw : Bytes) (declared : Bool)

def Piece.source : Piece → Bytes
  | byte b _ => [b]
  | token raw _ => raw

structure OpenString where
  role : StringRole
  declared : Bool
  escaped : Bool
  raw : Bytes

structure Lexer where
  position : Position
  string : Option OpenString

/-- The key of a token, if it is short enough. -/
def readKey (raw : Bytes) : Option JsText.Text :=
  if raw.length ≤ DEFAULT_MAX_KEY_BYTES then decodeJsonString raw else none

namespace Lexer

def start : Lexer := ⟨.start, none⟩

def openString (paths : List (List JsText.Text)) (p : Position) : OpenString :=
  let role := if p.slot = .key && p.inObject then .key else .value
  ⟨role, role = .value && isModelPath paths p.valuePath, false, [quote]⟩

/-- The position behind a string. -/
def closed (p : Position) (t : OpenString) : Position :=
  match t.role with
  | .key => { p with slot := .none }.setKey (readKey t.raw)
  | .value => { p with slot := .none }

def step (paths : List (List JsText.Text)) (l : Lexer) (byte : UInt8) : List Piece × Lexer :=
  match l.string with
  | none =>
    if byte = quote then ([], { l with string := some (openString paths l.position) })
    else
      ([.byte byte (l.position.slot = .value && isModelPath paths l.position.valuePath &&
          !isWhitespace byte)],
        { l with position := l.position.structural byte })
  | some t =>
    if t.escaped = false ∧ byte = quote then
      let t := { t with raw := t.raw ++ [quote] }
      ([.token t.raw t.declared], ⟨closed l.position t, none⟩)
    else
      ([], { l with string := some { t with
        escaped := !t.escaped && byte = backslash, raw := t.raw ++ [byte] } })

def lex (paths : List (List JsText.Text)) : Lexer → Bytes → List Piece × Lexer
  | l, [] => ([], l)
  | l, byte :: rest =>
    let r := l.step paths byte
    let q := lex paths r.2 rest
    (r.1 ++ q.1, q.2)

theorem lex_append (paths : List (List JsText.Text)) (l : Lexer) (a b : Bytes) :
    lex paths l (a ++ b) = ((lex paths l a).1 ++ (lex paths (lex paths l a).2 b).1,
        (lex paths (lex paths l a).2 b).2) := by
  induction a generalizing l with
  | nil => rfl
  | cons byte a ih => simp only [cons_append, lex, ih, append_assoc]

end Lexer

/-! ## What the tokens emit -/

section Emission

variable {τ ε : Type} (options : JsonModelScannerOptions τ ε)
variable (closure : τ)

def emitPiece : Piece → Except ε (Bytes × τ)
  | .byte byte false => .ok ([byte], closure)
  | .byte byte true =>
    match options.onInvalidModelValue with
    | some error => .error error
    | none => .ok ([byte], closure)
  | .token raw false => .ok (raw, closure)
  | .token raw true =>
    if raw.length ≤ options.maxStringBytes then
      match decodeJsonString raw with
      | none =>
        match options.onInvalidModelValue with
        | some error => .error error
        | none => .ok (raw, closure)
      | some value => (options.onModelValue closure value).map fun r => (r.1.getD raw, r.2)
    else
      match options.failOnOversizedValue, options.onInvalidModelValue with
      | true, some error => .error error
      | _, _ => .ok (raw, closure)

def emit : τ → List Piece → Except ε (Bytes × τ)
  | closure, [] => .ok ([], closure)
  | closure, piece :: pieces =>
    andThen (emitPiece options closure piece) fun closure => emit closure pieces

theorem emit_append (a b : List Piece) : emit options closure (a ++ b) =
      andThen (emit options closure a) fun closure => emit options closure b := by
  induction a generalizing closure with
  | nil => exact (prepend_nil _).symm
  | cons piece a ih =>
    rw [cons_append, emit, emit, andThen_assoc]
    simp only [ih]

theorem emit_singleton (piece : Piece) :
    emit options closure [piece] = emitPiece options closure piece := by
  rw [emit]
  cases emitPiece options closure piece with
  | error error => rfl
  | ok r => simp [andThen, emit, prepend, Except.map]

/-! ## The state of the scanner -/

namespace OpenString

variable (t : OpenString)

def tracked : Bool := t.role = .key || t.declared

def limit : Nat :=
  match t.role with
  | .key => DEFAULT_MAX_KEY_BYTES
  | .value => options.maxStringBytes

/-- The scanner keeps the string until its end. -/
def kept : Bool := t.tracked && t.raw.length ≤ t.limit options

def held : Bytes := if t.kept options then t.raw else []
def passed : Bytes := if t.kept options then [] else t.raw

variable {t : OpenString}

theorem passed_nil (h : t.raw = []) : t.passed options = [] := by
  rw [passed, h]
  split <;> rfl

theorem held_nil (h : t.raw = []) : t.held options = [] := by
  rw [held, h]
  split <;> rfl

theorem passed_held : t.passed options ++ t.held options = t.raw := by
  unfold passed held
  split <;> simp

theorem kept_iff : t.kept options = true ↔ t.tracked = true ∧ t.raw.length ≤ t.limit options := by
  simp [kept]

theorem kept_append (h : t.kept options = false) (part : Bytes) :
    kept options { t with raw := t.raw ++ part } = false := by
  refine Bool.eq_false_iff.mpr fun hkept => Bool.eq_false_iff.mp h ?_
  obtain ⟨htracked, hlength⟩ := (kept_iff options).mp hkept
  have hlonger : t.raw.length ≤ (t.raw ++ part).length := by
    rw [length_append]
    omega
  exact (kept_iff options).mpr ⟨htracked, Nat.le_trans hlonger hlength⟩

end OpenString

/-- A string that is too long to be kept throws. -/
def Throws : Prop := options.failOnOversizedValue = true ∧ options.onInvalidModelValue.isSome = true

/-- The scanner in an open string. -/
structure TracksString (t : OpenString) (s : JsonModelScanner τ) : Prop where
  inString : s.inString = true
  role : s.stringRole = t.role
  candidate : s.stringCandidate = t.declared
  escaped : s.stringEscaped = t.escaped
  parts : s.stringParts = t.held options
  discarded : s.stringDiscarded = (t.tracked && !t.kept options)
  quiet : t.role = .value → s.stringDiscarded = true → ¬ Throws options
  keys : t.role = .key → t.declared = false

/-- The scanner is where the lexer is. -/
structure Tracks (l : Lexer) (s : JsonModelScanner τ) : Prop where
  position : s.position = l.position
  closed : l.string = none → s.inString = false ∧ s.stringParts = []
  opened : ∀ t, l.string = some t → TracksString options t s

theorem tracks_start : Tracks options .start (new closure) where
  position := rfl
  closed := fun _ => ⟨rfl, rfl⟩
  opened := fun _ h => absurd h nofun

theorem tracks_startString (s : JsonModelScanner τ) :
    TracksString options { Lexer.openString options.paths s.position with raw := [] }
      (s.startString options) where
  inString := rfl
  role := rfl
  candidate := rfl
  escaped := rfl
  parts := (OpenString.held_nil options rfl).symm
  discarded := by
    simp [startString, OpenString.kept]
  quiet := fun _ hdiscarded => absurd hdiscarded nofun
  keys := fun hrole => by
    simp only [Lexer.openString] at hrole ⊢
    rw [hrole]
    rfl

/-- What was output of the open string. -/
def Lexer.passed (l : Lexer) : Bytes :=
  match l.string with
  | none => []
  | some t => t.passed options

variable {options}

variable {t : OpenString}

variable {s s' : JsonModelScanner τ} {byte : UInt8}

theorem TracksString.passesOn (h : TracksString options t s) : s.passesOn = !t.kept options := by
  have hrole : (decide (s.stringRole ≠ .key) && !s.stringCandidate) = !t.tracked := by
    rw [h.role, h.candidate, OpenString.tracked]
    cases t.role <;> cases t.declared <;> rfl
  rw [JsonModelScanner.passesOn, h.discarded, hrole]
  cases htracked : t.tracked with
  | true => simp
  | false => simp [OpenString.kept, htracked]

theorem TracksString.limit (h : TracksString options t s) :
    s.stringLimit options = t.limit options := by
  rw [stringLimit, h.role]
  rfl

theorem discard_ok {parts output : Bytes} (h : s.discard options parts = .ok (output, s')) :
    (s.stringRole = .value → ¬ Throws options) ∧ output = parts ∧
      s' = { s with stringParts := [], stringDiscarded := true } := by
  unfold JsonModelScanner.discard at h
  split at h
  · cases h
  rename_i hother
  cases h
  refine ⟨?_, rfl, rfl⟩
  rintro hrole ⟨hfail, hsome⟩
  obtain ⟨error, herror⟩ := Option.isSome_iff_exists.mp hsome
  exact hother error hrole hfail herror

theorem TracksString.append (h : TracksString options t s) {part output : Bytes} (hpart : part ≠ [])
    (happ : s.appendStringPart options part = .ok (output, s')) :
    TracksString options { t with raw := t.raw ++ part } s' ∧
      t.passed options ++ output = OpenString.passed options { t with raw := t.raw ++ part } := by
  have hdirect := h.passesOn
  cases hkept : t.kept options with
  | false =>
    have hkept' := OpenString.kept_append options hkept part
    rw [hkept] at hdirect
    rw [appendStringPart_direct options hdirect] at happ
    cases happ
    constructor
    · refine { h with parts := ?_, discarded := ?_ }
      · rw [h.parts, OpenString.held, hkept, OpenString.held, hkept']
        rfl
      · rw [h.discarded, hkept, hkept']
        rfl
    · rw [OpenString.passed, hkept, OpenString.passed, hkept']
      rfl
  | true =>
    rw [hkept] at hdirect
    have hheld : s.stringParts = t.raw := by
      rw [h.parts, OpenString.held, hkept]
      rfl
    have htracked : t.tracked = true := (Bool.and_eq_true_iff.mp hkept).1
    by_cases hfits : (s.stringParts ++ part).length ≤ s.stringLimit options
    · have hkept' : OpenString.kept options { t with raw := t.raw ++ part } = true := by
        rw [hheld, h.limit] at hfits
        exact Bool.and_eq_true_iff.mpr ⟨htracked, decide_eq_true hfits⟩
      rw [appendStringPart_fits options hdirect hfits] at happ
      cases happ
      constructor
      · refine { h with parts := ?_, discarded := ?_ }
        · rw [OpenString.held, hkept', hheld]
          rfl
        · rw [h.discarded, hkept, hkept']
          rfl
      · rw [OpenString.passed, hkept, OpenString.passed, hkept']
        rfl
    · have hkept' : OpenString.kept options { t with raw := t.raw ++ part } = false := by
        rw [hheld, h.limit] at hfits
        exact Bool.and_eq_false_iff.mpr (.inr (decide_eq_false hfits))
      rw [appendStringPart_discard options hdirect hpart hfits] at happ
      obtain ⟨hquiet, rfl, rfl⟩ := discard_ok happ
      constructor
      · refine { h with
          parts := ?_, discarded := ?_, quiet := fun hrole _ => hquiet (h.role.trans hrole) }
        · rw [OpenString.held, hkept']
          rfl
        · rw [hkept']
          exact (Bool.and_eq_true_iff.mpr ⟨htracked, rfl⟩).symm
      · rw [OpenString.passed, hkept, OpenString.passed, hkept', hheld]
        rfl

/-! ## One byte -/

variable (options) in
/-- What the scanner outputs at a byte, told by the lexer. -/
structure Follows (l l' : Lexer) (pieces : List Piece) (s s' : JsonModelScanner τ)
    (output : Bytes) : Prop where
  tracks : Tracks options l' s'
  emitted : ∃ emitted, emit options s.closure pieces = .ok (emitted, s'.closure) ∧
    l.passed options ++ output = emitted ++ l'.passed options

variable {l : Lexer} {output : Bytes}

section

variable (h : Tracks options l s)

include h

theorem follows_structural (hout : l.string = none) (hquote : byte ≠ quote)
    (hpush : s.push options [byte] = .ok (output, s')) :
    Follows options l (l.step options.paths byte).2 (l.step options.paths byte).1 s s' output := by
  have hin := (h.closed hout).1
  have hstep : l.step options.paths byte =
      ([.byte byte (l.position.slot = .value && isModelPath options.paths l.position.valuePath &&
        !isWhitespace byte)], { l with position := l.position.structural byte }) := by
    rw [Lexer.step, hout]
    exact if_neg hquote
  rw [push_structural hin hquote] at hpush
  cases hinvalid : s.invalidValue options byte with
  | some error =>
    rw [hinvalid] at hpush
    cases hpush
  | none =>
    rw [hinvalid] at hpush
    cases hpush
    rw [hstep]
    constructor
    · constructor
      · exact congrArg (Position.structural · byte) h.position
      · exact fun _ => h.closed hout
      · exact fun t ht => absurd (hout.symm.trans ht) nofun
    refine ⟨[byte], ?_, ?_⟩
    · rw [emit_singleton]
      unfold invalidValue at hinvalid
      rw [h.position] at hinvalid
      cases hflag : (decide (l.position.slot = .value) &&
          isModelPath options.paths l.position.valuePath && !isWhitespace byte) with
      | false => rfl
      | true =>
        rw [hflag] at hinvalid
        have hnone : options.onInvalidModelValue = none := hinvalid
        simp only [emitPiece, hnone]
        rfl
    · simp [Lexer.passed, hout]

theorem follows_quote (hout : l.string = none) (hpush : s.push options [quote] = .ok (output, s')) :
    Follows options l (l.step options.paths quote).2 (l.step options.paths quote).1
      s s' output := by
  have hin := (h.closed hout).1
  have hstep : l.step options.paths quote =
      ([], { l with string := some (Lexer.openString options.paths l.position) }) := by
    rw [Lexer.step, hout]
    exact if_pos rfl
  rw [push_quote hin] at hpush
  have hstart : TracksString options { Lexer.openString options.paths l.position with raw := [] }
      (s.startString options) := by
    rw [← h.position]
    exact tracks_startString options s
  obtain ⟨hopen, hpassed⟩ := hstart.append (by simp) hpush
  obtain ⟨parts, discarded, heq⟩ := appendStringPart_eq options hpush
  rw [hstep]
  constructor
  · constructor
    · rw [heq]
      exact h.position
    · exact fun hnone => absurd hnone nofun
    · intro t ht
      cases ht
      exact hopen
  · refine ⟨[], ?_, ?_⟩
    · rw [heq]
      rfl
    · rw [OpenString.passed_nil options rfl] at hpassed
      rw [Lexer.passed, hout]
      exact hpassed

theorem follows_open (hin : l.string = some t) (hstay : ¬ (t.escaped = false ∧ byte = quote))
    (hpush : s.push options [byte] = .ok (output, s')) :
    Follows options l (l.step options.paths byte).2 (l.step options.paths byte).1 s s' output := by
  have ht := h.opened t hin
  have hstep : l.step options.paths byte = ([], { l with string := some { t with
      escaped := !t.escaped && byte = backslash, raw := t.raw ++ [byte] } }) := by
    rw [Lexer.step, hin]
    exact if_neg hstay
  have hopen : s.stringEscaped = true ∨ byte ≠ quote := by
    rw [ht.escaped, ← Bool.not_eq_false]
    exact Decidable.not_and_iff_or_not.mp hstay
  rw [push_open ht.inString hopen, ht.escaped] at hpush
  have hescaped : TracksString options { t with escaped := !t.escaped && byte = backslash }
      { s with stringEscaped := !t.escaped && byte = backslash } :=
    { ht with escaped := rfl }
  obtain ⟨hnext, hpassed⟩ := hescaped.append (by simp) hpush
  obtain ⟨parts, discarded, heq⟩ := appendStringPart_eq options hpush
  rw [hstep]
  constructor
  · constructor
    · rw [heq]
      exact h.position
    · exact fun hnone => absurd hnone nofun
    · intro t' ht'
      cases ht'
      exact hnext
  · refine ⟨[], ?_, ?_⟩
    · rw [heq]
      rfl
    · rw [Lexer.passed, hin]
      exact hpassed

end

theorem readKey_held (hrole : t.role = .key) (hraw : t.raw ≠ []) :
    (if t.held options = [] then none else decodeJsonString (t.held options)) = readKey t.raw := by
  have htracked : t.tracked = true := by
    rw [OpenString.tracked, hrole]
    rfl
  have hlimit : t.limit options = DEFAULT_MAX_KEY_BYTES := by rw [OpenString.limit, hrole]
  unfold OpenString.held readKey
  cases hkept : t.kept options with
  | true =>
    have hshort := ((OpenString.kept_iff options).mp hkept).2
    rw [hlimit] at hshort
    rw [if_pos rfl, if_neg hraw, if_pos hshort]
  | false =>
    have hlong : ¬ t.raw.length ≤ DEFAULT_MAX_KEY_BYTES := by
      intro hle
      rw [← hlimit] at hle
      exact absurd ((OpenString.kept_iff options).mpr ⟨htracked, hle⟩) (by simp [hkept])
    rw [if_neg hlong]
    rfl

theorem TracksString.close (h : TracksString options t s)
    (hraw : t.raw ≠ []) (hclose : s.closeString options = .ok (output, s')) :
    s'.position = Lexer.closed s.position t ∧
      emitPiece options s.closure (.token t.raw t.declared) =
        .ok (t.passed options ++ output, s'.closure) := by
  have hparts := h.parts
  unfold closeString at hclose
  rw [h.role, h.candidate] at hclose
  cases hrole : t.role with
  | key =>
    rw [hrole] at hclose
    cases hclose
    constructor
    · simp only [Lexer.closed, hrole]
      rw [h.parts, readKey_held hrole hraw]
    · rw [h.keys hrole, hparts, OpenString.passed_held]
      rfl
  | value =>
    rw [hrole] at hclose
    cases hdeclared : t.declared with
    | false =>
      rw [hdeclared] at hclose
      cases hclose
      constructor
      · simp only [Lexer.closed, hrole]
      · rw [hparts, OpenString.passed_held]
        rfl
    | true =>
      have htracked : t.tracked = true := by rw [OpenString.tracked, hdeclared, Bool.or_true]
      have hlimit : t.limit options = options.maxStringBytes := by rw [OpenString.limit, hrole]
      rw [hdeclared] at hclose
      cases hkept : t.kept options with
      | false =>
        have hlong : ¬ t.raw.length ≤ options.maxStringBytes := by
          intro hle
          rw [← hlimit] at hle
          exact absurd ((OpenString.kept_iff options).mpr ⟨htracked, hle⟩) (by simp [hkept])
        have hnil : s.stringParts = [] := by
          rw [hparts, OpenString.held, hkept]
          rfl
        rw [hnil] at hclose
        cases hclose
        have hquiet := h.quiet hrole (by rw [h.discarded, htracked, hkept]; rfl)
        constructor
        · simp only [Lexer.closed, hrole]
        rw [emitPiece, if_neg hlong, OpenString.passed, hkept]
        split
        next error hfail hsome => exact absurd ⟨hfail, by rw [hsome]; rfl⟩ hquiet
        · simp
      | true =>
        have hshort : t.raw.length ≤ options.maxStringBytes :=
          hlimit ▸ ((OpenString.kept_iff options).mp hkept).2
        have hkeep : s.stringParts = t.raw := by
          rw [hparts, OpenString.held, hkept]
          rfl
        have hpassed : t.passed options = [] := by
          rw [OpenString.passed, hkept]
          rfl
        rw [hkeep] at hclose
        rw [emitPiece, if_pos hshort, hpassed]
        simp only [Bool.not_true, Bool.false_or, decide_eq_true_eq, hraw, if_false] at hclose
        cases hdecode : decodeJsonString t.raw with
        | none =>
          rw [hdecode] at hclose
          cases hinvalid : options.onInvalidModelValue with
          | some error =>
            rw [hinvalid] at hclose
            cases hclose
          | none =>
            rw [hinvalid] at hclose
            cases hclose
            constructor
            · simp only [Lexer.closed, hrole]
            · rfl
        | some value =>
          rw [hdecode] at hclose
          simp only at hclose
          cases hvalue : options.onModelValue s.closure value with
          | error error =>
            rw [hvalue] at hclose
            cases hclose
          | ok r =>
            rw [hvalue] at hclose
            cases hclose
            constructor
            · simp only [Lexer.closed, hrole]
            · simp only [hvalue]
              rfl

theorem follows_close (h : Tracks options l s) (hin : l.string = some t)
    (hescaped : t.escaped = false) (hpush : s.push options [quote] = .ok (output, s')) :
    Follows options l (l.step options.paths quote).2 (l.step options.paths quote).1
      s s' output := by
  have ht := h.opened t hin
  have hstep : l.step options.paths quote = ([.token (t.raw ++ [quote]) t.declared],
      ⟨Lexer.closed l.position { t with raw := t.raw ++ [quote] }, none⟩) := by
    rw [Lexer.step, hin]
    exact if_pos ⟨hescaped, rfl⟩
  rw [push_close ht.inString (ht.escaped.trans hescaped)] at hpush
  obtain ⟨first, middle, second, happ, hclose, rfl⟩ := andThen_ok hpush
  obtain ⟨hnext, hpassed⟩ := ht.append (by simp) happ
  obtain ⟨parts, discarded, heq⟩ := appendStringPart_eq options happ
  obtain ⟨hposition, hemit⟩ := hnext.close (by simp) hclose
  rw [hstep]
  constructor
  · constructor
    · rw [hposition, heq]
      exact congrArg (Lexer.closed · _) h.position
    · exact fun _ => closeString_closed options hclose
    · exact fun _ hsome => absurd hsome nofun
  refine ⟨t.passed options ++ first ++ second, ?_, ?_⟩
  · rw [emit_singleton, hpassed]
    have hclosure : middle.closure = s.closure := by rw [heq]
    rw [← hclosure]
    exact hemit
  · simp [Lexer.passed, hin]

theorem push_follows (h : Tracks options l s) (hpush : s.push options [byte] = .ok (output, s')) :
    Follows options l (l.step options.paths byte).2 (l.step options.paths byte).1 s s' output := by
  cases hin : l.string with
  | none =>
    by_cases hquote : byte = quote
    · subst hquote
      exact follows_quote h hin hpush
    · exact follows_structural h hin hquote hpush
  | some t =>
    by_cases hclose : t.escaped = false ∧ byte = quote
    · obtain ⟨hescaped, rfl⟩ := hclose
      exact follows_close h hin hescaped hpush
    · exact follows_open h hin hclose hpush

/-! ## Runs -/

theorem Follows.trans {l m n : Lexer} {a b : List Piece} {s t u : JsonModelScanner τ}
    {first second : Bytes} (hst : Follows options l m a s t first)
    (htu : Follows options m n b t u second) :
    Follows options l n (a ++ b) s u (first ++ second) := by
  obtain ⟨-, x, hx, hfirst⟩ := hst
  obtain ⟨htracks, y, hy, hsecond⟩ := htu
  refine ⟨htracks, x ++ y, ?_, ?_⟩
  · rw [emit_append, hx, andThen, hy]
    rfl
  calc l.passed options ++ (first ++ second)
      = (l.passed options ++ first) ++ second := (append_assoc ..).symm
    _ = (x ++ m.passed options) ++ second := by rw [hfirst]
    _ = x ++ (m.passed options ++ second) := append_assoc ..
    _ = x ++ y ++ n.passed options := by rw [hsecond, append_assoc]

/-- What the scanner outputs is what the tokens emit and the part of the open string. -/
theorem push_lex (h : Tracks options l s) {bytes : Bytes}
    (hpush : s.push options bytes = .ok (output, s')) :
    Follows options l (l.lex options.paths bytes).2 (l.lex options.paths bytes).1 s s' output := by
  induction bytes generalizing l s output with
  | nil =>
    rw [push_nil] at hpush
    cases hpush
    exact ⟨h, [], rfl, by rw [append_nil]; rfl⟩
  | cons byte bytes ih =>
    have hsplit := push_append options s [byte] bytes
    rw [singleton_append] at hsplit
    rw [hsplit] at hpush
    obtain ⟨first, middle, second, hbyte, hrest, rfl⟩ := andThen_ok hpush
    have hfirst := push_follows h hbyte
    exact hfirst.trans (ih hfirst.tracks hrest)

end Emission

end TaskHandoff.ModelRelay
