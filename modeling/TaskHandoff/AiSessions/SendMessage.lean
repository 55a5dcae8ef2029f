import TaskHandoff.AiSessions.QueueDispatch
import TaskHandoff.Events.TransientSubscription

/-! # Sending a message once

`AiSessionController.sendMessage` takes an optional `clientRequestId`. The calls
of one id share the promise of the attempt in progress, and the result of the
one that succeeded, as long as their fingerprints agree. A call runs up to its
first `await` in one step; the provider, the `then` and the `finally` of the
attempt are steps of their own.
-/

namespace TaskHandoff.AiSessions.SendMessage

open Machine QueueDispatch OrderedMap List Option
open TaskHandoff.Events (truthy)

/-! ## Input -/

inductive AiSessionSendMode where
  | auto
  | queue
  | steer
  | immediate
deriving DecidableEq

inductive AiSessionPermissionMode where
  | ask
  | autoReview
  | fullAccess
deriving DecidableEq

inductive AttachmentKind where
  | image
  | file
deriving DecidableEq

inductive AttachmentSource where
  | inline (data : String)
  | runtimePath (path : String)
deriving DecidableEq

structure AiSessionMessageAttachment where
  id : String
  kind : AttachmentKind
  name : String
  mime : String
  size : Nat
  source : AttachmentSource
deriving DecidableEq

inductive AiSessionReferenceKind where
  | skill
  | app
  | plugin
deriving DecidableEq

structure AiSessionReference where
  name : String
  path : String
  kind : AiSessionReferenceKind
deriving DecidableEq

inductive DraftScopeType where
  | session
  | createRequest
deriving DecidableEq

structure AiSessionSendInput where
  message : String
  mode : Option AiSessionSendMode
  clientRequestId : Option String
  attachments : Option (List AiSessionMessageAttachment)
  references : Option (List AiSessionReference)
  permissionMode : Option AiSessionPermissionMode
  draftAttachmentIds : Option (List String)
  draftScopeType : Option DraftScopeType
  draftScopeId : Option String

/-- The array that is hashed. -/
structure SendFields where
  sessionId : String
  message : String
  mode : AiSessionSendMode
  permissionMode : Option AiSessionPermissionMode
  references : List AiSessionReference
  attachmentIds : List String
deriving DecidableEq

def sendFields (sessionId : String) (input : AiSessionSendInput) : SendFields where
  sessionId := sessionId
  message := input.message
  mode := input.mode.getD .auto
  permissionMode := input.permissionMode
  references := input.references.getD []
  attachmentIds := (input.attachments.map fun attachments => attachments.map (·.id)).getD []

/-- What a caller asks to be sent: an upload draft is named by its scope and its id. -/
structure MessageContent where
  sessionId : String
  message : String
  mode : AiSessionSendMode
  permissionMode : Option AiSessionPermissionMode
  references : List AiSessionReference
  attachments : List AiSessionMessageAttachment
  drafts : List (Option DraftScopeType × Option String × String)
deriving DecidableEq

def messageContent (sessionId : String) (input : AiSessionSendInput) : MessageContent where
  sessionId := sessionId
  message := input.message
  mode := input.mode.getD .auto
  permissionMode := input.permissionMode
  references := input.references.getD []
  attachments := input.attachments.getD []
  drafts := (input.draftAttachmentIds.getD []).map fun id =>
    (input.draftScopeType, input.draftScopeId, id)

theorem sendFields_congr {sessionId sessionId' : String} {input input' : AiSessionSendInput}
    (h : messageContent sessionId input = messageContent sessionId' input') :
    sendFields sessionId input = sendFields sessionId' input' := by
  have hids : ∀ attachments : Option (List AiSessionMessageAttachment),
      (attachments.map fun l => l.map (·.id)).getD [] = (attachments.getD []).map (·.id) := by
    intro attachments
    cases attachments <;> rfl
  simp only [messageContent, MessageContent.mk.injEq] at h
  simp only [sendFields, hids, h]

/-! ## One attempt -/

/-- White space and line ends, as `trim` takes them away. -/
def isWhiteSpace (c : Char) : Bool :=
  c.toNat ∈ [0x09, 0x0a, 0x0b, 0x0c, 0x0d, 0x20, 0xa0, 0x1680, 0x2028, 0x2029, 0x202f, 0x205f,
    0x3000, 0xfeff] || (0x2000 ≤ c.toNat && c.toNat ≤ 0x200a)

/-- The session as the registry holds it, and what its provider offers. -/
structure SendSession where
  agent : String
  status : AiSessionLifecycle
  settingsPending : Bool
  provider : Bool
  canSteer : Bool
  canStart : Bool

/-- What the registry answers while a call runs: the session, the staging of the attachments
and the result for a queued message. -/
structure SendContext (ρ : Type) where
  session : Option SendSession
  staged : Except ControlError Unit
  queued : Option ρ

/-- Where the synchronous part of an attempt ends. -/
inductive SendDispatch (ρ : Type) where
  | queued (result : ρ)
  | steer
  | start

def settingsConflict : ControlError :=
  ⟨"AI_SESSION_MODEL_SELECTION_CONFLICT", "A session setting change is already pending.", 409⟩

def messageEmpty : ControlError := ⟨"AI_SESSION_MESSAGE_EMPTY", "Message is required.", 400⟩

variable (agent : String)

def referencesUnsupported : ControlError :=
  ⟨"AI_SESSION_REFERENCES_UNSUPPORTED", agent ++ " sessions do not support Codex references.", 400⟩

def sessionBusy : ControlError :=
  ⟨"AI_SESSION_BUSY",
    "AI session is busy. Queue the message or steer it into the running turn.", 409⟩

def controlUnsupported : ControlError :=
  ⟨"AI_SESSION_CONTROL_UNSUPPORTED", agent ++ " sessions do not support direct control yet.", 400⟩

def steerUnsupported : ControlError :=
  ⟨"AI_SESSION_STEER_UNSUPPORTED", agent ++ " sessions do not support turn steering.", 400⟩

def sendUnsupported : ControlError :=
  ⟨"AI_SESSION_SEND_UNSUPPORTED", agent ++ " sessions do not support starting turns.", 400⟩

def SendSession.busy (session : SendSession) : Bool :=
  session.status = .running || session.status = .waiting

variable {δ ρ : Type}

/-- `sendMessageOnce` up to its first `await`. -/
def sendMessageOnce (context : SendContext ρ) (input : AiSessionSendInput) :
    Except ControlError (SendDispatch ρ) := do
  let some session := context.session | throw sessionNotFound
  if session.settingsPending then throw settingsConflict
  if input.message.toList.all isWhiteSpace then throw messageEmpty
  if !(input.references.getD []).isEmpty && session.agent ≠ "codex" then
    throw (referencesUnsupported session.agent)
  let mode := input.mode.getD .auto
  context.staged
  if mode = .queue || (mode = .auto && session.busy) then
    let some result := context.queued | throw sessionNotFound
    return .queued result
  if mode = .steer then
    if !session.provider then throw (controlUnsupported session.agent)
    if !session.canSteer then throw (steerUnsupported session.agent)
    return .steer
  if session.busy then throw sessionBusy
  if !session.provider then throw (controlUnsupported session.agent)
  if !session.canStart then throw (sendUnsupported session.agent)
  return .start

/-- How far the promise of an attempt is: its `then` records a result and its `finally` takes
the pending entry away. -/
inductive AttemptPhase (ρ : Type) where
  | dispatching
  | settled (outcome : Except ControlError ρ)
  | recorded (outcome : Except ControlError ρ)
  | finished (outcome : Except ControlError ρ)

structure Attempt (ρ : Type) where
  requestId : String
  sessionId : String
  input : AiSessionSendInput
  phase : AttemptPhase ρ

def Attempt.content (attempt : Attempt ρ) : MessageContent :=
  messageContent attempt.sessionId attempt.input

def AttemptPhase.outcome : AttemptPhase ρ → Option (Except ControlError ρ)
  | .dispatching => none
  | .settled outcome => some outcome
  | .recorded outcome => some outcome
  | .finished outcome => some outcome

/-- What the provider's promise comes to. The attachments of an accepted message are
committed next, which may fail by itself. -/
inductive ProviderOutcome (ρ : Type) where
  | accepted (result : ρ)
  | refused (error : ControlError)
  | commitFailed (error : ControlError)

/-! ## The controller -/

inductive Answer (ρ : Type) where
  | conflict
  | result (result : ρ)
  | promise (attempt : Nat)
deriving DecidableEq

/-- A call with a request id, and how many attempts had been made after it. -/
structure Call (ρ : Type) where
  requestId : String
  content : MessageContent
  answer : Answer ρ
  attempts : Nat
deriving DecidableEq

/-- `accepted` lists the attempts whose message a provider or the queue took, `calls` the
calls with a request id; no method reads them. -/
structure AiSessionController (δ ρ : Type) where
  completedSendOperations : OrderedMap String (δ × ρ)
  pendingSendOperations : OrderedMap String (δ × Nat)
  attempts : OrderedMap Nat (Attempt ρ)
  nextAttempt : Nat
  accepted : List Nat
  calls : List (Call ρ)

namespace AiSessionController

def new : AiSessionController δ ρ := ⟨.empty, .empty, .empty, 0, [], []⟩

def respond (c : AiSessionController δ ρ) (requestId sessionId : String)
    (input : AiSessionSendInput) (answer : Answer ρ) : AiSessionController δ ρ :=
  { c with calls := c.calls ++ [⟨requestId, messageContent sessionId input, answer, c.nextAttempt⟩] }

/-- The first phase of an attempt: what fails or is queued has settled at once. -/
def firstPhase (context : SendContext ρ) (input : AiSessionSendInput) : AttemptPhase ρ :=
  match sendMessageOnce context input with
  | .error error => .settled (.error error)
  | .ok (.queued result) => .settled (.ok result)
  | .ok _ => .dispatching

def begin (c : AiSessionController δ ρ) (fingerprint : δ) (requestId sessionId : String)
    (input : AiSessionSendInput) (phase : AttemptPhase ρ) : AiSessionController δ ρ :=
  { c with
    pendingSendOperations := c.pendingSendOperations.set requestId (fingerprint, c.nextAttempt)
    attempts := c.attempts.set c.nextAttempt ⟨requestId, sessionId, input, phase⟩
    nextAttempt := c.nextAttempt + 1
    accepted :=
      match phase with
      | .settled (.ok _) => c.accepted ++ [c.nextAttempt]
      | _ => c.accepted }

section Steps

-- The SHA-256 of the fields' JSON text.
variable (digest : SendFields → δ)

def sendOperationFingerprint (sessionId : String) (input : AiSessionSendInput) : δ :=
  digest (sendFields sessionId input)

/-- A call without a request id leaves nothing behind. -/
def sendMessage [DecidableEq δ] (c : AiSessionController δ ρ) (sessionId : String) (input : AiSessionSendInput)
    (context : SendContext ρ) : AiSessionController δ ρ :=
  match truthy input.clientRequestId with
  | none => c
  | some clientRequestId =>
    let fingerprint := sendOperationFingerprint digest sessionId input
    match c.completedSendOperations.get? clientRequestId with
    | some (completed, result) =>
      c.respond clientRequestId sessionId input
        (if completed ≠ fingerprint then .conflict else .result result)
    | none =>
      match c.pendingSendOperations.get? clientRequestId with
      | some (active, attempt) =>
        c.respond clientRequestId sessionId input
          (if active ≠ fingerprint then .conflict else .promise attempt)
      | none =>
        (c.begin fingerprint clientRequestId sessionId input
          (firstPhase context input)).respond clientRequestId sessionId input
          (.promise c.nextAttempt)

def setPhase (c : AiSessionController δ ρ) (attempt : Nat) (a : Attempt ρ)
    (phase : AttemptPhase ρ) : AiSessionController δ ρ :=
  { c with attempts := c.attempts.set attempt { a with phase := phase } }

/-- The provider's promise settles. -/
def settle (c : AiSessionController δ ρ) (attempt : Nat) (outcome : ProviderOutcome ρ) :
    Option (AiSessionController δ ρ) :=
  match c.attempts.get? attempt with
  | some ⟨requestId, sessionId, input, .dispatching⟩ =>
    let a : Attempt ρ := ⟨requestId, sessionId, input, .dispatching⟩
    match outcome with
    | .accepted result =>
      some ({ c with accepted := c.accepted ++ [attempt] }.setPhase attempt a
        (.settled (.ok result)))
    | .refused error => some (c.setPhase attempt a (.settled (.error error)))
    | .commitFailed error =>
      some ({ c with accepted := c.accepted ++ [attempt] }.setPhase attempt a
        (.settled (.error error)))
  | _ => none

/-- The `then` of an attempt: a result is kept for the calls to come. -/
def record (c : AiSessionController δ ρ) (attempt : Nat) : Option (AiSessionController δ ρ) :=
  match c.attempts.get? attempt with
  | some ⟨requestId, sessionId, input, .settled outcome⟩ =>
    let a : Attempt ρ := ⟨requestId, sessionId, input, .settled outcome⟩
    match outcome with
    | .ok result =>
      some ({ c with
        completedSendOperations := c.completedSendOperations.set requestId
          (sendOperationFingerprint digest sessionId input, result) }.setPhase attempt a
        (.recorded outcome))
    | .error _ => some (c.setPhase attempt a (.recorded outcome))
  | _ => none

/-- The `finally` of an attempt. -/
def finish (c : AiSessionController δ ρ) (attempt : Nat) : Option (AiSessionController δ ρ) :=
  match c.attempts.get? attempt with
  | some ⟨requestId, sessionId, input, .recorded outcome⟩ =>
    let a : Attempt ρ := ⟨requestId, sessionId, input, .recorded outcome⟩
    some ({ c with
      pendingSendOperations :=
        if (c.pendingSendOperations.get? requestId).map Prod.snd = some attempt then
          c.pendingSendOperations.erase requestId
        else c.pendingSendOperations }.setPhase attempt a (.finished outcome))
  | _ => none

inductive Action (ρ : Type) where
  | call (sessionId : String) (input : AiSessionSendInput) (context : SendContext ρ)
  | settle (attempt : Nat) (outcome : ProviderOutcome ρ)
  | record (attempt : Nat)
  | finish (attempt : Nat)

def step [DecidableEq δ] (c : AiSessionController δ ρ) : Action ρ → Option (AiSessionController δ ρ)
  | .call sessionId input context => some (c.sendMessage digest sessionId input context)
  | .settle attempt outcome => c.settle attempt outcome
  | .record attempt => c.record digest attempt
  | .finish attempt => c.finish attempt

end Steps

end AiSessionController

/-! ## Phases -/

/-- The attempt is in progress, or has succeeded. -/
def AttemptPhase.live : AttemptPhase ρ → Bool
  | .finished (.error _) => false
  | _ => true

def AttemptPhase.unfinished : AttemptPhase ρ → Bool
  | .finished _ => false
  | _ => true

def AttemptPhase.succeeded (phase : AttemptPhase ρ) : Option ρ :=
  phase.outcome.bind fun outcome => outcome.toOption

/-- The result that later calls are answered with. -/
def AttemptPhase.kept : AttemptPhase ρ → Option ρ
  | .recorded (.ok result) => some result
  | .finished (.ok result) => some result
  | _ => none

variable {phase : AttemptPhase ρ}

theorem AttemptPhase.live_of_unfinished (h : phase.unfinished = true) : phase.live = true := by
  cases phase with
  | finished outcome => cases h
  | dispatching => rfl
  | settled outcome => rfl
  | recorded outcome => rfl

variable {result : ρ}

theorem AttemptPhase.live_of_kept (h : phase.kept = some result) : phase.live = true := by
  cases phase with
  | finished outcome =>
    cases outcome with
    | ok result => rfl
    | error error => cases h
  | dispatching => rfl
  | settled outcome => rfl
  | recorded outcome => rfl

theorem AttemptPhase.succeeded_of_kept (h : phase.kept = some result) :
    phase.succeeded = some result := by
  cases phase with
  | dispatching => cases h
  | settled outcome => cases h
  | recorded outcome =>
    cases outcome with
    | ok result => exact h
    | error error => cases h
  | finished outcome =>
    cases outcome with
    | ok result => exact h
    | error error => cases h

theorem AttemptPhase.live_iff :
    phase.live = true ↔ phase.unfinished = true ∨ ∃ result, phase.kept = some result := by
  constructor
  · intro h
    cases phase with
    | finished outcome =>
      cases outcome with
      | ok result => exact .inr ⟨result, rfl⟩
      | error error => cases h
    | dispatching => exact .inl rfl
    | settled outcome => exact .inl rfl
    | recorded outcome => exact .inl rfl
  · rintro (h | ⟨result, h⟩)
    · exact live_of_unfinished h
    · exact live_of_kept h

/-! ## The answers of the past calls -/

/-- A call made during or after a live attempt is answered by it if the contents agree, and
is refused otherwise. -/
def Call.AnsweredBy (call : Call ρ) (attempt : Nat) (a : Attempt ρ) : Prop :=
  (call.content = a.content ∧ (call.answer = .promise attempt ∨
        ∃ result, call.answer = .result result ∧ a.phase.succeeded = some result)) ∨
    (call.content ≠ a.content ∧ call.answer = .conflict)

/-- No answer comes from an attempt with another content. -/
def Call.Own (call : Call ρ) (attempts : OrderedMap Nat (Attempt ρ)) : Prop :=
  match call.answer with
  | .conflict => True
  | .promise attempt =>
    ∃ a, attempts.get? attempt = some a ∧ a.requestId = call.requestId ∧ a.content = call.content
  | .result result =>
    ∃ attempt a, attempts.get? attempt = some a ∧ a.requestId = call.requestId ∧
      a.content = call.content ∧ a.phase.succeeded = some result

structure History (attempts : OrderedMap Nat (Attempt ρ)) (next : Nat) (calls : List (Call ρ)) :
    Prop where
  fresh : ∀ k a, attempts.get? k = some a → k < next
  single : ∀ j k a b, attempts.get? j = some a → attempts.get? k = some b →
    a.requestId = b.requestId → a.phase.live = true → b.phase.live = true → j = k
  made : ∀ call ∈ calls, call.attempts ≤ next
  own : ∀ call ∈ calls, call.Own attempts
  answered : ∀ call ∈ calls, ∀ k a, attempts.get? k = some a → a.requestId = call.requestId →
    k < call.attempts → a.phase.live = true → call.AnsweredBy k a

theorem History.init : History (ρ := ρ) .empty 0 [] := by constructor <;> simp

section History

variable {attempts : OrderedMap Nat (Attempt ρ)} {next : Nat} {calls : List (Call ρ)}

variable {a : Attempt ρ}

variable (h : History attempts next calls)

include h

theorem History.setPhase {k : Nat}
    (hget : attempts.get? k = some a) (hlive : phase.live = true → a.phase.live = true)
    (hresult : ∀ result, a.phase.succeeded = some result → phase.succeeded = some result) :
    History (attempts.set k { a with phase := phase }) next calls := by
  have hback : ∀ j b, (attempts.set k { a with phase := phase }).get? j = some b →
      ∃ old, attempts.get? j = some old ∧ old.requestId = b.requestId ∧ old.content = b.content ∧
        (b.phase.live = true → old.phase.live = true) ∧
        ∀ result, old.phase.succeeded = some result → b.phase.succeeded = some result := by
    intro j b hb
    rcases get?_set_eq_some hb with ⟨rfl, rfl⟩ | ⟨-, hold⟩
    · exact ⟨a, hget, rfl, rfl, hlive, hresult⟩
    · exact ⟨b, hold, rfl, rfl, id, fun _ => id⟩
  have hforth : ∀ j old, attempts.get? j = some old →
      ∃ b, (attempts.set k { a with phase := phase }).get? j = some b ∧
        b.requestId = old.requestId ∧ b.content = old.content ∧
        ∀ result, old.phase.succeeded = some result → b.phase.succeeded = some result := by
    intro j old hold
    by_cases hj : j = k
    · subst hj
      obtain rfl := some.inj (hget.symm.trans hold)
      exact ⟨_, get?_set_self _ _ _, rfl, rfl, hresult⟩
    · exact ⟨old, (get?_set_ne _ _ hj).trans hold, rfl, rfl, fun _ => id⟩
  constructor
  · intro j b hb
    obtain ⟨old, hold, -⟩ := hback j b hb
    exact h.fresh j old hold
  · intro i j b b' hb hb' hid hb₁ hb₂
    obtain ⟨old, hold, hoid, -, hl, -⟩ := hback i b hb
    obtain ⟨old', hold', hoid', -, hl', -⟩ := hback j b' hb'
    exact h.single i j old old' hold hold' (hoid.trans (hid.trans hoid'.symm)) (hl hb₁) (hl' hb₂)
  · exact h.made
  · intro call hcall
    have hown := h.own call hcall
    unfold Call.Own at hown ⊢
    cases hanswer : call.answer with
    | conflict => trivial
    | promise j =>
      simp only [hanswer] at hown
      obtain ⟨old, hold, hid, hcontent⟩ := hown
      obtain ⟨b, hb, hbid, hbcontent, -⟩ := hforth j old hold
      exact ⟨b, hb, hbid.trans hid, hbcontent.trans hcontent⟩
    | result result =>
      simp only [hanswer] at hown
      obtain ⟨j, old, hold, hid, hcontent, hres⟩ := hown
      obtain ⟨b, hb, hbid, hbcontent, hbres⟩ := hforth j old hold
      exact ⟨j, b, hb, hbid.trans hid, hbcontent.trans hcontent, hbres result hres⟩
  · intro call hcall j b hb hid hlt hblive
    obtain ⟨old, hold, hoid, hcontent, hl, hres⟩ := hback j b hb
    have hanswered := h.answered call hcall j old hold (hoid.trans hid) hlt (hl hblive)
    unfold Call.AnsweredBy at hanswered ⊢
    rw [← hcontent]
    rcases hanswered with ⟨heq, hpromise | ⟨result, hanswer, hold'⟩⟩ | hconflict
    · exact .inl ⟨heq, .inl hpromise⟩
    · exact .inl ⟨heq, .inr ⟨result, hanswer, hres result hold'⟩⟩
    · exact .inr hconflict

theorem History.begin
    (hidle : ∀ k b, attempts.get? k = some b → b.requestId = a.requestId → b.phase.live = false) :
    History (attempts.set next a) (next + 1) calls := by
  have hnew : ∀ k b, attempts.get? k = some b → k ≠ next :=
    fun k b hb => Nat.ne_of_lt (h.fresh k b hb)
  constructor
  · intro k b hb
    rcases get?_set_eq_some hb with ⟨rfl, -⟩ | ⟨-, hold⟩
    · exact Nat.lt_succ_self _
    · exact Nat.lt_succ_of_lt (h.fresh k b hold)
  · intro j k b b' hb hb' hid hlive hlive'
    rcases get?_set_eq_some hb with ⟨rfl, rfl⟩ | ⟨-, hold⟩
    · rcases get?_set_eq_some hb' with ⟨rfl, -⟩ | ⟨-, hold'⟩
      · rfl
      · rw [hidle k b' hold' hid.symm] at hlive'
        cases hlive'
    · rcases get?_set_eq_some hb' with ⟨rfl, rfl⟩ | ⟨-, hold'⟩
      · rw [hidle j b hold hid] at hlive
        cases hlive
      · exact h.single j k b b' hold hold' hid hlive hlive'
  · exact fun call hcall => Nat.le_succ_of_le (h.made call hcall)
  · intro call hcall
    have hown := h.own call hcall
    unfold Call.Own at hown ⊢
    cases hanswer : call.answer with
    | conflict => trivial
    | promise j =>
      simp only [hanswer] at hown
      obtain ⟨old, hold, hrest⟩ := hown
      exact ⟨old, (get?_set_ne _ _ (hnew j old hold)).trans hold, hrest⟩
    | result result =>
      simp only [hanswer] at hown
      obtain ⟨j, old, hold, hrest⟩ := hown
      exact ⟨j, old, (get?_set_ne _ _ (hnew j old hold)).trans hold, hrest⟩
  · intro call hcall k b hb hid hlt hlive
    rcases get?_set_eq_some hb with ⟨rfl, -⟩ | ⟨-, hold⟩
    · exact absurd hlt (Nat.not_lt.mpr (h.made call hcall))
    · exact h.answered call hcall k b hold hid hlt hlive

theorem History.call {call : Call ρ} (hattempts : call.attempts = next) (hown : call.Own attempts)
    (hanswered : ∀ k a, attempts.get? k = some a → a.requestId = call.requestId →
      a.phase.live = true → call.AnsweredBy k a) : History attempts next (calls ++ [call]) where
  __ := h
  made := by
    intro other hother
    rcases mem_concat.mp hother with hold | rfl
    · exact h.made other hold
    · exact Nat.le_of_eq hattempts
  own := by
    intro other hother
    rcases mem_concat.mp hother with hold | rfl
    · exact h.own other hold
    · exact hown
  answered := by
    intro other hother k a hget hid hlt hlive
    rcases mem_concat.mp hother with hold | rfl
    · exact h.answered other hold k a hget hid hlt hlive
    · exact hanswered k a hget hid hlive

end History

/-! ## The tables -/

section Tables

variable {digest : SendFields → δ}

def Attempt.fingerprint (digest : SendFields → δ) (attempt : Attempt ρ) : δ :=
  AiSessionController.sendOperationFingerprint digest attempt.sessionId attempt.input

/-- The pending table lists the unfinished attempts, the completed table the kept results. -/
structure Tables (digest : SendFields → δ) (pending : OrderedMap String (δ × Nat))
    (completed : OrderedMap String (δ × ρ)) (attempts : OrderedMap Nat (Attempt ρ)) : Prop where
  active : ∀ id f k, pending.get? id = some (f, k) → ∃ a, attempts.get? k = some a ∧
    a.requestId = id ∧ a.fingerprint digest = f ∧ a.phase.unfinished = true
  unfinished : ∀ k a, attempts.get? k = some a → a.phase.unfinished = true →
    pending.get? a.requestId = some (a.fingerprint digest, k)
  stored : ∀ id f result, completed.get? id = some (f, result) → ∃ k a,
    attempts.get? k = some a ∧ a.requestId = id ∧ a.fingerprint digest = f ∧
      a.phase.kept = some result
  kept : ∀ k a result, attempts.get? k = some a → a.phase.kept = some result →
    completed.get? a.requestId = some (a.fingerprint digest, result)

variable {pending : OrderedMap String (δ × Nat)} {completed : OrderedMap String (δ × ρ)}
variable {attempts : OrderedMap Nat (Attempt ρ)}

variable {a : Attempt ρ}

variable {k next : Nat}

variable (h : Tables digest pending completed attempts)

include h

theorem Tables.setPhase
    (hget : attempts.get? k = some a)
    (hunfinished : phase.unfinished = a.phase.unfinished) (hkept : phase.kept = a.phase.kept) :
    Tables digest pending completed (attempts.set k { a with phase := phase }) := by
  constructor
  · intro id f j hj
    obtain ⟨b, hb, hid, hf, hun⟩ := h.active id f j hj
    by_cases hjk : j = k
    · subst hjk
      obtain rfl := some.inj (hget.symm.trans hb)
      exact ⟨_, get?_set_self _ _ _, hid, hf, hunfinished.trans hun⟩
    · exact ⟨b, (get?_set_ne _ _ hjk).trans hb, hid, hf, hun⟩
  · intro j b hb hun
    rcases get?_set_eq_some hb with ⟨rfl, rfl⟩ | ⟨-, hold⟩
    · exact h.unfinished j a hget (hunfinished.symm.trans hun)
    · exact h.unfinished j b hold hun
  · intro id f result hres
    obtain ⟨j, b, hb, hid, hf, hk⟩ := h.stored id f result hres
    by_cases hjk : j = k
    · subst hjk
      obtain rfl := some.inj (hget.symm.trans hb)
      exact ⟨j, _, get?_set_self _ _ _, hid, hf, hkept.trans hk⟩
    · exact ⟨j, b, (get?_set_ne _ _ hjk).trans hb, hid, hf, hk⟩
  · intro j b result hb hk
    rcases get?_set_eq_some hb with ⟨rfl, rfl⟩ | ⟨-, hold⟩
    · exact h.kept j a result hget (hkept.symm.trans hk)
    · exact h.kept j b result hold hk

theorem Tables.record
    {calls : List (Call ρ)} (hist : History attempts next calls) {result : ρ}
    (hget : attempts.get? k = some a) (hphase : a.phase = .settled (.ok result)) :
    Tables digest pending (completed.set a.requestId (a.fingerprint digest, result))
      (attempts.set k { a with phase := .recorded (.ok result) }) := by
  have hlive : a.phase.live = true := by rw [hphase]; rfl
  have hnone : ∀ r, a.phase.kept ≠ some r := by
    intro r hr
    rw [hphase] at hr
    cases hr
  constructor
  · intro id f j hj
    obtain ⟨b, hb, hid, hf, hun⟩ := h.active id f j hj
    by_cases hjk : j = k
    · subst hjk
      obtain rfl := some.inj (hget.symm.trans hb)
      exact ⟨_, get?_set_self _ _ _, hid, hf, rfl⟩
    · exact ⟨b, (get?_set_ne _ _ hjk).trans hb, hid, hf, hun⟩
  · intro j b hb hun
    rcases get?_set_eq_some hb with ⟨rfl, rfl⟩ | ⟨-, hold⟩
    · exact h.unfinished j a hget (by rw [hphase]; rfl)
    · exact h.unfinished j b hold hun
  · intro id f r hres
    rcases get?_set_eq_some hres with ⟨rfl, heq⟩ | ⟨-, hold⟩
    · obtain ⟨rfl, rfl⟩ := Prod.mk.inj heq
      exact ⟨k, _, get?_set_self _ _ _, rfl, rfl, rfl⟩
    obtain ⟨j, b, hb, hid, hf, hk⟩ := h.stored id f r hold
    have hjk : j ≠ k := by
      rintro rfl
      obtain rfl := some.inj (hget.symm.trans hb)
      exact hnone r hk
    exact ⟨j, b, (get?_set_ne _ _ hjk).trans hb, hid, hf, hk⟩
  · intro j b r hb hk
    rcases get?_set_eq_some hb with ⟨rfl, rfl⟩ | ⟨hjk, hold⟩
    · cases hk
      exact get?_set_self _ _ _
    have hid : b.requestId ≠ a.requestId := fun hid =>
      hjk (hist.single j k b a hold hget hid (AttemptPhase.live_of_kept hk) hlive)
    exact (get?_set_ne _ _ hid).trans (h.kept j b r hold hk)

theorem Tables.finish
    {outcome : Except ControlError ρ} (hget : attempts.get? k = some a)
    (hphase : a.phase = .recorded outcome) : Tables digest
      (if (pending.get? a.requestId).map Prod.snd = some k then pending.erase a.requestId
        else pending)
      completed (attempts.set k { a with phase := .finished outcome }) := by
  have hown := h.unfinished k a hget (by rw [hphase]; rfl)
  have hkept : (AttemptPhase.finished outcome).kept = a.phase.kept := by
    rw [hphase]
    cases outcome with
    | ok result => rfl
    | error error => rfl
  rw [if_pos (by rw [hown]; rfl)]
  constructor
  · intro id f j hj
    obtain ⟨hid, hold⟩ := get?_erase_eq_some hj
    obtain ⟨b, hb, hbid, hf, hun⟩ := h.active id f j hold
    have hjk : j ≠ k := by
      rintro rfl
      obtain rfl := some.inj (hget.symm.trans hb)
      exact hid hbid.symm
    exact ⟨b, (get?_set_ne _ _ hjk).trans hb, hbid, hf, hun⟩
  · intro j b hb hun
    rcases get?_set_eq_some hb with ⟨-, rfl⟩ | ⟨hjk, hold⟩
    · cases hun
    have hpend := h.unfinished j b hold hun
    have hid : b.requestId ≠ a.requestId := by
      intro hid
      rw [hid, hown] at hpend
      exact hjk (congrArg Prod.snd (some.inj hpend)).symm
    exact (get?_erase_ne _ hid).trans hpend
  · intro id f r hres
    obtain ⟨j, b, hb, hid, hf, hk⟩ := h.stored id f r hres
    by_cases hjk : j = k
    · subst hjk
      obtain rfl := some.inj (hget.symm.trans hb)
      exact ⟨j, _, get?_set_self _ _ _, hid, hf, hkept.trans hk⟩
    · exact ⟨j, b, (get?_set_ne _ _ hjk).trans hb, hid, hf, hk⟩
  · intro j b r hb hk
    rcases get?_set_eq_some hb with ⟨rfl, rfl⟩ | ⟨-, hold⟩
    · exact h.kept j a r hget (hkept.symm.trans hk)
    · exact h.kept j b r hold hk

theorem Tables.idle {id : String}
    (hcompleted : completed.get? id = none) (hpending : pending.get? id = none) :
    ∀ k b, attempts.get? k = some b → b.requestId = id → b.phase.live = false := by
  rintro k b hb rfl
  cases hlive : b.phase.live with
  | false => rfl
  | true =>
    rcases AttemptPhase.live_iff.mp hlive with hun | ⟨result, hk⟩
    · exact absurd (h.unfinished k b hb hun) (by simp [hpending])
    · exact absurd (h.kept k b result hb hk) (by simp [hcompleted])

theorem Tables.begin
    (hfresh : ∀ k b, attempts.get? k = some b → k < next)
    (hidle : ∀ k b, attempts.get? k = some b → b.requestId = a.requestId → b.phase.live = false)
    (hunfinished : a.phase.unfinished = true) (hkept : a.phase.kept = none) :
    Tables digest (pending.set a.requestId (a.fingerprint digest, next)) completed
      (attempts.set next a) := by
  constructor
  · intro id f j hj
    rcases get?_set_eq_some hj with ⟨rfl, heq⟩ | ⟨-, hold⟩
    · obtain ⟨rfl, rfl⟩ := Prod.mk.inj heq
      exact ⟨a, get?_set_self _ _ _, rfl, rfl, hunfinished⟩
    · obtain ⟨b, hb, hrest⟩ := h.active id f j hold
      exact ⟨b, (get?_set_ne _ _ (Nat.ne_of_lt (hfresh j b hb))).trans hb, hrest⟩
  · intro j b hb hun
    rcases get?_set_eq_some hb with ⟨rfl, rfl⟩ | ⟨-, hold⟩
    · exact get?_set_self _ _ _
    have hid : b.requestId ≠ a.requestId := by
      intro hid
      have hlive := AttemptPhase.live_of_unfinished hun
      rw [hidle j b hold hid] at hlive
      cases hlive
    exact (get?_set_ne _ _ hid).trans (h.unfinished j b hold hun)
  · intro id f r hres
    obtain ⟨j, b, hb, hrest⟩ := h.stored id f r hres
    exact ⟨j, b, (get?_set_ne _ _ (Nat.ne_of_lt (hfresh j b hb))).trans hb, hrest⟩
  · intro j b r hb hk
    rcases get?_set_eq_some hb with ⟨rfl, rfl⟩ | ⟨-, hold⟩
    · cases hkept.symm.trans hk
    · exact h.kept j b r hold hk

end Tables

namespace AiSessionController

variable {digest : SendFields → δ}

/-! ## Every step keeps the invariant -/

structure Inv (digest : SendFields → δ) (c : AiSessionController δ ρ) : Prop where
  tables : Tables digest c.pendingSendOperations c.completedSendOperations c.attempts
  history : History c.attempts c.nextAttempt c.calls
  accepted : ∀ k, k ∈ c.accepted ↔
    ∃ a result, c.attempts.get? k = some a ∧ a.phase.succeeded = some result
  nodup : c.accepted.Nodup

theorem Inv.init : Inv digest (new : AiSessionController δ ρ) where
  tables := by constructor <;> simp [new]
  history := History.init
  accepted := by simp [new]
  nodup := nodup_nil

/-- The step neither commits a message in vain nor meets a live attempt of the same request id
whose hashed fields it shares but whose content it does not. -/
def Distinguishes (digest : SendFields → δ) (c : AiSessionController δ ρ) : Action ρ → Prop
  | .call sessionId input _ =>
    ∀ a ∈ c.attempts.values, truthy input.clientRequestId = some a.requestId →
      a.phase.live = true →
        a.fingerprint digest = sendOperationFingerprint digest sessionId input →
          a.content = messageContent sessionId input
  | .settle _ (.commitFailed _) => False
  | _ => True

instance [DecidableEq δ] (digest : SendFields → δ) (c : AiSessionController δ ρ) :
    ∀ action, Decidable (Distinguishes digest c action)
  | .call sessionId input _ =>
    inferInstanceAs (Decidable (∀ a ∈ c.attempts.values,
      truthy input.clientRequestId = some a.requestId → a.phase.live = true →
        a.fingerprint digest = sendOperationFingerprint digest sessionId input →
          a.content = messageContent sessionId input))
  | .settle _ (.accepted _) => inferInstanceAs (Decidable True)
  | .settle _ (.refused _) => inferInstanceAs (Decidable True)
  | .settle _ (.commitFailed _) => inferInstanceAs (Decidable False)
  | .record _ => inferInstanceAs (Decidable True)
  | .finish _ => inferInstanceAs (Decidable True)

variable {k : Nat}

variable {a : Attempt ρ} {c' : AiSessionController δ ρ} {requestId sessionId : String}
  {input : AiSessionSendInput}

theorem accepted_setPhase {accepted : List Nat} {attempts : OrderedMap Nat (Attempt ρ)}
    (h : ∀ k, k ∈ accepted ↔ ∃ a result, attempts.get? k = some a ∧ a.phase.succeeded = some result) (hget : attempts.get? k = some a)
    (hsame : phase.succeeded = a.phase.succeeded) (j : Nat) :
    j ∈ accepted ↔ ∃ b result, (attempts.set k { a with phase := phase }).get? j = some b ∧
      b.phase.succeeded = some result := by
  rw [h j, get?_set]
  by_cases hj : j = k
  · subst hj
    simp [hget, hsame]
  · simp [hj]

variable {c : AiSessionController δ ρ}

section

variable (h : Inv digest c)

include h

theorem Inv.setPhase
    (hget : c.attempts.get? k = some a) (hunfinished : phase.unfinished = a.phase.unfinished)
    (hkept : phase.kept = a.phase.kept) (hlive : phase.live = true → a.phase.live = true)
    (hsame : phase.succeeded = a.phase.succeeded) : Inv digest (c.setPhase k a phase) where
  tables := h.tables.setPhase hget hunfinished hkept
  history := h.history.setPhase hget hlive fun _ hr => hsame.trans hr
  accepted := accepted_setPhase h.accepted hget hsame
  nodup := h.nodup

theorem Inv.settle {outcome : ProviderOutcome ρ}
    (hcommit : Distinguishes digest c (.settle k outcome)) (hstep : c.settle k outcome = some c') :
    Inv digest c' := by
  unfold AiSessionController.settle at hstep
  split at hstep
  swap
  · cases hstep
  rename_i requestId sessionId input hget
  cases outcome with
  | accepted result =>
    cases hstep
    have hnew : k ∉ c.accepted := by
      rw [h.accepted]
      rintro ⟨a, r, ha, hr⟩
      obtain rfl := some.inj (hget.symm.trans ha)
      cases hr
    constructor
    · exact h.tables.setPhase hget rfl rfl
    · exact h.history.setPhase hget (fun _ => rfl) fun _ hr => by cases hr
    · intro j
      simp only [AiSessionController.setPhase, mem_append, mem_singleton, h.accepted, get?_set]
      by_cases hj : j = k
      · simp [hj, AttemptPhase.succeeded, AttemptPhase.outcome, Except.toOption]
      · simp [hj]
    · exact nodup_append.mpr ⟨h.nodup, nodup_singleton k, by
        rintro j hj _ hk rfl
        exact hnew (mem_singleton.mp hk ▸ hj)⟩
  | refused error =>
    cases hstep
    exact h.setPhase hget rfl rfl (fun _ => rfl) rfl
  | commitFailed error => exact absurd hcommit id

theorem Inv.record (hstep : c.record digest k = some c') : Inv digest c' := by
  unfold AiSessionController.record at hstep
  split at hstep
  next requestId sessionId input outcome hget =>
    cases outcome with
    | ok result =>
      cases hstep
      constructor
      · exact h.tables.record h.history hget rfl
      · exact h.history.setPhase hget (fun _ => rfl) fun _ => id
      · exact accepted_setPhase h.accepted hget rfl
      · exact h.nodup
    | error error =>
      cases hstep
      exact h.setPhase hget rfl rfl (fun _ => rfl) rfl
  · cases hstep

theorem Inv.finish (hstep : c.finish k = some c') : Inv digest c' := by
  unfold AiSessionController.finish at hstep
  split at hstep
  next requestId sessionId input outcome hget =>
    cases hstep
    constructor
    · exact h.tables.finish hget rfl
    · exact h.history.setPhase hget (fun _ => rfl) fun _ => id
    · exact accepted_setPhase h.accepted hget rfl
    · exact h.nodup
  · cases hstep

end

theorem firstPhase_cases (context : SendContext ρ) (input : AiSessionSendInput) :
    (∃ result, firstPhase context input = .settled (.ok result)) ∨
      (∃ error, firstPhase context input = .settled (.error error)) ∨
        firstPhase context input = .dispatching := by
  unfold firstPhase
  split
  next error _ => exact .inr (.inl ⟨error, rfl⟩)
  next result _ => exact .inl ⟨result, rfl⟩
  · exact .inr (.inr rfl)

theorem Inv.begin (h : Inv digest c) (sessionId : String)
    (input : AiSessionSendInput) (context : SendContext ρ)
    (hcompleted : c.completedSendOperations.get? requestId = none)
    (hpending : c.pendingSendOperations.get? requestId = none) :
    Inv digest (c.begin (sendOperationFingerprint digest sessionId input) requestId sessionId input
      (firstPhase context input)) := by
  have hidle := h.tables.idle hcompleted hpending
  have hunfinished : (firstPhase context input).unfinished = true ∧
      (firstPhase context input).kept = none := by
    rcases firstPhase_cases context input with ⟨result, hp⟩ | ⟨error, hp⟩ | hp
    · exact hp ▸ ⟨rfl, rfl⟩
    · exact hp ▸ ⟨rfl, rfl⟩
    · exact hp ▸ ⟨rfl, rfl⟩
  have hnew : c.nextAttempt ∉ c.accepted := by
    rw [h.accepted]
    rintro ⟨a, r, ha, -⟩
    exact Nat.lt_irrefl _ (h.history.fresh _ a ha)
  have hget : c.attempts.get? c.nextAttempt = none := by
    cases hj : c.attempts.get? c.nextAttempt with
    | none => rfl
    | some a => exact absurd (h.history.fresh _ a hj) (Nat.lt_irrefl _)
  constructor
  · exact h.tables.begin (a := ⟨requestId, sessionId, input, firstPhase context input⟩)
      h.history.fresh hidle hunfinished.1 hunfinished.2
  · exact h.history.begin hidle
  · intro j
    simp only [AiSessionController.begin, get?_set]
    rcases firstPhase_cases context input with ⟨result, hp⟩ | ⟨error, hp⟩ | hp
    · simp only [hp, mem_append, mem_singleton, h.accepted]
      by_cases hj : j = c.nextAttempt
      · simp [hj, AttemptPhase.succeeded, AttemptPhase.outcome, Except.toOption]
      · simp [hj]
    · simp only [hp, h.accepted]
      by_cases hj : j = c.nextAttempt
      · simp [hj, AttemptPhase.succeeded, AttemptPhase.outcome, Except.toOption]
        exact fun a ha => absurd ha (by simp [hget])
      · simp [hj]
    · simp only [hp, h.accepted]
      by_cases hj : j = c.nextAttempt
      · simp [hj, AttemptPhase.succeeded, AttemptPhase.outcome]
        simp [hget]
      · simp [hj]
  · simp only [AiSessionController.begin]
    split
    · exact nodup_append.mpr ⟨h.nodup, nodup_singleton _, by
        rintro j hj _ hk rfl
        exact hnew (mem_singleton.mp hk ▸ hj)⟩
    · exact h.nodup

theorem Inv.respond (h : Inv digest c) {answer : Answer ρ}
    (hown : Call.Own ⟨requestId, messageContent sessionId input, answer, c.nextAttempt⟩ c.attempts)
    (hanswered : ∀ k a, c.attempts.get? k = some a → a.requestId = requestId → a.phase.live = true →
        Call.AnsweredBy ⟨requestId, messageContent sessionId input, answer, c.nextAttempt⟩ k a) :
    Inv digest (c.respond requestId sessionId input answer) where
  __ := h
  history := h.history.call rfl hown hanswered

variable [DecidableEq δ]

theorem Inv.sendMessage (h : Inv digest c)
    {context : SendContext ρ} (hdist : Distinguishes digest c (.call sessionId input context)) :
    Inv digest (c.sendMessage digest sessionId input context) := by
  unfold AiSessionController.sendMessage
  split
  · exact h
  rename_i clientRequestId hid
  -- with a live attempt the fingerprints agree exactly where the contents do
  have hcontent : ∀ k a, c.attempts.get? k = some a → a.requestId = clientRequestId →
      a.phase.live = true →
        (a.fingerprint digest = sendOperationFingerprint digest sessionId input ↔
          messageContent sessionId input = a.content) := by
    intro k a ha haid hlive
    constructor
    · intro hf
      exact (hdist a (mem_values.mpr ⟨k, ha⟩) (haid ▸ hid) hlive hf).symm
    · intro heq
      exact congrArg digest (sendFields_congr heq.symm)
  split
  next completed result hcompleted =>
    obtain ⟨k, a, ha, haid, rfl, hkept⟩ := h.tables.stored _ _ _ hcompleted
    have hlive := AttemptPhase.live_of_kept hkept
    have hiff := hcontent k a ha haid hlive
    have hsuccess := AttemptPhase.succeeded_of_kept hkept
    refine h.respond ?_ ?_
    · unfold Call.Own
      by_cases hf : a.fingerprint digest = sendOperationFingerprint digest sessionId input
      · simp only [hf, ne_eq, not_true_eq_false, if_false]
        exact ⟨k, a, ha, haid, (hiff.mp hf).symm, hsuccess⟩
      · simp only [ne_eq, hf, not_false_eq_true, if_true]
    intro j b hb hbid hblive
    obtain rfl := h.history.single j k b a hb ha (hbid.trans haid.symm) hblive hlive
    obtain rfl := some.inj (ha.symm.trans hb)
    by_cases hf : a.fingerprint digest = sendOperationFingerprint digest sessionId input
    · exact .inl ⟨hiff.mp hf, .inr ⟨result, by simp [hf], hsuccess⟩⟩
    · exact .inr ⟨fun heq => hf (hiff.mpr heq), by simp [hf]⟩
  next hcompleted =>
    split
    next active attempt hpending =>
      obtain ⟨a, ha, haid, rfl, hun⟩ := h.tables.active _ _ _ hpending
      have hlive := AttemptPhase.live_of_unfinished hun
      have hiff := hcontent attempt a ha haid hlive
      refine h.respond ?_ ?_
      · unfold Call.Own
        by_cases hf : a.fingerprint digest = sendOperationFingerprint digest sessionId input
        · simp only [hf, ne_eq, not_true_eq_false, if_false]
          exact ⟨a, ha, haid, (hiff.mp hf).symm⟩
        · simp only [ne_eq, hf, not_false_eq_true, if_true]
      intro j b hb hbid hblive
      obtain rfl := h.history.single j attempt b a hb ha (hbid.trans haid.symm) hblive hlive
      obtain rfl := some.inj (ha.symm.trans hb)
      by_cases hf : a.fingerprint digest = sendOperationFingerprint digest sessionId input
      · exact .inl ⟨hiff.mp hf, .inl (by simp [hf])⟩
      · exact .inr ⟨fun heq => hf (hiff.mpr heq), by simp [hf]⟩
    next hpending =>
      have hidle := h.tables.idle hcompleted hpending
      refine (h.begin sessionId input context hcompleted hpending).respond ?_ ?_
      · exact ⟨_, get?_set_self _ _ _, rfl, rfl⟩
      intro k b hb hbid hblive
      rcases get?_set_eq_some hb with ⟨rfl, rfl⟩ | ⟨-, hold⟩
      · exact .inl ⟨rfl, .inl rfl⟩
      · rw [hidle k b hold hbid] at hblive
        cases hblive

theorem Inv.step {action : Action ρ} (h : Inv digest c)
    (hdist : Distinguishes digest c action) (hstep : c.step digest action = some c') :
    Inv digest c' := by
  cases action with
  | call sessionId input context => exact some.inj hstep ▸ h.sendMessage hdist
  | settle attempt outcome => exact h.settle hdist hstep
  | record attempt => exact h.record hstep
  | finish attempt => exact h.finish hstep

/-! ## Idempotence -/

/-- Per request id at most one message is accepted; the calls made since its attempt began get
its result if they ask for the same content and are refused otherwise; and no call is answered
by an attempt with another content. -/
structure Idempotent (c : AiSessionController δ ρ) : Prop where
  once : c.accepted.Nodup ∧ ∀ j ∈ c.accepted, ∀ k ∈ c.accepted, ∀ a b,
    c.attempts.get? j = some a → c.attempts.get? k = some b → a.requestId = b.requestId → j = k
  answered : ∀ k ∈ c.accepted, ∀ a, c.attempts.get? k = some a → ∀ call ∈ c.calls,
    call.requestId = a.requestId → k < call.attempts → call.AnsweredBy k a
  own : ∀ call ∈ c.calls, call.Own c.attempts

omit [DecidableEq δ] in
theorem Inv.idempotent (h : Inv digest c) : c.Idempotent := by
  have hlive : ∀ k ∈ c.accepted, ∀ a, c.attempts.get? k = some a → a.phase.live = true := by
    intro k hk a ha
    obtain ⟨b, result, hb, hsuccess⟩ := (h.accepted k).mp hk
    obtain rfl := some.inj (ha.symm.trans hb)
    cases hphase : a.phase with
    | finished outcome =>
      cases outcome with
      | ok result => rfl
      | error error =>
        rw [hphase] at hsuccess
        cases hsuccess
    | dispatching => rfl
    | settled outcome => rfl
    | recorded outcome => rfl
  constructor
  · refine ⟨h.nodup, fun j hj k hk a b ha hb hid => ?_⟩
    exact h.history.single j k a b ha hb hid (hlive j hj a ha) (hlive k hk b hb)
  · intro k hk a ha call hcall hid hlt
    exact h.history.answered call hcall k a ha hid.symm hlt (hlive k hk a ha)
  · exact h.history.own

/-- Sending is idempotent in every run in which the fingerprints tell the contents of one
request id apart and an accepted message is committed. -/
theorem send_idempotent {actions : List (Action ρ)} {c : AiSessionController δ ρ}
    (hrun : Machine.run (step digest) new actions = some c)
    (hdist : Machine.AllSteps (step digest) (Distinguishes digest) new actions) : c.Idempotent := by
  have h : Inv digest c :=
    run_invariant_of_steps (fun _ _ _ hstep hd h => h.step hd hstep) hrun hdist Inv.init
  exact h.idempotent

/-! ## Messages that differ in their uploads -/

def exampleInput (clientRequestId : String) (draftAttachmentIds : List String) :
    AiSessionSendInput where
  message := "see the attached file"
  mode := none
  clientRequestId := some clientRequestId
  attachments := some []
  references := some []
  permissionMode := none
  draftAttachmentIds := some draftAttachmentIds
  draftScopeType := some .session
  draftScopeId := some "session"

def exampleContext (status : AiSessionLifecycle) : SendContext String where
  session := some ⟨"codex", status, false, true, true, true⟩
  staged := .ok ()
  queued := some "queued"

/-- A retry joins the attempt in progress, gets its result later, and another text is refused. -/
theorem send_idempotent_example : ∃ c : AiSessionController SendFields String,
      Machine.run (step id) new [.call "session" (exampleInput "r" ["a"]) (exampleContext .idle),
          .settle 0 (.refused sessionBusy), .record 0, .finish 0,
          .call "session" (exampleInput "r" ["a"]) (exampleContext .idle),
          .call "session" (exampleInput "r" ["a"]) (exampleContext .running),
          .settle 1 (.accepted "turn"), .record 1, .finish 1,
          .call "session" (exampleInput "r" ["a"]) (exampleContext .idle),
          .call "other" (exampleInput "r" ["a"]) (exampleContext .idle),
          .call "session" (exampleInput "q" ["b"]) (exampleContext .running)] = some c ∧
        c.calls.map Call.answer =
          [.promise 0, .promise 1, .promise 1, .result "turn", .conflict, .promise 2] ∧
        c.Idempotent := by
  refine ⟨_, rfl, by decide, ?_⟩
  exact @send_idempotent _ _ id _ [.call "session" (exampleInput "r" ["a"]) (exampleContext .idle),
      .settle 0 (.refused sessionBusy), .record 0, .finish 0,
      .call "session" (exampleInput "r" ["a"]) (exampleContext .idle),
      .call "session" (exampleInput "r" ["a"]) (exampleContext .running),
      .settle 1 (.accepted "turn"), .record 1, .finish 1,
      .call "session" (exampleInput "r" ["a"]) (exampleContext .idle),
      .call "other" (exampleInput "r" ["a"]) (exampleContext .idle),
      .call "session" (exampleInput "q" ["b"]) (exampleContext .running)] _ rfl (by decide)

/-- Two messages of one request id with different uploads: the second is answered with the
result of the first and never sent. -/
theorem send_not_idempotent : ∃ c : AiSessionController SendFields String, Machine.run (step id) new
        [.call "session" (exampleInput "r" ["a"]) (exampleContext .idle),
          .settle 0 (.accepted "turn"), .record 0, .finish 0,
          .call "session" (exampleInput "r" ["b"]) (exampleContext .idle)] = some c ∧
        c.calls.map Call.answer = [.promise 0, .result "turn"] ∧ ¬ c.Idempotent := by
  refine ⟨_, rfl, by decide, ?_⟩
  intro h
  have hown := h.own ⟨"r", messageContent "session" (exampleInput "r" ["b"]), .result "turn", 1⟩
    (by decide)
  obtain ⟨k, a, hget, -, hcontent, -⟩ := hown
  have hmem := mem_values.mpr ⟨k, hget⟩
  rw [mem_singleton.mp hmem] at hcontent
  exact absurd hcontent (by decide)

end AiSessionController

end TaskHandoff.AiSessions.SendMessage
