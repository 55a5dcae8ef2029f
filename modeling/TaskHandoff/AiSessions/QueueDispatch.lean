import TaskHandoff.AiSessions.QueueService
import TaskHandoff.Lib.Machine
import TaskHandoff.Lib.OrderedMap

/-! # Dispatching queued messages

`AiSessionController` hands queued messages to a provider. A call runs up to
its first `await` in one step; the promise it waits for settles in a second
step, and its continuation runs in a third, so the calls of several clients
interleave at these points. A dispatch is such a call between its start and its
continuation.
-/

namespace TaskHandoff.AiSessions.QueueDispatch

open Machine OrderedMap

inductive AiSessionLifecycle where
  | running
  | waiting
  | idle
  | failed
deriving DecidableEq

structure AiSessionStatus (μ : Type) where
  status : AiSessionLifecycle
  queue : AiSessionQueue μ

variable {μ : Type}

def isSessionBusy (session : AiSessionStatus μ) : Bool :=
  session.status = .running || session.status = .waiting

structure ControlError where
  code : String
  message : String
  statusCode : Nat

def sessionNotFound : ControlError := ⟨"AI_SESSION_NOT_FOUND", "AI session not found.", 404⟩

def queueItemNotFound : ControlError :=
  ⟨"AI_SESSION_QUEUE_ITEM_NOT_FOUND", "Queued message not found.", 404⟩

/-! ## Calls in progress -/

inductive DispatchKind where
  | next
  | steer

/-- What the call awaits: the story tools, the provider, or its own
continuation after one of them settled. -/
inductive DispatchPhase where
  | tools
  | provider
  | succeeded
  | failed (error : String)
deriving DecidableEq

structure Dispatch where
  sessionId : String
  queueId : Nat
  kind : DispatchKind
  phase : DispatchPhase

/-- The message that a dispatch hands over. -/
def Dispatch.key (d : Dispatch) : String × Nat := (d.sessionId, d.queueId)

/-- `handed` records the messages that a provider accepted, `enqueued` and
`removed` those that clients put in and took out; no method reads them. -/
structure Controller (μ : Type) where
  sessions : OrderedMap String (AiSessionStatus μ)
  nextQueueId : Nat
  dispatches : OrderedMap Nat Dispatch
  nextDispatch : Nat
  handed : List (String × Nat)
  enqueued : List (String × Nat)
  removed : List (String × Nat)

namespace Controller

def new : Controller μ := ⟨OrderedMap.empty, 0, OrderedMap.empty, 0, [], [], []⟩

/-- The registry's mutation of a session's queue; without a result nothing is put. -/
def updateQueue (c : Controller μ) (sessionId : String)
    (f : AiSessionQueue μ → Option (AiSessionQueue μ)) : Controller μ :=
  match c.sessions.get? sessionId with
  | none => c
  | some session =>
    match f session.queue with
    | none => c
    | some queue => { c with sessions := c.sessions.set sessionId { session with queue := queue } }

def dispatch (c : Controller μ) (d : Dispatch) : Controller μ :=
  { c with
    dispatches := c.dispatches.set c.nextDispatch d
    nextDispatch := c.nextDispatch + 1 }

/-- A provider that is missing or lacks the method rejects the call at once. -/
def startPhase (unsupported : Option String) (awaitsTools : Bool) : DispatchPhase :=
  match unsupported with
  | some error => .failed error
  | none => if awaitsTools then .tools else .provider

def enqueueMessage (c : Controller μ) (sessionId : String) (body : μ) :
    Except ControlError (Controller μ) :=
  match c.sessions.get? sessionId with
  | none => .error sessionNotFound
  | some session =>
    match session.queue.enqueueMessage c.nextQueueId body with
    | none => .error sessionNotFound
    | some queue =>
      .ok { c with
        sessions := c.sessions.set sessionId { session with queue := queue }
        nextQueueId := c.nextQueueId + 1
        enqueued := (sessionId, c.nextQueueId) :: c.enqueued }

def sendNextQueuedMessage (c : Controller μ) (sessionId : String) (unsupported : Option String)
    (awaitsTools : Bool) : Except ControlError (Controller μ) :=
  match c.sessions.get? sessionId with
  | none => .error sessionNotFound
  | some session =>
    if isSessionBusy session then .ok c
    else
      match session.queue.nextQueuedMessage with
      | none => .ok c
      | some item =>
        .ok <| (c.updateQueue sessionId (·.markQueuedMessageSending item.id)).dispatch
          ⟨sessionId, item.id, .next, startPhase unsupported awaitsTools⟩

/-- The status of the message is not looked at, and not marked. -/
def steerQueuedMessage (c : Controller μ) (sessionId : String) (queueId : Nat)
    (unsupported : Option String) : Except ControlError (Controller μ) :=
  match c.sessions.get? sessionId with
  | none => .error sessionNotFound
  | some session =>
    if queueId ∈ session.queue.ids then
      .ok (c.dispatch ⟨sessionId, queueId, .steer, startPhase unsupported false⟩)
    else .error queueItemNotFound

def retryQueuedMessage (c : Controller μ) (sessionId : String) (queueId : Nat) :
    Except ControlError (Controller μ) :=
  match c.sessions.get? sessionId with
  | none => .error queueItemNotFound
  | some session =>
    match session.queue.retryQueuedMessage queueId with
    | none => .error queueItemNotFound
    | some _ => .ok (c.updateQueue sessionId (·.retryQueuedMessage queueId))

def removeQueuedMessage (c : Controller μ) (sessionId : String) (queueId : Nat) :
    Except ControlError (Controller μ) :=
  match c.sessions.get? sessionId with
  | none => .error sessionNotFound
  | some session =>
    match session.queue.removeQueuedMessage queueId with
    | none => .error queueItemNotFound
    | some _ =>
      .ok { c.updateQueue sessionId (·.removeQueuedMessage queueId) with
        removed := (sessionId, queueId) :: c.removed }

/-- The awaited promise settles; the tools lead on to the provider. -/
def settle (c : Controller μ) (ticket : Nat) (result : Except String Unit) :
    Option (Controller μ) :=
  match c.dispatches.get? ticket with
  | none => none
  | some d =>
    match d.phase, result with
    | .tools, .ok () =>
      some { c with dispatches := c.dispatches.set ticket { d with phase := .provider } }
    | .provider, .ok () =>
      some { c with
        dispatches := c.dispatches.set ticket { d with phase := .succeeded }
        handed := d.key :: c.handed }
    | .tools, .error error | .provider, .error error =>
      some { c with dispatches := c.dispatches.set ticket { d with phase := .failed error } }
    | _, _ => none

/-- The continuation after the last `await`. A failed steer leaves the queue alone. -/
def resume (c : Controller μ) (ticket : Nat) : Option (Controller μ) :=
  match c.dispatches.get? ticket with
  | none => none
  | some d =>
    let rest := { c with dispatches := c.dispatches.erase ticket }
    match d.phase, d.kind with
    | .succeeded, _ => some (rest.updateQueue d.sessionId (·.removeQueuedMessage d.queueId))
    | .failed error, .next =>
      some (rest.updateQueue d.sessionId (·.markQueuedMessageFailed d.queueId error))
    | .failed _, .steer => some rest
    | _, _ => none

end Controller

open Controller

inductive Action (μ : Type) where
  | start (sessionId : String)
  | setStatus (sessionId : String) (status : AiSessionLifecycle)
  | enqueue (sessionId : String) (body : μ)
  | sendNext (sessionId : String) (unsupported : Option String) (awaitsTools : Bool)
  | steer (sessionId : String) (queueId : Nat) (unsupported : Option String)
  | retry (sessionId : String) (queueId : Nat)
  | remove (sessionId : String) (queueId : Nat)
  | settle (ticket : Nat) (result : Except String Unit)
  | resume (ticket : Nat)

/-- A rejected call leaves the controller as it was. -/
def orElse (c : Controller μ) : Except ControlError (Controller μ) → Controller μ
  | .ok c' => c'
  | .error _ => c

def step (c : Controller μ) : Action μ → Option (Controller μ)
  | .start sessionId =>
    if c.sessions.contains sessionId then none
    else some { c with
      sessions := c.sessions.set sessionId ⟨.idle, AiSessionQueue.empty⟩ }
  | .setStatus sessionId status =>
    match c.sessions.get? sessionId with
    | none => none
    | some session =>
      some { c with sessions := c.sessions.set sessionId { session with status := status } }
  | .enqueue sessionId body => some (orElse c (c.enqueueMessage sessionId body))
  | .sendNext sessionId unsupported awaitsTools =>
    some (orElse c (c.sendNextQueuedMessage sessionId unsupported awaitsTools))
  | .steer sessionId queueId unsupported =>
    some (orElse c (c.steerQueuedMessage sessionId queueId unsupported))
  | .retry sessionId queueId => some (orElse c (c.retryQueuedMessage sessionId queueId))
  | .remove sessionId queueId => some (orElse c (c.removeQueuedMessage sessionId queueId))
  | .settle ticket result => c.settle ticket result
  | .resume ticket => c.resume ticket

/-! ## What the queues hold -/

namespace Controller

/-- The message stands in its session's queue. -/
def Queued (c : Controller μ) (key : String × Nat) : Prop :=
  ∃ session, c.sessions.get? key.1 = some session ∧ key.2 ∈ session.queue.ids

variable {c c' : Controller μ} {sessionId : String} {queueId ticket : Nat} {key : String × Nat}
  {f : AiSessionQueue μ → Option (AiSessionQueue μ)} {session : AiSessionStatus μ}

theorem updateQueue_frame (c : Controller μ) (sessionId : String)
    (f : AiSessionQueue μ → Option (AiSessionQueue μ)) :
    ∃ sessions, c.updateQueue sessionId f = { c with sessions := sessions } := by
  unfold updateQueue
  split
  · exact ⟨c.sessions, rfl⟩
  split
  · exact ⟨c.sessions, rfl⟩
  · exact ⟨_, rfl⟩

@[simp] theorem updateQueue_dispatches : (c.updateQueue sessionId f).dispatches = c.dispatches := by
  obtain ⟨sessions, hframe⟩ := updateQueue_frame c sessionId f
  rw [hframe]

@[simp] theorem updateQueue_nextDispatch :
    (c.updateQueue sessionId f).nextDispatch = c.nextDispatch := by
  obtain ⟨sessions, hframe⟩ := updateQueue_frame c sessionId f
  rw [hframe]

theorem queued_updateQueue (keep : Nat → Prop)
    (hf : ∀ queue queue', f queue = some queue' → ∀ id, id ∈ queue'.ids ↔ id ∈ queue.ids ∧ keep id)
    (hnone : ∀ queue, f queue = none → ∀ id ∈ queue.ids, keep id) :
    Queued (c.updateQueue sessionId f) key ↔ Queued c key ∧ (key.1 = sessionId → keep key.2) := by
  unfold updateQueue
  split
  next hs =>
    constructor
    · rintro ⟨session, hsession, hid⟩
      refine ⟨⟨session, hsession, hid⟩, ?_⟩
      intro hkey
      rw [hkey, hs] at hsession
      cases hsession
    · exact fun h => h.1
  next session hs =>
    split
    next hq =>
      constructor
      · rintro ⟨other, hother, hid⟩
        refine ⟨⟨other, hother, hid⟩, ?_⟩
        intro hkey
        rw [hkey, hs] at hother
        cases hother
        exact hnone _ hq _ hid
      · exact fun h => h.1
    next queue hq =>
      by_cases hkey : key.1 = sessionId
      · have hset : (c.sessions.set sessionId { session with queue := queue }).get? key.1 =
            some { session with queue := queue } := by
          rw [hkey, get?_set_self]
        constructor
        · rintro ⟨other, hother, hid⟩
          obtain rfl := Option.some.inj (hset.symm.trans hother)
          obtain ⟨hold, hkeep⟩ := (hf _ _ hq _).mp hid
          exact ⟨⟨session, hkey ▸ hs, hold⟩, fun _ => hkeep⟩
        · rintro ⟨⟨other, hother, hid⟩, hkeep⟩
          rw [hkey, hs] at hother
          cases hother
          exact ⟨_, hset, (hf _ _ hq _).mpr ⟨hid, hkeep hkey⟩⟩
      · constructor
        · rintro ⟨other, hother, hid⟩
          rw [get?_set_ne _ _ hkey] at hother
          exact ⟨⟨other, hother, hid⟩, fun h => (hkey h).elim⟩
        · rintro ⟨⟨other, hother, hid⟩, -⟩
          exact ⟨other, by rwa [get?_set_ne _ _ hkey], hid⟩

theorem queued_patch {status : QueuedMessageStatus} {error : Option String} :
    Queued (c.updateQueue sessionId (·.patchQueuedMessage queueId status error)) key ↔
      Queued c key := by
  have h : Queued (c.updateQueue sessionId (·.patchQueuedMessage queueId status error)) key ↔
      Queued c key ∧ (key.1 = sessionId → True) := queued_updateQueue (fun _ => True)
    (fun queue queue' hq id => by
      rw [AiSessionQueue.patchQueuedMessage_ids hq]
      exact ⟨fun h => ⟨h, trivial⟩, fun h => h.1⟩)
    (fun _ _ _ _ => trivial)
  rw [h]
  exact ⟨fun h => h.1, fun h => ⟨h, fun _ => trivial⟩⟩

theorem queued_retry :
    Queued (c.updateQueue sessionId (·.retryQueuedMessage queueId)) key ↔ Queued c key := by
  have h : Queued (c.updateQueue sessionId (·.retryQueuedMessage queueId)) key ↔
      Queued c key ∧ (key.1 = sessionId → True) := queued_updateQueue (fun _ => True)
    (fun queue queue' hq id => by
      rw [AiSessionQueue.retryQueuedMessage_ids hq]
      exact ⟨fun h => ⟨h, trivial⟩, fun h => h.1⟩)
    (fun _ _ _ _ => trivial)
  rw [h]
  exact ⟨fun h => h.1, fun h => ⟨h, fun _ => trivial⟩⟩

theorem queued_remove : Queued (c.updateQueue sessionId (·.removeQueuedMessage queueId)) key ↔
      Queued c key ∧ key ≠ (sessionId, queueId) := by
  have h : Queued (c.updateQueue sessionId (·.removeQueuedMessage queueId)) key ↔
      Queued c key ∧ (key.1 = sessionId → key.2 ≠ queueId) :=
    queued_updateQueue (fun id => id ≠ queueId)
    (fun queue queue' hq id => AiSessionQueue.removeQueuedMessage_ids hq)
    (fun queue hq id hid => by
      rintro rfl
      simp [AiSessionQueue.removeQueuedMessage, hid] at hq)
  rw [h]
  refine and_congr_right fun _ => ?_
  constructor
  · rintro hkeep rfl
    exact hkeep rfl rfl
  · intro hne hsession hid
    exact hne (Prod.ext hsession hid)

theorem queued_enqueue {queue : AiSessionQueue μ} {body : μ}
    (hs : c.sessions.get? sessionId = some session)
    (hq : session.queue.enqueueMessage c.nextQueueId body = some queue)
    (hc' : c'.sessions = c.sessions.set sessionId { session with queue := queue }) :
    (∀ key, Queued c key → Queued c' key) ∧ Queued c' (sessionId, c.nextQueueId) ∧
      ∀ key, Queued c' key → Queued c key ∨ key = (sessionId, c.nextQueueId) := by
  obtain ⟨hkept, hnew, honly⟩ := AiSessionQueue.enqueueMessage_ids hq
  have hself : c'.sessions.get? sessionId = some { session with queue := queue } := by
    rw [hc', get?_set_self]
  refine ⟨?_, ⟨_, hself, hnew⟩, ?_⟩
  · rintro key ⟨other, hother, hid⟩
    by_cases hkey : key.1 = sessionId
    · rw [hkey, hs] at hother
      cases hother
      exact ⟨_, hkey ▸ hself, hkept _ hid⟩
    · exact ⟨other, by rwa [hc', get?_set_ne _ _ hkey], hid⟩
  · rintro key ⟨other, hother, hid⟩
    by_cases hkey : key.1 = sessionId
    · rw [hkey, hself] at hother
      cases hother
      rcases honly _ hid with hold | hid
      · exact .inl ⟨session, hkey ▸ hs, hold⟩
      · exact .inr (Prod.ext hkey hid)
    · rw [hc', get?_set_ne _ _ hkey] at hother
      exact .inl ⟨other, hother, hid⟩

/-- No call is handing the message over. -/
def Idle (c : Controller μ) (key : String × Nat) : Prop :=
  ∀ d ∈ c.dispatches.values, d.key ≠ key

instance (c : Controller μ) (key : String × Nat) : Decidable (Idle c key) := by
  unfold Idle
  infer_instance

end Controller

/-- A call that begins to hand a message over finds no other one doing so. -/
def HandsOverAlone (c : Controller μ) : Action μ → Prop
  | .sendNext sessionId _ _ =>
    match c.sessions.get? sessionId with
    | none => True
    | some session =>
      match session.queue.nextQueuedMessage with
      | none => True
      | some item => isSessionBusy session = true ∨ Idle c (sessionId, item.id)
  | .steer sessionId queueId _ => Idle c (sessionId, queueId)
  | _ => True

instance (c : Controller μ) (a : Action μ) : Decidable (HandsOverAlone c a) := by
  unfold HandsOverAlone
  split
  · split
    · infer_instance
    · split <;> infer_instance
  · infer_instance
  · infer_instance

/-! ## What one step can do -/

/-- The six things a step can do to the messages and the calls in progress. -/
inductive Effect (c : Controller μ) (a : Action μ) (c' : Controller μ) : Prop where
  | quiet (queued : ∀ key, Queued c' key ↔ Queued c key)
      (frame : c' = { c with sessions := c'.sessions })
  | enqueued (sessionId : String)
      (kept : ∀ key, Queued c key → Queued c' key) (new : Queued c' (sessionId, c.nextQueueId))
      (only : ∀ key, Queued c' key → Queued c key ∨ key = (sessionId, c.nextQueueId))
      (frame : c' = { c with
        sessions := c'.sessions
        nextQueueId := c.nextQueueId + 1
        enqueued := (sessionId, c.nextQueueId) :: c.enqueued })
  | removed (key : String × Nat) (queued : ∀ j, Queued c' j ↔ Queued c j ∧ j ≠ key)
      (frame : c' = { c with sessions := c'.sessions, removed := key :: c.removed })
  | began (d : Dispatch) (phase : d.phase ≠ .succeeded) (present : Queued c d.key)
      (alone : HandsOverAlone c a → Idle c d.key)
      (queued : ∀ key, Queued c' key ↔ Queued c key)
      (frame : c' = { c with
        sessions := c'.sessions
        dispatches := c.dispatches.set c.nextDispatch d
        nextDispatch := c.nextDispatch + 1 })
  | moved (ticket : Nat) (d : Dispatch) (phase : DispatchPhase)
      (lookup : c.dispatches.get? ticket = some d) (before : d.phase ≠ .succeeded)
      (frame : c' = { c with
        dispatches := c.dispatches.set ticket { d with phase := phase }
        handed := if phase = .succeeded then d.key :: c.handed else c.handed })
  | finished (ticket : Nat) (d : Dispatch) (lookup : c.dispatches.get? ticket = some d)
      (queued : ∀ key, Queued c' key ↔ Queued c key ∧ (d.phase = .succeeded → key ≠ d.key))
      (frame : c' = { c with
        sessions := c'.sessions
        dispatches := c.dispatches.erase ticket })

variable {c c' : Controller μ} {a : Action μ} {sessionId : String}

theorem Effect.refl (c : Controller μ) (a : Action μ) : Effect c a c :=
  .quiet (fun _ => Iff.rfl) rfl

theorem updateQueue_eq (c : Controller μ) (sessionId : String)
    (f : AiSessionQueue μ → Option (AiSessionQueue μ)) :
    c.updateQueue sessionId f = { c with sessions := (c.updateQueue sessionId f).sessions } := by
  obtain ⟨sessions, hframe⟩ := updateQueue_frame c sessionId f
  rw [hframe]

theorem queued_setStatus (hs : c.sessions.get? sessionId = some session)
    (status : AiSessionLifecycle) (key : String × Nat) :
    Queued { c with sessions := c.sessions.set sessionId { session with status := status } } key ↔
      Queued c key := by
  by_cases hkey : key.1 = sessionId
  · simp [Queued, hkey, hs]
  · simp [Queued, get?_set_ne _ _ hkey]

theorem queued_start (hs : c.sessions.contains sessionId = false) (key : String × Nat) :
    Queued { c with sessions := c.sessions.set sessionId ⟨.idle, AiSessionQueue.empty⟩ } key ↔
      Queued c key := by
  have hnone : c.sessions.get? sessionId = none := by simpa [contains] using hs
  by_cases hkey : key.1 = sessionId
  · simp [Queued, hkey, hnone, AiSessionQueue.ids, AiSessionQueue.empty]
  · simp [Queued, get?_set_ne _ _ hkey]

theorem startPhase_ne (unsupported : Option String) (awaitsTools : Bool) :
    startPhase unsupported awaitsTools ≠ .succeeded := by
  cases unsupported with
  | some error => simp [startPhase]
  | none => cases awaitsTools <;> simp [startPhase]

theorem sendNext_effect (sessionId : String) (unsupported : Option String) (awaitsTools : Bool) :
    Effect c (.sendNext sessionId unsupported awaitsTools)
      (orElse c (c.sendNextQueuedMessage sessionId unsupported awaitsTools)) := by
  unfold sendNextQueuedMessage
  split
  · exact .refl c _
  rename_i session hs
  split
  · exact .refl c _
  rename_i hbusy
  split
  · exact .refl c _
  rename_i item hitem
  have hmem : item.id ∈ session.queue.ids := AiSessionQueue.nextQueuedMessage_mem hitem
  refine .began ⟨sessionId, item.id, .next, startPhase unsupported awaitsTools⟩
    (startPhase_ne _ _) ⟨session, hs, hmem⟩ ?_ (fun key => queued_patch) ?_
  · intro halone
    simp only [HandsOverAlone, hs, hitem] at halone
    exact halone.resolve_left hbusy
  · simp only [orElse, dispatch, updateQueue_dispatches, updateQueue_nextDispatch]
    rw [updateQueue_eq c sessionId]

theorem settle_effect {ticket : Nat} {result : Except String Unit}
    (h : c.settle ticket result = some c') : Effect c (.settle ticket result) c' := by
  unfold settle at h
  split at h
  · cases h
  rename_i d hd
  split at h
  next hphase =>
    cases h
    exact .moved ticket d .provider hd (by simp [hphase]) (by simp)
  next hphase =>
    cases h
    exact .moved ticket d .succeeded hd (by simp [hphase]) (by simp)
  next error hphase =>
    cases h
    exact .moved ticket d (.failed error) hd (by simp [hphase]) (by simp)
  next error hphase =>
    cases h
    exact .moved ticket d (.failed error) hd (by simp [hphase]) (by simp)
  · cases h

theorem resume_effect {ticket : Nat} (h : c.resume ticket = some c') :
    Effect c (.resume ticket) c' := by
  unfold resume at h
  split at h
  · cases h
  rename_i d hd
  split at h
  next hphase =>
    cases h
    refine .finished ticket d hd ?_ ?_
    · intro key
      rw [queued_remove]
      simp only [hphase, forall_const]
      rfl
    · rw [updateQueue_eq]
  next error hphase hkind =>
    cases h
    refine .finished ticket d hd ?_ ?_
    · intro key
      have hpatch : Queued (updateQueue { c with dispatches := c.dispatches.erase ticket }
          d.sessionId (·.markQueuedMessageFailed d.queueId error)) key ↔ Queued c key :=
        queued_patch
      rw [hpatch]
      simp [hphase]
    · rw [updateQueue_eq]
  next error hphase hkind =>
    cases h
    refine .finished ticket d hd ?_ rfl
    intro key
    have hsame : Queued { c with dispatches := c.dispatches.erase ticket } key ↔ Queued c key :=
      Iff.rfl
    rw [hsame]
    simp [hphase]
  · cases h

theorem step_effect (h : step c a = some c') : Effect c a c' := by
  cases a with
  | start sessionId =>
    simp only [step] at h
    split at h
    · cases h
    next hs =>
      cases h
      exact .quiet (queued_start (by simpa using hs)) rfl
  | setStatus sessionId status =>
    simp only [step] at h
    split at h
    · cases h
    next session hs =>
      cases h
      exact .quiet (queued_setStatus hs status) rfl
  | enqueue sessionId body =>
    cases h
    unfold enqueueMessage
    split
    · exact .refl c _
    rename_i session hs
    split
    · exact .refl c _
    next queue hq =>
      exact .enqueued sessionId (queued_enqueue hs hq rfl).1 (queued_enqueue hs hq rfl).2.1
        (queued_enqueue hs hq rfl).2.2 rfl
  | sendNext sessionId unsupported awaitsTools =>
    cases h
    exact sendNext_effect sessionId unsupported awaitsTools
  | steer sessionId queueId unsupported =>
    cases h
    unfold steerQueuedMessage
    split
    · exact .refl c _
    rename_i session hs
    split
    next hmem =>
      exact .began ⟨sessionId, queueId, .steer, startPhase unsupported false⟩
        (startPhase_ne _ _) ⟨session, hs, hmem⟩ id (fun _ => Iff.rfl) rfl
    · exact .refl c _
  | retry sessionId queueId =>
    cases h
    unfold retryQueuedMessage
    split
    · exact .refl c _
    split
    · exact .refl c _
    refine .quiet (fun key => queued_retry) ?_
    simp only [orElse]
    rw [updateQueue_eq c sessionId]
  | remove sessionId queueId =>
    cases h
    unfold removeQueuedMessage
    split
    · exact .refl c _
    split
    · exact .refl c _
    refine .removed (sessionId, queueId) (fun key => queued_remove) ?_
    simp only [orElse]
    rw [updateQueue_eq c sessionId]
  | settle ticket result => exact settle_effect h
  | resume ticket => exact resume_effect h

end TaskHandoff.AiSessions.QueueDispatch
