import TaskHandoff.Lib.Coalescing
import TaskHandoff.Lib.Machine
import TaskHandoff.Lib.OrderedMap

/-! # The message-delta coalescer

`AiSessionMessageDeltaCoalescer` keeps one batch for each message, armed with a
timer of the injected clock, and emits the joined text of a batch when it is
flushed. It runs on one thread, so a method is one step. The window, which
decides only when a timer may fire, and the waiting times of the diagnostics
are left out.
-/

namespace TaskHandoff.Events

open Coalescing OrderedMap Option

/-- What `JSON.stringify` of the four fields tells apart; an absent field is written `null`. -/
structure MessageDeltaKey where
  instanceId : String
  sessionId : String
  turnId : Option String
  itemId : Option String
deriving DecidableEq

/-- `rest` holds the fields that no method reads. -/
structure MessageDeltaEvent (μ : Type) where
  instanceId : String
  sessionId : String
  turnId : Option String
  itemId : Option String
  delta : String
  rest : μ

inductive FlushReason where
  | window
  | manual
  | completed
  | failed
  | waiting
  | interrupted
  | authoritativeEvent
  | eventSourceClose
  | serviceClose
deriving DecidableEq

structure Diagnostics where
  rawDeltaCount : Nat
  emittedEventCount : Nat
  totalBatchSize : Nat
  maxBatchSize : Nat
  flushReasons : OrderedMap FlushReason Nat

namespace DeltaCoalescer

variable {μ : Type}

def messageKey (payload : MessageDeltaEvent μ) : MessageDeltaKey :=
  ⟨payload.instanceId, payload.sessionId, payload.turnId, payload.itemId⟩

structure PendingDeltaBatch (μ : Type) where
  chunks : List String
  lastPayload : MessageDeltaEvent μ
  timer : Nat

/-- The event that a flush emits for a batch. -/
def PendingDeltaBatch.event (batch : PendingDeltaBatch μ) : MessageDeltaEvent μ :=
  { batch.lastPayload with delta := String.join batch.chunks }

@[simp] theorem messageKey_event (batch : PendingDeltaBatch μ) :
    messageKey batch.event = messageKey batch.lastPayload := rfl

/-- The coalescer with its clock: the armed timers, each with the key its
callback flushes. `emitted` and `pushed` record the calls of `emit` and the
payloads that `push` accepted; no method reads them. -/
structure Coalescer (μ : Type) where
  pending : OrderedMap MessageDeltaKey (PendingDeltaBatch μ)
  diagnosticState : Diagnostics
  isClosed : Bool
  timers : List (Nat × MessageDeltaKey)
  nextTimer : Nat
  emitted : List (MessageDeltaEvent μ)
  pushed : List (MessageDeltaEvent μ)

namespace Coalescer

def new : Coalescer μ where
  pending := OrderedMap.empty
  diagnosticState := ⟨0, 0, 0, 0, OrderedMap.empty⟩
  isClosed := false
  timers := []
  nextTimer := 0
  emitted := []
  pushed := []

def pendingCount (c : Coalescer μ) : Nat := c.pending.size

/-- A push onto a closed coalescer throws. -/
def push (c : Coalescer μ) (payload : MessageDeltaEvent μ) : Except String (Coalescer μ) :=
  if c.isClosed then .error "AI session message delta coalescer is closed"
  else
    let c := { c with
      diagnosticState :=
        { c.diagnosticState with rawDeltaCount := c.diagnosticState.rawDeltaCount + 1 }
      pushed := c.pushed ++ [payload] }
    let key := messageKey payload
    match c.pending.get? key with
    | some existing =>
      .ok { c with
        pending := c.pending.set key
          { existing with
            chunks := existing.chunks ++ [payload.delta]
            lastPayload := payload } }
    | none =>
      .ok { c with
        pending := c.pending.set key ⟨[payload.delta], payload, c.nextTimer⟩
        timers := c.timers ++ [(c.nextTimer, key)]
        nextTimer := c.nextTimer + 1 }

def noteFlush (d : Diagnostics) (batchSize : Nat) (reason : FlushReason) : Diagnostics :=
  { d with
    emittedEventCount := d.emittedEventCount + 1
    totalBatchSize := d.totalBatchSize + batchSize
    maxBatchSize := max d.maxBatchSize batchSize
    flushReasons := d.flushReasons.set reason ((d.flushReasons.get? reason).getD 0 + 1) }

def flushByKey (c : Coalescer μ) (key : MessageDeltaKey) (reason : FlushReason) :
    Coalescer μ × Bool :=
  match c.pending.get? key with
  | none => (c, false)
  | some batch =>
    ({ c with
        pending := c.pending.erase key
        timers := c.timers.filter fun t => t.1 ≠ batch.timer
        diagnosticState := noteFlush c.diagnosticState batch.chunks.length reason
        emitted := c.emitted ++ [batch.event] },
      true)

def flushKeys (c : Coalescer μ) (reason : FlushReason) : List MessageDeltaKey → Coalescer μ × Nat
  | [] => (c, 0)
  | key :: keys =>
    let (d, flushed) := c.flushByKey key reason
    let (e, count) := flushKeys d reason keys
    (e, if flushed then count + 1 else count)

def flush (c : Coalescer μ) (payload : MessageDeltaEvent μ) (reason : FlushReason) :
    Coalescer μ × Bool :=
  c.flushByKey (messageKey payload) reason

/-- The loop runs over the keys as they are when it starts. -/
def flushAll (c : Coalescer μ) (reason : FlushReason) : Coalescer μ × Nat :=
  c.flushKeys reason c.pending.keys

def close (c : Coalescer μ) (reason : FlushReason) : Coalescer μ × Nat :=
  if c.isClosed then (c, 0) else flushAll { c with isClosed := true } reason

/-! ## Runs -/

inductive Action (μ : Type) where
  | push (payload : MessageDeltaEvent μ)
  | timer (handle : Nat)
  | flush (payload : MessageDeltaEvent μ) (reason : FlushReason)
  | flushAll (reason : FlushReason)
  | close (reason : FlushReason)

/-- A timer fires when it is armed; a rejected push changes nothing. -/
def step (c : Coalescer μ) : Action μ → Option (Coalescer μ)
  | .push payload =>
    match c.push payload with
    | .ok d => some d
    | .error _ => some c
  | .timer handle =>
    match c.timers.find? fun t => t.1 = handle with
    | none => none
    | some t =>
      some (flushByKey { c with timers := c.timers.filter fun u => u.1 ≠ handle }
        t.2 .window).1
  | .flush payload reason => some (c.flush payload reason).1
  | .flushAll reason => some (c.flushAll reason).1
  | .close reason => some (c.close reason).1

/-! ## The view of one key -/

def deltasOf (key : MessageDeltaKey) (payloads : List (MessageDeltaEvent μ)) : List String :=
  (payloads.filter fun p => messageKey p = key).map (·.delta)

/-- The deltas of the batch that waits under `key`. -/
def pendingOf (c : Coalescer μ) (key : MessageDeltaKey) : List String :=
  match c.pending.get? key with
  | some batch => batch.chunks
  | none => []

variable {key : MessageDeltaKey}

variable {p payload : MessageDeltaEvent μ} {d : Coalescer μ} {as : List (Action μ)}

theorem deltasOf_snoc_self (payloads : List (MessageDeltaEvent μ)) (h : messageKey p = key) :
    deltasOf key (payloads ++ [p]) = deltasOf key payloads ++ [p.delta] := by
  simp [deltasOf, List.filter_append, h]

theorem deltasOf_snoc_ne (payloads : List (MessageDeltaEvent μ)) (h : messageKey p ≠ key) :
    deltasOf key (payloads ++ [p]) = deltasOf key payloads := by
  simp [deltasOf, List.filter_append, h]

/-! ## The invariant -/

structure Accounted (c : Coalescer μ) : Prop where
  coalesced : ∀ key, Coalesced (deltasOf key c.emitted) (c.pendingOf key) (deltasOf key c.pushed)
  keyed : ∀ key batch, c.pending.get? key = some batch → messageKey batch.lastPayload = key
  closed : c.isClosed = true → c.pending.keys = []

theorem accounted_new : Accounted (new : Coalescer μ) where
  coalesced _ := Coalesced.nil
  keyed _ _ h := by simp [new] at h
  closed h := by simp [new] at h

variable {c d : Coalescer μ}

theorem push_cases (h : c.push payload = .ok d) :
    c.isClosed = false ∧ d.isClosed = false ∧ d.emitted = c.emitted ∧
      d.pushed = c.pushed ++ [payload] ∧
      ∃ batch, d.pending = c.pending.set (messageKey payload) batch ∧
        batch.chunks = c.pendingOf (messageKey payload) ++ [payload.delta] ∧
        batch.lastPayload = payload := by
  unfold push at h
  cases hclosed : c.isClosed with
  | true => simp [hclosed] at h
  | false =>
    simp only [hclosed, Bool.false_eq_true, if_false] at h
    cases hget : c.pending.get? (messageKey payload) with
    | some existing =>
      simp only [hget, Except.ok.injEq] at h
      subst h
      exact ⟨rfl, rfl, rfl, rfl, _, rfl, by simp [pendingOf, hget], rfl⟩
    | none =>
      simp only [hget, Except.ok.injEq] at h
      subst h
      exact ⟨rfl, rfl, rfl, rfl, _, rfl, by simp [pendingOf, hget], rfl⟩

theorem pendingOf_set_self {batch} (h : d.pending = c.pending.set key batch) :
    d.pendingOf key = batch.chunks := by
  simp [pendingOf, h]

theorem pendingOf_set_ne {key other : MessageDeltaKey} {batch}
    (h : d.pending = c.pending.set key batch) (hne : other ≠ key) :
    d.pendingOf other = c.pendingOf other := by
  simp [pendingOf, h, get?_set_ne _ _ hne]

theorem accounted_push (hc : Accounted c) (h : c.push payload = .ok d) : Accounted d := by
  obtain ⟨-, hopen, hemitted, hpushed, batch, hpending, hchunks, hlast⟩ := push_cases h
  constructor
  · intro key
    by_cases hkey : messageKey payload = key
    · rw [hemitted, hpushed, deltasOf_snoc_self _ hkey]
      subst hkey
      rw [pendingOf_set_self hpending, hchunks]
      exact (hc.coalesced _).push _
    · rw [hemitted, hpushed, deltasOf_snoc_ne _ hkey, pendingOf_set_ne hpending (Ne.symm hkey)]
      exact hc.coalesced key
  · intro key b hget
    by_cases hkey : key = messageKey payload
    · subst hkey
      rw [hpending, get?_set_self, some.injEq] at hget
      rw [← hget, hlast]
    · rw [hpending, get?_set_ne _ _ hkey] at hget
      exact hc.keyed key b hget
  · intro hclosed
    rw [hopen] at hclosed
    cases hclosed

theorem flushByKey_cases (c : Coalescer μ) (key : MessageDeltaKey) (reason : FlushReason) :
    (c.pending.get? key = none ∧ (c.flushByKey key reason).1 = c) ∨
      ∃ batch, c.pending.get? key = some batch ∧
        (c.flushByKey key reason).1.pending = c.pending.erase key ∧
        (c.flushByKey key reason).1.emitted = c.emitted ++ [batch.event] ∧
        (c.flushByKey key reason).1.pushed = c.pushed ∧
        (c.flushByKey key reason).1.isClosed = c.isClosed := by
  cases hget : c.pending.get? key with
  | none => exact .inl ⟨rfl, by simp [flushByKey, hget]⟩
  | some batch => exact .inr ⟨batch, rfl, by simp [flushByKey, hget]⟩

theorem keys_flushByKey (c : Coalescer μ) (key : MessageDeltaKey) (reason : FlushReason) :
    (c.flushByKey key reason).1.pending.keys = c.pending.keys.filter fun k => k ≠ key := by
  obtain ⟨hget, hsame⟩ | ⟨batch, -, hpending, -⟩ := flushByKey_cases c key reason
  · rw [hsame, List.filter_eq_self.mpr]
    intro k hk
    rw [get?_eq_none] at hget
    have hne : k ≠ key := fun he => hget (he ▸ hk)
    simpa using hne
  · rw [hpending, keys_erase]

variable {c : Coalescer μ}

theorem accounted_flushByKey (hc : Accounted c) (key : MessageDeltaKey) (reason : FlushReason) :
    Accounted (c.flushByKey key reason).1 := by
  obtain ⟨-, hsame⟩ | ⟨batch, hget, hpending, hemitted, hpushed, hflag⟩ :=
    flushByKey_cases c key reason
  · rw [hsame]
    exact hc
  have hkeyed := hc.keyed key batch hget
  constructor
  · intro other
    by_cases hkey : key = other
    · subst hkey
      have hheld : (c.flushByKey key reason).1.pendingOf key = [] := by simp [pendingOf, hpending]
      have htaken := hc.coalesced key
      simp only [pendingOf, hget] at htaken
      have hevent : messageKey batch.event = key := hkeyed
      rw [hemitted, hpushed, hheld, deltasOf_snoc_self _ hevent]
      exact Coalesced.emit (by simpa using htaken)
    · have hother : messageKey batch.event ≠ other := by
        rw [messageKey_event, hkeyed]
        exact hkey
      have hheld : (c.flushByKey key reason).1.pendingOf other = c.pendingOf other := by
        simp [pendingOf, hpending, get?_erase_ne _ (Ne.symm hkey)]
      rw [hemitted, hpushed, hheld, deltasOf_snoc_ne _ hother]
      exact hc.coalesced other
  · intro other b hb
    by_cases hkey : other = key
    · simp [hpending, hkey] at hb
    · rw [hpending, get?_erase_ne _ hkey] at hb
      exact hc.keyed other b hb
  · intro hclosed
    rw [hflag] at hclosed
    have hnone := hc.closed hclosed
    rw [get?_eq_none.mpr (by simp [hnone])] at hget
    cases hget

theorem accounted_flushKeys (hc : Accounted c) (reason : FlushReason) (keys : List MessageDeltaKey)
    : Accounted (c.flushKeys reason keys).1 := by
  induction keys generalizing c with
  | nil => exact hc
  | cons key keys ih => exact ih (accounted_flushByKey hc key reason)

theorem keys_flushKeys (c : Coalescer μ) (reason : FlushReason) (keys : List MessageDeltaKey) :
    (c.flushKeys reason keys).1.pending.keys = c.pending.keys.filter fun k => k ∉ keys := by
  induction keys generalizing c with
  | nil => simp [flushKeys]
  | cons key keys ih =>
    have hrest := ih (c.flushByKey key reason).1
    rw [keys_flushByKey, List.filter_filter] at hrest
    simp only [flushKeys]
    rw [hrest]
    congr 1
    funext k
    by_cases hk : k = key <;> simp [hk]

theorem keys_flushAll (c : Coalescer μ) (reason : FlushReason) :
    (c.flushAll reason).1.pending.keys = [] := by
  rw [flushAll, keys_flushKeys, List.filter_eq_nil_iff]
  intro k hk
  simpa using hk

theorem flushKeys_isClosed (c : Coalescer μ) (b : Bool) (reason : FlushReason)
    (keys : List MessageDeltaKey) : (flushKeys { c with isClosed := b } reason keys).1 =
      { (c.flushKeys reason keys).1 with isClosed := b } := by
  induction keys generalizing c with
  | nil => rfl
  | cons key keys ih =>
    have hone : (flushByKey { c with isClosed := b } key reason).1 =
        { (c.flushByKey key reason).1 with isClosed := b } := by
      unfold flushByKey
      cases c.pending.get? key <;> rfl
    simp only [flushKeys, hone, ih]

theorem keys_close (hc : Accounted c) (reason : FlushReason) :
    (c.close reason).1.pending.keys = [] := by
  unfold close
  cases hclosed : c.isClosed with
  | true => exact hc.closed hclosed
  | false => exact keys_flushAll { c with isClosed := true } reason

theorem accounted_close (hc : Accounted c) (reason : FlushReason) :
    Accounted (c.close reason).1 := by
  have hkeys := keys_close hc reason
  unfold close at hkeys ⊢
  cases hclosed : c.isClosed with
  | true => exact hc
  | false =>
    have hall := accounted_flushKeys hc reason c.pending.keys
    simp only [hclosed, Bool.false_eq_true, if_false, flushAll] at hkeys ⊢
    rw [flushKeys_isClosed] at hkeys ⊢
    exact ⟨hall.coalesced, hall.keyed, fun _ => hkeys⟩

theorem accounted_step {a : Action μ} (h : step c a = some d) (hc : Accounted c) : Accounted d := by
  cases a with
  | push payload =>
    cases hpush : c.push payload with
    | error message =>
      simp only [step, hpush, some.injEq] at h
      exact h ▸ hc
    | ok e =>
      simp only [step, hpush, some.injEq] at h
      exact h ▸ accounted_push hc hpush
  | timer handle =>
    cases hfind : c.timers.find? fun t => t.1 = handle with
    | none => simp [step, hfind] at h
    | some t =>
      simp only [step, hfind, some.injEq] at h
      have hfired : Accounted { c with timers := c.timers.filter fun u => u.1 ≠ handle } :=
        { hc with }
      exact h ▸ accounted_flushByKey hfired t.2 .window
  | flush payload reason =>
    simp only [step, some.injEq] at h
    exact h ▸ accounted_flushByKey hc _ reason
  | flushAll reason =>
    simp only [step, some.injEq] at h
    exact h ▸ accounted_flushKeys hc reason _
  | close reason =>
    simp only [step, some.injEq] at h
    exact h ▸ accounted_close hc reason

variable (h : Machine.run step new as = some c)

include h

/-- In every state of every run the deltas emitted for a key and those that
wait for it are the deltas pushed for it, in push order. -/
theorem run_accounted : Accounted c :=
  Machine.run_invariant (fun _ _ _ ha hc => accounted_step ha hc) h accounted_new

/-- Nothing waits after `flushAll`, and nothing after `close`. -/
theorem run_emptied (reason : FlushReason) :
    (c.flushAll reason).1.pending.keys = [] ∧ (c.close reason).1.pending.keys = [] :=
  ⟨keys_flushAll c reason, keys_close (run_accounted h) reason⟩

end Coalescer

end DeltaCoalescer

end TaskHandoff.Events
