import TaskHandoff.Events.DeltaCoalescer

/-! # The delta coalescer on several threads

`AiSessionDeltaCoalescer` of the instance binary is shared between the tasks of
a multi-threaded runtime. Its state is behind one lock; a flush takes its batch
inside the lock and publishes it after the lock is released. Every critical
section is one step here and so is every publication, so a run interleaves the
halves of any number of flushes with pushes and timer wakeups. The window and
the diagnostics are left out.
-/

namespace TaskHandoff.Events

open Coalescing OrderedMap List DeltaCoalescer.Coalescer DeltaCoalescer Machine

namespace DeltaCoalescerThreads

abbrev AiSessionDeltaKey := MessageDeltaKey

/-- `rest` holds the members of the JSON object that no method touches. -/
structure Payload (μ : Type) where
  delta : String
  rest : μ

variable {μ : Type}

/-- `serial` numbers the batches without bound; no method reads it. -/
structure PendingDeltaBatch (μ : Type) where
  chunks : List String
  lastPayload : Payload μ
  generation : UInt64
  serial : Nat

/-- The event that a flush publishes for a batch. -/
def PendingDeltaBatch.event (batch : PendingDeltaBatch μ) : Payload μ :=
  { batch.lastPayload with delta := String.join batch.chunks }

/-- A spawned task that sleeps for the window. -/
structure Timer where
  key : AiSessionDeltaKey
  generation : UInt64
  serial : Nat

/-- A `flush`, `flush_window`, `flush_all` or `close` in progress. `keys` are
the keys it has still to flush, `none` before `flush_all` has cloned the order.
Of a wakeup `armedFor` is the batch that armed it; `since` counts the batches
started before the call, or before it has cloned the order. -/
structure FlushCall where
  keys : Option (List AiSessionDeltaKey)
  generation : Option UInt64
  all : Bool
  closing : Bool
  armedFor : Option Nat
  since : Nat

/-- The call after it has handled the next key of its list. -/
def FlushCall.advance (call : FlushCall) : FlushCall :=
  { call with keys := call.keys.map List.tail }

/-- A batch that a flush has removed from the map and not published yet. -/
structure Taken (μ : Type) where
  call : Nat
  key : AiSessionDeltaKey
  batch : PendingDeltaBatch μ

/-- `shut` says that the close that closed the coalescer has returned; no method reads it. -/
structure Coalescer (μ : Type) where
  pending : OrderedMap AiSessionDeltaKey (PendingDeltaBatch μ)
  order : List AiSessionDeltaKey
  nextGeneration : UInt64
  closed : Bool
  shut : Bool
  timers : List Timer
  calls : OrderedMap Nat FlushCall
  nextCall : Nat
  taken : List (Taken μ)
  emitted : List (AiSessionDeltaKey × Payload μ)
  pushed : List (AiSessionDeltaKey × String)
  started : Nat

namespace Coalescer

def new : Coalescer μ where
  pending := OrderedMap.empty
  order := []
  nextGeneration := 0
  closed := false
  shut := false
  timers := []
  calls := OrderedMap.empty
  nextCall := 0
  taken := []
  emitted := []
  pushed := []
  started := 0

/-- A push onto a closed coalescer returns an error and changes nothing. -/
def push (c : Coalescer μ) (key : AiSessionDeltaKey) (payload : Payload μ) (delta : String) :
    Except String (Coalescer μ) :=
  if c.closed then .error "AI session delta coalescer is closed"
  else
    match c.pending.get? key with
    | some batch =>
      .ok { c with
        pending := c.pending.set key
          { batch with chunks := batch.chunks ++ [delta], lastPayload := payload }
        pushed := c.pushed ++ [(key, delta)] }
    | none =>
      -- `wrapping_add`
      let generation := c.nextGeneration + 1
      .ok { c with
        nextGeneration := generation
        pending := c.pending.set key ⟨[delta], payload, generation, c.started⟩
        order := c.order ++ [key]
        timers := c.timers ++ [⟨key, generation, c.started⟩]
        pushed := c.pushed ++ [(key, delta)]
        started := c.started + 1 }

def begin (c : Coalescer μ) (call : FlushCall) : Coalescer μ :=
  { c with calls := c.calls.set c.nextCall call, nextCall := c.nextCall + 1 }

/-- The batch that `flush_key` finds: one of another generation is left alone. -/
def found (c : Coalescer μ) (key : AiSessionDeltaKey) (generation : Option UInt64) :
    Option (PendingDeltaBatch μ) :=
  match c.pending.get? key with
  | none => none
  | some current =>
    match generation with
    | none => some current
    | some expected => if expected ≠ current.generation then none else some current

/-- The next key of call `n`, when the call is between two keys. -/
def nextKey (c : Coalescer μ) (n : Nat) : Option (FlushCall × AiSessionDeltaKey) :=
  match c.calls.get? n with
  | none => none
  | some call =>
    match call.keys with
    | some (key :: _) => if c.taken.any fun t => t.call = n then none else some (call, key)
    | _ => none

/-- The key and the batch that the next critical section of call `n` removes. -/
def toTake (c : Coalescer μ) (n : Nat) : Option (AiSessionDeltaKey × PendingDeltaBatch μ) :=
  match c.nextKey n with
  | none => none
  | some (call, key) => (c.found key call.generation).map fun batch => (key, batch)

/-- The critical section of `flush_key`. -/
def take (c : Coalescer μ) (n : Nat) (call : FlushCall) (key : AiSessionDeltaKey) : Coalescer μ :=
  let c := { c with calls := c.calls.set n call.advance }
  match c.found key call.generation with
  | none => c
  | some batch =>
    { c with
      pending := c.pending.erase key
      order := c.order.filter fun k => k ≠ key
      taken := c.taken ++ [⟨n, key, batch⟩] }

/-! ## Runs -/

inductive Action (μ : Type) where
  | push (key : AiSessionDeltaKey) (payload : Payload μ) (delta : String)
  | wake (n : Nat)
  | flush (key : AiSessionDeltaKey)
  | flushAll
  | close
  | collect (n : Nat)
  | take (n : Nat)
  | publish (n : Nat)
  | finish (n : Nat)

/-- `wake n` is the end of the sleep of timer `n`; `collect`, `take`, `publish`
and `finish` are the next section, publication or return of call `n`. -/
def step (c : Coalescer μ) : Action μ → Option (Coalescer μ)
  | .push key payload delta =>
    match c.push key payload delta with
    | .ok d => some d
    | .error _ => some c
  | .wake n =>
    match c.timers[n]? with
    | none => none
    | some t =>
      some (begin { c with timers := c.timers.eraseIdx n }
        ⟨some [t.key], some t.generation, false, false, some t.serial, c.started⟩)
  | .flush key => some (c.begin ⟨some [key], none, false, false, none, c.started⟩)
  | .flushAll => some (c.begin ⟨none, none, true, false, none, c.started⟩)
  | .close =>
    if c.closed then some c
    else some (begin { c with closed := true } ⟨none, none, true, true, none, c.started⟩)
  | .collect n =>
    match c.calls.get? n with
    | some call =>
      if call.keys = none then
        some { c with
          calls := c.calls.set n { call with keys := some c.order, since := c.started } }
      else none
    | none => none
  | .take n =>
    match c.nextKey n with
    | none => none
    | some (call, key) => some (c.take n call key)
  | .publish n =>
    match c.taken.find? fun t => t.call = n with
    | none => none
    | some t =>
      some { c with
        taken := c.taken.filter fun u => u.call ≠ n
        emitted := c.emitted ++ [(t.key, t.batch.event)] }
  | .finish n =>
    match c.calls.get? n with
    | some call =>
      if call.keys = some [] ∧ (c.taken.all fun t => t.call ≠ n) = true then
        some { c with calls := c.calls.erase n, shut := c.shut || call.closing }
      else none
    | none => none

/-! ## Orderly interleavings -/

/-- A timer or a wakeup in progress that waits for this generation of the key. -/
def awaited (c : Coalescer μ) (key : AiSessionDeltaKey) (generation : UInt64) : Bool :=
  (c.timers.any fun t => t.key = key ∧ t.generation = generation) ||
    c.calls.values.any fun call =>
      call.generation = some generation ∧ call.keys = some [key]

/-- A `flush_all` that has cloned the order and not returned. -/
def flushingAll (c : Coalescer μ) : Bool :=
  c.calls.values.any fun call => call.all && call.keys.isSome

/-- A flush takes no batch while an older one of its key is unpublished, and a
`flush_all` or `close` returns while no batch older than its list is. No batch
is started under a generation that a timer of its key still awaits or while a
`flush_all` works on its list, and no second close comes before the first has
returned. -/
def Orderly (c : Coalescer μ) : Action μ → Bool
  | .push key _ _ =>
    c.closed || c.pending.contains key ||
      !(c.awaited key (c.nextGeneration + 1) || c.flushingAll)
  | .take n =>
    match c.toTake n with
    | none => true
    | some (key, _) => c.taken.all fun t => t.key ≠ key
  | .close => !c.closed || c.shut
  | .finish n =>
    match c.calls.get? n with
    | none => true
    | some call => !call.all || c.taken.all fun t => call.since ≤ t.batch.serial
  | _ => true

/-- The step is a return of `flush_all` or `close`; a second close returns at once. -/
def returns (c : Coalescer μ) : Action μ → Bool
  | .finish n =>
    match c.calls.get? n with
    | none => false
    | some call => call.all
  | .close => c.closed
  | _ => false

/-! ## The view of one key -/

def deltasOf {ν : Type} (key : AiSessionDeltaKey) (entries : List (AiSessionDeltaKey × ν)) :
    List ν :=
  (entries.filter fun e => e.1 = key).map (·.2)

def emittedOf (c : Coalescer μ) (key : AiSessionDeltaKey) : List String :=
  (deltasOf key c.emitted).map (·.delta)

def takenOf (c : Coalescer μ) (key : AiSessionDeltaKey) : List String :=
  (c.taken.filter fun t => t.key = key).flatMap (·.batch.chunks)

def pendingOf (c : Coalescer μ) (key : AiSessionDeltaKey) : List String :=
  match c.pending.get? key with
  | some batch => batch.chunks
  | none => []

section

variable {ν : Type} {key : AiSessionDeltaKey} {c d : Coalescer μ} {delta : String}
  {payload : Payload μ} {call : FlushCall} {n : Nat} {batch : PendingDeltaBatch μ} {a : Action μ}
  {t : Taken μ} {as : List (Action μ)}

theorem deltasOf_snoc_self (key : AiSessionDeltaKey)
    (entries : List (AiSessionDeltaKey × ν)) (v : ν) :
    deltasOf key (entries ++ [(key, v)]) = deltasOf key entries ++ [v] := by
  simp [deltasOf, filter_append]

theorem deltasOf_snoc_ne {key other : AiSessionDeltaKey}
    (entries : List (AiSessionDeltaKey × ν)) (v : ν) (h : other ≠ key) :
    deltasOf key (entries ++ [(other, v)]) = deltasOf key entries := by
  simp [deltasOf, filter_append, h]

theorem pendingOf_of_get? {batch}
    (h : c.pending.get? key = some batch) : c.pendingOf key = batch.chunks := by
  simp [pendingOf, h]

theorem pendingOf_of_none (h : c.pending.get? key = none) : c.pendingOf key = [] := by
  simp [pendingOf, h]

/-! ## What the steps change -/

theorem push_cases (h : c.push key payload delta = .ok d) : c.closed = false ∧
      ((∃ batch, c.pending.get? key = some batch ∧ d = { c with
            pending := c.pending.set key
              { batch with chunks := batch.chunks ++ [delta], lastPayload := payload }
            pushed := c.pushed ++ [(key, delta)] }) ∨
        (c.pending.get? key = none ∧ d = { c with
            nextGeneration := c.nextGeneration + 1
            pending := c.pending.set key ⟨[delta], payload, c.nextGeneration + 1, c.started⟩
            order := c.order ++ [key]
            timers := c.timers ++ [⟨key, c.nextGeneration + 1, c.started⟩]
            pushed := c.pushed ++ [(key, delta)]
            started := c.started + 1 })) := by
  unfold push at h
  cases hclosed : c.closed with
  | true => simp [hclosed] at h
  | false =>
    simp only [hclosed, Bool.false_eq_true, if_false] at h
    cases hget : c.pending.get? key with
    | some batch =>
      simp only [hget, Except.ok.injEq] at h
      exact ⟨rfl, .inl ⟨batch, rfl, h.symm⟩⟩
    | none =>
      simp only [hget, Except.ok.injEq] at h
      exact ⟨rfl, .inr ⟨rfl, h.symm⟩⟩

theorem nextKey_eq_some (h : c.nextKey n = some (call, key)) :
    c.calls.get? n = some call ∧ (∃ rest, call.keys = some (key :: rest)) ∧
      ∀ t ∈ c.taken, t.call ≠ n := by
  unfold nextKey at h
  cases hcall : c.calls.get? n with
  | none => simp [hcall] at h
  | some found =>
    simp only [hcall] at h
    split at h
    next k rest hkeys =>
      split at h
      · cases h
      next hfree =>
        obtain ⟨rfl, rfl⟩ := h
        exact ⟨rfl, ⟨rest, hkeys⟩, by simpa using hfree⟩
    next => cases h

theorem found_eq_some {generation : Option UInt64} (h : c.found key generation = some batch) :
    c.pending.get? key = some batch ∧ ∀ g, generation = some g → batch.generation = g := by
  unfold found at h
  cases hget : c.pending.get? key with
  | none => simp [hget] at h
  | some current =>
    cases generation with
    | none => simpa [hget] using h
    | some expected =>
      simp only [hget] at h
      by_cases he : expected = current.generation
      · simp only [he, ne_eq, not_true_eq_false, if_false, Option.some.injEq] at h
        subst h
        exact ⟨rfl, fun g hg => by rw [← Option.some.inj hg, he]⟩
      · simp [he] at h

theorem found_none (c : Coalescer μ) (key : AiSessionDeltaKey) :
    c.found key none = c.pending.get? key := by
  unfold found
  cases c.pending.get? key <;> rfl

theorem take_of_none (h : c.found key call.generation = none) :
    c.take n call key = { c with calls := c.calls.set n call.advance } := by
  have hsame : found { c with calls := c.calls.set n call.advance } key call.generation = none := h
  simp only [take, hsame]

theorem take_of_some (h : c.found key call.generation = some batch) : c.take n call key = { c with
      calls := c.calls.set n call.advance
      pending := c.pending.erase key
      order := c.order.filter fun k => k ≠ key
      taken := c.taken ++ [⟨n, key, batch⟩] } := by
  have hsame : found { c with calls := c.calls.set n call.advance } key call.generation =
      some batch := h
  simp only [take, hsame]

/-! ## Batches and calls -/

/-- The bounds of a call in progress. One of all keys lists every key under
which an older batch waits. -/
structure CallSound (c : Coalescer μ) (n : Nat) (call : FlushCall) : Prop where
  fresh : n < c.nextCall
  since_le : call.since ≤ c.started
  all_keys : call.all = true → call.generation = none
  cover : call.all = true → ∀ keys, call.keys = some keys →
    ∀ key batch, c.pending.get? key = some batch → batch.serial < call.since → key ∈ keys
  closing : call.closing = true → c.closed = true ∧ call.all = true ∧ call.since = c.started

/-- What holds in every run: the order lists the pending keys, the calls keep
their bounds, and a call publishes one batch at a time. -/
structure Sound (c : Coalescer μ) : Prop where
  order_iff : ∀ key, key ∈ c.order ↔ c.pending.get? key ≠ none
  pending_old : ∀ key batch, c.pending.get? key = some batch → batch.serial < c.started
  taken_old : ∀ t ∈ c.taken, t.batch.serial < c.started
  taken_call : (c.taken.map (·.call)).Nodup
  taken_fresh : ∀ t ∈ c.taken, t.call < c.nextCall
  calls : ∀ n call, c.calls.get? n = some call → CallSound c n call
  shut : c.shut = true → c.closed = true ∧ c.pending.keys = []

theorem sound_new : Sound (new : Coalescer μ) := by constructor <;> simp [new]

/-- The batches older than the call that wait waited before. -/
theorem CallSound.later (h : CallSound c n call) (hnext : c.nextCall ≤ d.nextCall)
    (hstarted : c.started ≤ d.started)
    (hpending : ∀ key batch, d.pending.get? key = some batch → batch.serial < call.since →
      ∃ old, c.pending.get? key = some old ∧ old.serial = batch.serial)
    (hclosing : call.closing = true → d.closed = c.closed ∧ d.started = c.started) :
    CallSound d n call where
  fresh := Nat.lt_of_lt_of_le h.fresh hnext
  since_le := Nat.le_trans h.since_le hstarted
  all_keys := h.all_keys
  cover hall keys hkeys key batch hbatch hlt := by
    obtain ⟨old, hold, hserial⟩ := hpending key batch hbatch hlt
    exact h.cover hall keys hkeys key old hold (hserial ▸ hlt)
  closing hcl := by
    obtain ⟨hclosed, hstart⟩ := hclosing hcl
    rw [hclosed, hstart]
    exact h.closing hcl

variable (hc : Sound c)

include hc

/-- A new call starts with no key to flush, or with keys it was given and no duty to any other. -/
theorem sound_begin
    (hsince : call.since = c.started) (hall : call.all = true → call.keys = none)
    (hgen : call.all = true → call.generation = none)
    (hclosing : call.closing = true → c.closed = true ∧ call.all = true) :
    Sound (c.begin call) := by
  refine ⟨hc.order_iff, hc.pending_old, hc.taken_old, hc.taken_call, ?_, ?_, hc.shut⟩
  · intro t ht
    exact Nat.lt_succ_of_lt (hc.taken_fresh t ht)
  intro n found h
  obtain ⟨rfl, rfl⟩ | ⟨-, hold⟩ := get?_set_eq_some h
  · refine ⟨Nat.lt_succ_self _, Nat.le_of_eq hsince, hgen, ?_, ?_⟩
    · intro hfound keys hkeys
      rw [hall hfound] at hkeys
      cases hkeys
    · intro hfound
      exact ⟨(hclosing hfound).1, (hclosing hfound).2, hsince⟩
  · exact (hc.calls n found hold).later (Nat.le_succ _) (Nat.le_refl _)
      (fun _ batch hb _ => ⟨batch, hb, rfl⟩) fun _ => ⟨rfl, rfl⟩

theorem sound_push (h : c.push key payload delta = .ok d) : Sound d := by
  have hclosing : ∀ n call, c.calls.get? n = some call → call.closing = true → False := by
    intro n call hcall hcl
    have hclosed := ((hc.calls n call hcall).closing hcl).1
    rw [(push_cases h).1] at hclosed
    cases hclosed
  obtain ⟨hopen, ⟨batch, hget, rfl⟩ | ⟨hget, rfl⟩⟩ := push_cases h
  · -- The waiting batch keeps its serial number.
    have hserial : ∀ k b, (c.pending.set key
        { batch with chunks := batch.chunks ++ [delta], lastPayload := payload }).get? k = some b →
        ∃ b', c.pending.get? k = some b' ∧ b'.serial = b.serial := by
      intro k b hb
      obtain ⟨rfl, rfl⟩ | ⟨-, hold⟩ := get?_set_eq_some hb
      · exact ⟨batch, hget, rfl⟩
      · exact ⟨b, hold, rfl⟩
    refine ⟨?_, ?_, hc.taken_old, hc.taken_call, hc.taken_fresh, ?_, fun hshut =>
      absurd (hc.shut hshut).1 (by simp [hopen])⟩
    · intro k
      rw [hc.order_iff, get?_set]
      split
      next hk => simp [hk, hget]
      next => rfl
    · intro k b hb
      obtain ⟨b', hb', hs⟩ := hserial k b hb
      exact hs ▸ hc.pending_old k b' hb'
    · intro n call hcall
      exact (hc.calls n call hcall).later (Nat.le_refl _) (Nat.le_refl _)
        (fun k b hb _ => hserial k b hb) fun hcl => (hclosing n call hcall hcl).elim
  · refine ⟨?_, ?_, ?_, hc.taken_call, hc.taken_fresh, ?_, fun hshut =>
      absurd (hc.shut hshut).1 (by simp [hopen])⟩
    · intro k
      rw [mem_append, hc.order_iff, get?_set]
      by_cases hk : k = key <;> simp [hk]
    · intro k b hb
      obtain ⟨-, rfl⟩ | ⟨-, hold⟩ := get?_set_eq_some hb
      · exact Nat.lt_succ_self _
      · exact Nat.lt_succ_of_lt (hc.pending_old k b hold)
    · intro t ht
      exact Nat.lt_succ_of_lt (hc.taken_old t ht)
    · intro n call hcall
      have hcallSound := hc.calls n call hcall
      refine hcallSound.later (Nat.le_refl _) (Nat.le_succ _) ?_ fun hcl =>
        (hclosing n call hcall hcl).elim
      intro k b hb hlt
      obtain ⟨-, rfl⟩ | ⟨-, hold⟩ := get?_set_eq_some hb
      · -- The batch started now is younger than every call.
        exact absurd hlt (Nat.not_lt.mpr hcallSound.since_le)
      · exact ⟨b, hold, rfl⟩

theorem sound_collect (hcall : c.calls.get? n = some call) : Sound { c with
      calls := c.calls.set n { call with keys := some c.order, since := c.started } } := by
  refine { hc with calls := ?_ }
  intro m found h
  obtain ⟨rfl, rfl⟩ | ⟨-, hold⟩ := get?_set_eq_some h
  · have hcallSound := hc.calls m call hcall
    refine ⟨hcallSound.fresh, Nat.le_refl _, hcallSound.all_keys, ?_, fun hcl =>
      ⟨(hcallSound.closing hcl).1, (hcallSound.closing hcl).2.1, rfl⟩⟩
    -- The cloned order lists every pending key.
    intro hall keys hkeys key batch hbatch hlt
    rw [← Option.some.inj hkeys, hc.order_iff, hbatch]
    simp
  · exact { hc.calls m found hold with }

theorem sound_take (h : c.nextKey n = some (call, key)) : Sound (c.take n call key) := by
  obtain ⟨hcall, ⟨rest, hkeys⟩, hfree⟩ := nextKey_eq_some h
  have hadvance : call.advance.keys = some rest := by simp [FlushCall.advance, hkeys]
  have hcallSound := hc.calls n call hcall
  -- What the call has still to cover once `key` holds no older batch.
  have hnext : ∀ e : Coalescer μ, e.nextCall = c.nextCall → e.started = c.started →
      e.closed = c.closed → e.calls = c.calls.set n call.advance →
      (∀ k b, e.pending.get? k = some b → c.pending.get? k = some b) →
      (call.all = true → e.pending.get? key = none) →
      ∀ m found, e.calls.get? m = some found → CallSound e m found := by
    intro e hfresh hstarted hclosed hcalls hpending hgone m found hfound
    rw [hcalls] at hfound
    have hlater : ∀ m found, CallSound c m found → CallSound e m found := fun m found hs =>
      hs.later (Nat.le_of_eq hfresh.symm) (Nat.le_of_eq hstarted.symm)
        (fun k b hb _ => ⟨b, hpending k b hb, rfl⟩) fun _ => ⟨hclosed, hstarted⟩
    obtain ⟨rfl, rfl⟩ | ⟨-, hold⟩ := get?_set_eq_some hfound
    · have hsame := hlater m call hcallSound
      refine ⟨hsame.fresh, hsame.since_le, hsame.all_keys, ?_, hsame.closing⟩
      intro hall keys hlist k b hb hlt
      rw [hadvance, Option.some.injEq] at hlist
      rcases mem_cons.mp (hsame.cover hall _ hkeys k b hb hlt) with rfl | hrest
      · rw [hgone hall] at hb
        cases hb
      · exact hlist ▸ hrest
    · exact hlater m found (hc.calls m found hold)
  cases hfound : c.found key call.generation with
  | none =>
    rw [take_of_none hfound]
    refine { hc with calls := hnext _ rfl rfl rfl rfl (fun _ _ => id) ?_ }
    intro hall
    rwa [hcallSound.all_keys hall, found_none] at hfound
  | some batch =>
    have hpending := (found_eq_some hfound).1
    rw [take_of_some hfound]
    refine ⟨?_, ?_, ?_, ?_, ?_, hnext _ rfl rfl rfl rfl
      (fun _ _ hb => (get?_erase_eq_some hb).2) fun _ => get?_erase_self .., ?_⟩
    · intro k
      rw [mem_filter, hc.order_iff, get?_erase]
      by_cases hk : k = key <;> simp [hk]
    · intro k b hb
      exact hc.pending_old k b (get?_erase_eq_some hb).2
    · intro t ht
      rcases mem_concat.mp ht with ht | rfl
      · exact hc.taken_old t ht
      · exact hc.pending_old key batch hpending
    · simp only [map_append, map_cons, map_nil]
      rw [nodup_append]
      refine ⟨hc.taken_call, by simp, ?_⟩
      intro m hm m' hm'
      obtain ⟨t, ht, rfl⟩ := mem_map.mp hm
      rw [mem_singleton.mp hm']
      exact hfree t ht
    · intro t ht
      rcases mem_concat.mp ht with ht | rfl
      · exact hc.taken_fresh t ht
      · exact hcallSound.fresh
    · intro hshut
      refine ⟨(hc.shut hshut).1, ?_⟩
      have hnone : c.pending.get? key = none := get?_eq_none.mpr (by simp [(hc.shut hshut).2])
      rw [hnone] at hpending
      cases hpending

theorem sound_publish (n : Nat) (emitted : List (AiSessionDeltaKey × Payload μ)) :
    Sound { c with taken := c.taken.filter (fun u => u.call ≠ n), emitted := emitted } where
  __ := hc
  taken_old t ht := hc.taken_old t (mem_filter.mp ht).1
  taken_call := hc.taken_call.sublist (filter_sublist.map _)
  taken_fresh t ht := hc.taken_fresh t (mem_filter.mp ht).1
  calls m found h := { hc.calls m found h with }

/-- What is older than the list of a call that has handled it no longer waits. -/
theorem flushed_of_sound (hcall : c.calls.get? n = some call) (hall : call.all = true)
    (hkeys : call.keys = some []) :
    (∀ key batch, c.pending.get? key = some batch → call.since ≤ batch.serial) ∧
      (call.since = c.started → c.pending.keys = []) := by
  have hwaiting : ∀ key batch, c.pending.get? key = some batch → call.since ≤ batch.serial := by
    intro key batch hb
    by_contra hlt
    cases (hc.calls n call hcall).cover hall [] hkeys key batch hb (by omega)
  refine ⟨hwaiting, ?_⟩
  intro hsince
  apply eq_nil_iff_forall_not_mem.mpr
  intro key hmem
  cases hget : c.pending.get? key with
  | none => exact get?_eq_none.mp hget hmem
  | some batch =>
    have hold := hc.pending_old key batch hget
    have hnew := hwaiting key batch hget
    omega

theorem sound_finish (hcall : c.calls.get? n = some call) (hkeys : call.keys = some []) :
    Sound { c with calls := c.calls.erase n, shut := c.shut || call.closing } where
  __ := hc
  calls m found h := { hc.calls m found (get?_erase_eq_some h).2 with }
  shut hshut := by
    rcases Bool.or_eq_true_iff.mp hshut with hbefore | hcl
    · exact hc.shut hbefore
    · obtain ⟨hclosed, hall, hsince⟩ := (hc.calls n call hcall).closing hcl
      exact ⟨hclosed, (flushed_of_sound hc hcall hall hkeys).2 hsince⟩

theorem sound_close : Sound { c with closed := true } where
  __ := hc
  calls m found h :=
    { hc.calls m found h with closing := fun hcl => ⟨rfl, ((hc.calls m found h).closing hcl).2⟩ }
  shut hshut := ⟨rfl, (hc.shut hshut).2⟩

end

/-! ## Cases of a step -/

/-- Every step is one of these. -/
inductive Stepped (c : Coalescer μ) : Action μ → Coalescer μ → Prop
  | rejected {key payload delta} : c.closed = true → Stepped c (.push key payload delta) c
  | pushed {key payload delta d} : c.push key payload delta = .ok d →
      Stepped c (.push key payload delta) d
  | woken {n t} : c.timers[n]? = some t →
      Stepped c (.wake n) (begin { c with timers := c.timers.eraseIdx n }
        ⟨some [t.key], some t.generation, false, false, some t.serial, c.started⟩)
  | flushed {key} :
      Stepped c (.flush key) (c.begin ⟨some [key], none, false, false, none, c.started⟩)
  | allBegun : Stepped c .flushAll (c.begin ⟨none, none, true, false, none, c.started⟩)
  | closedBefore : c.closed = true → Stepped c .close c
  | closedNow : c.closed = false →
      Stepped c .close (begin { c with closed := true } ⟨none, none, true, true, none, c.started⟩)
  | collected {n call} : c.calls.get? n = some call → call.keys = none →
      Stepped c (.collect n) { c with
        calls := c.calls.set n { call with keys := some c.order, since := c.started } }
  | took {n call key} : c.nextKey n = some (call, key) → Stepped c (.take n) (c.take n call key)
  | published {n t} : t ∈ c.taken → t.call = n →
      Stepped c (.publish n) { c with
        taken := c.taken.filter fun u => u.call ≠ n
        emitted := c.emitted ++ [(t.key, t.batch.event)] }
  | finished {n call} : c.calls.get? n = some call → call.keys = some [] →
      (∀ t ∈ c.taken, t.call ≠ n) → Stepped c (.finish n)
        { c with calls := c.calls.erase n, shut := c.shut || call.closing }

variable {ν : Type} {key : AiSessionDeltaKey} {c d : Coalescer μ} {delta : String}
  {payload : Payload μ} {call : FlushCall} {n : Nat} {batch : PendingDeltaBatch μ} {a : Action μ}
  {t : Taken μ} {as : List (Action μ)}

theorem stepped (h : step c a = some d) : Stepped c a d := by
  cases a with
  | push key payload delta =>
    cases hpush : c.push key payload delta with
    | ok e =>
      simp only [step, hpush, Option.some.injEq] at h
      exact h ▸ .pushed hpush
    | error message =>
      simp only [step, hpush, Option.some.injEq] at h
      subst h
      refine .rejected ?_
      cases hclosed : c.closed with
      | true => rfl
      | false =>
        unfold push at hpush
        simp only [hclosed, Bool.false_eq_true, if_false] at hpush
        cases hget : c.pending.get? key <;> simp [hget] at hpush
  | wake n =>
    cases htimer : c.timers[n]? with
    | none => simp [step, htimer] at h
    | some t =>
      simp only [step, htimer, Option.some.injEq] at h
      exact h ▸ .woken htimer
  | flush key =>
    simp only [step, Option.some.injEq] at h
    exact h ▸ .flushed
  | flushAll =>
    simp only [step, Option.some.injEq] at h
    exact h ▸ .allBegun
  | close =>
    cases hclosed : c.closed with
    | true =>
      simp only [step, hclosed, if_true, Option.some.injEq] at h
      exact h ▸ .closedBefore hclosed
    | false =>
      simp only [step, hclosed, Bool.false_eq_true, if_false, Option.some.injEq] at h
      exact h ▸ .closedNow hclosed
  | collect n =>
    cases hcall : c.calls.get? n with
    | none => simp [step, hcall] at h
    | some call =>
      by_cases hkeys : call.keys = none
      · simp only [step, hcall, hkeys, if_true, Option.some.injEq] at h
        exact h ▸ .collected hcall hkeys
      · simp [step, hcall, hkeys] at h
  | take n =>
    cases hnext : c.nextKey n with
    | none => simp [step, hnext] at h
    | some p =>
      simp only [step, hnext, Option.some.injEq] at h
      exact h ▸ .took hnext
  | publish n =>
    cases hfind : c.taken.find? fun t => t.call = n with
    | none => simp [step, hfind] at h
    | some t =>
      simp only [step, hfind, Option.some.injEq] at h
      exact h ▸ .published (mem_of_find?_eq_some hfind) (by simpa using find?_some hfind)
  | finish n =>
    cases hcall : c.calls.get? n with
    | none => simp [step, hcall] at h
    | some call =>
      by_cases hdone : call.keys = some [] ∧ (c.taken.all fun t => t.call ≠ n) = true
      · simp only [step, hcall, hdone, and_self, if_true, Option.some.injEq] at h
        exact h ▸ .finished hcall hdone.1 (by simpa using hdone.2)
      · simp only [step, hcall, if_neg hdone] at h
        cases h

theorem sound_step (h : step c a = some d) (hc : Sound c) : Sound d := by
  cases stepped h with
  | rejected => exact hc
  | pushed hpush => exact sound_push hc hpush
  | woken =>
    have hslept : ∀ timers, Sound { c with timers := timers } := fun _ =>
      { hc with calls := fun m found h => { hc.calls m found h with } }
    exact sound_begin (hslept _) rfl nofun nofun nofun
  | flushed => exact sound_begin hc rfl nofun nofun nofun
  | allBegun => exact sound_begin hc rfl (fun _ => rfl) (fun _ => rfl) nofun
  | closedBefore => exact hc
  | closedNow =>
    exact sound_begin (sound_close hc) rfl (fun _ => rfl) (fun _ => rfl) fun _ => ⟨rfl, rfl⟩
  | collected hcall => exact sound_collect hc hcall
  | took hnext => exact sound_take hc hnext
  | published => exact sound_publish hc _ _
  | finished hcall hkeys => exact sound_finish hc hcall hkeys

/-! ## Conservation -/

/-- For each key the deltas emitted in groups, taken and waiting are those pushed. -/
def Conserved (same : List String → List String → Prop) (c : Coalescer μ) : Prop :=
  ∀ key, ∃ groups : List (List String), c.emittedOf key = groups.map String.join ∧
    same (groups.flatten ++ (c.takenOf key ++ c.pendingOf key)) (deltasOf key c.pushed)

theorem takenOf_snoc_self (c d : Coalescer μ) (h : d.taken = c.taken ++ [t]) (hkey : t.key = key) :
    d.takenOf key = c.takenOf key ++ t.batch.chunks := by
  simp [takenOf, h, filter_append, hkey]

theorem takenOf_snoc_ne (c d : Coalescer μ) (h : d.taken = c.taken ++ [t]) (hne : t.key ≠ key) :
    d.takenOf key = c.takenOf key := by
  simp [takenOf, h, filter_append, hne]

theorem filter_eq_singleton {β γ : Type} [DecidableEq γ] {f : β → γ} {l : List β}
    (h : (l.map f).Nodup) {t : β} (ht : t ∈ l) : l.filter (fun u => f u = f t) = [t] := by
  induction l with
  | nil => cases ht
  | cons u us ih =>
    obtain ⟨hnot, hus⟩ := nodup_cons.mp h
    rcases mem_cons.mp ht with rfl | hmem
    · have hnone : us.filter (fun u => f u = f t) = [] := by
        rw [filter_eq_nil_iff]
        intro v hv
        have hne : f v ≠ f t := fun he => hnot (he ▸ mem_map_of_mem hv)
        simpa using hne
      simp [hnone]
    · have hne : f u ≠ f t := fun he => hnot (he ▸ mem_map_of_mem hmem)
      rw [filter_cons_of_neg (by simpa using hne)]
      exact ih hus hmem

section

variable {same : List String → List String → Prop} (hc : Conserved same c)

include hc

theorem conserved_push (hsnoc : ∀ xs ys piece, same xs ys → same (xs ++ [piece]) (ys ++ [piece]))
    (h : c.push key payload delta = .ok d) : Conserved same d := by
  have hview : d.emitted = c.emitted ∧ d.taken = c.taken ∧
      d.pushed = c.pushed ++ [(key, delta)] ∧ d.pendingOf key = c.pendingOf key ++ [delta] ∧
      ∀ other, other ≠ key → d.pendingOf other = c.pendingOf other := by
    obtain ⟨-, ⟨batch, hget, rfl⟩ | ⟨hget, rfl⟩⟩ := push_cases h
    · refine ⟨rfl, rfl, rfl, by simp [pendingOf, hget], ?_⟩
      intro other hne
      simp [pendingOf, get?_set_ne _ _ hne]
    refine ⟨rfl, rfl, rfl, by simp [pendingOf, hget], ?_⟩
    intro other hne
    simp [pendingOf, get?_set_ne _ _ hne]
  obtain ⟨hemitted, htaken, hpushed, hself, hother⟩ := hview
  intro k
  obtain ⟨groups, hk, hsame⟩ := hc k
  refine ⟨groups, by rw [← hk, emittedOf, emittedOf, hemitted], ?_⟩
  by_cases he : k = key
  · subst he
    simp only [takenOf, htaken, hpushed, hself, deltasOf_snoc_self] at hsame ⊢
    rw [← append_assoc, ← append_assoc]
    exact hsnoc _ _ delta (append_assoc .. ▸ hsame)
  · simp only [takenOf, htaken, hpushed, hother k he, deltasOf_snoc_ne _ _ (Ne.symm he)] at hsame ⊢
    exact hsame

theorem conserved_take (n : Nat) (call : FlushCall) (key : AiSessionDeltaKey) :
    Conserved same (c.take n call key) := by
  cases hfound : c.found key call.generation with
  | none =>
    rw [take_of_none hfound]
    exact hc
  | some batch =>
    have hget := (found_eq_some hfound).1
    have htaken : (c.take n call key).taken = c.taken ++ [⟨n, key, batch⟩] := by
      rw [take_of_some hfound]
    have hpending : (c.take n call key).pending = c.pending.erase key := by rw [take_of_some hfound]
    have hrest : (c.take n call key).emitted = c.emitted ∧
        (c.take n call key).pushed = c.pushed := by
      rw [take_of_some hfound]
      exact ⟨rfl, rfl⟩
    intro k
    have hk := hc k
    simp only [emittedOf, hrest.1, hrest.2] at hk ⊢
    by_cases he : k = key
    · subst he
      have hgone : (c.take n call k).pendingOf k = [] :=
        pendingOf_of_none (by rw [hpending, get?_erase_self])
      rw [pendingOf_of_get? hget] at hk
      rw [takenOf_snoc_self c _ htaken rfl, hgone, append_nil]
      exact hk
    · have hkept : (c.take n call key).pendingOf k = c.pendingOf k := by
        simp only [pendingOf, hpending, get?_erase_ne _ he]
      rw [takenOf_snoc_ne c _ htaken (Ne.symm he), hkept]
      exact hk

/-- What is left of a key's unpublished batches follows the batch that is published. -/
theorem conserved_publish (hs : Sound c) (ht : t ∈ c.taken)
    (hsplit : ∀ xs ys input, same (xs ++ (c.takenOf t.key ++ ys)) input →
      same (xs ++ (t.batch.chunks ++
        takenOf { c with taken := c.taken.filter fun u => u.call ≠ t.call } t.key ++ ys)) input) :
    Conserved same { c with
      taken := c.taken.filter fun u => u.call ≠ t.call
      emitted := c.emitted ++ [(t.key, t.batch.event)] } := by
  intro k
  obtain ⟨groups, hk, hsame⟩ := hc k
  by_cases he : k = t.key
  · subst he
    refine ⟨groups ++ [t.batch.chunks], ?_, ?_⟩
    · rw [map_append, ← hk, emittedOf, emittedOf, deltasOf_snoc_self, map_append]
      rfl
    have hnext := hsplit _ _ _ hsame
    simp only [append_assoc, flatten_append, flatten_cons, flatten_nil, nil_append] at hnext ⊢
    exact hnext
  · have hkept : (c.taken.filter fun u => u.call ≠ t.call).filter (fun u => u.key = k) =
        c.taken.filter fun u => u.key = k := by
      rw [filter_filter]
      apply filter_congr
      intro u hu
      by_cases hcall : u.call = t.call
      · have hsame : u = t := inj_on_of_nodup_map hs.taken_call hu ht hcall
        simp [hsame, Ne.symm he]
      · simp [hcall]
    refine ⟨groups, ?_, ?_⟩
    · rw [← hk, emittedOf, emittedOf, deltasOf_snoc_ne _ _ (Ne.symm he)]
    · simp only [takenOf, hkept] at hsame ⊢
      exact hsame

theorem conserved_step (hsnoc : ∀ xs ys piece, same xs ys → same (xs ++ [piece]) (ys ++ [piece]))
    (hsplit : ∀ t ∈ c.taken, ∀ xs ys input, same (xs ++ (c.takenOf t.key ++ ys)) input →
      same (xs ++ (t.batch.chunks ++
        takenOf { c with taken := c.taken.filter fun u => u.call ≠ t.call } t.key ++ ys)) input)
    (hs : Sound c) (h : step c a = some d) : Conserved same d := by
  cases stepped h with
  | rejected => exact hc
  | pushed hpush => exact conserved_push hc hsnoc hpush
  | woken => exact hc
  | flushed => exact hc
  | allBegun => exact hc
  | closedBefore => exact hc
  | closedNow => exact hc
  | collected => exact hc
  | took => exact conserved_take hc _ _ _
  | @published n t ht hn =>
    subst hn
    exact conserved_publish hc hs ht (hsplit t ht)
  | finished => exact hc

end

/-! ## Conservation in orderly runs -/

/-- With one batch unpublished for each key, the deltas emitted, taken and
waiting are the deltas pushed. -/
structure Accounted (c : Coalescer μ) : Prop where
  coalesced : ∀ key,
    Coalesced (c.emittedOf key) (c.takenOf key ++ c.pendingOf key) (deltasOf key c.pushed)
  alone : (c.taken.map (·.key)).Nodup

theorem accounted_new : Accounted (new : Coalescer μ) where
  coalesced _ := Coalesced.nil
  alone := nodup_nil

theorem alone_step (h : step c a = some d) (ho : Orderly c a = true)
    (halone : (c.taken.map (·.key)).Nodup) : (d.taken.map (·.key)).Nodup := by
  cases stepped h with
  | rejected => exact halone
  | pushed hpush =>
    have hsame : d.taken = c.taken := by
      obtain ⟨-, ⟨batch, hget, rfl⟩ | ⟨hget, rfl⟩⟩ := push_cases hpush <;> rfl
    exact hsame ▸ halone
  | woken => exact halone
  | flushed => exact halone
  | allBegun => exact halone
  | closedBefore => exact halone
  | closedNow => exact halone
  | collected => exact halone
  | @took n call key hnext =>
    cases hfound : c.found key call.generation with
    | none =>
      rw [take_of_none hfound]
      exact halone
    | some batch =>
      have hnone : ∀ t ∈ c.taken, t.key ≠ key := by simpa [Orderly, toTake, hnext, hfound] using ho
      rw [take_of_some hfound, map_append, nodup_append]
      refine ⟨halone, by simp, ?_⟩
      intro k hk k' hk'
      obtain ⟨t, ht, rfl⟩ := mem_map.mp hk
      rw [mem_singleton.mp hk']
      exact hnone t ht
  | published => exact halone.sublist (filter_sublist.map _)
  | finished => exact halone

theorem accounted_step (h : step c a = some d)
    (ho : Orderly c a = true) (hs : Sound c) (hc : Accounted c) : Accounted d := by
  have hnext : Conserved Eq d := by
    refine conserved_step hc.coalesced (fun _ _ piece => congrArg (· ++ [piece])) ?_ hs h
    intro t ht xs ys input hsame
    have hone := filter_eq_singleton hc.alone ht
    have hgone : (c.taken.filter fun u => u.call ≠ t.call).filter (fun u => u.key = t.key) =
        [] := by
      rw [filter_filter, filter_eq_nil_iff]
      intro u hu hboth
      have hmem : u ∈ c.taken.filter fun u => u.key = t.key := by
        rw [mem_filter]
        simp only [Bool.and_eq_true] at hboth
        exact ⟨hu, hboth.1⟩
      rw [hone, mem_singleton] at hmem
      simp [hmem] at hboth
    simp only [takenOf, hone, hgone, flatMap_cons, flatMap_nil, append_nil] at hsame ⊢
    exact hsame
  exact ⟨hnext, alone_step h ho hc.alone⟩

/-! ## Timers and batches -/

/-- `serial` is the batch that generation `g` of `key` stands for, if it still waits. -/
def Names (c : Coalescer μ) (key : AiSessionDeltaKey) (g : UInt64) (serial : Nat) : Prop :=
  ∀ batch, c.pending.get? key = some batch → batch.generation = g → batch.serial = serial

/-- Every timer and every wakeup in progress names the batch that armed it. -/
structure Timed (c : Coalescer μ) : Prop where
  timers : ∀ t ∈ c.timers, c.Names t.key t.generation t.serial
  wakeups : ∀ n call serial, c.calls.get? n = some call → call.armedFor = some serial →
    ∃ g, call.generation = some g ∧
      (call.keys = some [] ∨ ∃ key, call.keys = some [key] ∧ c.Names key g serial)

theorem timed_new : Timed (new : Coalescer μ) := by constructor <;> simp [new]

theorem Timed.of_fewer (hc : Timed c) (htimers : ∀ t ∈ d.timers, t ∈ c.timers)
    (hcalls : ∀ n call serial, d.calls.get? n = some call → call.armedFor = some serial →
      c.calls.get? n = some call ∨ (call.generation.isSome ∧ call.keys = some []))
    (hpending : ∀ key batch, d.pending.get? key = some batch →
      c.pending.get? key = some batch) : Timed d := by
  have hnames : ∀ key g serial, c.Names key g serial → d.Names key g serial :=
    fun key g serial h batch hb => h batch (hpending key batch hb)
  constructor
  · intro t ht
    exact hnames _ _ _ (hc.timers t (htimers t ht))
  intro n call serial hcall harmed
  rcases hcalls n call serial hcall harmed with hold | ⟨hgen, hkeys⟩
  · obtain ⟨g, hg, hkeys⟩ := hc.wakeups n call serial hold harmed
    refine ⟨g, hg, hkeys.imp id ?_⟩
    rintro ⟨key, hk, hname⟩
    exact ⟨key, hk, hnames _ _ _ hname⟩
  · obtain ⟨g, hg⟩ := Option.isSome_iff_exists.mp hgen
    exact ⟨g, hg, .inl hkeys⟩

theorem timed_begin (hc : Timed c)
    (hnew : ∀ serial, call.armedFor = some serial → ∃ g, call.generation = some g ∧
      ∃ key, call.keys = some [key] ∧ c.Names key g serial) : Timed (c.begin call) := by
  refine ⟨hc.timers, ?_⟩
  intro n found serial hfound harmed
  obtain ⟨-, rfl⟩ | ⟨-, hold⟩ := get?_set_eq_some hfound
  · obtain ⟨g, hg, hkey⟩ := hnew serial harmed
    exact ⟨g, hg, .inr hkey⟩
  · exact hc.wakeups n found serial hold harmed

theorem not_awaited {g : UInt64} (h : c.awaited key g = false) :
    (∀ t ∈ c.timers, t.key = key → t.generation ≠ g) ∧
      ∀ n call, c.calls.get? n = some call → call.generation = some g → call.keys ≠ some [key] := by
  simp only [awaited, Bool.or_eq_false_iff, any_eq_false, decide_eq_true_eq] at h
  obtain ⟨htimers, hcalls⟩ := h
  refine ⟨fun t ht hkey hgen => htimers t ht ⟨hkey, hgen⟩, ?_⟩
  intro n call hcall hgen hkeys
  exact hcalls call (mem_values.mpr ⟨n, hcall⟩) ⟨hgen, hkeys⟩

theorem quiet_of_start (hopen : c.closed = false) (hget : c.pending.get? key = none)
    (ho : Orderly c (.push key payload delta) = true) :
    c.awaited key (c.nextGeneration + 1) = false ∧ c.flushingAll = false := by
  simpa [Orderly, hopen, OrderedMap.contains, hget] using ho

theorem timed_push (hc : Timed c) (h : c.push key payload delta = .ok d)
    (ho : Orderly c (.push key payload delta) = true) : Timed d := by
  obtain ⟨hopen, ⟨batch, hget, rfl⟩ | ⟨hget, rfl⟩⟩ := push_cases h
  · -- The batch that grows keeps its generation and its serial number.
    have hnames : ∀ k g serial, c.Names k g serial → Names { c with
        pending := c.pending.set key
          { batch with chunks := batch.chunks ++ [delta], lastPayload := payload }
        pushed := c.pushed ++ [(key, delta)] } k g serial := by
      intro k g serial hname b hb hgen
      obtain ⟨rfl, rfl⟩ | ⟨-, hold⟩ := get?_set_eq_some hb
      · exact hname batch hget hgen
      · exact hname b hold hgen
    refine ⟨fun t ht => hnames _ _ _ (hc.timers t ht), ?_⟩
    intro n call serial hcall harmed
    obtain ⟨g, hg, hkeys⟩ := hc.wakeups n call serial hcall harmed
    refine ⟨g, hg, hkeys.imp id ?_⟩
    rintro ⟨k, hk, hname⟩
    exact ⟨k, hk, hnames _ _ _ hname⟩
  · obtain ⟨htimers, hcalls⟩ := not_awaited (quiet_of_start hopen hget ho).1
    constructor
    · intro t ht b hb hgen
      rcases mem_append.mp ht with hmem | hmem
      · obtain ⟨hkey, rfl⟩ | ⟨-, hold⟩ := get?_set_eq_some hb
        · exact absurd hgen.symm (htimers t hmem hkey)
        · exact hc.timers t hmem b hold hgen
      rw [mem_singleton.mp hmem] at hb ⊢
      obtain ⟨-, rfl⟩ | ⟨hne, -⟩ := get?_set_eq_some hb
      · rfl
      · exact absurd rfl hne
    · intro n call serial hcall harmed
      obtain ⟨g, hg, hkeys⟩ := hc.wakeups n call serial hcall harmed
      refine ⟨g, hg, hkeys.imp id ?_⟩
      rintro ⟨k, hk, hname⟩
      refine ⟨k, hk, ?_⟩
      intro b hb hgen
      obtain ⟨rfl, rfl⟩ | ⟨-, hold⟩ := get?_set_eq_some hb
      · have hcurrent : call.generation = some (c.nextGeneration + 1) := by
          rw [hg]
          exact congrArg some hgen.symm
        exact absurd hk (hcalls n call hcall hcurrent)
      · exact hname b hold hgen

theorem timed_take (hc : Timed c) (h : c.nextKey n = some (call, key)) :
    Timed (c.take n call key) := by
  obtain ⟨hcall, ⟨rest, hkeys⟩, -⟩ := nextKey_eq_some h
  have hcalls : ∀ m found serial, (c.calls.set n call.advance).get? m = some found →
      found.armedFor = some serial →
      c.calls.get? m = some found ∨ (found.generation.isSome ∧ found.keys = some []) := by
    intro m found serial hfound harmed
    obtain ⟨-, rfl⟩ | ⟨-, hold⟩ := get?_set_eq_some hfound
    · -- A wakeup has one key, so its list is empty now.
      obtain ⟨g, hg, hlist⟩ := hc.wakeups n call serial hcall harmed
      refine .inr ⟨by simp [FlushCall.advance, hg], ?_⟩
      rcases hlist with hnil | ⟨k, hk, -⟩
      · simp [FlushCall.advance, hnil]
      · simp [FlushCall.advance, hk]
    · exact .inl hold
  cases hfound : c.found key call.generation with
  | none =>
    rw [take_of_none hfound]
    exact hc.of_fewer (fun _ => id) hcalls fun _ _ => id
  | some batch =>
    rw [take_of_some hfound]
    exact hc.of_fewer (fun _ => id) hcalls fun _ _ hb => (get?_erase_eq_some hb).2

theorem timed_step (h : step c a = some d) (ho : Orderly c a = true) (hc : Timed c) : Timed d := by
  cases stepped h with
  | rejected => exact hc
  | pushed hpush => exact timed_push hc hpush ho
  | @woken n t htimer =>
    have hmem : t ∈ c.timers := mem_of_getElem? htimer
    have hslept : Timed { c with timers := c.timers.eraseIdx n } :=
      ⟨fun u hu => hc.timers u (mem_of_mem_eraseIdx hu), hc.wakeups⟩
    refine timed_begin hslept ?_
    intro serial hserial
    exact ⟨t.generation, rfl, t.key, rfl, (Option.some.inj hserial) ▸ hc.timers t hmem⟩
  | flushed => exact timed_begin hc nofun
  | allBegun => exact timed_begin hc nofun
  | closedBefore => exact hc
  | closedNow =>
    have hclosed : Timed { c with closed := true } := ⟨hc.timers, hc.wakeups⟩
    exact timed_begin hclosed nofun
  | @collected n call hcall hkeys =>
    refine hc.of_fewer (fun _ => id) ?_ fun _ _ => id
    intro m found serial hfound harmed
    obtain ⟨-, rfl⟩ | ⟨-, hold⟩ := get?_set_eq_some hfound
    · obtain ⟨g, -, hnil | ⟨k, hk, -⟩⟩ := hc.wakeups n call serial hcall harmed
      · rw [hkeys] at hnil
        cases hnil
      · rw [hkeys] at hk
        cases hk
    · exact .inl hold
  | took hnext => exact timed_take hc hnext
  | published => exact ⟨hc.timers, hc.wakeups⟩
  | finished =>
    exact hc.of_fewer (fun _ => id)
      (fun m found serial hfound _ => .inl (get?_erase_eq_some hfound).2)
      fun _ _ => id

/-! ## Orderly runs -/

/-- The deltas emitted, taken and waiting for a key are those pushed for it, in
order. When a `flush_all` or `close` returns, no batch waits or is unpublished.
What a wakeup takes is the batch that armed its timer. -/
structure Coalesces (c : Coalescer μ) : Prop where
  conserved : ∀ key,
    Coalesced (c.emittedOf key) (c.takenOf key ++ c.pendingOf key) (deltasOf key c.pushed)
  emptied : ∀ a d, c.returns a = true → Orderly c a = true → step c a = some d →
    d.pending.keys = [] ∧ d.taken = []
  timed : ∀ n call serial key batch, c.calls.get? n = some call →
    call.armedFor = some serial → c.toTake n = some (key, batch) → batch.serial = serial

/-- No batch is younger than the list of a `flush_all`, and no batch is
unpublished behind the close. -/
structure Drained (c : Coalescer μ) : Prop where
  current : ∀ n call, c.calls.get? n = some call → call.all = true → call.keys ≠ none →
    call.since = c.started
  quiet : c.shut = true → c.taken = []

theorem drained_new : Drained (new : Coalescer μ) := by constructor <;> simp [new]

theorem Drained.finished (hc : Drained c) (hs : Sound c) (hcall : c.calls.get? n = some call)
    (hall : call.all = true) (hkeys : call.keys = some []) (ho : Orderly c (.finish n) = true) :
    c.pending.keys = [] ∧ c.taken = [] := by
  have hsince := hc.current n call hcall hall (by simp [hkeys])
  refine ⟨(flushed_of_sound hs hcall hall hkeys).2 hsince, ?_⟩
  have htaken : ∀ t ∈ c.taken, call.since ≤ t.batch.serial := by
    simpa [Orderly, hcall, hall] using ho
  apply eq_nil_iff_forall_not_mem.mpr
  intro t ht
  have hold := hs.taken_old t ht
  have hnew := htaken t ht
  omega

theorem emptied_of_drained (hs : Sound c) (hc : Drained c) (hreturns : c.returns a = true)
    (ho : Orderly c a = true) (h : step c a = some d) : d.pending.keys = [] ∧ d.taken = [] := by
  cases stepped h with
  | finished hcall hkeys =>
    exact hc.finished hs hcall (by simpa [returns, hcall] using hreturns) hkeys ho
  | closedBefore hclosed =>
    have hshut : c.shut = true := by simpa [Orderly, hclosed] using ho
    exact ⟨(hs.shut hshut).2, hc.quiet hshut⟩
  | closedNow hopen => exact absurd hreturns (by simp [returns, hopen])
  | _ => cases hreturns

theorem drained_step (h : step c a = some d) (ho : Orderly c a = true) (hs : Sound c)
    (hc : Drained c) : Drained d := by
  have hbegun : ∀ call n found, (call.all = true → call.keys = none) →
      (c.calls.set c.nextCall call).get? n = some found → found.all = true →
      found.keys ≠ none → found.since = c.started := by
    intro call n found hcall hfound hall hkeys
    obtain ⟨-, rfl⟩ | ⟨-, hold⟩ := get?_set_eq_some hfound
    · exact absurd (hcall hall) hkeys
    · exact hc.current n found hold hall hkeys
  cases stepped h with
  | rejected => exact hc
  | pushed hpush =>
    obtain ⟨hopen, ⟨batch, hget, rfl⟩ | ⟨hget, rfl⟩⟩ := push_cases hpush
    · exact ⟨hc.current, hc.quiet⟩
    refine ⟨?_, hc.quiet⟩
    intro n call hcall hall hkeys
    have hidle := (quiet_of_start hopen hget ho).2
    have hfalse := any_eq_false.mp hidle call (mem_values.mpr ⟨n, hcall⟩)
    exact absurd (by simpa [hall, Option.isSome_iff_ne_none] using hkeys) hfalse
  | woken => exact ⟨fun n call => hbegun _ n call nofun, hc.quiet⟩
  | flushed => exact ⟨fun n call => hbegun _ n call nofun, hc.quiet⟩
  | allBegun => exact ⟨fun n call => hbegun _ n call fun _ => rfl, hc.quiet⟩
  | closedBefore => exact hc
  | closedNow => exact ⟨fun n call => hbegun _ n call fun _ => rfl, hc.quiet⟩
  | collected =>
    refine ⟨?_, hc.quiet⟩
    intro n found hfound hall hkeys
    obtain ⟨-, rfl⟩ | ⟨-, hold⟩ := get?_set_eq_some hfound
    · rfl
    · exact hc.current n found hold hall hkeys
  | @took n call key hnext =>
    obtain ⟨hcall, ⟨rest, hlist⟩, -⟩ := nextKey_eq_some hnext
    have hcurrent : ∀ m found, (c.calls.set n call.advance).get? m = some found →
        found.all = true → found.keys ≠ none → found.since = c.started := by
      intro m found hfound hall hkeys
      obtain ⟨-, rfl⟩ | ⟨-, hold⟩ := get?_set_eq_some hfound
      · exact hc.current n call hcall hall (by simp [hlist])
      · exact hc.current m found hold hall hkeys
    cases hfound : c.found key call.generation with
    | none => exact take_of_none hfound ▸ ⟨hcurrent, hc.quiet⟩
    | some batch =>
      rw [take_of_some hfound]
      refine ⟨hcurrent, ?_⟩
      intro hshut
      have hget := (found_eq_some hfound).1
      rw [get?_eq_none.mpr (by simp [(hs.shut hshut).2])] at hget
      cases hget
  | published => exact ⟨hc.current, fun hshut => by simp [hc.quiet hshut]⟩
  | @finished n call hcall hkeys =>
    refine ⟨fun m found hfound => hc.current m found (get?_erase_eq_some hfound).2, ?_⟩
    intro hshut
    rcases Bool.or_eq_true_iff.mp hshut with hbefore | hcl
    · exact hc.quiet hbefore
    · exact (hc.finished hs hcall ((hs.calls n call hcall).closing hcl).2.1 hkeys ho).2

variable (h : run step new as = some c)

include h

/-- In any interleaving the deltas of a key are emitted, taken or waiting once each, though not
always in order, what is older than the list of a `flush_all` or `close` no longer waits at its
return, and nothing waits once the close that closed the coalescer has returned. -/
theorem deltas_conserved : (∀ key, ∃ groups : List (List String),
      c.emittedOf key = groups.map String.join ∧
        (groups.flatten ++ (c.takenOf key ++ c.pendingOf key)).Perm (deltasOf key c.pushed)) ∧
    (∀ key, key ∈ c.order ↔ c.pending.get? key ≠ none) ∧
    (∀ n call d, c.calls.get? n = some call → call.all = true → step c (.finish n) = some d →
      ∀ key batch, d.pending.get? key = some batch → call.since ≤ batch.serial) ∧
    (c.shut = true → c.pending.keys = []) := by
  have hinv : Sound c ∧ Conserved Perm c := by
    refine run_invariant (I := fun c => Sound c ∧ Conserved Perm c) ?_ h
      ⟨sound_new, fun key => ⟨[], rfl, Perm.nil⟩⟩
    intro c a d hstep hc
    refine ⟨sound_step hstep hc.1,
      conserved_step hc.2 (fun _ _ piece hsame => hsame.append_right [piece]) ?_ hc.1 hstep⟩
    intro t ht xs ys input hsame
    refine Perm.trans ?_ hsame
    have hone := filter_eq_singleton hc.1.taken_call ht
    have hsplit := ((filter_append_perm (fun u => u.call = t.call) c.taken).filter
      fun u => u.key = t.key).flatMap_right (·.batch.chunks)
    rw [hone] at hsplit
    have hfirst : (t.batch.chunks ++
        takenOf { c with taken := c.taken.filter fun u => u.call ≠ t.call } t.key).Perm
          (c.takenOf t.key) := by
      simpa [takenOf] using hsplit
    exact (hfirst.append_right ys).append_left xs
  refine ⟨hinv.2, hinv.1.order_iff, ?_, fun hshut => (hinv.1.shut hshut).2⟩
  intro n call d hcall hall hfinish
  cases stepped hfinish with
  | finished hfound hkeys =>
    obtain rfl := Option.some.inj (hfound.symm.trans hcall)
    exact (flushed_of_sound hinv.1 hcall hall hkeys).1

variable (ho : AllSteps step (fun c a => Orderly c a = true) new as)

include ho

theorem run_invariants : Sound c ∧ Accounted c ∧ Timed c ∧ Drained c :=
  run_invariant_of_steps (I := fun c => Sound c ∧ Accounted c ∧ Timed c ∧ Drained c)
    (fun _ _ _ hstep hord hc => ⟨sound_step hstep hc.1, accounted_step hstep hord hc.1 hc.2.1,
      timed_step hstep hord hc.2.2.1, drained_step hstep hord hc.1 hc.2.2.2⟩)
    h ho ⟨sound_new, accounted_new, timed_new, drained_new⟩

theorem run_coalesces : Coalesces c := by
  obtain ⟨hsound, haccounted, htimed, hdrained⟩ := run_invariants h ho
  refine ⟨haccounted.coalesced, fun a d => emptied_of_drained hsound hdrained, ?_⟩
  intro n call serial key batch hcall harmed htake
  unfold toTake at htake
  cases hnext : c.nextKey n with
  | none => simp [hnext] at htake
  | some p =>
    obtain ⟨found, k⟩ := p
    simp only [hnext, Option.map_eq_some_iff, Prod.mk.injEq] at htake
    obtain ⟨b, hfound, rfl, rfl⟩ := htake
    obtain ⟨hfoundCall, ⟨rest, hkeys⟩, -⟩ := nextKey_eq_some hnext
    rw [hcall, Option.some.injEq] at hfoundCall
    subst hfoundCall
    obtain ⟨hget, hgen⟩ := found_eq_some hfound
    obtain ⟨g, hg, hnil | ⟨j, hj, hname⟩⟩ := htimed.wakeups n call serial hcall harmed
    · rw [hkeys] at hnil
      cases hnil
    · rw [hkeys, Option.some.injEq, cons.injEq] at hj
      exact hname b (hj.1 ▸ hget) (hgen g hg)

end Coalescer

end DeltaCoalescerThreads

/-! ## Both coalescers -/

/-- Every run of the single-threaded coalescer keeps the deltas of every key,
and so does every orderly run of the threaded one; both are empty after
`flushAll` and `close`, and no timer flushes a batch it was not armed for. -/
theorem deltas_coalesced {μ : Type} {as : List (Action μ)}
    {c : Coalescer μ} {bs : List (DeltaCoalescerThreads.Coalescer.Action μ)}
    {d : DeltaCoalescerThreads.Coalescer μ} (hc : run step .new as = some c)
    (hd : run DeltaCoalescerThreads.Coalescer.step .new bs = some d)
    (ho : AllSteps DeltaCoalescerThreads.Coalescer.step
      (fun d b => DeltaCoalescerThreads.Coalescer.Orderly d b = true) .new bs) :
    (∀ key, Coalesced (deltasOf key c.emitted) (c.pendingOf key) (deltasOf key c.pushed)) ∧
      (∀ reason, (c.flushAll reason).1.pending.keys = [] ∧ (c.close reason).1.pending.keys = []) ∧
      DeltaCoalescerThreads.Coalescer.Coalesces d :=
  ⟨(run_accounted hc).coalesced,
    run_emptied hc, DeltaCoalescerThreads.Coalescer.run_coalesces hd ho⟩

namespace DeltaCoalescerThreads

def messageOne : AiSessionDeltaKey := ⟨"inst", "session-1", some "turn-1", some "item-1"⟩

/-- A wakeup takes and publishes its batch, a second batch follows and `close` flushes it; a
second `close` comes behind it. -/
def orderlyRun : List (Coalescer.Action Unit) :=
  [.push messageOne ⟨"a", ()⟩ "a", .push messageOne ⟨"b", ()⟩ "b", .wake 0, .take 0, .publish 0,
    .finish 0, .push messageOne ⟨"c", ()⟩ "c", .close, .collect 1, .take 1, .publish 1,
    .finish 1, .close]

/-- The wakeup has taken the first batch; the second is pushed, flushed and
published before it. -/
def overtakenRun : List (Coalescer.Action Unit) :=
  [.push messageOne ⟨"a", ()⟩ "a", .wake 0, .take 0, .push messageOne ⟨"b", ()⟩ "b",
    .flush messageOne, .take 1, .publish 1, .finish 1, .publish 0, .finish 0]

end DeltaCoalescerThreads

/-- Two deltas of one message that the window timer joins, and one that `close` flushes. -/
def DeltaCoalescer.windowRun : List (Action Unit) :=
  let delta text := ⟨"inst", "session-1", some "turn-1", some "item-1", text, ()⟩
  [.push (delta "a"), .push (delta "b"), .timer 0, .push (delta "c"), .close .serviceClose]

theorem deltas_coalesced_closed : ∃ c d, run step .new windowRun = some c ∧
      run DeltaCoalescerThreads.Coalescer.step .new DeltaCoalescerThreads.orderlyRun = some d ∧
      c.emitted.map (·.delta) = ["ab", "c"] ∧
      Coalesced (deltasOf DeltaCoalescerThreads.messageOne c.emitted)
        (c.pendingOf DeltaCoalescerThreads.messageOne)
        (deltasOf DeltaCoalescerThreads.messageOne c.pushed) ∧
      DeltaCoalescerThreads.Coalescer.Coalesces d := by
  have hrun : (run DeltaCoalescerThreads.Coalescer.step .new
      DeltaCoalescerThreads.orderlyRun).isSome = true := by decide
  obtain ⟨d, hd⟩ := Option.isSome_iff_exists.mp hrun
  have hwindow : (run step .new windowRun).isSome = true := by decide
  obtain ⟨c, hc⟩ := Option.isSome_iff_exists.mp hwindow
  have hboth := deltas_coalesced hc hd (by decide)
  refine ⟨c, d, hc, hd, ?_, hboth.1 _, hboth.2.2⟩
  have hemitted : (run step .new
      windowRun).map (fun c => c.emitted.map (·.delta)) = some ["ab", "c"] := by
    decide
  rw [hc] at hemitted
  simpa using hemitted

/-- At the end of the overtaken run no call is in progress and nothing waits,
but the deltas were emitted in the wrong order. -/
theorem deltas_overtaken : ∃ d, run DeltaCoalescerThreads.Coalescer.step .new
        DeltaCoalescerThreads.overtakenRun = some d ∧
      d.calls.keys = [] ∧ d.taken = [] ∧ d.pending.keys = [] ∧
      String.join (d.emittedOf DeltaCoalescerThreads.messageOne) = "ba" ∧
      String.join (DeltaCoalescerThreads.Coalescer.deltasOf DeltaCoalescerThreads.messageOne
        d.pushed) = "ab" := by
  decide

open DeltaCoalescerThreads DeltaCoalescerThreads.Coalescer in
theorem deltas_conserved_overtaken :
    ∃ d, run DeltaCoalescerThreads.Coalescer.step .new overtakenRun = some d ∧
      ∃ groups : List (List String), d.emittedOf messageOne = groups.map String.join ∧
        (groups.flatten ++ (d.takenOf messageOne ++ d.pendingOf messageOne)).Perm
          (DeltaCoalescerThreads.Coalescer.deltasOf messageOne d.pushed) := by
  have hrun : (run DeltaCoalescerThreads.Coalescer.step .new overtakenRun).isSome = true := by decide
  obtain ⟨d, hd⟩ := Option.isSome_iff_exists.mp hrun
  exact ⟨d, hd, (deltas_conserved hd).1 messageOne⟩

end TaskHandoff.Events
