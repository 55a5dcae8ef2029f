import Mathlib.Data.Finset.Max
import Mathlib.Data.List.Dedup
import Mathlib.Data.List.Sort
import Mathlib.Data.Sum.Order
import TaskHandoff.Lib.Machine
import TaskHandoff.Lib.OrderedMap

/-! # The repository mutation queue

Operations on a repository and its worktrees are serialised by lanes. A lane is
a chain of promises: an operation appends its own to the lane's tail and waits
for the one before. An operation on several worktrees takes the repository lane
and then the worktree lanes in key order, and gives them back inside out.
-/

namespace TaskHandoff.Repository

open OrderedMap List Nat

/-! ## Lanes and requests -/

/-- The key of a lane; the two prefixes keep repositories and worktrees apart. -/
inductive Lane (κ : Type) where
  | repository (key : κ)
  | worktree (key : κ)
deriving DecidableEq

/-- What a caller asks for, with the keys in the order of the default sort. -/
inductive Request (κ : Type) where
  | withRepository (repositoryKey : κ)
  | withWorktree (worktreeKey : κ)
  | withRepositoryAndWorktrees (repositoryKey : κ) (worktreeKeys : List κ)

/-- The promise an operation appended to a lane, and the one it waits for. -/
structure Ticket (κ : Type) where
  id : Nat
  lane : Lane κ
  previous : Option Nat
deriving DecidableEq

inductive Phase (κ : Type) where
  | waiting (ticket : Ticket κ) (rest : List (Lane κ))
  | running
  | releasing

/-- A pending operation: the lanes of its request and those it holds, the innermost first. -/
structure Operation (κ : Type) where
  lanes : List (Lane κ)
  held : List (Ticket κ)
  phase : Phase κ

/-- The lane table, the resolved promises, the pending operations, and the order in which
lanes were entered. -/
structure MutationQueue (κ : Type) where
  tails : OrderedMap (Lane κ) Nat
  resolved : List Nat
  nextTicket : Nat
  operations : OrderedMap Nat (Operation κ)
  nextOperation : Nat
  entered : List (Ticket κ)

variable {κ : Type} [LinearOrder κ]

/-- The lanes of a request, outermost first. -/
def Request.lanes : Request κ → List (Lane κ)
  | .withRepository repositoryKey => [.repository repositoryKey]
  | .withWorktree worktreeKey => [.worktree worktreeKey]
  | .withRepositoryAndWorktrees repositoryKey worktreeKeys =>
    .repository repositoryKey :: (worktreeKeys.dedup.insertionSort (· ≤ ·)).map .worktree

namespace MutationQueue

omit [LinearOrder κ] in
def init : MutationQueue κ where
  tails := .empty
  resolved := []
  nextTicket := 0
  operations := .empty
  nextOperation := 0
  entered := []

/-! ## Steps -/

/-- Whether the promise a ticket waits for is resolved. -/
def canEnter (q : MutationQueue κ) (ticket : Ticket κ) : Bool :=
  match ticket.previous with
  | none => true
  | some previous => previous ∈ q.resolved

def ticketFor (q : MutationQueue κ) (lane : Lane κ) : Ticket κ where
  id := q.nextTicket
  lane := lane
  previous := q.tails.get? lane

/-- Append a promise to the lane and let the operation wait for the one before. -/
def enqueue (q : MutationQueue κ) (operation : Nat) (lanes : List (Lane κ))
    (held : List (Ticket κ)) (lane : Lane κ) (rest : List (Lane κ)) : MutationQueue κ :=
  { q with
    tails := q.tails.set lane q.nextTicket
    nextTicket := q.nextTicket + 1
    operations := q.operations.set operation ⟨lanes, held, .waiting (q.ticketFor lane) rest⟩ }

def request (q : MutationQueue κ) (r : Request κ) : MutationQueue κ :=
  match r.lanes with
  | [] => q
  | lane :: rest =>
    { q with nextOperation := q.nextOperation + 1 }.enqueue q.nextOperation r.lanes [] lane rest

/-- The awaited promise is resolved: the lane is entered, and the next lane asked for. -/
def resume (q : MutationQueue κ) (operation : Nat) : Option (MutationQueue κ) :=
  match q.operations.get? operation with
  | some ⟨lanes, held, .waiting ticket rest⟩ =>
    if q.canEnter ticket then
      let entered := { q with entered := q.entered ++ [ticket] }
      match rest with
      | [] =>
        some { entered with
          operations := q.operations.set operation ⟨lanes, ticket :: held, .running⟩ }
      | lane :: rest => some (entered.enqueue operation lanes (ticket :: held) lane rest)
    else none
  | _ => none

/-- The operation settles, with a result or with an error. -/
def finish (q : MutationQueue κ) (operation : Nat) : Option (MutationQueue κ) :=
  match q.operations.get? operation with
  | some ⟨lanes, held, .running⟩ =>
    some { q with operations := q.operations.set operation ⟨lanes, held, .releasing⟩ }
  | _ => none

/-- The innermost lane is given back. -/
def release (q : MutationQueue κ) (operation : Nat) : Option (MutationQueue κ) :=
  match q.operations.get? operation with
  | some ⟨lanes, ticket :: held, .releasing⟩ =>
    some { q with
      resolved := q.resolved ++ [ticket.id]
      tails :=
        if q.tails.get? ticket.lane = some ticket.id then q.tails.erase ticket.lane else q.tails
      operations :=
        if held.isEmpty then q.operations.erase operation
        else q.operations.set operation ⟨lanes, held, .releasing⟩ }
  | _ => none

inductive Action (κ : Type) where
  | request (r : Request κ)
  | resume (operation : Nat)
  | finish (operation : Nat) (failed : Bool)
  | release (operation : Nat)

def step (q : MutationQueue κ) : Action κ → Option (MutationQueue κ)
  | .request r => some (q.request r)
  | .resume operation => q.resume operation
  | .finish operation _ => q.finish operation
  | .release operation => q.release operation

/-! ## Lanes as chains of tickets -/

end MutationQueue

omit [LinearOrder κ] in
/-- The tickets of an operation that are not resolved: those it holds and the one it waits with. -/
def Operation.tickets (operation : Operation κ) : List (Ticket κ) :=
  match operation.phase with
  | .waiting ticket _ => ticket :: operation.held
  | _ => operation.held

/-- The unresolved tickets of a lane form a chain that ends in the lane's tail. -/
structure Chained (active : Ticket κ → Prop) (tails : OrderedMap (Lane κ) Nat)
    (resolved : List Nat) (next : Nat) : Prop where
  fresh : ∀ t, active t → t.id < next
  unique : ∀ t t', active t → active t' → t.id = t'.id → t = t'
  unresolved : ∀ t, active t → t.id ∉ resolved
  resolved_lt : ∀ i ∈ resolved, i < next
  tail : ∀ lane i, tails.get? lane = some i →
    ∃ t, active t ∧ t.id = i ∧ t.lane = lane ∧ ∀ t', active t' → t'.lane = lane → t'.id ≤ i
  tail_some : ∀ t, active t → tails.get? t.lane ≠ none
  previous : ∀ t, active t → ∀ p, t.previous = some p →
    p ∈ resolved ∨ ∃ t', active t' ∧ t'.id = p ∧ t'.lane = t.lane
  previous_lt : ∀ t, active t → ∀ p, t.previous = some p → p < t.id
  chain : ∀ a b, active a → active b → a.lane = b.lane → a.id < b.id →
    ∃ p, b.previous = some p ∧ a.id ≤ p ∧ p ∉ resolved

theorem Chained.init : Chained (κ := κ) (fun _ => False) .empty [] 0 := by constructor <;> simp

section Chained

variable {active : Ticket κ → Prop} {tails : OrderedMap (Lane κ) Nat} {resolved : List Nat}
variable {next : Nat}

theorem Chained.congr (h : Chained active tails resolved next) {active' : Ticket κ → Prop}
    (heq : ∀ t, active' t ↔ active t) : Chained active' tails resolved next := by
  obtain rfl : active' = active := funext fun t => propext (heq t)
  exact h

theorem Chained.enqueue (h : Chained active tails resolved next) (lane : Lane κ) :
    Chained (fun t => active t ∨ t = ⟨next, lane, tails.get? lane⟩) (tails.set lane next)
      resolved (next + 1) where
  fresh := by
    rintro t (ht | rfl)
    · exact lt_succ_of_lt (h.fresh t ht)
    · exact lt_succ_self next
  unique := by
    rintro t t' (ht | rfl) (ht' | rfl) hid
    · exact h.unique t t' ht ht' hid
    · exact absurd hid (Nat.ne_of_lt (h.fresh t ht))
    · exact absurd hid.symm (Nat.ne_of_lt (h.fresh t' ht'))
    · rfl
  unresolved := by
    rintro t (ht | rfl)
    · exact h.unresolved t ht
    · exact fun hin => lt_irrefl _ (h.resolved_lt _ hin)
  resolved_lt := fun i hi => lt_succ_of_lt (h.resolved_lt i hi)
  tail := by
    intro other i hget
    rcases get?_set_eq_some hget with ⟨rfl, rfl⟩ | ⟨hne, hget'⟩
    · refine ⟨_, .inr rfl, rfl, rfl, ?_⟩
      rintro t' (ht' | rfl) -
      · exact (h.fresh t' ht').le
      · exact le_refl _
    · obtain ⟨t, ht, hid, hlane, hmax⟩ := h.tail other i hget'
      refine ⟨t, .inl ht, hid, hlane, ?_⟩
      rintro t' (ht' | rfl) hlane'
      · exact hmax t' ht' hlane'
      · exact absurd hlane'.symm hne
  tail_some := by
    intro t ht
    rw [get?_set]
    split
    · simp
    next hne =>
      rcases ht with ht | rfl
      · exact h.tail_some t ht
      · exact absurd rfl hne
  previous := by
    rintro t (ht | rfl) p hp
    · rcases h.previous t ht p hp with hres | ⟨t', ht', hid, hlane⟩
      · exact .inl hres
      · exact .inr ⟨t', .inl ht', hid, hlane⟩
    · obtain ⟨t', ht', hid, hlane, -⟩ := h.tail lane p hp
      exact .inr ⟨t', .inl ht', hid, hlane⟩
  previous_lt := by
    rintro t (ht | rfl) p hp
    · exact h.previous_lt t ht p hp
    · obtain ⟨t', ht', rfl, -, -⟩ := h.tail lane p hp
      exact h.fresh t' ht'
  chain := by
    rintro a b (ha | rfl) (hb | rfl) hlane hlt
    · exact h.chain a b ha hb hlane hlt
    · cases htail : tails.get? lane with
      | none => exact absurd (hlane ▸ htail) (h.tail_some a ha)
      | some i =>
        obtain ⟨t, ht, rfl, -, hmax⟩ := h.tail lane i htail
        exact ⟨t.id, rfl, hmax a ha hlane, h.unresolved t ht⟩
    · exact absurd hlt (Nat.not_lt_of_lt (h.fresh b hb))
    · exact absurd hlt (lt_irrefl _)

variable {t : Ticket κ}

variable (h : Chained active tails resolved next)

include h

theorem Chained.release (ht : active t)
    (hfirst : ∀ a, active a → a.lane = t.lane → t.id ≤ a.id) : Chained (fun a => active a ∧ a ≠ t)
      (if tails.get? t.lane = some t.id then tails.erase t.lane else tails)
      (resolved ++ [t.id]) next where
  fresh := fun a ha => h.fresh a ha.1
  unique := fun a b ha hb => h.unique a b ha.1 hb.1
  unresolved := by
    rintro a ⟨ha, hne⟩ hin
    rcases mem_concat.mp hin with hold | hnew
    · exact h.unresolved a ha hold
    · exact hne (h.unique a t ha ht hnew)
  resolved_lt := by
    intro i hi
    rcases mem_concat.mp hi with hold | rfl
    · exact h.resolved_lt i hold
    · exact h.fresh t ht
  tail := by
    intro lane i hget
    have hkept : tails.get? lane = some i ∧ i ≠ t.id := by
      split at hget
      next htail =>
        obtain ⟨hlane, hold⟩ := get?_erase_eq_some hget
        refine ⟨hold, ?_⟩
        rintro rfl
        obtain ⟨t', ht', hid, hlane', -⟩ := h.tail lane t.id hold
        exact hlane (hlane' ▸ congrArg Ticket.lane (h.unique t' t ht' ht hid))
      next htail =>
        refine ⟨hget, ?_⟩
        rintro rfl
        obtain ⟨t', ht', hid, hlane', -⟩ := h.tail lane t.id hget
        obtain rfl := h.unique t' t ht' ht hid
        exact htail (hlane' ▸ hget)
    obtain ⟨a, ha, hid, hlane, hmax⟩ := h.tail lane i hkept.1
    refine ⟨a, ⟨ha, ?_⟩, hid, hlane, fun b hb => hmax b hb.1⟩
    rintro rfl
    exact hkept.2 hid.symm
  tail_some := by
    rintro a ⟨ha, hne⟩
    split
    next htail =>
      rw [get?_erase]
      split
      next hlane =>
        -- the tail of its own lane and its first: no other ticket waits there
        obtain ⟨t', ht', hid, -, hmax⟩ := h.tail t.lane t.id htail
        have hle := hmax a ha hlane
        have hge := hfirst a ha hlane
        exact absurd (h.unique a t ha ht (le_antisymm hle hge)) hne
      · exact h.tail_some a ha
    · exact h.tail_some a ha
  previous := by
    rintro a ⟨ha, -⟩ p hp
    rcases h.previous a ha p hp with hres | ⟨b, hb, hid, hlane⟩
    · exact .inl (mem_append_left _ hres)
    by_cases hbt : b = t
    · exact .inl (mem_append_right _ (mem_singleton.mpr (hbt ▸ hid.symm)))
    · exact .inr ⟨b, ⟨hb, hbt⟩, hid, hlane⟩
  previous_lt := fun a ha => h.previous_lt a ha.1
  chain := by
    rintro a b ⟨ha, hat⟩ ⟨hb, -⟩ hlane hlt
    obtain ⟨p, hp, hle, hres⟩ := h.chain a b ha hb hlane hlt
    refine ⟨p, hp, hle, ?_⟩
    intro hin
    rcases mem_append.mp hin with hold | hnew
    · exact hres hold
    rw [mem_singleton] at hnew
    rcases h.previous b hb p hp with hold | ⟨c, hc, hid, hcl⟩
    · exact hres hold
    obtain rfl := h.unique c t hc ht (hid.trans hnew)
    have hge := hfirst a ha (hlane.trans hcl.symm)
    exact hat (h.unique a c ha hc (le_antisymm (hle.trans hid.ge) hge))

theorem Chained.first (ht : active t)
    (hentered : ∀ p, t.previous = some p → p ∈ resolved) {a : Ticket κ} (ha : active a)
    (hlane : a.lane = t.lane) : t.id ≤ a.id := by
  by_contra hlt
  obtain ⟨p, hp, -, hres⟩ := h.chain a t ha ht hlane (not_le.mp hlt)
  exact hres (hentered p hp)

end Chained

/-! ## The order of lanes -/

/-- Repository lanes come before worktree lanes, and each kind in key order. -/
def Lane.rank : Lane κ → κ ⊕ₗ κ
  | .repository key => toLex (.inl key)
  | .worktree key => toLex (.inr key)

/-- No operation asks for a lane it already holds, or for one before it. -/
theorem Request.lanes_sorted (r : Request κ) : (r.lanes.map Lane.rank).Pairwise (· < ·) := by
  cases r with
  | withRepository repositoryKey => exact pairwise_singleton _ _
  | withWorktree worktreeKey => exact pairwise_singleton _ _
  | withRepositoryAndWorktrees repositoryKey worktreeKeys =>
    have hperm := perm_insertionSort (· ≤ ·) worktreeKeys.dedup
    have hnodup := hperm.nodup_iff.mpr worktreeKeys.nodup_dedup
    have hsorted := pairwise_insertionSort (· ≤ ·) worktreeKeys.dedup
    have hstrict : (worktreeKeys.dedup.insertionSort (· ≤ ·)).Pairwise (· < ·) :=
      (hsorted.and hnodup).imp fun h => lt_of_le_of_ne h.1 h.2
    simp only [Request.lanes, map_cons, map_map, pairwise_cons, pairwise_map]
    constructor
    · intro rank hrank
      obtain ⟨key, -, rfl⟩ := mem_map.mp hrank
      exact Sum.Lex.inl_lt_inr repositoryKey key
    · exact hstrict.imp Sum.Lex.inr_lt_inr_iff.mpr

/-! ## The state of one operation -/

/-- The operation holds an outer part of its lanes, and waits for the next one. -/
def Operation.Path (operation : Operation κ) : Prop :=
  match operation.phase with
  | .waiting ticket rest =>
    operation.lanes = (operation.held.map Ticket.lane).reverse ++ ticket.lane :: rest
  | .running => operation.lanes = (operation.held.map Ticket.lane).reverse
  | .releasing =>
    operation.held ≠ [] ∧
      ∃ given, operation.lanes = (operation.held.map Ticket.lane).reverse ++ given

structure Operation.WellFormed (operation : Operation κ) (resolved : List Nat) : Prop where
  asked : operation.lanes ≠ []
  sorted : (operation.lanes.map Lane.rank).Pairwise (· < ·)
  path : operation.Path
  entered : ∀ t ∈ operation.held, ∀ p, t.previous = some p → p ∈ resolved

theorem Operation.WellFormed.mono {operation : Operation κ} {resolved more : List Nat}
    (h : operation.WellFormed resolved) : operation.WellFormed (resolved ++ more) where
  __ := h
  entered := fun t ht p hp => mem_append_left _ (h.entered t ht p hp)

variable {resolved : List Nat} {held : List (Ticket κ)} {t : Ticket κ} {lanes : List (Lane κ)}

/-- The lane of a ticket the operation is about to give back is held only once. -/
theorem Operation.WellFormed.head_not_mem
    (h : Operation.WellFormed ⟨lanes, t :: held, .releasing⟩ resolved) : t ∉ held := by
  intro hin
  obtain ⟨-, given, hlanes⟩ := h.path
  have hsorted := pairwise_map.mp h.sorted
  have hheld : ((t :: held).map Ticket.lane).Nodup := by
    rw [← nodup_reverse]
    have hprefix := (pairwise_append.mp (hlanes ▸ hsorted)).1
    exact hprefix.imp fun hlt => ne_of_apply_ne Lane.rank (ne_of_lt hlt)
  exact (nodup_cons.mp hheld).1 (mem_map_of_mem hin)

theorem Operation.WellFormed.held_lt {t a : Ticket κ} {rest : List (Lane κ)}
    (h : Operation.WellFormed ⟨lanes, held, .waiting t rest⟩ resolved) (ha : a ∈ held) :
    a.lane.rank < t.lane.rank := by
  have hsorted := pairwise_map.mp h.sorted
  have hpath : lanes = (held.map Ticket.lane).reverse ++ t.lane :: rest := h.path
  have hbefore := (pairwise_append.mp (hpath ▸ hsorted)).2.2
  exact hbefore a.lane (mem_reverse.mpr (mem_map_of_mem ha)) t.lane mem_cons_self

namespace MutationQueue

/-! ## The invariant -/

omit [LinearOrder κ] in
/-- The unresolved tickets of one operation. -/
def ticketsOf (operations : OrderedMap Nat (Operation κ)) (operation : Nat) : List (Ticket κ) :=
  match operations.get? operation with
  | none => []
  | some op => op.tickets

structure Inv (q : MutationQueue κ) : Prop where
  chained : Chained (fun t => ∃ o, t ∈ ticketsOf q.operations o) q.tails q.resolved q.nextTicket
  owner : ∀ o o' t, t ∈ ticketsOf q.operations o → t ∈ ticketsOf q.operations o' → o = o'
  wellFormed : ∀ o op, q.operations.get? o = some op → op.WellFormed q.resolved
  fresh : ∀ o op, q.operations.get? o = some op → o < q.nextOperation
  entered_lt : ∀ t ∈ q.entered, t.id < q.nextTicket
  order : q.entered.Pairwise fun a b => a.lane = b.lane → a.id < b.id
  later : ∀ o lanes held t rest, q.operations.get? o = some ⟨lanes, held, .waiting t rest⟩ →
    ∀ a ∈ q.entered, a.lane = t.lane → a.id < t.id

theorem Inv.init : Inv (init : MutationQueue κ) where
  chained := Chained.init.congr (by simp [MutationQueue.init, ticketsOf])
  owner := by simp [MutationQueue.init, ticketsOf]
  wellFormed := by simp [MutationQueue.init]
  fresh := by simp [MutationQueue.init]
  entered_lt := by simp [MutationQueue.init]
  order := List.Pairwise.nil
  later := by simp [MutationQueue.init]

/-! ## What a step does to the tickets -/

variable {o : Nat}

variable {op : Operation κ} {operations : OrderedMap Nat (Operation κ)} {log : List (Ticket κ)}
  {q' : MutationQueue κ}

omit [LinearOrder κ] in
theorem ticketsOf_of_get?
    (h : operations.get? o = some op) : ticketsOf operations o = op.tickets := by
  simp [ticketsOf, h]

omit [LinearOrder κ] in
theorem ticketsOf_set (operations : OrderedMap Nat (Operation κ)) (o : Nat) (op : Operation κ)
    (o' : Nat) : ticketsOf (operations.set o op) o' =
      if o' = o then op.tickets else ticketsOf operations o' := by
  simp only [ticketsOf, get?_set]
  by_cases heq : o' = o
  · simp [heq]
  · simp [heq]

omit [LinearOrder κ] in
theorem ticketsOf_erase (operations : OrderedMap Nat (Operation κ)) (o o' : Nat) :
    ticketsOf (operations.erase o) o' = if o' = o then [] else ticketsOf operations o' := by
  simp only [ticketsOf, get?_erase]
  by_cases heq : o' = o
  · simp [heq]
  · simp [heq]

/-- The log after a step of one operation, as the other operations see it. -/
structure Logged (q : MutationQueue κ) (operation : Nat) (log : List (Ticket κ)) : Prop where
  lt : ∀ t ∈ log, t.id < q.nextTicket
  order : log.Pairwise fun a b => a.lane = b.lane → a.id < b.id
  later : ∀ o, o ≠ operation → ∀ lanes held t rest,
    q.operations.get? o = some ⟨lanes, held, .waiting t rest⟩ →
      ∀ a ∈ log, a.lane = t.lane → a.id < t.id

variable {q : MutationQueue κ}

theorem Inv.logged (h : Inv q) (operation : Nat) : Logged q operation q.entered where
  lt := h.entered_lt
  order := h.order
  later := fun o _ lanes held t rest hget => h.later o lanes held t rest hget

variable {t : Ticket κ}

omit [LinearOrder κ] in
theorem canEnter_iff [DecidableEq κ] :
    q.canEnter t = true ↔ ∀ p, t.previous = some p → p ∈ q.resolved := by
  unfold canEnter
  cases t.previous with
  | none => simp
  | some previous => simp

variable {lanes : List (Lane κ)} {held : List (Ticket κ)} {rest : List (Lane κ)}

section

variable (h : Inv q)

include h

theorem Inv.enter (hget : q.operations.get? o = some ⟨lanes, held, .waiting t rest⟩)
    (hcan : q.canEnter t = true) : Logged q o (q.entered ++ [t]) := by
  have hmem : t ∈ ticketsOf q.operations o := by
    rw [ticketsOf_of_get? hget]
    exact mem_cons_self
  constructor
  · intro a ha
    rcases mem_concat.mp ha with hold | hnew
    · exact h.entered_lt a hold
    · exact hnew ▸ h.chained.fresh t ⟨o, hmem⟩
  · apply pairwise_append.mpr
    refine ⟨h.order, pairwise_singleton _ _, ?_⟩
    intro a ha b hb hlane
    obtain rfl := mem_singleton.mp hb
    exact h.later o lanes held b rest hget a ha hlane
  intro o' hne lanes' held' t' rest' hget' a ha hlane
  rcases mem_concat.mp ha with hold | rfl
  · exact h.later o' lanes' held' t' rest' hget' a hold hlane
  have hmem' : t' ∈ ticketsOf q.operations o' := by
    rw [ticketsOf_of_get? hget']
    exact mem_cons_self
  have hle := h.chained.first ⟨o, hmem⟩ (canEnter_iff.mp hcan) ⟨o', hmem'⟩ hlane.symm
  have hid : a.id ≠ t'.id := by
    intro heq
    obtain rfl := h.chained.unique a t' ⟨o, hmem⟩ ⟨o', hmem'⟩ heq
    exact hne (h.owner o' o a hmem' hmem)
  exact lt_of_le_of_ne hle hid

/-! ## Every step keeps the invariant -/

theorem Inv.replace {old new : Operation κ}
    (hget : q.operations.get? o = some old) (htickets : new.tickets = old.tickets)
    (hphase : ∀ t rest, new.phase ≠ .waiting t rest) (hwf : new.WellFormed q.resolved)
    (hlog : Logged q o log) :
    Inv { q with entered := log, operations := q.operations.set o new } := by
  have hsame : ∀ o', ticketsOf (q.operations.set o new) o' = ticketsOf q.operations o' := by
    intro o'
    rw [ticketsOf_set]
    split
    next heq => rw [heq, ticketsOf_of_get? hget, htickets]
    · rfl
  constructor
  · exact h.chained.congr fun t => by simp only [hsame]
  · intro o₁ o₂ t h₁ h₂
    exact h.owner o₁ o₂ t (hsame o₁ ▸ h₁) (hsame o₂ ▸ h₂)
  · intro o' op hop
    rcases get?_set_eq_some hop with ⟨-, rfl⟩ | ⟨-, hold⟩
    · exact hwf
    · exact h.wellFormed o' op hold
  · intro o' op hop
    rcases get?_set_eq_some hop with ⟨rfl, -⟩ | ⟨-, hold⟩
    · exact h.fresh _ old hget
    · exact h.fresh o' op hold
  · exact hlog.lt
  · exact hlog.order
  · intro o' lanes held t rest hop
    rcases get?_set_eq_some hop with ⟨-, heq⟩ | ⟨hne, hold⟩
    · exact absurd (congrArg Operation.phase heq).symm (hphase t rest)
    · exact hlog.later o' hne lanes held t rest hold

theorem Inv.enqueue {lane : Lane κ}
    (hheld : ticketsOf q.operations o = held) (ho : o < q.nextOperation)
    (hwf : Operation.WellFormed ⟨lanes, held, .waiting (q.ticketFor lane) rest⟩ q.resolved)
    (hlog : Logged q o log) : Inv ({ q with entered := log }.enqueue o lanes held lane rest) := by
  have htickets : ∀ o' t, t ∈ ticketsOf (({ q with entered := log } : MutationQueue κ).enqueue o
      lanes held lane rest).operations o' ↔
      t ∈ ticketsOf q.operations o' ∨ (o' = o ∧ t = q.ticketFor lane) := by
    intro o' t
    simp only [MutationQueue.enqueue, ticketsOf_set]
    split
    next heq => simp [heq, hheld, Operation.tickets, ticketFor, or_comm]
    next hne => simp [hne]
  constructor
  · refine (h.chained.enqueue lane).congr fun t => ?_
    simp only [htickets, exists_or, exists_eq_left]
    rfl
  · intro o₁ o₂ t h₁ h₂
    rcases (htickets o₁ t).mp h₁ with hold₁ | ⟨rfl, rfl⟩
    · rcases (htickets o₂ t).mp h₂ with hold₂ | ⟨rfl, rfl⟩
      · exact h.owner o₁ o₂ t hold₁ hold₂
      · exact absurd (h.chained.fresh _ ⟨o₁, hold₁⟩) (lt_irrefl _)
    rcases (htickets o₂ _).mp h₂ with hold₂ | ⟨rfl, -⟩
    · exact absurd (h.chained.fresh _ ⟨o₂, hold₂⟩) (lt_irrefl _)
    · rfl
  · intro o' op hop
    rcases get?_set_eq_some hop with ⟨-, rfl⟩ | ⟨-, hold⟩
    · exact hwf
    · exact h.wellFormed o' op hold
  · intro o' op hop
    rcases get?_set_eq_some hop with ⟨rfl, -⟩ | ⟨-, hold⟩
    · exact ho
    · exact h.fresh o' op hold
  · exact fun t ht => lt_succ_of_lt (hlog.lt t ht)
  · exact hlog.order
  · intro o' lanes' held' t rest' hop a ha hlane
    rcases get?_set_eq_some hop with ⟨-, heq⟩ | ⟨hne, hold⟩
    · have hhead := congrArg (fun op : Operation κ => op.tickets.head?) heq
      obtain rfl : t = q.ticketFor lane := Option.some.inj hhead
      exact hlog.lt a ha
    · exact hlog.later o' hne lanes' held' t rest' hold a ha hlane

theorem Inv.request (r : Request κ) : Inv (q.request r) := by
  have hnone : q.operations.get? q.nextOperation = none := by
    cases hget : q.operations.get? q.nextOperation with
    | none => rfl
    | some op => exact absurd (h.fresh _ op hget) (lt_irrefl _)
  have hnext : Inv { q with nextOperation := q.nextOperation + 1 } :=
    { h with fresh := fun o op hget => lt_succ_of_lt (h.fresh o op hget) }
  unfold MutationQueue.request
  split
  · exact h
  next lane rest hlanes =>
    refine hnext.enqueue ?_ (lt_succ_self _) ⟨by simp [hlanes], r.lanes_sorted, hlanes, ?_⟩
      (hnext.logged _)
    · simp [ticketsOf, hnone]
    · exact fun t ht => absurd ht not_mem_nil

theorem Inv.resume (hstep : q.resume o = some q') : Inv q' := by
  unfold MutationQueue.resume at hstep
  split at hstep
  swap
  · cases hstep
  rename_i lanes held ticket rest hget
  obtain ⟨hcan, hsome⟩ := Option.ite_none_right_eq_some.mp hstep
  have hwf := h.wellFormed o _ hget
  have hpath : lanes = (held.map Ticket.lane).reverse ++ ticket.lane :: rest := hwf.path
  have hentered : ∀ t ∈ ticket :: held, ∀ p, t.previous = some p → p ∈ q.resolved :=
    forall_mem_cons.mpr ⟨canEnter_iff.mp hcan, hwf.entered⟩
  cases rest with
  | nil =>
    cases hsome
    refine h.replace hget rfl (fun _ _ => nofun) ⟨hwf.asked, hwf.sorted, ?_, hentered⟩ (h.enter hget hcan)
    simp [Operation.Path, hpath]
  | cons lane rest =>
    cases hsome
    refine h.enqueue (ticketsOf_of_get? hget) (h.fresh o _ hget)
      ⟨hwf.asked, hwf.sorted, ?_, hentered⟩ (h.enter hget hcan)
    simp [Operation.Path, hpath, ticketFor]

theorem Inv.finish (hstep : q.finish o = some q') : Inv q' := by
  unfold MutationQueue.finish at hstep
  split at hstep
  next lanes held hget =>
    cases hstep
    have hwf := h.wellFormed o _ hget
    have hpath : lanes = (held.map Ticket.lane).reverse := hwf.path
    have hheld : held ≠ [] := by
      rintro rfl
      exact hwf.asked hpath
    refine h.replace hget rfl (fun _ _ => nofun) ⟨hwf.asked, hwf.sorted, ⟨hheld, [], ?_⟩,
      hwf.entered⟩ (h.logged o)
    exact hpath.trans (append_nil _).symm
  · cases hstep

theorem Inv.release (hstep : q.release o = some q') : Inv q' := by
  unfold MutationQueue.release at hstep
  split at hstep
  swap
  · cases hstep
  rename_i lanes ticket held hget
  cases hstep
  have hwf := h.wellFormed o _ hget
  have hmem : ticket ∈ ticketsOf q.operations o := by
    rw [ticketsOf_of_get? hget]
    exact mem_cons_self
  have htickets : ∀ o', ticketsOf (if held.isEmpty then q.operations.erase o
        else q.operations.set o ⟨lanes, held, .releasing⟩) o' =
      if o' = o then held else ticketsOf q.operations o' := by
    intro o'
    split
    next hempty => rw [ticketsOf_erase, isEmpty_iff.mp hempty]
    · exact ticketsOf_set q.operations o _ o'
  -- the other operations are as they were
  have hothers : ∀ o' op, (if held.isEmpty then q.operations.erase o
      else q.operations.set o ⟨lanes, held, .releasing⟩).get? o' = some op →
      (o' = o ∧ held ≠ [] ∧ op = ⟨lanes, held, .releasing⟩) ∨
        o' ≠ o ∧ q.operations.get? o' = some op := by
    intro o' op hop
    split at hop
    · exact .inr (get?_erase_eq_some hop)
    next hempty =>
      rcases get?_set_eq_some hop with ⟨rfl, rfl⟩ | hold
      · exact .inl ⟨rfl, fun hnil => hempty (isEmpty_iff.mpr hnil), rfl⟩
      · exact .inr hold
  constructor
  · refine (h.chained.release ⟨o, hmem⟩ fun a ha hlane => ?_).congr fun t => ?_
    · exact h.chained.first ⟨o, hmem⟩ (hwf.entered ticket mem_cons_self) ha hlane
    · simp only [htickets]
      constructor
      · rintro ⟨o', ht⟩
        split at ht
        next heq =>
          refine ⟨⟨o, ?_⟩, ?_⟩
          · rw [ticketsOf_of_get? hget]
            exact mem_cons_of_mem _ ht
          · rintro rfl
            exact hwf.head_not_mem ht
        next hne =>
          refine ⟨⟨o', ht⟩, ?_⟩
          rintro rfl
          exact hne (h.owner o' o t ht hmem)
      · rintro ⟨⟨o', ht⟩, hne⟩
        refine ⟨o', ?_⟩
        split
        next heq =>
          rw [heq, ticketsOf_of_get? hget] at ht
          exact (mem_cons.mp ht).resolve_left hne
        · exact ht
  · intro o₁ o₂ t h₁ h₂
    have hback : ∀ o', t ∈ (if o' = o then held else ticketsOf q.operations o') →
        t ∈ ticketsOf q.operations o' := by
      intro o' ht
      split at ht
      next heq =>
        rw [heq, ticketsOf_of_get? hget]
        exact mem_cons_of_mem _ ht
      · exact ht
    exact h.owner o₁ o₂ t (hback o₁ (htickets o₁ ▸ h₁)) (hback o₂ (htickets o₂ ▸ h₂))
  · intro o' op hop
    rcases hothers o' op hop with ⟨rfl, hheld, rfl⟩ | ⟨-, hold⟩
    · obtain ⟨-, given, hlanes⟩ := hwf.path
      refine Operation.WellFormed.mono ⟨hwf.asked, hwf.sorted, ⟨hheld, ticket.lane :: given, ?_⟩,
        fun t ht => hwf.entered t (mem_cons_of_mem _ ht)⟩
      simpa using hlanes
    · exact (h.wellFormed o' op hold).mono
  · intro o' op hop
    rcases hothers o' op hop with ⟨rfl, -, -⟩ | ⟨-, hold⟩
    · exact h.fresh _ _ hget
    · exact h.fresh o' op hold
  · exact h.entered_lt
  · exact h.order
  · intro o' lanes' held' t rest hop
    rcases hothers o' _ hop with ⟨-, -, heq⟩ | ⟨-, hold⟩
    · cases congrArg Operation.phase heq
    · exact h.later o' lanes' held' t rest hold

theorem Inv.step {action : Action κ} (hstep : q.step action = some q') : Inv q' := by
  cases action with
  | request r => exact Option.some.inj hstep ▸ h.request r
  | resume operation => exact h.resume hstep
  | finish operation failed => exact h.finish hstep
  | release operation => exact h.release hstep

end

theorem Inv.of_run {actions : List (Action κ)}
    (hrun : Machine.run MutationQueue.step MutationQueue.init actions = some q) : Inv q :=
  Machine.run_invariant (fun _ _ _ hstep h => h.step hstep) hrun Inv.init

/-! ## What the lanes guarantee -/

/-- Two operations never hold tickets of the same lane. -/
theorem Inv.held_disjoint (h : Inv q) {o o' : Nat} {op op' : Operation κ}
    (hop : q.operations.get? o = some op) (hop' : q.operations.get? o' = some op') {t t' : Ticket κ}
    (ht : t ∈ op.held) (ht' : t' ∈ op'.held) (hlane : t.lane = t'.lane) : o = o' := by
  have hheld : ∀ (op : Operation κ) (t : Ticket κ), t ∈ op.held → t ∈ op.tickets := by
    intro op t ht
    unfold Operation.tickets
    split
    · exact mem_cons_of_mem _ ht
    · exact ht
  have hmem : t ∈ ticketsOf q.operations o := ticketsOf_of_get? hop ▸ hheld op t ht
  have hmem' : t' ∈ ticketsOf q.operations o' := ticketsOf_of_get? hop' ▸ hheld op' t' ht'
  have hle := h.chained.first ⟨o, hmem⟩ ((h.wellFormed o op hop).entered t ht) ⟨o', hmem'⟩
    hlane.symm
  have hge := h.chained.first ⟨o', hmem'⟩ ((h.wellFormed o' op' hop').entered t' ht') ⟨o, hmem⟩
    hlane
  obtain rfl := h.chained.unique t t' ⟨o, hmem⟩ ⟨o', hmem'⟩ (le_antisymm hle hge)
  exact h.owner o o' t hmem hmem'

/-- Some pending operation enters a lane, finishes or gives a lane back. -/
def CanProceed (q : MutationQueue κ) : Prop :=
  ∃ o, (q.resume o).isSome ∨ (q.finish o).isSome ∨ (q.release o).isSome

theorem canProceed_of_enter (hget : q.operations.get? o = some ⟨lanes, held, .waiting t rest⟩)
    (hcan : q.canEnter t = true) : q.CanProceed := by
  refine ⟨o, .inl ?_⟩
  unfold resume
  rw [hget]
  cases rest with
  | nil => simp [hcan]
  | cons lane rest => simp [hcan]

/-- The last lane somebody waits for can be entered: by induction along its chain, whose
first ticket is held by nobody who still waits. -/
theorem Inv.canProceed_of_last (h : Inv q) {last : κ ⊕ₗ κ}
    (hlast : ∀ o lanes held t rest, q.operations.get? o = some ⟨lanes, held, .waiting t rest⟩ →
      t.lane.rank ≤ last)
    (hwaiting : ∀ o op, q.operations.get? o = some op → ∃ t rest, op.phase = .waiting t rest)
    (n : Nat) : ∀ o lanes held t rest, t.id = n → t.lane.rank = last →
      q.operations.get? o = some ⟨lanes, held, .waiting t rest⟩ → q.CanProceed := by
  induction n using Nat.strongRecOn with
  | ind n ih =>
    rintro o lanes held t rest rfl hrank hget
    have hmem : t ∈ ticketsOf q.operations o := by
      rw [ticketsOf_of_get? hget]
      exact mem_cons_self
    by_cases hcan : q.canEnter t = true
    · exact canProceed_of_enter hget hcan
    rw [canEnter_iff] at hcan
    push Not at hcan
    obtain ⟨p, hp, hunresolved⟩ := hcan
    have hprevious := (h.chained.previous t ⟨o, hmem⟩ p hp).resolve_left hunresolved
    obtain ⟨t', ⟨o', hmem'⟩, rfl, hlane⟩ := hprevious
    cases hget' : q.operations.get? o' with
    | none => simp [ticketsOf, hget'] at hmem'
    | some op =>
      obtain ⟨lanes', held', phase⟩ := op
      obtain ⟨w, rest', hphase⟩ := hwaiting o' _ hget'
      obtain rfl : phase = .waiting w rest' := hphase
      rw [ticketsOf_of_get? hget'] at hmem'
      rcases mem_cons.mp hmem' with rfl | hheld
      · exact ih _ (h.chained.previous_lt t ⟨o, hmem⟩ _ hp) o' lanes' held' t' rest' rfl
          (hlane ▸ hrank) hget'
      have hlt := (h.wellFormed o' _ hget').held_lt hheld
      rw [hlane, hrank] at hlt
      exact absurd (hlast o' lanes' held' w rest' hget') (not_le_of_gt hlt)

omit [LinearOrder κ] in
/-- Where the first unresolved ticket of an operation stands. -/
def lastRank (operations : OrderedMap Nat (Operation κ)) (o : Nat) : WithBot (κ ⊕ₗ κ) :=
  match ticketsOf operations o with
  | [] => ⊥
  | t :: _ => t.lane.rank

omit [LinearOrder κ] in
theorem lastRank_of_get? (h : operations.get? o = some ⟨lanes, held, .waiting t rest⟩) :
    lastRank operations o = t.lane.rank := by
  simp [lastRank, ticketsOf_of_get? h, Operation.tickets]

/-- There is no deadlock. -/
theorem Inv.canProceed (h : Inv q) (hpending : q.operations ≠ .empty) : q.CanProceed := by
  by_contra hstuck
  have hwaiting : ∀ o op, q.operations.get? o = some op → ∃ t rest, op.phase = .waiting t rest := by
    rintro o ⟨lanes, held, phase⟩ hget
    cases phase with
    | waiting t rest => exact ⟨t, rest, rfl⟩
    | running => exact absurd ⟨o, .inr (.inl (by simp [MutationQueue.finish, hget]))⟩ hstuck
    | releasing =>
      have hheld := (h.wellFormed o _ hget).path.1
      cases held with
      | nil => exact absurd rfl hheld
      | cons t held => exact absurd ⟨o, .inr (.inr (by simp [MutationQueue.release, hget]))⟩ hstuck
  have hkeys : q.operations.keys.toFinset.Nonempty := by
    rw [toFinset_nonempty_iff]
    exact fun hnil => hpending (eq_empty_of_keys hnil)
  obtain ⟨o, ho, hmax⟩ := Finset.exists_max_image _ (lastRank q.operations) hkeys
  obtain ⟨⟨lanes, held, phase⟩, hget⟩ : ∃ op, q.operations.get? o = some op := by
    cases hget : q.operations.get? o with
    | none => exact absurd (mem_toFinset.mp ho) (get?_eq_none.mp hget)
    | some op => exact ⟨op, rfl⟩
  obtain ⟨t, rest, hphase⟩ := hwaiting o _ hget
  obtain rfl : phase = .waiting t rest := hphase
  refine hstuck (h.canProceed_of_last (fun o' lanes' held' t' rest' hget' => ?_) hwaiting t.id o
    lanes held t rest rfl rfl hget)
  have hmem : o' ∈ q.operations.keys.toFinset := by
    rw [mem_toFinset]
    by_contra hnone
    exact absurd hget' (by simp [get?_eq_none.mpr hnone])
  have hle := hmax o' hmem
  rw [lastRank_of_get? hget, lastRank_of_get? hget'] at hle
  exact WithBot.coe_le_coe.mp hle

/-- The lane table holds the lanes of pending operations only. -/
theorem Inv.tails_eq_empty (h : Inv q) (hnone : q.operations = .empty) : q.tails = .empty := by
  apply eq_empty_of_keys
  apply eq_nil_iff_forall_not_mem.mpr
  intro lane hlane
  cases hget : q.tails.get? lane with
  | none => exact get?_eq_none.mp hget hlane
  | some i =>
    obtain ⟨t, ⟨o, ht⟩, -⟩ := h.chained.tail lane i hget
    simp [hnone, ticketsOf] at ht

/-- In every run operations that run together share no lane, every lane is entered in the
order of the requests for it, some pending operation can go on, and without one the lane
table is empty. -/
theorem lanes_serialised {actions : List (Action κ)} {q : MutationQueue κ}
    (hrun : Machine.run step init actions = some q) :
    (∀ o o' op op', q.operations.get? o = some op → q.operations.get? o' = some op' →
        op.phase = .running → op'.phase = .running → o ≠ o' → ∀ lane ∈ op.lanes, lane ∉ op'.lanes) ∧
      (∀ o o' op op', q.operations.get? o = some op → q.operations.get? o' = some op' → o ≠ o' →
        ∀ t ∈ op.held, ∀ t' ∈ op'.held, t.lane ≠ t'.lane) ∧
      q.entered.Pairwise (fun a b => a.lane = b.lane → a.id < b.id) ∧
      (∀ o lanes held t rest, q.operations.get? o = some ⟨lanes, held, .waiting t rest⟩ →
        ∀ a ∈ q.entered, a.lane = t.lane → a.id < t.id) ∧
      (q.operations ≠ .empty → q.CanProceed) ∧ (q.operations = .empty → q.tails = .empty) := by
  have h := Inv.of_run hrun
  refine ⟨?_, ?_, h.order, h.later, h.canProceed, h.tails_eq_empty⟩
  · intro o o' op op' hop hop' hrunning hrunning' hne lane hin hin'
    have hpath := (h.wellFormed o op hop).path
    have hpath' := (h.wellFormed o' op' hop').path
    simp only [Operation.Path, hrunning] at hpath
    simp only [Operation.Path, hrunning'] at hpath'
    rw [hpath, mem_reverse] at hin
    rw [hpath', mem_reverse] at hin'
    obtain ⟨t, ht, hlane⟩ := mem_map.mp hin
    obtain ⟨t', ht', hlane'⟩ := mem_map.mp hin'
    exact hne (h.held_disjoint hop hop' ht ht' (hlane.trans hlane'.symm))
  · intro o o' op op' hop hop' hne t ht t' ht' hlane
    exact hne (h.held_disjoint hop hop' ht ht' hlane)

/-- Two operations on crossing sets of worktrees, and one that waits for both. -/
theorem lanes_serialised_example : ∃ q : MutationQueue Nat, Machine.run step init
        [.request (.withRepositoryAndWorktrees 0 [2, 1, 2]), .resume 0,
          .request (.withRepositoryAndWorktrees 5 [1, 2]), .request (.withWorktree 2), .resume 0,
          .resume 2, .finish 2 true, .release 2, .resume 0, .resume 1, .finish 0 false,
          .release 0, .release 0] = some q ∧
        q.entered.map Ticket.lane =
          [.repository 0, .worktree 1, .worktree 2, .worktree 2, .repository 5] ∧
        q.CanProceed := by
  cases hrun : Machine.run step init [.request (.withRepositoryAndWorktrees 0 [2, 1, 2]), .resume 0,
        .request (.withRepositoryAndWorktrees 5 [1, 2]), .request (.withWorktree 2), .resume 0,
        .resume 2, .finish 2 true, .release 2, .resume 0, .resume 1, .finish 0 false,
        .release 0, .release 0] with
  | none => exact absurd hrun (by decide)
  | some q =>
    have hsome := Option.some.inj hrun
    refine ⟨q, rfl, ?_, (lanes_serialised hrun).2.2.2.2.1 ?_⟩
    · subst hsome
      decide
    · subst hsome
      exact nofun

end MutationQueue

end TaskHandoff.Repository
