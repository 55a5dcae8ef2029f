import Mathlib.Data.List.Basic

/-! # The connection and the mutation queue

One SQLite connection serves all callers. Asynchronous mutations and transactions wait in a queue;
synchronous ones run at once, and join a transaction that is open. -/

namespace TaskHandoff.Persistence

open Option

/-! ## The connection -/

/-- What the connection sees, and what a rollback restores while a transaction is open. -/
structure Connection (σ : Type) where
  contents : σ
  backup : Option σ
deriving DecidableEq

namespace Connection

variable {σ : Type}
variable (c : Connection σ)

def isTransaction : Bool := c.backup.isSome

/-- `BEGIN IMMEDIATE`, which throws inside a transaction. -/
def beginImmediate : Option (Connection σ) :=
  if c.isTransaction then none else some { c with backup := some c.contents }

/-- `COMMIT`, which throws outside of a transaction. -/
def commit : Option (Connection σ) :=
  if c.isTransaction then some { c with backup := none } else none

/-- `ROLLBACK`, which throws outside of a transaction. -/
def rollback : Option (Connection σ) :=
  c.backup.map fun contents => ⟨contents, none⟩

def execute (statement : σ → σ) : Connection σ :=
  { c with contents := statement c.contents }

theorem isTransaction_eq_false : c.isTransaction = false ↔ c.backup = none := by
  unfold isTransaction
  cases c.backup <;> simp

end Connection

/-! ## Synchronous transactions -/

/-- The statements a callback executes, and whether it throws behind them. -/
structure SyncOperation (σ : Type) where
  statements : List (σ → σ)
  throws : Bool

inductive Outcome where
  | returned
  | threw
  /-- A statement that opens or closes a transaction failed. -/
  | rejected
deriving DecidableEq

section Sync

variable {σ : Type}

def SyncOperation.perform (o : SyncOperation σ) (c : Connection σ) : Connection σ × Outcome :=
  (o.statements.foldl Connection.execute c, if o.throws then .threw else .returned)

/-- Close the transaction of an operation that was performed in it. -/
def settleImmediate (r : Connection σ × Outcome) : Connection σ × Outcome :=
  match r.2 with
  | .returned =>
    match r.1.commit with
    | some c => (c, .returned)
    | none => (r.1, .rejected)
  | outcome =>
    match r.1.rollback with
    | some c => (c, outcome)
    | none => (r.1, .rejected)

variable (c : Connection σ)

/-- Join the transaction that is open, or open one. -/
def runImmediate (o : SyncOperation σ) : Connection σ × Outcome :=
  if c.isTransaction then o.perform c
  else
    match c.beginImmediate with
    | none => (c, .rejected)
    | some opened => settleImmediate (o.perform opened)

def AccessRepository.transaction (o : SyncOperation σ) : Connection σ × Outcome := runImmediate c o

def GitPersistenceRepository.transaction (o : SyncOperation σ) :
    Connection σ × Outcome := runImmediate c o

def ModelRepository.transaction (o : SyncOperation σ) : Connection σ × Outcome := runImmediate c o

def transactionSync (o : SyncOperation σ) : Connection σ × Outcome :=
  runImmediate c o

/-- The journal of callbacks that run behind the commit is left out. -/
def runInTransaction (o : SyncOperation σ) : Connection σ × Outcome :=
  runImmediate c o

theorem execute_backup (statements : List (σ → σ)) (c : Connection σ) :
    (statements.foldl Connection.execute c).backup = c.backup := by
  induction statements generalizing c with
  | nil => rfl
  | cons statement statements ih => exact ih (c.execute statement)

theorem execute_contents (statements : List (σ → σ)) (c : Connection σ) :
    (statements.foldl Connection.execute c).contents =
      statements.foldl (fun contents statement => statement contents) c.contents := by
  induction statements generalizing c with
  | nil => rfl
  | cons statement statements ih => exact ih (c.execute statement)

theorem runImmediate_joined {c : Connection σ} (h : c.isTransaction = true)
    (o : SyncOperation σ) : runImmediate c o = o.perform c := if_pos h

/-- Outside of a transaction an operation is performed as a whole or not at all. -/
theorem runImmediate_alone {c : Connection σ} (h : c.isTransaction = false) (o : SyncOperation σ) :
    runImmediate c o = if o.throws then (c, .threw) else ((o.perform c).1, .returned) := by
  have hnone := c.isTransaction_eq_false.mp h
  have hopened : (o.perform { c with backup := some c.contents }).1.backup = some c.contents :=
    execute_backup o.statements _
  have hcontents : (o.perform { c with backup := some c.contents }).1.contents =
      (o.perform c).1.contents := by
    rw [SyncOperation.perform, SyncOperation.perform, execute_contents, execute_contents]
  have hbackup : (o.perform c).1.backup = none := (execute_backup o.statements c).trans hnone
  unfold runImmediate Connection.beginImmediate
  simp only [h, Bool.false_eq_true, if_false]
  rw [settleImmediate]
  cases hthrows : o.throws with
  | true =>
    have hrollback : (o.perform { c with backup := some c.contents }).1.rollback = some c := by
      rw [Connection.rollback, hopened, map_some, ← hnone]
    simp only [SyncOperation.perform, hthrows, if_true] at hrollback ⊢
    rw [hrollback]
  | false =>
    have hcommit : (o.perform { c with backup := some c.contents }).1.commit =
        some (o.perform c).1 := by
      rw [Connection.commit, Connection.isTransaction, hopened, hcontents, ← hbackup]
      rfl
    simp only [SyncOperation.perform, hthrows, Bool.false_eq_true, if_false] at hcommit ⊢
    rw [hcommit]

theorem runImmediate_outcome (o : SyncOperation σ) :
    (runImmediate c o).2 = if o.throws then .threw else .returned := by
  cases h : c.isTransaction with
  | true =>
    rw [runImmediate_joined h]
    rfl
  | false =>
    rw [runImmediate_alone h]
    split <;> rfl

end Sync

/-! ## The mutation queue -/

inductive OperationKind where
  | mutation
  | transaction
deriving DecidableEq

/-- The asynchronous operations in the order of their calls, of which the first `started` have
begun and the first `settled` have ended. The tail that the `n`th call found is the promise of the
one before. -/
structure MutationQueue (σ : Type) where
  connection : Connection σ
  operations : List OperationKind
  started : Nat
  settled : Nat

namespace MutationQueue

variable {σ : Type}

def new (contents : σ) : MutationQueue σ := ⟨⟨contents, none⟩, [], 0, 0⟩

variable (q : MutationQueue σ)

/-- `queue.run` chains the operation to the tail. -/
def run (kind : OperationKind) : MutationQueue σ :=
  { q with operations := q.operations ++ [kind] }

/-- The operation that has started and has not ended. -/
def running : Option OperationKind :=
  if q.started = q.settled then none else q.operations[q.settled]?

/-- The reaction of the tail: a transaction opens; if it cannot, its call is rejected. -/
def start : Option (MutationQueue σ) :=
  if q.started = q.settled then
    match q.operations[q.started]? with
    | none => none
    | some .mutation => some { q with started := q.started + 1 }
    | some .transaction =>
      match q.connection.beginImmediate with
      | some connection => some { q with connection, started := q.started + 1 }
      | none => some { q with started := q.started + 1, settled := q.settled + 1 }
  else none

/-- A statement of the running operation. -/
def execute (statement : σ → σ) : Option (MutationQueue σ) :=
  q.running.map fun _ => { q with connection := q.connection.execute statement }

/-- The running operation returns or throws, and the tail is settled. A transaction ends with it. -/
def finish (returns : Bool) : Option (MutationQueue σ) :=
  match q.running with
  | none => none
  | some .mutation => some { q with settled := q.settled + 1 }
  | some .transaction =>
    (if returns then q.connection.commit else q.connection.rollback).map fun connection =>
      { q with connection, settled := q.settled + 1 }

variable {q q' : MutationQueue σ}

theorem start_cases (h : q.start = some q') (hclosed : q.connection.backup = none) :
    q.started = q.settled ∧
      (q.operations[q.settled]? = some .mutation ∧ q' = { q with started := q.started + 1 } ∨
        q.operations[q.settled]? = some .transaction ∧ q' = { q with
            connection := ⟨q.connection.contents, some q.connection.contents⟩
            started := q.started + 1 }) := by
  unfold start at h
  split at h
  next hidle =>
    refine ⟨hidle, ?_⟩
    split at h
    · cases h
    next hkind => exact .inl ⟨hidle ▸ hkind, (some.inj h).symm⟩
    next hkind =>
      have hbegin : q.connection.beginImmediate =
          some ⟨q.connection.contents, some q.connection.contents⟩ := by
        rw [Connection.beginImmediate, q.connection.isTransaction_eq_false.mpr hclosed]
        rfl
      rw [hbegin] at h
      exact .inr ⟨hidle ▸ hkind, (some.inj h).symm⟩
  · cases h

theorem execute_cases {statement : σ → σ} (h : q.execute statement = some q') :
    q.running ≠ none ∧ q' = { q with connection := q.connection.execute statement } := by
  have ⟨kind, hrunning, hq⟩ := map_eq_some_iff.mp h
  exact ⟨ne_none_iff_exists'.mpr ⟨kind, hrunning⟩, hq.symm⟩

theorem finish_cases {returns : Bool} (h : q.finish returns = some q') :
    (q.running = some .mutation ∧ q' = { q with settled := q.settled + 1 }) ∨
      (q.running = some .transaction ∧ ∃ backup, q.connection.backup = some backup ∧ q' = { q with
          connection := ⟨if returns then q.connection.contents else backup, none⟩
          settled := q.settled + 1 }) := by
  unfold finish at h
  split at h
  · cases h
  next hrunning => exact .inl ⟨hrunning, (some.inj h).symm⟩
  rename_i hrunning
  refine .inr ⟨hrunning, ?_⟩
  have ⟨connection, hclosed, hq⟩ := map_eq_some_iff.mp h
  cases hbackup : q.connection.backup with
  | none => simp [Connection.commit, Connection.rollback, Connection.isTransaction, hbackup] at hclosed
  | some backup =>
    refine ⟨backup, rfl, ?_⟩
    rw [← hq]
    cases returns with
    | true =>
      simp [Connection.commit, Connection.isTransaction, hbackup] at hclosed
      rw [← hclosed]
      rfl
    | false =>
      simp [Connection.rollback, hbackup] at hclosed
      rw [← hclosed]
      rfl

variable (hcalled : q.started ≤ q.operations.length)

include hcalled

theorem running_eq_none
    (horder : q.settled ≤ q.started) : q.running = none ↔ q.started = q.settled := by
  unfold running
  split
  next hidle => simp [hidle]
  next hbusy =>
    have hlt : q.settled < q.operations.length := by omega
    simp [List.getElem?_eq_getElem hlt, hbusy]

theorem running_run (horder : q.settled ≤ q.started)
    (kind : OperationKind) : (q.run kind).running = q.running := by
  show (if q.started = q.settled then none else (q.operations ++ [kind])[q.settled]?) = q.running
  unfold running
  split
  · rfl
  next hbusy =>
    have hlt : q.settled < q.operations.length := by omega
    exact List.getElem?_append_left hlt

end MutationQueue

end TaskHandoff.Persistence
