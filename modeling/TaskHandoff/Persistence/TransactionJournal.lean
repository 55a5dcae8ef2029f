import Mathlib.Data.List.Basic

/-! # Side effects behind the commit

`runInTransaction` counts its nesting beside the connection's own flag, and runs the callbacks that
were registered once the count is back at 0. Another helper of the connection opens a transaction
without counting it.
-/

namespace TaskHandoff.Persistence.TransactionJournal

open List

variable {γ ε ν : Type}

inductive Event (γ : Type) where
  | committed
  | rolledBack
  | ran (callback : γ)

/-- A connection with its journal, and what became of it. -/
structure Client (γ : Type) where
  isTransaction : Bool
  depth : Nat
  afterCommit : List γ
  events : List (Event γ)

/-- An operation on the connection. It goes on behind a helper with what the helper returned or
threw. -/
inductive Operation (γ ε ν : Type) where
  | done (value : ν)
  | raise (error : ε)
  | registerAfterCommit (callback : γ) (next : Option ε → Operation γ ε ν)
  | runInTransaction (operation : Operation γ ε ν) (next : Except ε ν → Operation γ ε ν)
  | transactionSync (operation : Operation γ ε ν) (next : Except ε ν → Operation γ ε ν)

def Client.log (s : Client γ) (events : List (Event γ)) : Client γ :=
  { s with events := s.events ++ events }

def Client.commit (s : Client γ) : Client γ :=
  { s with isTransaction := false }.log [.committed]

def Client.rollback (s : Client γ) : Client γ :=
  { s with isTransaction := false }.log [.rolledBack]

section

-- what a callback throws, and what SQLite throws at a rollback without a transaction
variable (fails : γ → Option ε) (noTransaction : ε)

def runCallbacks (s : Client γ) : List γ → Option ε × Client γ
  | [] => (none, s)
  | callback :: rest =>
    match fails callback with
    | some error => (some error, s.log [.ran callback])
    | none => runCallbacks (s.log [.ran callback]) rest

def runInTransaction (operation : Client γ → Except ε ν × Client γ) (s : Client γ) :
    Except ε ν × Client γ :=
  if s.isTransaction then
    let r := operation { s with depth := s.depth + 1 }
    (r.1, { r.2 with depth := r.2.depth - 1 })
  else
    match operation { s with isTransaction := true, depth := s.depth + 1 } with
    | (.ok result, s) =>
      let s := { s.commit with depth := s.depth - 1 }
      if s.depth = 0 then
        match runCallbacks fails { s with afterCommit := [] } s.afterCommit with
        | (none, s) => (.ok result, s)
        -- the transaction is over, so the rollback throws
        | (some _, s) => (.error noTransaction, s)
      else (.ok result, s)
    | (.error error, s) =>
      let s := { s.rollback with depth := s.depth - 1 }
      (.error error, if s.depth = 0 then { s with afterCommit := [] } else s)

def transactionSync (operation : Client γ → Except ε ν × Client γ) (s : Client γ) :
    Except ε ν × Client γ :=
  if s.isTransaction then operation s
  else
    match operation { s with isTransaction := true } with
    | (.ok result, s) => (.ok result, s.commit)
    | (.error error, s) => (.error error, s.rollback)

def Operation.run : Operation γ ε ν → Client γ → Except ε ν × Client γ
  | done value, s => (.ok value, s)
  | raise error, s => (.error error, s)
  | registerAfterCommit callback next, s =>
    if s.depth = 0 then (next (fails callback)).run (s.log [.ran callback])
    else (next none).run { s with afterCommit := s.afterCommit ++ [callback] }
  | runInTransaction operation next, s =>
    let r := TransactionJournal.runInTransaction fails noTransaction operation.run s
    (next r.1).run r.2
  | transactionSync operation next, s =>
    let r := TransactionJournal.transactionSync operation.run s
    (next r.1).run r.2

/-! ## What is promised -/

/-- What an operation registers in a transaction, and how it ends. -/
def Operation.registers : Operation γ ε ν → List γ × Except ε ν
  | done value => ([], .ok value)
  | raise error => ([], .error error)
  | registerAfterCommit callback next => (callback :: (next none).registers.1, (next none).registers.2)
  | runInTransaction operation next | transactionSync operation next =>
    let rest := (next operation.registers.2).registers
    (operation.registers.1 ++ rest.1, rest.2)

/-- The end of the outermost transaction, with its callbacks behind the commit. -/
def ends : List γ × Except ε ν → List (Event γ)
  | (registered, .ok _) => .committed :: registered.map .ran
  | (_, .error _) => [.rolledBack]

/-- What is to become of a program, and how it is to end. -/
def Operation.promised : Operation γ ε ν → List (Event γ) × Except ε ν
  | done value => ([], .ok value)
  | raise error => ([], .error error)
  | registerAfterCommit callback next =>
    let rest := (next (fails callback)).promised
    (.ran callback :: rest.1, rest.2)
  | runInTransaction operation next | transactionSync operation next =>
    let rest := (next operation.registers.2).promised
    (ends operation.registers ++ rest.1, rest.2)

/-- No callback throws behind a commit, and nothing is registered in a transaction that another
helper has opened. -/
def Operation.Orderly : Operation γ ε ν → Prop
  | done _ | raise _ => True
  | registerAfterCommit callback next => (next (fails callback)).Orderly
  | runInTransaction operation next =>
    (operation.registers.2.isOk → ∀ callback ∈ operation.registers.1, fails callback = none) ∧
      (next operation.registers.2).Orderly
  | transactionSync operation next =>
    operation.registers.1 = [] ∧ (next operation.registers.2).Orderly

variable {fails noTransaction}
variable {depth : Nat} {afterCommit : List γ} {events : List (Event γ)}

/-! ## In a transaction -/

/-- Below an own transaction, callbacks are kept for its end. -/
theorem Operation.run_open (operation : Operation γ ε ν)
    (h : depth ≠ 0 ∨ operation.registers.1 = []) :
    operation.run fails noTransaction ⟨true, depth, afterCommit, events⟩ =
      (operation.registers.2, ⟨true, depth, afterCommit ++ operation.registers.1, events⟩) := by
  induction operation generalizing depth afterCommit with
  | done value | raise error => simp [run, registers]
  | registerAfterCommit callback next ih =>
    have hdepth := h.resolve_right (cons_ne_nil _ _)
    rw [run, if_neg hdepth]
    simp [ih _ (.inl hdepth), registers]
  | runInTransaction operation next ih ihnext =>
    have hnext := h.imp_right fun hnone => (append_eq_nil_iff.mp hnone).2
    rw [run, TransactionJournal.runInTransaction, if_pos rfl, ih (.inl (Nat.succ_ne_zero _))]
    simp [ihnext _ hnext, registers]
  | transactionSync operation next ih ihnext =>
    have hinner := h.imp_right fun hnone => (append_eq_nil_iff.mp hnone).1
    have hnext := h.imp_right fun hnone => (append_eq_nil_iff.mp hnone).2
    rw [run, TransactionJournal.transactionSync, if_pos rfl, ih hinner]
    simp [ihnext _ hnext, registers]

/-! ## Programs -/

theorem runCallbacks_eq {callbacks : List γ} (h : ∀ callback ∈ callbacks, fails callback = none)
    (s : Client γ) : runCallbacks fails s callbacks = (none, s.log (callbacks.map .ran)) := by
  induction callbacks generalizing s with
  | nil => simp [runCallbacks, Client.log]
  | cons callback callbacks ih =>
    rw [forall_mem_cons] at h
    rw [runCallbacks, h.1]
    simp [ih h.2, Client.log]

variable {operation : Operation γ ε ν}

theorem runInTransaction_eq (hreturn : operation.registers.2.isOk →
      ∀ callback ∈ operation.registers.1, fails callback = none) :
    runInTransaction fails noTransaction (operation.run fails noTransaction) ⟨false, 0, [], events⟩ =
      (operation.registers.2, ⟨false, 0, [], events ++ ends operation.registers⟩) := by
  rw [runInTransaction, if_neg Bool.false_ne_true, Operation.run_open _ (.inl (Nat.succ_ne_zero _))]
  generalize operation.registers = r at hreturn ⊢
  obtain ⟨registered, result⟩ := r
  cases result with
  | ok result => simp [runCallbacks_eq (hreturn rfl), ends, Client.commit, Client.log]
  | error error => simp [ends, Client.rollback, Client.log]

theorem transactionSync_eq (hnone : operation.registers.1 = []) :
    transactionSync (operation.run fails noTransaction) ⟨false, 0, [], events⟩ =
      (operation.registers.2, ⟨false, 0, [], events ++ ends operation.registers⟩) := by
  rw [transactionSync, if_neg Bool.false_ne_true, Operation.run_open _ (.inr hnone)]
  generalize operation.registers = r at hnone ⊢
  obtain ⟨registered, result⟩ := r
  cases hnone
  cases result <;> rfl

/-- What an orderly program registers runs once, behind the commit of its outermost transaction and
not at all behind a rollback; a committed transaction returns what its operation does. -/
theorem callbacks_behind_commit (operation : Operation γ ε ν) (horderly : operation.Orderly fails) :
    operation.run fails noTransaction ⟨false, 0, [], events⟩ =
      ((operation.promised fails).2, ⟨false, 0, [], events ++ (operation.promised fails).1⟩) := by
  induction operation generalizing events with
  | done value | raise error => simp [Operation.run, Operation.promised]
  | registerAfterCommit callback next ih =>
    rw [Operation.run, if_pos rfl]
    simp [ih _ horderly, Client.log, Operation.promised]
  | runInTransaction operation next ih ihnext =>
    rw [Operation.run, runInTransaction_eq horderly.1]
    simp [ihnext _ horderly.2, Operation.promised]
  | transactionSync operation next ih ihnext =>
    rw [Operation.run, transactionSync_eq horderly.1]
    simp [ihnext _ horderly.2, Operation.promised]

/-- The error of a nested transaction is caught, and a second transaction is rolled back. -/
def exampleOperation : Operation Nat String Nat :=
  .runInTransaction (.registerAfterCommit 1 fun _ =>
      .runInTransaction (.registerAfterCommit 2 fun _ => .raise "inner") fun _ => .done 7) fun _ =>
    .runInTransaction (.registerAfterCommit 3 fun _ => .raise "outer") fun
      | .ok value => .done value
      | .error error => .raise error

theorem callbacks_behind_commit_example :
    exampleOperation.run (fun _ => none) "no transaction" ⟨false, 0, [], []⟩ =
      (.error "outer", ⟨false, 0, [], [.committed, .ran 1, .ran 2, .rolledBack]⟩) :=
  callbacks_behind_commit exampleOperation ⟨fun _ _ _ => rfl, nofun, trivial⟩

end

end TaskHandoff.Persistence.TransactionJournal
