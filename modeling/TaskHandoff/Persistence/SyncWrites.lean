import TaskHandoff.Lib.Machine
import TaskHandoff.Persistence.Connection

/-! # Synchronous mutations beside asynchronous transactions

The contents are the writes in the order in which they were made. A synchronous mutation of another
task joins the asynchronous transaction that is open, and is rolled back with it. -/

namespace TaskHandoff.Persistence

open MutationQueue

/-! ## Mutations -/

/-- A write of a task. -/
abbrev Write := Nat

abbrev Writes := List Write

def write (w : Write) (contents : Writes) : Writes := contents ++ [w]

/-- The helper a synchronous mutation goes through. -/
inductive SyncHelper where
  | topology
  | journal
  | access
  | git
  | model
  | transactionSync

def SyncHelper.run : SyncHelper → Connection Writes → SyncOperation Writes →
    Connection Writes × Outcome
  | topology => runImmediate
  | journal => runInTransaction
  | access => AccessRepository.transaction
  | git => GitPersistenceRepository.transaction
  | model => ModelRepository.transaction
  | transactionSync => Persistence.transactionSync

theorem SyncHelper.run_eq (helper : SyncHelper) (c : Connection Writes) (o : SyncOperation Writes) :
    helper.run c o = runImmediate c o := by
  cases helper <;> rfl

/-- The queue, the writes of synchronous mutations that returned, and the calls whose failure was
not that of their callback. -/
structure Storage where
  queue : MutationQueue Writes
  reported : List Write
  rejected : Nat

namespace Storage

def new : Storage := ⟨.new [], [], 0⟩

inductive Action where
  | mutate
  | transaction
  | start
  | execute (w : Write)
  | finish (returns : Bool)
  /-- A task other than the running operation makes a synchronous mutation. -/
  | sync (helper : SyncHelper) (writes : List Write) (throws : Bool)

def step (s : Storage) : Action → Option Storage
  | .mutate => some { s with queue := s.queue.run .mutation }
  | .transaction => some { s with queue := s.queue.run .transaction }
  | .start => s.queue.start.map fun queue => { s with queue }
  | .execute w => (s.queue.execute (write w)).map fun queue => { s with queue }
  | .finish returns => (s.queue.finish returns).map fun queue => { s with queue }
  | .sync helper writes throws =>
    let r := helper.run s.queue.connection ⟨writes.map write, throws⟩
    some
      { queue := { s.queue with connection := r.1 }
        reported := if r.2 = .returned then s.reported ++ writes else s.reported
        rejected := if r.2 = .rejected then s.rejected + 1 else s.rejected }

/-! ## Reported writes -/

/-- When no transaction is open, the database has every write that was reported; and no
synchronous mutation failed because a transaction was open. -/
structure Kept (s : Storage) : Prop where
  reported : s.queue.connection.isTransaction = false →
    ∀ w ∈ s.reported, w ∈ s.queue.connection.contents
  rejected : s.rejected = 0

/-- A transaction that rolls back was not joined by another task: what was reported is in the
contents it began with. -/
def Unjoined (s : Storage) : Action → Prop
  | .finish false => ∀ backup ∈ s.queue.connection.backup, ∀ w ∈ s.reported, w ∈ backup
  | _ => True

instance (s : Storage) (a : Action) : Decidable (Unjoined s a) := by
  unfold Unjoined
  split <;> infer_instance

structure Inv (s : Storage) : Prop where
  reported : ∀ w ∈ s.reported, w ∈ s.queue.connection.contents
  rejected : s.rejected = 0
  started : s.queue.settled ≤ s.queue.started ∧ s.queue.started ≤ s.queue.operations.length
  open_ : s.queue.connection.backup ≠ none → s.queue.running = some .transaction

variable {w : Write}

theorem mem_writes (writes : List Write) (contents : Writes) :
    w ∈ (writes.map write).foldl (fun contents statement => statement contents) contents ↔
      w ∈ contents ∨ w ∈ writes := by
  induction writes generalizing contents with
  | nil => simp
  | cons first writes ih =>
    rw [List.map_cons, List.foldl_cons, ih]
    simp [write, or_assoc]

theorem mem_perform (writes : List Write) (throws : Bool) (c : Connection Writes) :
    w ∈ (SyncOperation.perform ⟨writes.map write, throws⟩ c).1.contents ↔
      w ∈ c.contents ∨ w ∈ writes := by
  rw [SyncOperation.perform, execute_contents]
  exact mem_writes writes c.contents

theorem Inv.new : Inv Storage.new where
  reported _ h := absurd h nofun
  rejected := rfl
  started := ⟨Nat.le_refl 0, Nat.le_refl 0⟩
  open_ h := absurd rfl h

variable {s s' : Storage}

section

variable (h : Inv s)

include h

theorem Inv.run (kind : OperationKind) : Inv { s with queue := s.queue.run kind } where
  __ := h
  started := by
    refine ⟨h.started.1, Nat.le_trans h.started.2 ?_⟩
    simp [MutationQueue.run]
  open_ hopen := (MutationQueue.running_run h.started.2 h.started.1 kind).trans (h.open_ hopen)

theorem Inv.closed (hidle : s.queue.started = s.queue.settled) :
    s.queue.connection.backup = none := by
  by_contra hopen
  have hrunning := h.open_ hopen
  rw [running, if_pos hidle] at hrunning
  cases hrunning

theorem Inv.start (hstep : s.step .start = some s') : Inv s' := by
  have ⟨queue, hstart, hs'⟩ := Option.map_eq_some_iff.mp hstep
  have hidle : s.queue.started = s.queue.settled := by
    unfold MutationQueue.start at hstart
    split at hstart
    next hidle => exact hidle
    · cases hstart
  have hclosed := h.closed hidle
  have ⟨_, hcases⟩ := start_cases hstart hclosed
  have hne : ¬ s.queue.started + 1 = s.queue.settled := by omega
  subst hs'
  rcases hcases with ⟨hkind, rfl⟩ | ⟨hkind, rfl⟩
  · have hlt := (List.getElem?_eq_some_iff.mp hkind).1
    refine ⟨h.reported, h.rejected, ⟨?_, ?_⟩, absurd hclosed⟩
    · exact Nat.le_succ_of_le h.started.1
    · show s.queue.started + 1 ≤ s.queue.operations.length
      omega
  have hlt := (List.getElem?_eq_some_iff.mp hkind).1
  refine ⟨h.reported, h.rejected, ⟨?_, ?_⟩, fun _ => ?_⟩
  · exact Nat.le_succ_of_le h.started.1
  · show s.queue.started + 1 ≤ s.queue.operations.length
    omega
  · exact (if_neg hne).trans hkind

theorem Inv.execute (hstep : s.step (.execute w) = some s') : Inv s' := by
  have ⟨queue, hexecute, hs'⟩ := Option.map_eq_some_iff.mp hstep
  have ⟨_, hqueue⟩ := execute_cases hexecute
  subst hs' hqueue
  exact ⟨fun v hv => List.mem_append_left _ (h.reported v hv), h.rejected, h.started, h.open_⟩

theorem Inv.finish {returns : Bool} (hjoined : Unjoined s (.finish returns))
    (hstep : s.step (.finish returns) = some s') : Inv s' := by
  have ⟨queue, hfinish, hs'⟩ := Option.map_eq_some_iff.mp hstep
  have hbusy : s.queue.settled < s.queue.started := by
    have horder := h.started.1
    have hne : s.queue.running ≠ none := by
      rcases finish_cases hfinish with ⟨hkind, _⟩ | ⟨hkind, _⟩ <;> rw [hkind] <;>
        exact nofun
    have hidle := (running_eq_none h.started.2 horder).not.mp hne
    omega
  subst hs'
  rcases finish_cases hfinish with ⟨hkind, rfl⟩ | ⟨_, backup, hbackup, rfl⟩
  · refine ⟨h.reported, h.rejected, ⟨hbusy, h.started.2⟩, fun hopen => ?_⟩
    have hrunning := h.open_ hopen
    rw [hkind] at hrunning
    cases hrunning
  · refine ⟨fun w hw => ?_, h.rejected, ⟨hbusy, h.started.2⟩, absurd rfl⟩
    cases returns with
    | true => exact h.reported w hw
    | false => exact hjoined backup hbackup w hw

theorem Inv.sync (helper : SyncHelper) (writes : List Write) (throws : Bool)
    (hstep : s.step (.sync helper writes throws) = some s') : Inv s' := by
  let operation : SyncOperation Writes := ⟨writes.map write, throws⟩
  have houtcome := runImmediate_outcome s.queue.connection operation
  have hperformed (w : Write) := @mem_perform w writes throws s.queue.connection
  have hbackup : (operation.perform s.queue.connection).1.backup = s.queue.connection.backup :=
    execute_backup operation.statements _
  have hmore : ∀ w ∈ s.queue.connection.contents,
      w ∈ (runImmediate s.queue.connection operation).1.contents := by
    intro w hw
    cases hopen : s.queue.connection.isTransaction with
    | true =>
      rw [runImmediate_joined hopen]
      exact (hperformed w).mpr (.inl hw)
    | false =>
      rw [runImmediate_alone hopen]
      split
      · exact hw
      · exact (hperformed w).mpr (.inl hw)
  have hwritten : throws = false →
      ∀ w ∈ writes, w ∈ (runImmediate s.queue.connection operation).1.contents := by
    intro hreturns w hw
    cases hopen : s.queue.connection.isTransaction with
    | true =>
      rw [runImmediate_joined hopen]
      exact (hperformed w).mpr (.inr hw)
    | false =>
      rw [runImmediate_alone hopen, if_neg (by simp [operation, hreturns])]
      exact (hperformed w).mpr (.inr hw)
  have hsame : (runImmediate s.queue.connection operation).1.backup =
      s.queue.connection.backup := by
    cases hopen : s.queue.connection.isTransaction with
    | true =>
      rw [runImmediate_joined hopen]
      exact hbackup
    | false =>
      rw [runImmediate_alone hopen]
      split
      · rfl
      · exact hbackup
  unfold step at hstep
  simp only [SyncHelper.run_eq] at hstep
  rw [houtcome] at hstep
  cases hstep
  constructor
  · intro w hw
    cases throws with
    | true => exact hmore w (h.reported w hw)
    | false =>
      rcases List.mem_append.mp hw with hold | hnew
      · exact hmore w (h.reported w hold)
      · exact hwritten rfl w hnew
  · cases throws <;> exact h.rejected
  · exact h.started
  · intro hopen
    exact h.open_ (hsame ▸ hopen)

theorem Inv.step {a : Action} (hjoined : Unjoined s a) (hstep : s.step a = some s') : Inv s' := by
  cases a with
  | mutate =>
    cases hstep
    exact h.run .mutation
  | transaction =>
    cases hstep
    exact h.run .transaction
  | start => exact h.start hstep
  | execute w => exact h.execute hstep
  | finish returns => exact h.finish hjoined hstep
  | sync helper writes throws => exact h.sync helper writes throws hstep

end

/-- In a run in which the transactions that roll back were not joined, no reported write is
undone, and every synchronous mutation fails through its callback only. -/
theorem reported_kept {actions : List Action} {t : Storage}
    (hrun : Machine.run Storage.step .new actions = some t)
    (hjoined : Machine.AllSteps Storage.step Unjoined .new actions) : Kept t := by
  have hinv := Machine.run_invariant_of_steps
    (fun _ _ _ hstep hjoined h => Inv.step h hjoined hstep) hrun hjoined Inv.new
  exact ⟨fun _ => hinv.reported, hinv.rejected⟩

/-- Mutations before, inside a transaction that commits, and behind one that rolls back. -/
def exampleActions : List Action :=
  [.sync .topology [1, 2] false, .transaction, .start, .execute 3, .sync .access [4] false,
    .finish true, .transaction, .start, .execute 5, .sync .git [6] true, .finish false,
    .sync .journal [7] false]

theorem reported_kept_example :
    ∃ t, Machine.run Storage.step .new exampleActions = some t ∧ Kept t :=
  ⟨_, rfl, @reported_kept exampleActions _ rfl (by decide +kernel)⟩

/-- A mutation of another task while a transaction awaits that rolls back later. -/
def joinedActions : List Action :=
  [.transaction, .start, .execute 1, .sync .access [2] false, .finish false]

theorem joinedActions_run : ∃ t, Machine.run Storage.step .new joinedActions = some t ∧
    t.reported = [2] ∧ t.queue.connection = ⟨[], none⟩ :=
  ⟨_, rfl, by decide +kernel, by decide +kernel⟩

theorem reported_not_kept :
    ∃ t, Machine.run Storage.step .new joinedActions = some t ∧ ¬ Kept t := by
  have ⟨t, hrun, hreported, hconnection⟩ := joinedActions_run
  refine ⟨t, hrun, fun h => ?_⟩
  have hmem := h.reported (by rw [hconnection]; rfl) 2 (by simp [hreported])
  rw [hconnection] at hmem
  cases hmem

end Storage

end TaskHandoff.Persistence
