import TaskHandoff.Lib.Machine
import TaskHandoff.Lib.OrderedMap
import TaskHandoff.Persistence.Connection

/-! # Reads of the repository

A read waits for the tail it found, and runs its statements some turns later. An operation that was
called behind it waits for the same tail, and may start in between. -/

namespace TaskHandoff.Persistence

open Option MutationQueue List Machine

variable {σ : Type}

/-! ## Reads -/

/-- Where a read awaits: the tail inside `barrier`, `barrier` itself, or a statement. -/
inductive ReadPhase where
  | barrier
  | read
  | select
deriving DecidableEq

/-- A pending read: the operations called before it, those that had ended then, and what its
statements returned so far. -/
structure PendingRead (σ : Type) where
  seen : Nat
  settledBefore : Nat
  phase : ReadPhase
  observed : List σ

structure ReturnedRead (σ : Type) where
  settledBefore : Nat
  observed : List σ
deriving DecidableEq

/-- The repository, with the contents at the beginning and behind every ended operation, and the
operations that were rolled back. -/
structure Repository (σ : Type) where
  queue : MutationQueue σ
  reads : OrderedMap Nat (PendingRead σ)
  nextRead : Nat
  returned : List (ReturnedRead σ)
  history : List σ
  rolledBack : List Nat

namespace Repository

def new (contents : σ) : Repository σ where
  queue := .new contents
  reads := .empty
  nextRead := 0
  returned := []
  history := [contents]
  rolledBack := []

inductive Action (σ : Type) where
  | read
  | mutate
  | transaction
  /-- The tail that `barrier` awaits is settled. -/
  | passBarrier (read : Nat)
  /-- `read` goes on and calls its operation. -/
  | resumeRead (read : Nat)
  | select (read : Nat)
  | returnRead (read : Nat)
  | start
  | execute (statement : σ → σ)
  | finish (returns : Bool)

/-- Give a pending read that is in one phase another value. -/
def updateRead (s : Repository σ) (id : Nat) (phase : ReadPhase)
    (f : PendingRead σ → PendingRead σ) : Option (Repository σ) :=
  match s.reads.get? id with
  | none => none
  | some r => if r.phase = phase then some { s with reads := s.reads.set id (f r) } else none

def step (s : Repository σ) : Action σ → Option (Repository σ)
  | .read =>
    some { s with
      reads := s.reads.set s.nextRead
        ⟨s.queue.operations.length, s.queue.settled, .barrier, []⟩
      nextRead := s.nextRead + 1 }
  | .mutate => some { s with queue := s.queue.run .mutation }
  | .transaction => some { s with queue := s.queue.run .transaction }
  | .passBarrier id =>
    match s.reads.get? id with
    | none => none
    | some r =>
      if r.seen ≤ s.queue.settled then
        s.updateRead id .barrier fun r => { r with phase := .read }
      else none
  | .resumeRead id => s.updateRead id .read fun r => { r with phase := .select }
  | .select id =>
    s.updateRead id .select fun r =>
      { r with observed := r.observed ++ [s.queue.connection.contents] }
  | .returnRead id =>
    match s.reads.get? id with
    | none => none
    | some r =>
      if r.phase = .select ∧ r.observed ≠ [] then
        some { s with
          reads := s.reads.erase id
          returned := s.returned ++ [⟨r.settledBefore, r.observed⟩] }
      else none
  | .start =>
    s.queue.start.map fun queue =>
      if queue.settled = s.queue.settled then { s with queue }
      else { s with queue, history := s.history ++ [queue.connection.contents] }
  | .execute statement => (s.queue.execute statement).map fun queue => { s with queue }
  | .finish returns =>
    (s.queue.finish returns).map fun queue =>
      { s with
        queue
        history := s.history ++ [queue.connection.contents]
        rolledBack :=
          if s.queue.running = some .transaction ∧ returns = false then
            s.rolledBack ++ [s.queue.settled]
          else s.rolledBack }

/-! ## Isolation -/

/-- All statements of a read returned the contents behind some number of ended operations, with those
that had ended before it was called. -/
def WholeRead (history : List σ) (r : ReturnedRead σ) : Prop :=
  ∃ n contents, r.settledBefore ≤ n ∧ history[n]? = some contents ∧ ∀ o ∈ r.observed, o = contents

/-- Every read is whole, and a rolled back transaction left the contents as they were. -/
structure Isolated (s : Repository σ) : Prop where
  reads : ∀ r ∈ s.returned, WholeRead s.history r
  rolledBack : ∀ n ∈ s.rolledBack, s.history[n + 1]? = s.history[n]?

/-- An operation does not start before the reads that were called before it have returned. -/
def InTurn (s : Repository σ) : Action σ → Prop
  | .start => ∀ r ∈ s.reads.values, s.queue.started < r.seen
  | _ => True

instance (s : Repository σ) (a : Action σ) : Decidable (InTurn s a) := by
  cases a <;> unfold InTurn <;> infer_instance

/-- A pending read sees the contents behind the operations that were called before it. -/
structure Placed (s : Repository σ) (r : PendingRead σ) : Prop where
  before : r.settledBefore ≤ r.seen
  started : s.queue.started ≤ r.seen
  passed : r.phase ≠ .barrier → r.seen ≤ s.queue.settled
  observed : ∀ o ∈ r.observed, s.history[r.seen]? = some o

structure Inv (s : Repository σ) : Prop where
  length : s.history.length = s.queue.settled + 1
  started : s.queue.settled ≤ s.queue.started ∧ s.queue.started ≤ s.queue.settled + 1
  called : s.queue.started ≤ s.queue.operations.length
  idle : s.queue.started = s.queue.settled → s.queue.connection.backup = none ∧
      s.history[s.queue.settled]? = some s.queue.connection.contents
  mutation : s.queue.running = some .mutation → s.queue.connection.backup = none
  transaction : s.queue.running = some .transaction →
    s.queue.connection.backup.isSome ∧ s.history[s.queue.settled]? = s.queue.connection.backup
  pending : ∀ id r, s.reads.get? id = some r → Placed s r
  range : ∀ n ∈ s.rolledBack, n < s.queue.settled
  isolated : Isolated s

theorem Inv.new (contents : σ) : Inv (Repository.new contents) where
  length := rfl
  started := ⟨Nat.le_refl 0, Nat.zero_le 1⟩
  called := Nat.le_refl 0
  idle _ := ⟨rfl, rfl⟩
  mutation h := absurd h nofun
  transaction h := absurd h nofun
  pending _ _ h := absurd h nofun
  range _ h := absurd h nofun
  isolated := ⟨nofun, nofun⟩

variable {s s' : Repository σ}

theorem Inv.setReads (h : Inv s) {reads : OrderedMap Nat (PendingRead σ)} {nextRead : Nat}
    {returned : List (ReturnedRead σ)} (hplaced : ∀ id r, reads.get? id = some r → Placed s r)
    (hreturned : ∀ r ∈ returned, WholeRead s.history r) :
    Inv { s with reads, nextRead, returned } where
  __ := h
  pending id r hr :=
    have hp := hplaced id r hr
    { hp with }
  isolated := ⟨hreturned, h.isolated.rolledBack⟩

theorem Inv.updateRead (h : Inv s) {id : Nat} {phase : ReadPhase}
    {f : PendingRead σ → PendingRead σ} (hstep : s.updateRead id phase f = some s')
    (hf : ∀ r, s.reads.get? id = some r → r.phase = phase → Placed s (f r)) : Inv s' := by
  unfold Repository.updateRead at hstep
  split at hstep
  · cases hstep
  rename_i r hr
  split at hstep
  next hphase =>
    cases hstep
    refine h.setReads ?_ h.isolated.reads
    intro id' r' hr'
    rcases OrderedMap.get?_set_eq_some hr' with ⟨_, rfl⟩ | ⟨_, hr'⟩
    · exact hf r hr hphase
    · exact h.pending id' r' hr'
  · cases hstep

theorem Inv.observes (h : Inv s) {r : PendingRead σ} (hplaced : Placed s r)
    (hpassed : r.phase ≠ .barrier) : s.history[r.seen]? = some s.queue.connection.contents := by
  have hseen := hplaced.passed hpassed
  have hstarted := hplaced.started
  have horder := h.started
  have hidle : s.queue.started = s.queue.settled := by omega
  have hsame : r.seen = s.queue.settled := by omega
  rw [hsame]
  exact (h.idle hidle).2

theorem Placed.append {r : PendingRead σ} {queue : MutationQueue σ} {more : List σ}
    {rolledBack : List Nat} (hp : Placed s r) (hstarted : queue.started ≤ r.seen)
    (hsettled : s.queue.settled ≤ queue.settled) :
    Placed { s with queue, history := s.history ++ more, rolledBack } r where
  before := hp.before
  started := hstarted
  passed hphase := Nat.le_trans (hp.passed hphase) hsettled
  observed o ho := by
    have hobserved := hp.observed o ho
    have hlt := (List.getElem?_eq_some_iff.mp hobserved).1
    exact (List.getElem?_append_left hlt).trans hobserved

section

variable (h : Inv s)

include h

theorem Inv.run (kind : OperationKind) : Inv { s with queue := s.queue.run kind } := by
  have hlength : (s.queue.run kind).operations.length = s.queue.operations.length + 1 := by
    simp [MutationQueue.run]
  have hrunning := running_run h.called h.started.1 kind
  refine { h with
    called := ?_, mutation := ?_, transaction := ?_
    pending := fun id r hr => { h.pending id r hr with }, isolated := { h.isolated with } }
  · have hcalled := h.called
    rw [hlength]
    exact Nat.le_succ_of_le hcalled
  · rw [hrunning]
    exact h.mutation
  · rw [hrunning]
    exact h.transaction

theorem Inv.running_none : s.queue.running = none ↔ s.queue.started = s.queue.settled :=
  running_eq_none h.called h.started.1

theorem Inv.start (hturn : InTurn s .start) (hstep : s.step .start = some s') : Inv s' := by
  have ⟨queue, hstart, hs'⟩ := map_eq_some_iff.mp hstep
  have hidle : s.queue.started = s.queue.settled := by
    unfold MutationQueue.start at hstart
    split at hstart
    next hidle => exact hidle
    · cases hstart
  have ⟨hclosed, hcontents⟩ := h.idle hidle
  have ⟨_, hcases⟩ := start_cases hstart hclosed
  have hsettled : queue.settled = s.queue.settled := by
    rcases hcases with ⟨_, rfl⟩ | ⟨_, rfl⟩ <;> rfl
  have hstarted : queue.started = s.queue.settled + 1 := by
    rcases hcases with ⟨_, rfl⟩ | ⟨_, rfl⟩ <;> exact congrArg (· + 1) hidle
  have hoperations : queue.operations = s.queue.operations := by
    rcases hcases with ⟨_, rfl⟩ | ⟨_, rfl⟩ <;> rfl
  have hkind : queue.running = s.queue.operations[s.queue.settled]? := by
    rw [running, if_neg (by omega), hsettled, hoperations]
  rw [if_pos hsettled] at hs'
  subst hs'
  constructor
  · exact hsettled ▸ h.length
  · show queue.settled ≤ queue.started ∧ queue.started ≤ queue.settled + 1
    omega
  · show queue.started ≤ queue.operations.length
    have hlt : s.queue.settled < s.queue.operations.length := by
      rcases hcases with ⟨hsome, _⟩ | ⟨hsome, _⟩ <;>
        exact (List.getElem?_eq_some_iff.mp hsome).1
    rw [hoperations]
    omega
  · intro hsame
    have hne : queue.started ≠ queue.settled := by omega
    exact absurd hsame hne
  · intro hrunning
    rcases hcases with ⟨_, rfl⟩ | ⟨hsome, rfl⟩
    · exact hclosed
    · rw [show _ = _ from hkind, hsome] at hrunning
      cases hrunning
  · intro hrunning
    rcases hcases with ⟨hsome, rfl⟩ | ⟨_, rfl⟩
    · rw [show _ = _ from hkind, hsome] at hrunning
      cases hrunning
    · exact ⟨rfl, hcontents⟩
  · intro id r hr
    have hp := h.pending id r hr
    have hlater := hturn r (OrderedMap.mem_values.mpr ⟨id, hr⟩)
    refine ⟨hp.before, ?_, ?_, hp.observed⟩
    · show queue.started ≤ r.seen
      omega
    intro hphase
    have := hp.passed hphase
    omega
  · intro n hn
    have := h.range n hn
    show n < queue.settled
    omega
  · exact { h.isolated with }

theorem Inv.execute {statement : σ → σ}
    (hstep : s.step (.execute statement) = some s') : Inv s' := by
  have ⟨queue, hexecute, hs'⟩ := map_eq_some_iff.mp hstep
  have ⟨hbusy, hqueue⟩ := execute_cases hexecute
  have hne : s.queue.started ≠ s.queue.settled := fun hidle => hbusy (h.running_none.mpr hidle)
  subst hs' hqueue
  exact { h with
    idle := fun hidle => absurd hidle hne, pending := fun id r hr => { h.pending id r hr with }
    isolated := { h.isolated with } }

/-- An ended operation adds the contents to the history; a rollback adds the same again. -/
theorem Inv.finish {returns : Bool} (hstep : s.step (.finish returns) = some s') : Inv s' := by
  have ⟨queue, hfinish, hs'⟩ := map_eq_some_iff.mp hstep
  have hcases := finish_cases hfinish
  have hbusy : s.queue.running ≠ none := by
    rcases hcases with ⟨hkind, _⟩ | ⟨hkind, _⟩ <;> rw [hkind] <;> exact nofun
  have hne : s.queue.started ≠ s.queue.settled := fun hidle => hbusy (h.running_none.mpr hidle)
  have hsettled : queue.settled = s.queue.settled + 1 := by
    rcases hcases with ⟨_, rfl⟩ | ⟨_, backup, _, rfl⟩ <;> rfl
  have hstarted : queue.started = s.queue.started := by
    rcases hcases with ⟨_, rfl⟩ | ⟨_, backup, _, rfl⟩ <;> rfl
  have hoperations : queue.operations = s.queue.operations := by
    rcases hcases with ⟨_, rfl⟩ | ⟨_, backup, _, rfl⟩ <;> rfl
  have hclosed : queue.connection.backup = none := by
    rcases hcases with ⟨hkind, rfl⟩ | ⟨_, backup, _, rfl⟩
    · exact h.mutation hkind
    · rfl
  have horder := h.started
  have hlength := h.length
  have hidle : queue.running = none := by rw [running, if_pos (by omega)]
  have hlast : (s.history ++ [queue.connection.contents])[s.queue.settled + 1]? =
      some queue.connection.contents := by
    rw [← hlength, List.getElem?_concat_length]
  have hkeep (n : Nat) (hn : n ≤ s.queue.settled) :
      (s.history ++ [queue.connection.contents])[n]? = s.history[n]? :=
    List.getElem?_append_left (by omega)
  subst hs'
  constructor
  · show (s.history ++ [queue.connection.contents]).length = queue.settled + 1
    rw [length_append, length_singleton]
    omega
  · show queue.settled ≤ queue.started ∧ queue.started ≤ queue.settled + 1
    omega
  · rw [hstarted, hoperations]
    exact h.called
  · intro _
    refine ⟨hclosed, ?_⟩
    rw [hsettled, hlast]
  · intro hrunning
    rw [show _ = none from hidle] at hrunning
    cases hrunning
  · intro hrunning
    rw [show _ = none from hidle] at hrunning
    cases hrunning
  · intro id r hr
    have hp := h.pending id r hr
    have hstart := hp.started
    exact hp.append (by omega) (by omega)
  · intro n hn
    show n < queue.settled
    split at hn
    · rcases mem_concat.mp hn with hold | rfl
      · have := h.range n hold
        omega
      · omega
    · have := h.range n hn
      omega
  · constructor
    · intro r hr
      have ⟨n, contents, hbefore, hcontents, hobserved⟩ := h.isolated.reads r hr
      have hn := (List.getElem?_eq_some_iff.mp hcontents).1
      exact ⟨n, contents, hbefore, (hkeep n (by omega)).trans hcontents, hobserved⟩
    · intro n hn
      have hold (hmem : n ∈ s.rolledBack) : (s.history ++ [queue.connection.contents])[n + 1]? =
          (s.history ++ [queue.connection.contents])[n]? := by
        have := h.range n hmem
        rw [hkeep n (by omega), hkeep (n + 1) (by omega)]
        exact h.isolated.rolledBack n hmem
      split at hn
      next hrolled =>
        rcases mem_append.mp hn with hmem | hnew
        · exact hold hmem
        rw [mem_singleton.mp hnew, hkeep _ (Nat.le_refl _), hlast]
        rcases hcases with ⟨hkind, _⟩ | ⟨hkind, backup, hbackup, rfl⟩
        · rw [hrolled.1] at hkind
          cases hkind
        · rw [(h.transaction hkind).2, hbackup, hrolled.2]
          rfl
      · exact hold hn

theorem Inv.step {a : Action σ} (hturn : InTurn s a) (hstep : s.step a = some s') : Inv s' := by
  cases a with
  | read =>
    cases hstep
    refine h.setReads ?_ h.isolated.reads
    intro id r hr
    rcases OrderedMap.get?_set_eq_some hr with ⟨_, rfl⟩ | ⟨_, hr⟩
    · have := h.started
      have := h.called
      exact ⟨by show s.queue.settled ≤ s.queue.operations.length; omega, h.called,
        absurd rfl, nofun⟩
    · exact h.pending id r hr
  | mutate =>
    cases hstep
    exact h.run .mutation
  | transaction =>
    cases hstep
    exact h.run .transaction
  | passBarrier id =>
    unfold Repository.step at hstep
    simp only at hstep
    split at hstep
    · cases hstep
    rename_i r hr
    split at hstep
    next hseen =>
      apply h.updateRead hstep
      intro r' hr' _
      rw [hr] at hr'
      cases hr'
      have hp := h.pending id r hr
      exact ⟨hp.before, hp.started, fun _ => hseen, hp.observed⟩
    · cases hstep
  | resumeRead id =>
    apply h.updateRead hstep
    intro r hr hphase
    have hp := h.pending id r hr
    have hseen := hp.passed (hphase ▸ nofun)
    exact ⟨hp.before, hp.started, fun _ => hseen, hp.observed⟩
  | select id =>
    apply h.updateRead hstep
    intro r hr hphase
    have hp := h.pending id r hr
    have hpassed : r.phase ≠ .barrier := hphase ▸ nofun
    refine ⟨hp.before, hp.started, fun _ => hp.passed hpassed, ?_⟩
    intro o ho
    rcases mem_concat.mp ho with hold | rfl
    · exact hp.observed o hold
    have hobserved : s.history[r.seen]? = some s.queue.connection.contents :=
      h.observes hp hpassed
    exact hobserved
  | returnRead id =>
    unfold Repository.step at hstep
    simp only at hstep
    split at hstep
    · cases hstep
    rename_i r hr
    split at hstep
    next hphase =>
      cases hstep
      have hp := h.pending id r hr
      have hpassed : r.phase ≠ .barrier := hphase.1 ▸ nofun
      refine h.setReads (fun id' r' hr' => h.pending id' r' (OrderedMap.get?_erase_eq_some hr').2)
        ?_
      intro returned hreturned
      rcases mem_concat.mp hreturned with hold | rfl
      · exact h.isolated.reads returned hold
      have hcontents := h.observes hp hpassed
      refine ⟨r.seen, _, hp.before, hcontents, ?_⟩
      intro o ho
      exact some.inj ((hp.observed o ho).symm.trans hcontents)
    · cases hstep
  | start => exact h.start hturn hstep
  | execute statement => exact h.execute hstep
  | finish returns => exact h.finish hstep

end

/-- In a run in which the operations start in their turn, every read is isolated. -/
theorem reads_isolated {contents : σ} {actions : List (Action σ)} {t : Repository σ}
    (hrun : run Repository.step (.new contents) actions = some t)
    (hturns : AllSteps Repository.step InTurn (.new contents) actions) : Isolated t :=
  have hinv := run_invariant_of_steps (fun _ _ _ hstep hturn h => Inv.step h hturn hstep)
    hrun hturns (Inv.new contents)
  hinv.isolated

/-- A read that returns before a transaction is called, and one that waits for it. -/
def exampleActions : List (Action Nat) :=
  [.read, .passBarrier 0, .resumeRead 0, .select 0, .returnRead 0, .transaction, .start,
    .execute (· + 1), .read, .finish false, .passBarrier 1, .resumeRead 1, .mutate, .select 1,
    .returnRead 1, .start, .execute (· + 2), .finish true]

theorem reads_isolated_example :
    ∃ t, run Repository.step (.new 0) exampleActions = some t ∧ Isolated t :=
  ⟨_, rfl, @reads_isolated _ _ exampleActions _ rfl (by decide +kernel)⟩

/-- A transaction that is called behind a read in the same turn. Both wait for the settled tail;
the reaction of `barrier` comes first, then that of the transaction, then the read goes on. The
first statement of the transaction is ahead of that of the read, and is rolled back. -/
def dirtyActions : List (Action Nat) :=
  [.read, .transaction, .passBarrier 0, .start, .resumeRead 0, .execute (· + 1), .select 0,
    .returnRead 0, .finish false]

/-- A mutation between the two statements of a read. -/
def tornActions : List (Action Nat) :=
  [.read, .passBarrier 0, .resumeRead 0, .mutate, .select 0, .start, .execute (· + 1), .finish true,
    .select 0, .returnRead 0]

theorem dirtyActions_run : ∃ t, run Repository.step (.new 0) dirtyActions = some t ∧
    t.returned = [⟨0, [1]⟩] ∧ t.history = [0, 0] :=
  ⟨_, rfl, by decide +kernel, by decide +kernel⟩

theorem tornActions_run : ∃ t, run Repository.step (.new 0) tornActions = some t ∧
    t.returned = [⟨0, [0, 1]⟩] :=
  ⟨_, rfl, by decide +kernel⟩

theorem reads_not_isolated :
    (∃ t, run Repository.step (.new 0) dirtyActions = some t ∧ ¬ Isolated t) ∧
      ∃ t, run Repository.step (.new 0) tornActions = some t ∧ ¬ Isolated t := by
  constructor
  · have ⟨t, hrun, hreturned, hhistory⟩ := dirtyActions_run
    refine ⟨t, hrun, fun h => ?_⟩
    have ⟨n, contents, _, hcontents, hobserved⟩ := h.reads ⟨0, [1]⟩ (by simp [hreturned])
    have hone : 1 = contents := hobserved 1 (by simp)
    rw [hhistory] at hcontents
    have hmem := mem_of_getElem? hcontents
    rw [← hone] at hmem
    exact absurd hmem (by decide)
  · have ⟨t, hrun, hreturned⟩ := tornActions_run
    refine ⟨t, hrun, fun h => ?_⟩
    have ⟨n, contents, _, _, hobserved⟩ := h.reads ⟨0, [0, 1]⟩ (by simp [hreturned])
    have hzero : 0 = contents := hobserved 0 (by simp)
    have hone : 1 = contents := hobserved 1 (by simp)
    omega

end Repository

end TaskHandoff.Persistence
