import TaskHandoff.Scheduler.Runtime
import Mathlib.Algebra.Order.Group.Multiset
import Mathlib.Data.Multiset.AddSub
import Mathlib.Tactic.Abel

/-! # Accounting of the scheduler runtime

One invariant covers every method: submissions are conserved, the counters are
the numbers of executions in flight, a start respects the policy it was made
under, queues are served in order, and a waiting event always has an execution
of its job in front of it.
-/

namespace TaskHandoff.Scheduler

open Machine OrderedMap List Option SchedulerExecutionRuntime Prod

variable {κ ε : Type} [DecidableEq κ]

/-! ## Queues of one map -/

/-- The events waiting in all queues of a map. -/
def eventsIn (m : OrderedMap κ (List (QueuedEvent ε))) : List ε :=
  m.values.flatten.map QueuedEvent.event

omit [DecidableEq κ] in
@[simp] theorem eventsIn_empty : eventsIn (empty : OrderedMap κ (List (QueuedEvent ε))) = [] := rfl

theorem eventsIn_set (m : OrderedMap κ (List (QueuedEvent ε))) (k : κ) (q : List (QueuedEvent ε)) :
    (eventsIn (m.set k q)).Perm (q.map QueuedEvent.event ++ eventsIn (m.erase k)) := by
  have h := ((m.entries_set_perm k q).map snd).flatten.map QueuedEvent.event
  simpa [eventsIn, values] using h

theorem eventsIn_split (m : OrderedMap κ (List (QueuedEvent ε))) (k : κ) :
    (eventsIn m).Perm (((m.get? k).getD []).map QueuedEvent.event ++ eventsIn (m.erase k)) := by
  cases hk : m.get? k with
  | none => simp [erase_of_get?_eq_none hk]
  | some q =>
    have h := ((entries_perm_of_get? hk).map snd).flatten.map QueuedEvent.event
    simpa [eventsIn, values] using h

/-! ## What is known of a world -/

namespace World

def executingOf (w : World κ ε) (key : κ) : Nat := (w.executing.map fst).count key

def eventsOf (log : List (κ × ε)) (key : κ) : List ε :=
  (log.filter fun e => e.1 = key).map snd

@[simp] theorem eventsOf_append (log log' : List (κ × ε)) (key : κ) :
    eventsOf (log ++ log') key = eventsOf log key ++ eventsOf log' key := by
  simp [eventsOf]

theorem eventsOf_singleton (key k : κ) (event : ε) :
    eventsOf [(k, event)] key = if k = key then [event] else [] := by
  by_cases h : k = key <;> simp [eventsOf, h]

/-- The policy under which the latest execution of a job started. -/
def latestPolicy (w : World κ ε) (key : κ) : Option SchedulerPolicy :=
  ((w.started.filter fun e => e.1 = key).getLast?).map fun e => e.2.1

/-- What holds between the elementary updates of a method. `pending` are the
events a method has taken over and not yet started, queued or reported. -/
structure Core (w : World κ ε) (pending : List ε) : Prop where
  conserved : ((w.submitted.map fun e => e.2.2 : List ε) : Multiset ε) =
    ↑pending + ↑(w.executing.map snd) + ↑(eventsIn w.runtime.queued) +
      ↑(w.finished.map snd) + ↑(w.skipped.map fst)
  counted : ∀ key, w.runtime.runningCount key = w.executingOf key
  bounded : ∀ key policy, w.latestPolicy key = some policy →
    w.runtime.runningCount key ≤ policy.maxConcurrentRuns
  fresh : ∀ key, w.latestPolicy key = none → w.runtime.runningCount key = 0
  inOrder : ∀ key, (eventsOf w.drained key ++
    (w.runtime.queueOf key).map QueuedEvent.event).Sublist (eventsOf w.enqueued key)
  startedSubmitted : ∀ e ∈ w.started, e ∈ w.submitted
  queuedSubmitted : ∀ key, ∀ q ∈ w.runtime.queueOf key, (key, q.policy, q.event) ∈ w.submitted

/-- Between two actions nothing is pending and no job with a waiting event is idle. -/
structure Inv (w : World κ ε) : Prop where
  core : w.Core []
  served : ∀ key, w.runtime.queueOf key ≠ [] → 0 < w.runtime.runningCount key
  stopped : w.runtime.accepting = false → w.runtime.queued = empty

theorem init_inv (maxQueuedPerJob : Nat) : (init maxQueuedPerJob : World κ ε).Inv := by
  refine ⟨?_, ?_, ?_⟩
  · constructor <;>
      simp [init, new, runningCount, queueOf, executingOf, latestPolicy]
  · simp [init, new, queueOf]
  · simp [init, new]

/-! ## The adapter's calls -/

theorem foldl_observe_runtime (w : World κ ε) (calls : List (AdapterCall κ ε)) :
    (calls.foldl observe w).runtime = w.runtime := by
  induction calls generalizing w with
  | nil => rfl
  | cons call calls ih =>
    rw [foldl_cons, ih]
    cases call <;> rfl

@[simp] theorem apply_runtime (w : World κ ε)
    (r : SchedulerExecutionRuntime κ ε × List (AdapterCall κ ε)) : (w.apply r).runtime = r.1 :=
  foldl_observe_runtime _ _

@[simp] theorem apply_nil (w : World κ ε) (r : SchedulerExecutionRuntime κ ε) :
    w.apply (r, []) = { w with runtime := r } := rfl

theorem apply_begin (w : World κ ε) (r : SchedulerExecutionRuntime κ ε) (key : κ) (event : ε)
    (policy : SchedulerPolicy) (now : Int) : w.apply (r.begin key event policy now) =
      { w with
        runtime := (r.begin key event policy now).1
        executing := w.executing ++ [(key, event)]
        started := w.started ++ [(key, policy, event)] } := rfl

theorem apply_skips (w : World κ ε) (r : SchedulerExecutionRuntime κ ε)
    (entries : List (QueuedEvent ε)) (reason : SchedulerSkipReason) :
    w.apply (r, entries.map fun entry => .skipped entry.event reason) =
      { w with
        runtime := r
        skipped := w.skipped ++ entries.map fun entry => (entry.event, reason) } := by
  have hfold : ∀ w : World κ ε,
      (entries.map fun entry => AdapterCall.skipped entry.event reason).foldl observe w =
        { w with skipped := w.skipped ++ entries.map fun entry => (entry.event, reason) } := by
    induction entries with
    | nil => simp
    | cons entry entries ih => simp [observe, ih]
  exact hfold { w with runtime := r }

/-! ## Elementary updates -/

variable (r : SchedulerExecutionRuntime κ ε)

theorem runningCount_set (key k : κ) (n : Nat) :
    ({ r with running := r.running.set key n } : SchedulerExecutionRuntime κ ε).runningCount k =
      if k = key then n else r.runningCount k := by
  unfold runningCount
  rw [get?_set]
  split <;> rfl

theorem runningCount_begin (key k : κ) (event : ε) (policy : SchedulerPolicy) (now : Int) :
    (r.begin key event policy now).1.runningCount k =
      if k = key then r.runningCount key + 1 else r.runningCount k :=
  runningCount_set r key k _

theorem queueOf_set (key k : κ) (q : List (QueuedEvent ε)) :
    ({ r with queued := r.queued.set key q } : SchedulerExecutionRuntime κ ε).queueOf k =
      if k = key then q else r.queueOf k := by
  unfold queueOf
  rw [get?_set]
  split <;> rfl

theorem queueOf_erase (key k : κ) :
    ({ r with queued := r.queued.erase key } : SchedulerExecutionRuntime κ ε).queueOf k =
      if k = key then [] else r.queueOf k := by
  unfold queueOf
  rw [get?_erase]
  split <;> rfl

theorem queueOf_dequeue (key k : κ) (rest : List (QueuedEvent ε)) :
    (r.dequeue key rest).queueOf k = if k = key then rest else r.queueOf k := by
  cases rest with
  | nil => exact queueOf_erase r key k
  | cons q rest => exact queueOf_set r key k (q :: rest)

variable {key : κ}

theorem runningCount_release {r : SchedulerExecutionRuntime κ ε} (h : 0 < r.runningCount key)
    (k : κ) : (r.release key).runningCount k =
      if k = key then r.runningCount key - 1 else r.runningCount k := by
  unfold runningCount release at *
  cases hr : r.running.get? key with
  | none =>
    rw [hr] at h
    exact absurd h (Nat.lt_irrefl 0)
  | some n =>
    simp only [getD_some]
    by_cases hn : 0 < n - 1
    · rw [if_pos hn, get?_set]
      split <;> rfl
    rw [if_neg hn, get?_erase]
    split
    · simp only [getD_none]
      omega
    · rfl

variable {w : World κ ε}

variable {pending : List ε} {policy : SchedulerPolicy} {event : ε}

theorem Core.begin (h : w.Core (event :: pending)) (now : Int)
    (hroom : w.runtime.runningCount key < policy.maxConcurrentRuns)
    (hsub : (key, policy, event) ∈ w.submitted) :
    (w.apply (w.runtime.begin key event policy now)).Core pending := by
  have hrun := fun k => runningCount_begin w.runtime key k event policy now
  rw [apply_begin]
  refine ⟨?_, ?_, ?_, ?_, h.inOrder, ?_, h.queuedSubmitted⟩
  · rw [h.conserved]
    simp only [SchedulerExecutionRuntime.begin, map_append, map_cons, map_nil,
      ← Multiset.coe_add, ← Multiset.cons_coe, ← Multiset.singleton_add]
    abel
  · intro k
    have hk := h.counted k
    by_cases hkey : k = key
    · subst hkey
      simp only [hrun, executingOf] at hk ⊢
      simp [hk]
    · simp only [hrun, if_neg hkey, executingOf] at hk ⊢
      simp [hk, Ne.symm hkey]
  · intro k latest hlatest
    by_cases hkey : k = key
    · subst hkey
      have : latest = policy := by simpa [latestPolicy] using hlatest.symm
      subst this
      simp only [hrun, if_true]
      omega
    · simp only [hrun, if_neg hkey]
      refine h.bounded k latest ?_
      simpa [latestPolicy, filter_append, Ne.symm hkey] using hlatest
  · intro k hlatest
    by_cases hkey : k = key
    · subst hkey
      simp [latestPolicy] at hlatest
    simp only [hrun, if_neg hkey]
    refine h.fresh k ?_
    simpa [latestPolicy, filter_append, Ne.symm hkey] using hlatest
  · intro e he
    rcases mem_concat.mp he with he | rfl
    · exact h.startedSubmitted e he
    · exact hsub

theorem Core.skip (entries : List (QueuedEvent ε))
    (h : w.Core (entries.map QueuedEvent.event ++ pending)) (reason : SchedulerSkipReason) :
    (w.apply (w.runtime, entries.map fun entry => .skipped entry.event reason)).Core pending := by
  rw [apply_skips]
  refine ⟨?_, h.counted, h.bounded, h.fresh, h.inOrder, h.startedSubmitted, h.queuedSubmitted⟩
  have hfst : (entries.map fun entry => (entry.event, reason)).map fst =
      entries.map QueuedEvent.event := by
    simp
  rw [h.conserved]
  simp only [map_append, hfst, ← Multiset.coe_add]
  abel

theorem Core.submitted (h : w.Core []) (key : κ) (policy : SchedulerPolicy) (event : ε) :
    Core { w with submitted := w.submitted ++ [(key, policy, event)] } [event] := by
  refine ⟨?_, h.counted, h.bounded, h.fresh, h.inOrder, ?_, ?_⟩
  · simp only [map_append, map_cons, map_nil, ← Multiset.coe_add, h.conserved,
      Multiset.coe_nil, zero_add]
    abel
  · exact fun e he => mem_append_left _ (h.startedSubmitted e he)
  · exact fun k q hq => mem_append_left _ (h.queuedSubmitted k q hq)

theorem Core.enqueue (h : w.Core [event]) (hsub : (key, policy, event) ∈ w.submitted) :
    Core { w with
      runtime := { w.runtime with
        queued := w.runtime.queued.set key (w.runtime.queueOf key ++ [⟨event, policy⟩]) }
      enqueued := w.enqueued ++ [(key, event)] } [] := by
  refine ⟨?_, h.counted, h.bounded, h.fresh, ?_, h.startedSubmitted, ?_⟩
  · have hset := Multiset.coe_eq_coe.mpr (eventsIn_set w.runtime.queued key
      (w.runtime.queueOf key ++ [⟨event, policy⟩]))
    have hsplit := Multiset.coe_eq_coe.mpr (eventsIn_split w.runtime.queued key)
    rw [h.conserved, hset, hsplit]
    simp only [queueOf, map_append, map_cons, map_nil,
      ← Multiset.coe_add, Multiset.coe_nil, zero_add]
    abel
  · intro k
    have hk := h.inOrder k
    simp only [queueOf_set, eventsOf_append, eventsOf_singleton]
    by_cases hkey : k = key
    · subst hkey
      simpa using hk.append (List.Sublist.refl [event])
    · simpa [hkey, Ne.symm hkey] using hk
  · intro k q hq
    simp only [queueOf_set] at hq
    by_cases hkey : k = key
    · subst hkey
      rw [if_pos rfl] at hq
      rcases mem_concat.mp hq with hq | rfl
      · exact h.queuedSubmitted k q hq
      · exact hsub
    · rw [if_neg hkey] at hq
      exact h.queuedSubmitted k q hq

section

variable (h : w.Core [])

include h

theorem Core.takeHead {next : QueuedEvent ε} {rest : List (QueuedEvent ε)}
    (hq : w.runtime.queueOf key = next :: rest) : Core { w with
      runtime := w.runtime.dequeue key rest
      drained := w.drained ++ [(key, next.event)] } [next.event] := by
  refine ⟨?_, h.counted, h.bounded, h.fresh, ?_, h.startedSubmitted, ?_⟩
  · have hsplit := Multiset.coe_eq_coe.mpr (eventsIn_split w.runtime.queued key)
    have hleft : ((eventsIn (w.runtime.dequeue key rest).queued : List ε) : Multiset ε) =
        ↑(rest.map QueuedEvent.event) + ↑(eventsIn (w.runtime.queued.erase key)) := by
      cases rest with
      | nil => simp [dequeue]
      | cons q rest => exact Multiset.coe_eq_coe.mpr (eventsIn_set w.runtime.queued key (q :: rest))
    have hhead : (w.runtime.queued.get? key).getD [] = next :: rest := hq
    rw [hhead] at hsplit
    rw [h.conserved, hleft, hsplit]
    simp only [map_cons, ← Multiset.coe_add, ← Multiset.cons_coe, ← Multiset.singleton_add,
      Multiset.coe_nil, zero_add, add_zero]
    abel
  · intro k
    have hk := h.inOrder k
    simp only [queueOf_dequeue, eventsOf_append, eventsOf_singleton]
    by_cases hkey : k = key
    · subst hkey
      simpa [hq] using hk
    · simpa [hkey, Ne.symm hkey] using hk
  · intro k q hmem
    rw [queueOf_dequeue] at hmem
    by_cases hkey : k = key
    · subst hkey
      rw [if_pos rfl] at hmem
      exact h.queuedSubmitted k q (hq ▸ mem_cons_of_mem _ hmem)
    · rw [if_neg hkey] at hmem
      exact h.queuedSubmitted k q hmem

theorem Core.dropQueue (key : κ) :
    Core { w with runtime := { w.runtime with queued := w.runtime.queued.erase key } }
      ((w.runtime.queueOf key).map QueuedEvent.event ++ []) := by
  refine ⟨?_, h.counted, h.bounded, h.fresh, ?_, h.startedSubmitted, ?_⟩
  · have hsplit := Multiset.coe_eq_coe.mpr (eventsIn_split w.runtime.queued key)
    rw [h.conserved, hsplit]
    simp only [queueOf, ← Multiset.coe_add, Multiset.coe_nil, zero_add, add_zero]
    abel
  · intro k
    rw [queueOf_erase]
    split
    · exact (append_nil _).symm ▸ (sublist_append_left _ _).trans (h.inOrder k)
    · exact h.inOrder k
  · intro k q hq
    rw [queueOf_erase] at hq
    split at hq
    · simp at hq
    · exact h.queuedSubmitted k q hq

theorem Core.dropQueues :
    Core { w with runtime := { w.runtime with accepting := false, queued := empty } }
      (eventsIn w.runtime.queued ++ []) := by
  refine ⟨?_, h.counted, h.bounded, h.fresh, ?_, h.startedSubmitted, ?_⟩
  · rw [h.conserved]
    simp only [eventsIn_empty, append_nil, Multiset.coe_nil, zero_add, add_zero]
    abel
  · intro k
    have hk := (sublist_append_left _ _).trans (h.inOrder k)
    simpa [queueOf] using hk
  · simp [queueOf]

theorem Core.settled {index : Nat}
    (hget : w.executing[index]? = some (key, event)) : 0 < w.runtime.runningCount key ∧
    Core { w with
      runtime := w.runtime.release key
      executing := w.executing.eraseIdx index
      finished := w.finished ++ [(key, event)] } [] := by
  obtain ⟨hlt, hat⟩ := List.getElem?_eq_some_iff.mp hget
  have hperm : w.executing.Perm ((key, event) :: w.executing.eraseIdx index) := by
    rw [← hat]
    exact (List.getElem_cons_eraseIdx_perm hlt).symm
  have hcount : w.executingOf key = ((w.executing.eraseIdx index).map fst).count key + 1 := by
    simpa [executingOf] using (hperm.map fst).count_eq key
  have hpos : 0 < w.runtime.runningCount key := by
    rw [h.counted]
    omega
  have hrelease := runningCount_release hpos
  refine ⟨hpos, ?_, ?_, ?_, ?_, h.inOrder, h.startedSubmitted, h.queuedSubmitted⟩
  · have hsnd := Multiset.coe_eq_coe.mpr (hperm.map snd)
    have hqueued : (w.runtime.release key).queued = w.runtime.queued := rfl
    rw [h.conserved, hsnd, hqueued]
    simp only [List.map_append, List.map_cons, List.map_nil, ← Multiset.coe_add,
      ← Multiset.cons_coe, ← Multiset.singleton_add, Multiset.coe_nil, zero_add, add_zero]
    abel
  · intro k
    rw [hrelease]
    by_cases hkey : k = key
    · subst hkey
      rw [if_pos rfl, h.counted, hcount]
      rfl
    · rw [if_neg hkey, h.counted]
      simpa [executingOf, Ne.symm hkey] using (hperm.map fst).count_eq k
  · intro k policy hlatest
    have hk := h.bounded k policy hlatest
    rw [hrelease]
    split
    · subst k
      omega
    · exact hk
  · intro k hlatest
    have hk := h.fresh k hlatest
    rw [hrelease]
    split
    · subst k
      omega
    · exact hk

/-! ## One action -/

/-- Draining serves the job whose counter went down, or leaves it one execution. -/
theorem Core.drain (key : κ) (now : Int)
    (hserved : ∀ k, k ≠ key → w.runtime.queueOf k ≠ [] → 0 < w.runtime.runningCount k)
    (hstopped : w.runtime.accepting = false → w.runtime.queued = empty) :
    Inv (apply { w with drained := w.drained ++ (w.runtime.drain key now).2.filterMap executed }
      (w.runtime.drain key now)) := by
  -- A drain that starts nothing leaves the world as it was.
  have hidle : (w.runtime.queueOf key ≠ [] → 0 < w.runtime.runningCount key) →
      Inv (apply { w with drained := w.drained ++ List.filterMap executed [] }
        (w.runtime, [])) := by
    intro hkeyServed
    refine ⟨by simpa using h, ?_, hstopped⟩
    intro k hk
    by_cases hkey : k = key
    · exact hkey ▸ hkeyServed (hkey ▸ hk)
    · exact hserved k hkey hk
  unfold SchedulerExecutionRuntime.drain
  by_cases hacc : w.runtime.accepting = true
  swap
  · rw [if_neg hacc]
    have hempty := hstopped (by simpa using hacc)
    exact hidle fun hne => (hne (by simp [queueOf, hempty])).elim
  rw [if_pos hacc]
  cases hq : w.runtime.queueOf key with
  | nil => exact hidle fun hne => (hne hq).elim
  | cons next rest =>
    by_cases hbusy : next.policy.maxConcurrentRuns ≤ w.runtime.runningCount key
    · simp only [if_pos hbusy]
      exact hidle fun _ => lt_of_lt_of_le next.policy.maxConcurrentRuns_pos hbusy
    simp only [if_neg hbusy]
    have hsub := h.queuedSubmitted key next (by simp [hq])
    refine ⟨(h.takeHead hq).begin now (Nat.lt_of_not_le hbusy) hsub, ?_, ?_⟩
    · intro k hk
      rw [apply_runtime] at hk ⊢
      change (w.runtime.dequeue key rest).queueOf k ≠ [] at hk
      rw [queueOf_dequeue] at hk
      rw [runningCount_begin]
      by_cases hkey : k = key
      · simp [hkey]
      · rw [if_neg hkey] at hk ⊢
        exact hserved k hkey hk
    · intro hstop
      exact absurd (hacc.symm.trans hstop) (by decide)

end

theorem Inv.submit (h : w.Inv) (key : κ) (event : ε) (policy : SchedulerPolicy)
    (now startedAt : Int) {w' : World κ ε}
    (hstep : w.step (.submit key event policy now startedAt) = some w') : w'.Inv := by
  have hsub : (key, policy, event) ∈ w.submitted ++ [(key, policy, event)] := by simp
  have hpending := h.core.submitted key policy event
  have hskip : ∀ reason, Inv (apply { w with submitted := w.submitted ++ [(key, policy, event)] }
      (w.runtime, [.skipped event reason])) := by
    intro reason
    exact ⟨Core.skip [⟨event, policy⟩] (by simpa using hpending) reason, h.served, h.stopped⟩
  simp only [step, SchedulerExecutionRuntime.submit] at hstep
  by_cases hacc : w.runtime.accepting = false
  · simp only [if_pos hacc, some.injEq] at hstep
    exact hstep ▸ hskip .schedulerStopped
  by_cases hcool : w.runtime.coolingDown key policy now = true
  · simp only [if_neg hacc, if_pos hcool, some.injEq] at hstep
    exact hstep ▸ hskip .cooldown
  simp only [if_neg hacc, if_neg hcool] at hstep
  by_cases hbusy : policy.maxConcurrentRuns ≤ w.runtime.runningCount key
  · simp only [if_pos hbusy] at hstep
    have hrunning := lt_of_lt_of_le policy.maxConcurrentRuns_pos hbusy
    cases hwhen : policy.whenBusy with
    | skip =>
      simp only [hwhen, some.injEq] at hstep
      exact hstep ▸ hskip .busy
    | queue =>
      simp only [hwhen] at hstep
      by_cases hfull : w.runtime.maxQueuedPerJob ≤ (w.runtime.queueOf key).length
      · simp only [if_pos hfull, some.injEq] at hstep
        exact hstep ▸ hskip .queueFull
      simp only [if_neg hfull, some.injEq, apply_nil] at hstep
      subst hstep
      refine ⟨hpending.enqueue hsub, ?_, fun hstop => (hacc hstop).elim⟩
      intro k hk
      rw [queueOf_set] at hk
      by_cases hkey : k = key
      · exact hkey ▸ hrunning
      · rw [if_neg hkey] at hk
        exact h.served k hk
  · simp only [if_neg hbusy, some.injEq] at hstep
    subst hstep
    refine ⟨hpending.begin startedAt (Nat.lt_of_not_le hbusy) hsub, ?_, ?_⟩
    · intro k hk
      rw [apply_runtime] at hk ⊢
      have hk' := h.served k hk
      rw [runningCount_begin]
      split
      · omega
      · exact hk'
    · intro hstop
      exact (hacc hstop).elim

theorem step_inv (w : World κ ε) (a : Action κ ε) (w' : World κ ε)
    (hstep : w.step a = some w') (h : w.Inv) : w'.Inv := by
  cases a with
  | start =>
    simp only [step, some.injEq] at hstep
    subst hstep
    exact ⟨{ h.core with }, h.served, by simp [start]⟩
  | stop =>
    simp only [step, some.injEq] at hstep
    subst hstep
    refine ⟨Core.skip _ h.core.dropQueues .schedulerStopped, ?_, ?_⟩
    · intro k hk
      rw [apply_runtime] at hk
      exact (hk rfl).elim
    intro _
    rw [apply_runtime]
    rfl
  | submit key event policy now startedAt => exact h.submit key event policy now startedAt hstep
  | clearQueued key reason =>
    simp only [step, some.injEq] at hstep
    subst hstep
    refine ⟨Core.skip _ (h.core.dropQueue key) reason, ?_, ?_⟩
    · intro k hk
      rw [apply_runtime] at hk ⊢
      simp only [clearQueued, queueOf_erase] at hk
      split at hk
      · exact (hk rfl).elim
      · exact h.served k hk
    · intro hstop
      rw [apply_runtime] at hstop ⊢
      simp only [clearQueued]
      rw [h.stopped hstop]
      rfl
  | settle index settlement now =>
    simp only [step] at hstep
    cases hget : w.executing[index]? with
    | none => simp [hget] at hstep
    | some entry =>
      obtain ⟨key, event⟩ := entry
      simp only [hget, some.injEq] at hstep
      subst hstep
      obtain ⟨hpos, hsettled⟩ := h.core.settled hget
      refine hsettled.drain key now ?_ h.stopped
      intro k hkey hk
      rw [runningCount_release hpos, if_neg hkey]
      exact h.served k hk

theorem run_inv {maxQueuedPerJob : Nat} {as : List (Action κ ε)}
    (h : run step (init maxQueuedPerJob) as = some w) : w.Inv :=
  run_invariant step_inv h (init_inv maxQueuedPerJob)

/-! ## Every run -/

/-- In every state of every run each submission is accounted for exactly once,
as executing, queued, finished or reported; the counters are the executions in
flight; a job never runs more than the policy of its latest start allows, so
never more than the largest maximum it was submitted with; the events drained
from a queue and those still in it are in submission order; and while the
runtime accepts work, a job with a waiting event has an execution. -/
theorem submissions_accounted (maxQueuedPerJob : Nat) (as : List (Action κ ε)) (w : World κ ε)
    (h : run step (init maxQueuedPerJob) as = some w) : (w.submitted.map fun e => e.2.2).Perm
      (w.executing.map snd ++ eventsIn w.runtime.queued ++ w.finished.map snd ++
        w.skipped.map fst) ∧
    (∀ key, w.runtime.runningCount key = w.executingOf key) ∧
    (∀ key policy, w.latestPolicy key = some policy →
      w.executingOf key ≤ policy.maxConcurrentRuns) ∧
    (∀ key limit, (∀ policy event, (key, policy, event) ∈ w.submitted →
      policy.maxConcurrentRuns ≤ limit) → w.executingOf key ≤ limit) ∧
    (∀ key, (eventsOf w.drained key ++ (w.runtime.queueOf key).map QueuedEvent.event).Sublist
      (eventsOf w.enqueued key)) ∧
    (w.runtime.accepting = true → ∀ key, w.runtime.queueOf key ≠ [] → 0 < w.executingOf key) := by
  have inv := run_inv h
  have hbounded : ∀ key policy, w.latestPolicy key = some policy →
      w.executingOf key ≤ policy.maxConcurrentRuns := by
    intro key policy hlatest
    rw [← inv.core.counted]
    exact inv.core.bounded key policy hlatest
  refine ⟨?_, inv.core.counted, hbounded, ?_, inv.core.inOrder, ?_⟩
  · have hconserved := inv.core.conserved
    exact Multiset.coe_eq_coe.mp hconserved
  · intro key limit hlimit
    cases hlatest : w.latestPolicy key with
    | none =>
      rw [← inv.core.counted, inv.core.fresh key hlatest]
      exact Nat.zero_le limit
    | some policy =>
      obtain ⟨⟨k, p, event⟩, hlast, rfl⟩ := map_eq_some_iff.mp hlatest
      have hmem := mem_filter.mp (mem_of_getLast? hlast)
      have hk : k = key := by simpa using hmem.2
      subst hk
      exact (hbounded k p hlatest).trans (hlimit p event (inv.core.startedSubmitted _ hmem.1))
  · intro _ key hk
    rw [← inv.core.counted]
    exact inv.served key hk

/-- One run at a time, later submissions wait. -/
def queueingPolicy : SchedulerPolicy := ⟨none, 1, .queue, Nat.one_pos⟩

/-- Three submissions of one job, of which the second waits and the third finds
the queue full; then the first execution fails. -/
def drainedActions : List (Action Nat Nat) :=
  [.submit 7 10 queueingPolicy 0 0, .submit 7 11 queueingPolicy 1 1,
    .submit 7 12 queueingPolicy 2 2, .settle 0 .rejected 3]

def drainedWorld : World Nat Nat :=
  (run step (init 1) drainedActions).getD (init 1)

theorem submissions_accounted_drained :
    drainedWorld.executing = [(7, 11)] ∧ drainedWorld.skipped = [(12, .queueFull)] ∧
      (drainedWorld.submitted.map fun e => e.2.2).Perm
        (drainedWorld.executing.map snd ++ eventsIn drainedWorld.runtime.queued ++
          drainedWorld.finished.map snd ++ drainedWorld.skipped.map fst) :=
  ⟨rfl, rfl, (submissions_accounted 1 drainedActions drainedWorld rfl).1⟩

end World

end TaskHandoff.Scheduler
