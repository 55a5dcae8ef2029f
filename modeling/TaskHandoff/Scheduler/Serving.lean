import TaskHandoff.Scheduler.Accounting

/-! # Where submitted events go

What one action adds to the executions and to the skipped events of a runtime, and that every
waiting or submitted event is behind the action waiting, executing or skipped. -/

namespace TaskHandoff.Scheduler.World

open List Option Prod

variable {κ ε : Type} [DecidableEq κ]

/-- The executions that stay in flight. -/
def staying (w : World κ ε) : Action κ ε → List (κ × ε)
  | .settle index _ _ => w.executing.eraseIdx index
  | _ => w.executing

def submitting : Action κ ε → List ε
  | .submit _ event _ _ _ => [event]
  | _ => []

/-- What an action leaves of the executions, the skipped and the finished events. -/
structure Logs (w : World κ ε) (a : Action κ ε) (w' : World κ ε) : Prop where
  executing : ∃ added, w'.executing = w.staying a ++ added
  skipped : ∃ dropped, w'.skipped = w.skipped ++ dropped

theorem observe_logs (calls : List (AdapterCall κ ε)) (w : World κ ε) :
    (∃ added, (calls.foldl observe w).executing = w.executing ++ added) ∧
      ∃ dropped, (calls.foldl observe w).skipped = w.skipped ++ dropped := by
  induction calls generalizing w with
  | nil => exact ⟨⟨[], by simp⟩, [], by simp⟩
  | cons call calls ih =>
    have ⟨⟨added, hadded⟩, dropped, hdropped⟩ := ih (w.observe call)
    rw [foldl_cons, hadded, hdropped]
    cases call with
    | execute key policy event => exact ⟨⟨(key, event) :: added, by simp [observe]⟩, dropped, rfl⟩
    | skipped event reason => exact ⟨⟨added, rfl⟩, (event, reason) :: dropped, by simp [observe]⟩

variable {a : Action κ ε}

variable {w w' : World κ ε} {event : ε}

theorem step_logs (h : w.step a = some w') : Logs w a w' := by
  cases a with
  | start =>
    cases h
    exact ⟨⟨[], by simp [staying]⟩, [], by simp⟩
  | stop =>
    cases h
    obtain ⟨hexecuting, hskipped⟩ := observe_logs w.runtime.stop.2 { w with runtime := w.runtime.stop.1 }
    exact ⟨hexecuting, hskipped⟩
  | submit key event policy now startedAt =>
    simp only [step] at h
    generalize hr : w.runtime.submit key event policy now startedAt = r at h
    obtain ⟨answer, runtime, calls⟩ := r
    cases answer with
    | queued =>
      cases h
      obtain ⟨hexecuting, hskipped⟩ := observe_logs calls
        { w with
          runtime
          submitted := w.submitted ++ [(key, policy, event)]
          enqueued := w.enqueued ++ [(key, event)] }
      exact ⟨hexecuting, hskipped⟩
    | started =>
      cases h
      obtain ⟨hexecuting, hskipped⟩ := observe_logs calls
        { w with runtime, submitted := w.submitted ++ [(key, policy, event)] }
      exact ⟨hexecuting, hskipped⟩
    | skipped =>
      cases h
      obtain ⟨hexecuting, hskipped⟩ := observe_logs calls
        { w with runtime, submitted := w.submitted ++ [(key, policy, event)] }
      exact ⟨hexecuting, hskipped⟩
  | clearQueued key reason =>
    cases h
    obtain ⟨hexecuting, hskipped⟩ := observe_logs (w.runtime.clearQueued key reason).2
      { w with runtime := (w.runtime.clearQueued key reason).1 }
    exact ⟨hexecuting, hskipped⟩
  | settle index settlement now =>
    simp only [step] at h
    split at h
    · cases h
    rename_i key event _
    cases h
    obtain ⟨hexecuting, hskipped⟩ := observe_logs (w.runtime.finish key now).2
      { w with
        runtime := (w.runtime.finish key now).1
        executing := w.executing.eraseIdx index
        finished := w.finished ++ [(key, event)]
        drained := w.drained ++ (w.runtime.finish key now).2.filterMap executed }
    exact ⟨hexecuting, hskipped⟩

theorem foldl_observe_finished (calls : List (AdapterCall κ ε)) (w : World κ ε) :
    (calls.foldl observe w).finished = w.finished ∧
      (calls.foldl observe w).submitted = w.submitted := by
  induction calls generalizing w with
  | nil => exact ⟨rfl, rfl⟩
  | cons call calls ih =>
    have ⟨hfinished, hsubmitted⟩ := ih (w.observe call)
    rw [foldl_cons, hfinished, hsubmitted]
    cases call <;> exact ⟨rfl, rfl⟩

/-- What an action records as submitted. -/
def submissions : Action κ ε → List (κ × SchedulerPolicy × ε)
  | .submit key event policy _ _ => [(key, policy, event)]
  | _ => []

section

variable (h : w.step a = some w')

include h

theorem step_submissions : w'.submitted = w.submitted ++ submissions a := by
  cases a with
  | start =>
    cases h
    simp [submissions]
  | stop =>
    rw [← some.inj h, apply, (foldl_observe_finished _ _).2]
    simp [submissions]
  | submit key event policy now startedAt =>
    simp only [step] at h
    split at h <;> rw [← some.inj h, apply, (foldl_observe_finished _ _).2] <;> rfl
  | clearQueued key reason =>
    rw [← some.inj h, apply, (foldl_observe_finished _ _).2]
    simp [submissions]
  | settle index settlement now =>
    simp only [step] at h
    split at h
    · cases h
    · rw [← some.inj h, apply, (foldl_observe_finished _ _).2]
      simp [submissions]

theorem step_submitted :
    (w'.submitted.map fun e => e.2.2) = (w.submitted.map fun e => e.2.2) ++ submitting a := by
  rw [step_submissions h, map_append]
  cases a <;> rfl

theorem step_finished : (w.executing ++ w.finished).Perm (w.staying a ++ w'.finished) := by
  cases a with
  | start => rw [← some.inj h]; rfl
  | stop => rw [← some.inj h, apply, (foldl_observe_finished _ _).1]; rfl
  | submit key event policy now startedAt =>
    simp only [step] at h
    split at h <;> rw [← some.inj h, apply, (foldl_observe_finished _ _).1] <;> rfl
  | clearQueued key reason => rw [← some.inj h, apply, (foldl_observe_finished _ _).1]; rfl
  | settle index settlement now =>
    simp only [step] at h
    split at h
    · cases h
    rename_i key event hget
    rw [← some.inj h, apply, (foldl_observe_finished _ _).1]
    obtain ⟨hlt, hat⟩ := List.getElem?_eq_some_iff.mp hget
    have hperm : w.executing.Perm ((key, event) :: w.executing.eraseIdx index) := by
      rw [← hat]
      exact (List.getElem_cons_eraseIdx_perm hlt).symm
    have hmoved : ((key, event) :: (w.executing.eraseIdx index ++ w.finished)).Perm
        (w.executing.eraseIdx index ++ w.finished ++ [(key, event)]) :=
      (List.perm_append_singleton _ _).symm
    rw [← List.append_assoc]
    exact (hperm.append_right _).trans hmoved

end

theorem step_serves (hinv : w.Inv) (h : w.step a = some w')
    {added : List (κ × ε)} {dropped : List (ε × SchedulerSkipReason)}
    (hadded : w'.executing = w.staying a ++ added) (hdropped : w'.skipped = w.skipped ++ dropped)
    (hevent : event ∈ eventsIn w.runtime.queued ∨ event ∈ submitting a) :
    event ∈ eventsIn w'.runtime.queued ∨ event ∈ added.map snd ∨ event ∈ dropped.map fst := by
  have hbefore := hinv.core.conserved
  have hafter := (step_inv w a w' h hinv).core.conserved
  have hfinished := Multiset.coe_eq_coe.mpr ((step_finished h).map snd)
  rw [step_submitted h, hadded, hdropped] at hafter
  simp only [map_append, ← Multiset.coe_add, Multiset.coe_nil, zero_add] at hbefore hafter
  rw [hbefore] at hafter
  have hsum : (eventsIn w.runtime.queued : Multiset ε) + submitting a =
      eventsIn w'.runtime.queued + (added.map snd : List ε) + (dropped.map fst : List ε) := by
    have hstayed : ((w.executing.map snd : List ε) : Multiset ε) + (w.finished.map snd : List ε) =
          ((w.staying a).map snd : List ε) + (w'.finished.map snd : List ε) := by
      simpa only [map_append, ← Multiset.coe_add] using hfinished
    apply add_left_cancel (a := ((w.executing.map snd : List ε) : Multiset ε) +
      (w.finished.map snd : List ε) + (w.skipped.map fst : List ε))
    rw [show ∀ x y z q s : Multiset ε, x + y + z + (q + s) = x + q + y + z + s by intros; abel, hafter,
      hstayed]
    abel
  have hmem : event ∈ (eventsIn w.runtime.queued : Multiset ε) + submitting a := by
    rw [Multiset.mem_add]
    exact hevent
  rw [hsum, Multiset.mem_add, Multiset.mem_add] at hmem
  rcases hmem with (hqueued | hadded) | hdropped
  · exact .inl hqueued
  · exact .inr (.inl hadded)
  · exact .inr (.inr hdropped)

/-! ## Started executions -/

/-- Each execution in flight was started as such. -/
def Begun (w : World κ ε) : Prop :=
  ∀ entry ∈ w.executing, ∃ policy, (entry.1, policy, entry.2) ∈ w.started

theorem Begun.observe (h : w.Begun) (calls : List (AdapterCall κ ε)) :
    (calls.foldl observe w).Begun := by
  induction calls generalizing w with
  | nil => exact h
  | cons call calls ih =>
    apply ih
    intro entry hentry
    cases call with
    | execute key policy event =>
      rcases mem_concat.mp hentry with hold | rfl
      · have ⟨old, hold⟩ := h entry hold
        exact ⟨old, mem_append_left _ hold⟩
      · exact ⟨policy, mem_append_right _ (mem_singleton_self _)⟩
    | skipped event reason => exact h entry hentry

theorem Begun.apply (h : w.Begun)
    (r : SchedulerExecutionRuntime κ ε × List (AdapterCall κ ε)) : (w.apply r).Begun :=
  Begun.observe (show Begun { w with runtime := r.1 } from h) r.2

theorem Begun.step (hbegun : w.Begun) (h : w.step a = some w') : w'.Begun := by
  cases a with
  | start =>
    cases h
    exact hbegun
  | stop =>
    cases h
    exact hbegun.apply _
  | submit key event policy now startedAt =>
    simp only [step] at h
    split at h <;> rw [← some.inj h] <;> apply Begun.apply <;> exact hbegun
  | clearQueued key reason =>
    cases h
    exact hbegun.apply _
  | settle index settlement now =>
    simp only [step] at h
    split at h
    · cases h
    cases h
    apply Begun.apply
    intro e he
    exact hbegun e (mem_of_mem_eraseIdx he)

theorem Begun.submitted (hbegun : w.Begun) (hinv : w.Inv) {entry : κ × ε}
    (hentry : entry ∈ w.executing) : ∃ policy, (entry.1, policy, entry.2) ∈ w.submitted := by
  have ⟨policy, hstarted⟩ := hbegun entry hentry
  exact ⟨policy, hinv.core.startedSubmitted _ hstarted⟩

theorem step_settle_starts (hinv : w.Inv) {index : Nat}
    {settlement : Settlement} {now : Int} (h : w.step (.settle index settlement now) = some w')
    {key : κ} (hget : w.executing[index]? = some (key, event))
    (haccepting : w.runtime.accepting = true) {next : QueuedEvent ε} {rest : List (QueuedEvent ε)}
    (hqueue : w.runtime.queueOf key = next :: rest)
    (hroom : w.runtime.runningCount key ≤ next.policy.maxConcurrentRuns) :
    w'.executing = w.executing.eraseIdx index ++ [(key, next.event)] := by
  have ⟨hpos, _⟩ := hinv.core.settled hget
  have hcount : (w.runtime.release key).runningCount key = w.runtime.runningCount key - 1 := by
    rw [runningCount_release hpos, if_pos rfl]
  have hfinish : w.runtime.finish key now =
      ((w.runtime.release key).dequeue key rest).begin key next.event next.policy now := by
    have haccept : (w.runtime.release key).accepting = true := haccepting
    have hqueue' : (w.runtime.release key).queueOf key = next :: rest := hqueue
    unfold SchedulerExecutionRuntime.finish SchedulerExecutionRuntime.drain
    rw [if_pos haccept, hqueue']
    simp only
    rw [if_neg (by omega)]
  simp only [step, hget, some.injEq] at h
  rw [hfinish, apply_begin] at h
  rw [← h]

end TaskHandoff.Scheduler.World
