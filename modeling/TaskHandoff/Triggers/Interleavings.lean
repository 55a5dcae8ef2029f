import TaskHandoff.Triggers.Scheduler
import TaskHandoff.Lib.Positions

/-! # What overlapping calls keep

Every event that was answered `Queued` leaves its queue once and in order, whatever overlaps. The
limit holds as long as no count rises between the look at it and `begin`, and no queue is left
behind as long as nothing is queued without an execution or call that will look at the queue. -/

namespace TaskHandoff.Triggers

open Machine List Option Function Positions Result

variable {ε : Type} {policies : String → TriggerPolicy}

/-! ## Accounts -/

/-- The execution of a call that answered `Queued` for the key. -/
def Result.queuedFor (policies : String → TriggerPolicy) (key : String) :
    Result ε → List (QueuedExecution ε)
  | .submitted submittedKey event .queued =>
    if submittedKey = key then [⟨key, event, policies key⟩] else []
  | _ => []

variable (key : String)

/-- What a call returned of the key's queue. -/
def Result.returnedFor : Result ε → List (QueuedExecution ε)
  | .finished finishedKey (some next) => if finishedKey = key then [next] else []
  | .stopped skipped => skipped key
  | _ => []

/-- What the holder of the lock has taken from the key's queue and is about to return. -/
def Holder.takenFor : Holder ε → List (QueuedExecution ε)
  | .begin takenKey next _ | .stamp takenKey next => if takenKey = key then [next] else []
  | .check _ _ => []

namespace Scheduler

def answered (policies : String → TriggerPolicy) (σ : Scheduler ε) (key : String) :
    List (QueuedExecution ε) :=
  σ.results.flatMap (queuedFor policies key)

def returned (σ : Scheduler ε) (key : String) : List (QueuedExecution ε) :=
  σ.results.flatMap (returnedFor key)

def taken (σ : Scheduler ε) (key : String) : List (QueuedExecution ε) :=
  σ.holder.toList.flatMap (Holder.takenFor key)

/-- What was answered `Queued` was returned, is about to be, or is still queued, in this order. -/
def Accounted (policies : String → TriggerPolicy) (σ : Scheduler ε) : Prop :=
  ∀ key, σ.answered policies key = σ.returned key ++ σ.taken key ++ σ.queued key

/-- The queue of the holder starts with what it found there. -/
def Fronted (σ : Scheduler ε) : Prop :=
  ∀ key next, σ.holder = some (.check key next) → ∃ rest, σ.queued key = next :: rest

variable {σ τ : Scheduler ε}

theorem accounted_advance (h : σ.Accounted policies) (hfront : σ.Fronted) {i : Nat} {now : Int}
    {call : Call ε} (hstep : σ.advance policies i now call = some τ) :
    τ.Accounted policies ∧ τ.Fronted := by
  have hleave : ∀ result : Result ε, (∀ key, result.queuedFor policies key = []) →
      (∀ key, result.returnedFor key = []) →
      (σ.leave i result).Accounted policies ∧ (σ.leave i result).Fronted := by
    intro result hqueued hreturned
    refine ⟨fun key => ?_, hfront⟩
    have hkey := h key
    simp_all [answered, returned, taken, leave]
  cases call with
  | submitLoad | submitCooldown | submitRunning | finishLoad =>
    simp only [advance] at hstep
    repeat' split at hstep
    all_goals
      cases hstep
      first
      | exact ⟨h, hfront⟩
      | exact hleave _ (fun _ => rfl) fun _ => rfl
  | submitQueue key event =>
    obtain ⟨hfree, hstep⟩ := ite_none_left_eq_some.mp hstep
    have hnone : σ.holder = none := by simpa using hfree
    split at hstep
    · cases hstep
      exact hleave _ (fun _ => rfl) fun _ => rfl
    cases hstep
    constructor
    · intro other
      have hother := h other
      by_cases heq : other = key
      · simp_all [answered, returned, taken, leave, queuedFor, returnedFor]
      · simp_all [answered, returned, taken, leave, queuedFor, returnedFor, Ne.symm heq]
    · intro other next hholder
      simp [leave, hnone] at hholder
  | submitBegin | finishRunning | stopStore =>
    cases hstep
    exact ⟨h, hfront⟩
  | submitStamp | startStore =>
    cases hstep
    exact hleave _ (fun _ => rfl) fun _ => rfl
  | finishFront key =>
    obtain ⟨hfree, hstep⟩ := ite_none_left_eq_some.mp hstep
    have hnone : σ.holder = none := by simpa using hfree
    split at hstep
    · cases hstep
      exact hleave _ (fun _ => rfl) fun _ => rfl
    rename_i next rest hqueue
    cases hstep
    constructor
    · intro other
      have hother := h other
      simp_all [answered, returned, taken, Holder.takenFor]
    intro other found hholder
    cases hholder
    exact ⟨rest, hqueue⟩
  | stopDrain =>
    obtain ⟨hfree, hstep⟩ := ite_none_left_eq_some.mp hstep
    have hnone : σ.holder = none := by simpa using hfree
    cases hstep
    constructor
    · intro other
      have hother := h other
      simp_all [answered, returned, taken, leave, queuedFor, returnedFor]
    · intro other next hholder
      simp [leave, hnone] at hholder

theorem accounted_proceed (h : σ.Accounted policies) (hfront : σ.Fronted) (now : Int)
    {holder : Holder ε} (hholder : σ.holder = some holder) :
    (σ.proceed now holder).Accounted policies ∧ (σ.proceed now holder).Fronted := by
  cases holder with
  | check key next =>
    have ⟨rest, hqueue⟩ := hfront key next hholder
    rw [proceed]
    split
    · constructor
      · intro other
        have hother := h other
        simp_all [answered, returned, taken, Holder.takenFor, queuedFor, returnedFor]
      · exact nofun
    constructor
    · intro other
      have hother := h other
      by_cases heq : other = key
      · simp_all [answered, returned, taken, Holder.takenFor]
      · simp_all [answered, returned, taken, Holder.takenFor, Ne.symm heq]
    · exact nofun
  | begin key next running =>
    constructor
    · intro other
      have hother := h other
      simp_all [proceed, count, answered, returned, taken, Holder.takenFor]
    · exact nofun
  | stamp key next =>
    constructor
    · intro other
      have hother := h other
      simp_all [proceed, stamp, answered, returned, taken, Holder.takenFor, queuedFor, returnedFor]
    · exact nofun

/-! ## Queues that are attended -/

end Scheduler

/-- The call will start an execution of the key or look at its queue. -/
def Call.serves : Call ε → Prop
  | .submitBegin servedKey _ _ | .finishLoad servedKey | .finishFront servedKey => servedKey = key
  | _ => False

def Holder.serves : Holder ε → Prop
  | .check servedKey _ | .begin servedKey _ _ => servedKey = key
  | .stamp _ _ => False

instance Call.serves.decidable (key : String) : ∀ call : Call ε, Decidable (call.serves key)
  | .submitBegin servedKey _ _ | .finishLoad servedKey | .finishFront servedKey =>
    inferInstanceAs (Decidable (servedKey = key))
  | .submitLoad _ _ | .submitCooldown _ _ | .submitRunning _ _ | .submitQueue _ _
  | .submitStamp _ _ | .finishRunning _ | .stopStore | .stopDrain | .startStore =>
    inferInstanceAs (Decidable False)

instance Holder.serves.decidable (key : String) : ∀ holder : Holder ε, Decidable (holder.serves key)
  | .check servedKey _ | .begin servedKey _ _ => inferInstanceAs (Decidable (servedKey = key))
  | .stamp _ _ => inferInstanceAs (Decidable False)

namespace Scheduler

variable {σ τ : Scheduler ε}

/-- An execution of the key is running, or a call is about to start one or to look at its queue. -/
def Served (σ : Scheduler ε) (key : String) : Prop :=
  0 < σ.running key ∨ (∃ call ∈ σ.calls, call.serves key) ∨
    ∃ holder, σ.holder = some holder ∧ holder.serves key

instance Served.decidable [DecidableEq ε] (σ : Scheduler ε) (key : String) :
    Decidable (σ.Served key) :=
  inferInstanceAs (Decidable (_ ∨ (∃ call ∈ σ.calls, call.serves key) ∨
    ∃ holder ∈ σ.holder, holder.serves key))

/-- The queue of the key will be drained or looked at. -/
def Attended (σ : Scheduler ε) (key : String) : Prop :=
  .stopDrain ∈ σ.calls ∨ σ.accepting = true ∧ σ.Served key

instance Attended.decidable [DecidableEq ε] (σ : Scheduler ε) (key : String) :
    Decidable (σ.Attended key) :=
  inferInstanceAs (Decidable (_ ∈ σ.calls ∨ _ ∧ _))

variable {call : Call ε} {i : Nat} {key : String}

variable (h : σ.Attended key)

include h

/-- A queue stays attended when whoever served it is followed by someone who does. -/
theorem Attended.move
    (hcalls : ∀ other ∈ σ.calls, other = call ∨ other ∈ τ.calls) (hdrain : call ≠ .stopDrain)
    (haccepting : σ.accepting = true → τ.accepting = true)
    (hrunning : 0 < σ.running key → τ.Served key)
    (hcall : σ.accepting = true → call.serves key → τ.Served key)
    (hholder : ∀ held, σ.holder = some held → held.serves key → τ.Served key) : τ.Attended key := by
  cases h with
  | inl hpending =>
    cases hcalls _ hpending with
    | inl heq => exact (hdrain heq.symm).elim
    | inr hkept => exact .inl hkept
  | inr hopen =>
    refine .inr ⟨haccepting hopen.1, ?_⟩
    cases hopen.2 with
    | inl hpos => exact hrunning hpos
    | inr hrest =>
      cases hrest with
      | inl hserving =>
        have ⟨other, hmem, hserves⟩ := hserving
        cases hcalls other hmem with
        | inl heq => exact hcall hopen.1 (heq ▸ hserves)
        | inr hkept => exact .inr (.inl ⟨other, hkept, hserves⟩)
      | inr hheld =>
        have ⟨held, hholds, hserves⟩ := hheld
        exact hholder held hholds hserves

theorem Attended.goOn {call next : Call ε}
    (hat : σ.calls[i]? = some call) (hdrain : call ≠ .stopDrain)
    (hcall : σ.accepting = true → call.serves key → next.serves key) :
    (σ.goOn i next).Attended key := by
  refine h.move (fun other hother => mem_set_of_mem next hat hother) hdrain id .inl ?_
    fun held hholds hserves => .inr (.inr ⟨held, hholds, hserves⟩)
  intro hopen hserves
  exact .inr (.inl ⟨next, mem_set_self next hat, hcall hopen hserves⟩)

theorem Attended.leave
    (hat : σ.calls[i]? = some call) (hdrain : call ≠ .stopDrain)
    (hcall : σ.accepting = true → ¬call.serves key) (result : Result ε) :
    (σ.leave i result).Attended key :=
  h.move (fun _ hother => mem_eraseIdx_of_mem hat hother) hdrain id .inl
    (fun hopen hserves => (hcall hopen hserves).elim)
    fun held hholds hserves => .inr (.inr ⟨held, hholds, hserves⟩)

end Scheduler

/-- A call does not begin on a count that has risen since it was read, and queues nothing that
nobody attends. -/
def Call.Calm (σ : Scheduler ε) : Call ε → Prop
  | .submitBegin key _ running => σ.running key ≤ running
  | .submitQueue key _ => σ.Attended key
  | _ => True

def Holder.Calm (σ : Scheduler ε) : Holder ε → Prop
  | .begin key _ running => σ.running key ≤ running
  | _ => True

instance Call.Calm.decidable [DecidableEq ε] (σ : Scheduler ε) :
    ∀ call : Call ε, Decidable (call.Calm σ)
  | .submitBegin key _ running => inferInstanceAs (Decidable (σ.running key ≤ running))
  | .submitQueue key _ => inferInstanceAs (Decidable (σ.Attended key))
  | .submitLoad _ _ | .submitCooldown _ _ | .submitRunning _ _ | .submitStamp _ _
  | .finishRunning _ | .finishLoad _ | .finishFront _ | .stopStore | .stopDrain | .startStore =>
    inferInstanceAs (Decidable True)

instance Holder.Calm.decidable (σ : Scheduler ε) : ∀ holder : Holder ε, Decidable (holder.Calm σ)
  | .begin key _ running => inferInstanceAs (Decidable (σ.running key ≤ running))
  | .check _ _ | .stamp _ _ => inferInstanceAs (Decidable True)

namespace Scheduler

variable {σ τ : Scheduler ε}

/-- The section that an action runs is calm. -/
def Calm (σ : Scheduler ε) : Action ε → Prop
  | .advance i _ => ∀ call ∈ σ.calls[i]?, call.Calm σ
  | .proceed _ => ∀ holder ∈ σ.holder, holder.Calm σ
  | _ => True

instance Calm.decidable [DecidableEq ε] (σ : Scheduler ε) : ∀ action, Decidable (σ.Calm action)
  | .advance i _ => inferInstanceAs (Decidable (∀ call ∈ σ.calls[i]?, call.Calm σ))
  | .proceed _ => inferInstanceAs (Decidable (∀ holder ∈ σ.holder, holder.Calm σ))
  | .submit _ _ | .finish _ | .stop | .start => inferInstanceAs (Decidable True)

def AllAttended (σ : Scheduler ε) : Prop := ∀ key, σ.queued key ≠ [] → σ.Attended key

variable {call : Call ε} {now : Int} {i : Nat} {holder : Holder ε}

theorem attended_advance (h : σ.AllAttended)
    (hat : σ.calls[i]? = some call) (hcalm : σ.Calm (.advance i now))
    (hstep : σ.advance policies i now call = some τ) : τ.AllAttended := by
  intro key hqueue
  cases call with
  | submitLoad | submitCooldown | submitRunning =>
    simp only [advance] at hstep
    repeat' split at hstep
    all_goals
      cases hstep
      first
      | exact (h key hqueue).goOn hat nofun nofun
      | exact (h key hqueue).leave hat nofun nofun _
  | submitQueue pushed event =>
    obtain ⟨-, hstep⟩ := ite_none_left_eq_some.mp hstep
    split at hstep
    · cases hstep
      exact (h key hqueue).leave hat nofun nofun _
    cases hstep
    have hbefore : σ.Attended key := by
      by_cases heq : key = pushed
      · have hpushed : σ.Attended pushed := hcalm _ hat
        exact heq ▸ hpushed
      · exact h key (by simpa [leave, heq] using hqueue)
    have hpushed : Attended ({ σ with
        queued := update σ.queued pushed
          (σ.queued pushed ++ [⟨pushed, event, policies pushed⟩]) } : Scheduler ε) key :=
      hbefore
    exact hpushed.leave hat nofun nofun _
  | submitBegin begun event running =>
    cases hstep
    refine (h key hqueue).move (fun other hother => mem_set_of_mem _ hat hother) nofun id ?_ ?_
      fun held hholds hserves => .inr (.inr ⟨held, hholds, hserves⟩)
    · intro hpos
      left
      by_cases heq : key = begun
      · simp [goOn, count, heq]
      · simpa [goOn, count, heq] using hpos
    · intro _ hserves
      left
      simp [goOn, count, show begun = key from hserves]
  | submitStamp stamped event =>
    cases hstep
    exact Attended.leave (σ := σ.stamp stamped now) (h key hqueue) hat nofun nofun _
  | finishRunning finished =>
    cases hstep
    refine (h key hqueue).move (fun other hother => mem_set_of_mem _ hat hother) nofun id ?_
      nofun fun held hholds hserves => .inr (.inr ⟨held, hholds, hserves⟩)
    intro hpos
    by_cases heq : key = finished
    · exact .inr (.inl ⟨_, mem_set_self _ hat, heq.symm⟩)
    · left
      simpa [goOn, heq] using hpos
  | finishLoad finished =>
    simp only [advance] at hstep
    split at hstep
    · cases hstep
      exact (h key hqueue).goOn hat nofun fun _ => id
    next hclosed =>
      cases hstep
      exact (h key hqueue).leave hat nofun (fun hopen => (hclosed hopen).elim) _
  | finishFront finished =>
    simp only [advance] at hstep
    split at hstep
    · cases hstep
    rename_i hfree
    have hnone : σ.holder = none := by simpa using hfree
    split at hstep
    next hempty =>
      cases hstep
      refine (h key hqueue).leave hat nofun (fun _ hserves => hqueue ?_) _
      rw [← show finished = key from hserves]
      exact hempty
    · cases hstep
      refine (h key hqueue).move (fun _ hother => mem_eraseIdx_of_mem hat hother) nofun id .inl
        ?_ ?_
      · exact fun _ hserves => .inr (.inr ⟨_, rfl, hserves⟩)
      intro held hholds
      rw [hnone] at hholds
      cases hholds
  | stopStore =>
    cases hstep
    exact .inl (mem_set_self _ hat)
  | stopDrain =>
    obtain ⟨-, hstep⟩ := ite_none_left_eq_some.mp hstep
    cases hstep
    exact (hqueue rfl).elim
  | startStore =>
    cases hstep
    exact (h key hqueue).move (fun _ hother => mem_eraseIdx_of_mem hat hother) nofun
      (fun _ => rfl) .inl nofun fun held hholds hserves => .inr (.inr ⟨held, hholds, hserves⟩)

theorem attended_proceed (h : σ.AllAttended) (now : Int)
    (hholder : σ.holder = some holder) : (σ.proceed now holder).AllAttended := by
  intro key hqueue
  have hcalls : ∀ other ∈ σ.calls, other = .startStore ∨ other ∈ σ.calls := fun _ => .inr
  cases holder with
  | check found next =>
    rw [proceed] at hqueue ⊢
    split at hqueue
    next hfull =>
      rw [if_pos hfull]
      refine (h key hqueue).move hcalls nofun id .inl nofun ?_
      intro held hholds hserves
      rw [hholder] at hholds
      cases hholds
      have hpos := next.policy.maxConcurrentRuns_pos
      have heq : found = key := hserves
      left
      show 0 < σ.running key
      rw [← heq]
      omega
    next hroom =>
      rw [if_neg hroom]
      have hbefore : σ.queued key ≠ [] := by
        by_cases heq : key = found
        · subst heq
          intro hempty
          simp [hempty] at hqueue
        · simpa [heq] using hqueue
      refine (h key hbefore).move hcalls nofun id .inl nofun ?_
      intro held hholds hserves
      rw [hholder] at hholds
      cases hholds
      exact .inr (.inr ⟨_, rfl, hserves⟩)
  | begin begun next running =>
    refine (h key hqueue).move hcalls nofun id ?_ nofun ?_
    · intro hpos
      left
      by_cases heq : key = begun
      · simp [proceed, count, heq]
      · simpa [proceed, count, heq] using hpos
    · intro held hholds hserves
      rw [hholder] at hholds
      cases hholds
      left
      simp [proceed, count, show begun = key from hserves]
  | stamp stamped next =>
    refine (h key hqueue).move hcalls nofun id .inl nofun ?_
    intro held hholds hserves
    rw [hholder] at hholds
    cases hholds
    exact hserves.elim

/-! ## The limit -/

/-- No count is over its limit, and whoever is about to begin has read one below it. -/
structure Bounded (policies : String → TriggerPolicy) (σ : Scheduler ε) : Prop where
  bound : ∀ key, σ.running key ≤ (policies key).maxConcurrentRuns
  begins : ∀ key event running, .submitBegin key event running ∈ σ.calls →
    running < (policies key).maxConcurrentRuns
  queues : ∀ key, ∀ next ∈ σ.queued key, next.policy = policies key
  holds : ∀ key next running, σ.holder = some (.begin key next running) →
    running < (policies key).maxConcurrentRuns

section

variable (h : σ.Bounded policies)

include h

theorem Bounded.goOn (i : Nat) {next : Call ε}
    (hnext : ∀ key event running, next = .submitBegin key event running →
      running < (policies key).maxConcurrentRuns) : (σ.goOn i next).Bounded policies := by
  refine ⟨h.bound, ?_, h.queues, h.holds⟩
  intro key event running hmem
  cases mem_or_eq_of_mem_set hmem with
  | inl hold => exact h.begins key event running hold
  | inr heq => exact hnext key event running heq.symm

theorem Bounded.leave (i : Nat) (result : Result ε) : (σ.leave i result).Bounded policies :=
  ⟨h.bound, fun key event running hmem =>
    h.begins key event running (mem_of_mem_eraseIdx hmem), h.queues, h.holds⟩

theorem Bounded.count {key : String} {running : Nat}
    (hread : running < (policies key).maxConcurrentRuns) (hcalm : σ.running key ≤ running) :
    (σ.count key).Bounded policies := by
  refine ⟨?_, h.begins, h.queues, h.holds⟩
  intro other
  by_cases heq : other = key
  · subst heq
    simp only [Scheduler.count, update_self]
    omega
  · simpa [Scheduler.count, heq] using h.bound other

theorem bounded_advance
    (hat : σ.calls[i]? = some call) (hcalm : σ.Calm (.advance i now))
    (hstep : σ.advance policies i now call = some τ) : τ.Bounded policies := by
  cases call with
  | submitLoad | submitCooldown | submitRunning | finishLoad =>
    simp only [advance] at hstep
    repeat' split at hstep
    all_goals
      cases hstep
      first
      | exact h.leave i _
      | exact h.goOn i (by rintro _ _ _ ⟨⟩; omega)
      | exact h.goOn i nofun
  | submitQueue pushed event =>
    obtain ⟨-, hstep⟩ := ite_none_left_eq_some.mp hstep
    split at hstep
    · cases hstep
      exact h.leave i _
    cases hstep
    apply Bounded.leave
    refine ⟨h.bound, h.begins, ?_, h.holds⟩
    intro key next hmem
    by_cases heq : key = pushed
    · subst heq
      simp only [update_self, mem_append, mem_singleton] at hmem
      cases hmem with
      | inl hold => exact h.queues key next hold
      | inr hnew => rw [hnew]
    · simp only [update_of_ne heq] at hmem
      exact h.queues key next hmem
  | submitBegin key event running =>
    cases hstep
    have hread := h.begins key event running (mem_of_getElem? hat)
    exact (h.count hread (hcalm _ hat)).goOn i nofun
  | submitStamp key event =>
    cases hstep
    exact Bounded.leave (σ := σ.stamp key now) { h with } i _
  | finishRunning key =>
    cases hstep
    apply Bounded.goOn _ i nofun
    refine ⟨?_, h.begins, h.queues, h.holds⟩
    intro other
    have hother := h.bound other
    by_cases heq : other = key
    · subst heq
      simp only [update_self]
      omega
    · simpa [heq] using hother
  | finishFront key =>
    obtain ⟨hfree, hstep⟩ := ite_none_left_eq_some.mp hstep
    have hnone : σ.holder = none := by simpa using hfree
    split at hstep
    · cases hstep
      exact h.leave i _
    cases hstep
    exact ⟨h.bound, fun other event running hmem =>
      h.begins other event running (mem_of_mem_eraseIdx hmem), h.queues, nofun⟩
  | stopStore =>
    cases hstep
    apply Bounded.goOn _ i nofun
    exact { h with }
  | stopDrain =>
    obtain ⟨-, hstep⟩ := ite_none_left_eq_some.mp hstep
    cases hstep
    apply Bounded.leave
    exact ⟨h.bound, h.begins, nofun, h.holds⟩
  | startStore =>
    cases hstep
    apply Bounded.leave
    exact { h with }

theorem bounded_proceed (hfront : σ.Fronted)
    (hholder : σ.holder = some holder) (hcalm : σ.Calm (.proceed now)) :
    (σ.proceed now holder).Bounded policies := by
  cases holder with
  | check key next =>
    have ⟨rest, hqueue⟩ := hfront key next hholder
    rw [proceed]
    split
    · exact ⟨h.bound, h.begins, h.queues, nofun⟩
    rename_i hroom
    constructor
    · exact h.bound
    · exact h.begins
    · intro other found hmem
      by_cases heq : other = key
      · subst heq
        simp only [update_self] at hmem
        exact h.queues other found (mem_of_mem_tail hmem)
      · simp only [update_of_ne heq] at hmem
        exact h.queues other found hmem
    · rintro _ _ _ ⟨⟩
      have hpolicy := h.queues key next (by simp [hqueue])
      rw [← hpolicy]
      omega
  | begin key next running =>
    have hcounted := h.count (h.holds key next running hholder) (hcalm _ hholder)
    exact ⟨hcounted.bound, hcounted.begins, hcounted.queues, nofun⟩
  | stamp key next => exact ⟨h.bound, h.begins, h.queues, nofun⟩

end

/-! ## Whole runs -/

structure Inv (policies : String → TriggerPolicy) (σ : Scheduler ε) : Prop where
  bounded : σ.Bounded policies
  accounted : σ.Accounted policies
  fronted : σ.Fronted
  attended : σ.AllAttended

theorem Inv.start (policies : String → TriggerPolicy) : Inv policies ({} : Scheduler ε) where
  bounded := by constructor <;> simp
  accounted _ := rfl
  fronted := nofun
  attended _ hqueue := (hqueue rfl).elim

theorem Inv.enter (h : σ.Inv policies)
    (hcall : ∀ key event running, call ≠ .submitBegin key event running) :
    (σ.enter call).Inv policies := by
  constructor
  · refine ⟨h.bounded.bound, ?_, h.bounded.queues, h.bounded.holds⟩
    intro key event running hmem
    cases mem_append.mp hmem with
    | inl hold => exact h.bounded.begins key event running hold
    | inr hnew => exact (hcall key event running (mem_singleton.mp hnew).symm).elim
  · exact h.accounted
  · exact h.fronted
  · intro key hqueue
    have hcalls : ∀ other ∈ σ.calls, other = .startStore ∨ other ∈ (σ.enter call).calls :=
      fun other hother => .inr (mem_append_left _ hother)
    exact (h.attended key hqueue).move hcalls nofun id .inl nofun
      fun held hholds hserves => .inr (.inr ⟨held, hholds, hserves⟩)

theorem Inv.step (h : σ.Inv policies) {action : Action ε} (hcalm : σ.Calm action)
    (hstep : σ.step policies action = some τ) : τ.Inv policies := by
  cases action with
  | submit | finish | stop | start =>
    cases hstep
    exact h.enter nofun
  | advance i now =>
    have ⟨call, hat, hcall⟩ := bind_eq_some_iff.mp hstep
    have hkept := accounted_advance h.accounted h.fronted hcall
    exact ⟨bounded_advance h.bounded hat hcalm hcall, hkept.1, hkept.2,
      attended_advance h.attended hat hcalm hcall⟩
  | proceed now =>
    have ⟨holder, hholder, heq⟩ := map_eq_some_iff.mp hstep
    subst heq
    have hkept := accounted_proceed h.accounted h.fronted now hholder
    exact ⟨bounded_proceed h.bounded h.fronted hholder hcalm, hkept.1, hkept.2,
      attended_proceed h.attended now hholder⟩

/-- Whatever overlaps, each event that was answered `Queued` for a key is returned once, in order, is
about to be, or is still queued. -/
theorem queued_events_returned (policies : String → TriggerPolicy) {actions : List (Action ε)}
    (hrun : run (step policies) {} actions = some σ) (key : String) :
    σ.answered policies key = σ.returned key ++ σ.taken key ++ σ.queued key := by
  have hkept : σ.Accounted policies ∧ σ.Fronted := by
    refine run_invariant (I := fun σ => σ.Accounted policies ∧ σ.Fronted) ?_ hrun ⟨fun _ => rfl, nofun⟩
    intro σ action τ hstep h
    cases action with
    | submit | finish | stop | start =>
      cases hstep
      exact h
    | advance i now =>
      obtain ⟨call, -, hcall⟩ := bind_eq_some_iff.mp hstep
      exact accounted_advance h.1 h.2 hcall
    | proceed now =>
      obtain ⟨holder, hholder, heq⟩ := map_eq_some_iff.mp hstep
      exact heq ▸ accounted_proceed h.1 h.2 now hholder
  exact hkept.1 key

/-- What was answered `Queued` is returned or queued, in order, the limit holds, and at rest a queue
that is not empty has a running execution. -/
def Kept (policies : String → TriggerPolicy) (σ : Scheduler ε) : Prop :=
  ∀ key, σ.running key ≤ (policies key).maxConcurrentRuns ∧
    σ.answered policies key = σ.returned key ++ σ.taken key ++ σ.queued key ∧
    (σ.calls = [] → σ.holder = none → σ.accepting = true → σ.queued key ≠ [] → 0 < σ.running key)

theorem Inv.kept (h : σ.Inv policies) : σ.Kept policies := by
  intro key
  refine ⟨h.bounded.bound key, h.accounted key, ?_⟩
  intro hcalls hholder _ hqueue
  cases h.attended key hqueue with
  | inl hpending => simp [hcalls] at hpending
  | inr hopen => simpa [Served, hcalls, hholder] using hopen.2

theorem calm_runs_keep (policies : String → TriggerPolicy) {actions : List (Action ε)}
    (hrun : run (step policies) {} actions = some σ)
    (hcalm : AllSteps (step policies) Calm {} actions) : σ.Kept policies := by
  have hinv := run_invariant_of_steps (I := Inv policies)
    (fun _ _ _ hs hc h => h.step hc hs) hrun hcalm (Inv.start policies)
  exact hinv.kept

theorem exists_of_any (run : Option (Scheduler ε)) (P : Scheduler ε → Prop) [DecidablePred P]
    (h : run.any (fun σ => decide (P σ)) = true) : ∃ σ, run = some σ ∧ P σ := by
  have ⟨σ, hrun, hσ⟩ := (any_eq_true _ _).mp h
  exact ⟨σ, hrun, of_decide_eq_true hσ⟩

def oneAtATime : TriggerPolicy := ⟨none, 1, .queue, Nat.one_pos⟩

/-- A submission goes through its first sections, to `begin` or to the queue. -/
def admission (call : Nat) : List (Action Nat) := .replicate 3 (.advance call 0)

def startFirst : List (Action Nat) :=
  .submit "build" 1 :: admission 0 ++ [.advance 0 0, .advance 0 0]

def queueBehind : List (Action Nat) :=
  startFirst ++ .submit "build" 2 :: admission 0 ++ [.advance 0 0, .finish "build"] ++
    admission 0 ++ .replicate 3 (.proceed 0)

/-- An event is queued behind a running execution and returned when that finishes. -/
theorem calm_run_keeps : ∃ σ : Scheduler Nat,
    run (step fun _ => oneAtATime) {} queueBehind = some σ ∧
    (σ.running "build" = 1 ∧ σ.returned "build" = [⟨"build", 2, oneAtATime⟩]) ∧
    σ.Kept fun _ => oneAtATime := by
  have ⟨σ, hrun, hreached⟩ := exists_of_any (run (step fun _ => oneAtATime) {} queueBehind)
    (fun σ => σ.running "build" = 1 ∧ σ.returned "build" = [⟨"build", 2, oneAtATime⟩])
    (by decide +kernel)
  have hcalm : AllSteps (step fun _ => oneAtATime) Calm {} queueBehind := by decide +kernel
  exact ⟨σ, hrun, hreached, calm_runs_keep (fun _ => oneAtATime) hrun hcalm⟩

theorem queued_event_returned : ∃ σ : Scheduler Nat,
    run (step fun _ => oneAtATime) {} queueBehind = some σ ∧
    σ.returned "build" = [⟨"build", 2, oneAtATime⟩] ∧
    σ.answered (fun _ => oneAtATime) "build" =
      σ.returned "build" ++ σ.taken "build" ++ σ.queued "build" := by
  have ⟨σ, hrun, hreached⟩ := exists_of_any (run (step fun _ => oneAtATime) {} queueBehind)
    (fun σ => σ.returned "build" = [⟨"build", 2, oneAtATime⟩]) (by decide +kernel)
  exact ⟨σ, hrun, hreached, queued_events_returned _ hrun "build"⟩

/-- Two submissions read the count before either is counted, and both start. Or a submission reads
a full count, the last execution finishes and finds no queue, and the event is queued for nobody. -/
theorem overlapping_calls : (∃ σ : Scheduler Nat,
      run (step fun _ => oneAtATime) {} (.submit "build" 1 :: .submit "build" 2 ::
        admission 0 ++ admission 1 ++ .replicate 4 (.advance 0 0)) = some σ ∧
      oneAtATime.maxConcurrentRuns < σ.running "build") ∧
    ∃ σ : Scheduler Nat,
      run (step fun _ => oneAtATime) {} (startFirst ++ .submit "build" 2 :: admission 0 ++
        .finish "build" :: admission 1 ++ [.advance 0 0]) = some σ ∧
      σ.calls = [] ∧ σ.holder = none ∧ σ.accepting = true ∧ σ.queued "build" ≠ [] ∧
      σ.running "build" = 0 :=
  ⟨exists_of_any _ _ (by decide +kernel), exists_of_any _ _ (by decide +kernel)⟩

end Scheduler

end TaskHandoff.Triggers
