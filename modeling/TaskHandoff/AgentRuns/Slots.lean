import TaskHandoff.Lib.Ancestors
import TaskHandoff.AgentRuns.Kept

/-! # The slots of the member scheduler

Executions hold their slots while they wait for the members they have invoked. The slots are
counted here, and held against the depth and the number of members that the budget admits. -/

namespace TaskHandoff.AgentRuns.AgentRunState

open AgentRunStatus Rows Scheduler SchedulerExecutionRuntime Machine List

variable {s t : AgentRunState} {a : RunAction} {m : MemberId} {p q : AgentRunState × Handed}

/-! ## Members with a slot -/

def liveMembers (s : AgentRunState) : Finset MemberId :=
  s.controllers.keys.toFinset.filter fun m =>
    (s.controllers.get? m).any (·.phase ≠ .rejected)

theorem mem_liveMembers : m ∈ s.liveMembers ↔ s.Live m := by
  unfold liveMembers Live
  rw [Finset.mem_filter, mem_toFinset, Option.any_eq_true]
  simp only [decide_eq_true_eq]
  refine ⟨fun h => h.2, fun h => ⟨?_, h⟩⟩
  have ⟨x, hx, _⟩ := h
  exact Decidable.byContradiction fun hnot => by
    rw [OrderedMap.get?_eq_none.mpr hnot] at hx
    cases hx

theorem liveMembers_congr (h : ∀ m, t.Live m ↔ s.Live m) : t.liveMembers = s.liveMembers := by
  ext m
  rw [mem_liveMembers, mem_liveMembers, h]

theorem liveMembers_erase (h : ∀ m', m' ≠ m → t.controllers.get? m' = s.controllers.get? m') :
    t.liveMembers.erase m = s.liveMembers.erase m := by
  ext m'
  rw [Finset.mem_erase, Finset.mem_erase, mem_liveMembers, mem_liveMembers]
  refine and_congr_right fun hne => ?_
  unfold Live
  rw [h m' hne]

theorem card_liveMembers_of_live (h : s.Live m) :
    s.liveMembers.card = (s.liveMembers.erase m).card + 1 :=
  (Finset.card_erase_add_one (mem_liveMembers.mpr h)).symm

theorem card_liveMembers_of_not_live (h : ¬ s.Live m) :
    s.liveMembers.card = (s.liveMembers.erase m).card := by
  rw [Finset.erase_eq_of_notMem fun hin => h (mem_liveMembers.mp hin)]

/-! ## Slots are counted -/

/-- An execution that the scheduler has begun and nobody runs yet. -/
def Handed.starting : Handed → Nat
  | .started _ => 1
  | _ => 0

/-- A member waits only where every slot is taken. -/
structure Slots (p : AgentRunState × Handed) : Prop where
  stopped : p.1.accepting = false → p.1.scheduler.queueOf () = []
  policies : ∀ e ∈ p.1.scheduler.queueOf (),
    e.policy.maxConcurrentRuns = p.1.rows.budget.maxConcurrency
  counted : p.1.scheduler.runningCount () = p.1.liveMembers.card + p.1.settled + p.2.starting
  full : p.1.scheduler.queueOf () ≠ [] →
    p.1.rows.budget.maxConcurrency ≤ p.1.scheduler.runningCount ()

theorem Slots.same (h : Slots p) (hscheduler : q.1.scheduler = p.1.scheduler)
    (hbudget : q.1.rows.budget = p.1.rows.budget)
    (hcount : q.1.liveMembers.card + q.1.settled + q.2.starting =
      p.1.liveMembers.card + p.1.settled + p.2.starting) : Slots q := by
  constructor
  · unfold accepting
    rw [hscheduler]
    exact h.stopped
  · rw [hscheduler, hbudget]
    exact h.policies
  · rw [hscheduler, hcount]
    exact h.counted
  · rw [hscheduler, hbudget]
    exact h.full

theorem Effect.slots_resume (he : Effect m s t) (hlive : s.Live m) :
    t.liveMembers.card + t.settled = s.liveMembers.card + s.settled := by
  have herase := liveMembers_erase he.others
  have hs := card_liveMembers_of_live hlive
  rcases he.slots with ⟨hsame, hsettled⟩ | ⟨ht, hsettled⟩ | ⟨ht, hsettled⟩
  · have hcongr : t.liveMembers = s.liveMembers :=
      liveMembers_congr fun m' => by unfold Live; rw [hsame]
    rw [hsettled, hcongr]
  · have ht := card_liveMembers_of_live ht
    rw [herase] at ht
    omega
  · have ht := card_liveMembers_of_not_live ht
    rw [herase] at ht
    omega

theorem Effect.slots_start (he : Effect m s t) (hnone : s.controllers.get? m = none)
    (hstarted : (t.controllers.get? m).isSome = true) :
    t.liveMembers.card + t.settled = s.liveMembers.card + s.settled + 1 := by
  have herase := liveMembers_erase he.others
  have hdead : ¬ s.Live m := fun ⟨x, hx, _⟩ => by
    rw [hnone] at hx
    cases hx
  have hs := card_liveMembers_of_not_live hdead
  rcases he.slots with ⟨hsame, _⟩ | ⟨ht, hsettled⟩ | ⟨ht, hsettled⟩
  · rw [hsame, hnone] at hstarted
    cases hstarted
  · have ht := card_liveMembers_of_live ht
    rw [herase] at ht
    omega
  · have ht := card_liveMembers_of_not_live ht
    rw [herase] at ht
    omega

/-! ## A started member has a controller -/

variable {x : Execution} {env : Surroundings}

theorem setExecution_isSome (s : AgentRunState) (m : MemberId) (x : Execution) :
    ((s.setExecution m x).controllers.get? m).isSome = true := by
  unfold setExecution
  rw [OrderedMap.get?_set_self]
  rfl

theorem endWith_isSome (result : Option AgentRunResult) (error : Option AgentRunError) (now : Nat) :
    ((s.endWith m x result error now).controllers.get? m).isSome = true := by
  unfold endWith afterFinalize
  simp only
  split <;> exact setExecution_isSome _ _ _

theorem materialize_isSome (materializer : Except AgentRunError Unit) (now : Nat) :
    ((s.materialize m x materializer now).controllers.get? m).isSome = true := by
  unfold materialize
  split
  · exact endWith_isSome _ _ _
  split
  · exact endWith_isSome _ _ _
  · exact setExecution_isSome _ _ _

theorem ensure_isSome (otherUsage : Nat) :
    ((s.ensure m x otherUsage).controllers.get? m).isSome = true := by
  unfold ensure
  split
  · exact setExecution_isSome _ _ _
  · split <;> exact setExecution_isSome _ _ _

theorem executeMember_isSome (hnone : s.controllers.get? m = none) :
    ((s.executeMember m env).controllers.get? m).isSome = true := by
  unfold executeMember
  rw [hnone]
  simp only [Option.isSome_none, Bool.false_eq_true, if_false]
  split
  · exact endWith_isSome _ _ _
  split
  · exact endWith_isSome _ _ _
  split
  · exact endWith_isSome _ _ _
  unfold prepareMember
  split
  · exact endWith_isSome _ _ _
  simp only
  split
  · exact ensure_isSome _
  · exact materialize_isSome _ _

/-! ## Every turn keeps the count -/

theorem afterRetry_slots {c : Cleanup} {r : AgentRunState × Finalized} (hc : Concluded c s r) :
    (afterRetry c r).controllers = s.controllers ∧ (afterRetry c r).settled = s.settled := by
  have ⟨_, _, _, _, hframe⟩ := hc.frame
  unfold afterRetry
  split <;> (rw [hframe]; exact ⟨rfl, rfl⟩)

theorem Slots.alone (h : Slots p) (hscheduler : q.1.scheduler = p.1.scheduler)
    (hbudget : q.1.rows.budget = p.1.rows.budget) (hcontrollers : q.1.controllers = p.1.controllers)
    (hsettled : q.1.settled = p.1.settled) (hstarting : q.2.starting = p.2.starting) : Slots q := by
  refine h.same hscheduler hbudget ?_
  rw [hsettled, hstarting, liveMembers_congr (s := p.1) fun m => by unfold Live; rw [hcontrollers]]

theorem Slots.turn (hturn : Turn a p q) (hbase : Base p.1 p.2.members) (h : Slots p) : Slots q := by
  have hwork := hturn.work hbase
  have hbudget := (hwork.onward hbase).budget
  cases hturn with
  | takeRoot | dropRoot | invite | invited | refuse | settleDown | dropRetries | overlay
  | overlayPhase | list | pass | unmanage | acceptRoot | listExpired =>
    exact h.alone rfl hbudget rfl rfl rfl
  | @enqueue s m haccepting hbusy =>
    have hqueue : ({ s.scheduler with
        queued := s.scheduler.queued.set () (s.scheduler.queueOf () ++ [⟨m, s.policy⟩]) } :
        SchedulerExecutionRuntime Unit MemberId).queueOf () =
          s.scheduler.queueOf () ++ [⟨m, s.policy⟩] := by
      unfold queueOf
      rw [OrderedMap.get?_set_self]
      rfl
    refine ⟨fun hstopped => ?_, fun e he => ?_, h.counted, fun _ => hbusy⟩
    · rw [show s.accepting = false from hstopped] at haccepting
      cases haccepting
    rw [hqueue] at he
    rcases mem_concat.mp he with hold | rfl
    · exact h.policies e hold
    · rfl
  | @begin s m now hroom =>
    have hcount := World.runningCount_begin s.scheduler () () m s.policy now
    rw [if_pos rfl] at hcount
    refine ⟨h.stopped, h.policies, ?_, fun hne => ?_⟩
    · have hold := h.counted
      show (s.scheduler.begin () m s.policy now).1.runningCount () = s.liveMembers.card + s.settled + 1
      rw [hcount, hold]
      rfl
    · exact absurd (h.full hne) (Nat.not_le_of_lt hroom)
  | @release s _ _ hsettled hblocked =>
    have hold := h.counted
    have hpos : 0 < s.scheduler.runningCount () := by
      rw [hold]
      exact Nat.add_pos_left (Nat.add_pos_right _ hsettled) _
    have hcount := World.runningCount_release hpos ()
    refine ⟨h.stopped, h.policies, ?_, fun hne => ?_⟩
    · show (s.scheduler.release ()).runningCount () = s.liveMembers.card + (s.settled - 1) + 0
      rw [hcount, hold]
      show s.liveMembers.card + s.settled + 0 - 1 = _
      omega
    cases hqueue : s.scheduler.queueOf () with
    | nil => exact absurd hqueue hne
    | cons next rest =>
      have haccepting := Bool.eq_true_of_not_eq_false fun hstopped => hne (h.stopped hstopped)
      have hbusy := hblocked haccepting next (by rw [hqueue]; rfl)
      rw [h.policies next (by rw [hqueue]; exact mem_cons_self)] at hbusy
      exact hbusy
  | @pop s _ next rest _ hsettled hqueue hroom now =>
    have hold := h.counted
    have hpos : 0 < s.scheduler.runningCount () := by
      rw [hold]
      exact Nat.add_pos_left (Nat.add_pos_right _ hsettled) _
    have hrelease := World.runningCount_release hpos ()
    have hcount := World.runningCount_begin ((s.scheduler.release ()).dequeue () rest) () ()
      next.event next.policy now
    rw [if_pos rfl] at hcount
    have hsame : ((s.scheduler.release ()).dequeue () rest).runningCount () =
        s.scheduler.runningCount () - 1 := hrelease
    have hrest : (((s.scheduler.release ()).dequeue () rest).begin () next.event next.policy
        now).1.queueOf () = rest :=
      (World.queueOf_dequeue (s.scheduler.release ()) () () rest).trans (if_pos rfl)
    have hrunning : (((s.scheduler.release ()).dequeue () rest).begin () next.event next.policy
        now).1.runningCount () = s.scheduler.runningCount () := by
      omega
    refine ⟨fun hstopped => ?_, fun e he => h.policies e ?_, ?_, fun _ => ?_⟩
    · rw [show s.scheduler.queueOf () = [] from h.stopped hstopped] at hqueue
      cases hqueue
    · rw [hqueue]
      exact mem_cons_of_mem _ (hrest ▸ he)
    · show (((s.scheduler.release ()).dequeue () rest).begin () next.event next.policy
        now).1.runningCount () = s.liveMembers.card + (s.settled - 1) + 1
      rw [hrunning, hold]
      show s.liveMembers.card + s.settled + 0 = _
      omega
    · rw [hrunning]
      refine h.full fun hnil => ?_
      rw [show s.scheduler.queueOf () = [] from hnil] at hqueue
      cases hqueue
  | @execute s m env _ =>
    cases hget : s.controllers.get? m with
    | none =>
      have he := hbase.execute_effect hget env
      exact h.same he.scheduler hbudget (he.slots_start hget (executeMember_isSome hget))
    | some x =>
      have heq := executeMember_some hget env
      refine h.same ?_ hbudget ?_
      · rw [heq]
      · rw [heq]
        rfl
  | fail | refuseRoot =>
    rcases failQueued_cases _ _ _ hbase.open_of_queued with ⟨_, heq⟩ | ⟨_, _, _, heq, _⟩
    all_goals exact h.alone (by rw [heq]) hbudget (by rw [heq]) (by rw [heq]) rfl
  | @cancel s _ rows _ _ _ =>
    have hqueue : (s.scheduler.clearQueued () .jobDisabled).1.queueOf () = [] :=
      (World.queueOf_erase s.scheduler () ()).trans (if_pos rfl)
    refine ⟨fun _ => hqueue, fun e he => ?_, h.counted, absurd hqueue⟩
    rw [hqueue] at he
    cases he
  | stop => exact ⟨fun _ => rfl, fun e he => (not_mem_nil he).elim, h.counted, absurd rfl⟩
  | @abort s =>
    refine h.same rfl hbudget ?_
    rw [liveMembers_congr (s := s) fun m => ?_]
    · rfl
    show (∃ x, (s.controllers.mapValues _).get? m = some x ∧ _) ↔ _
    rw [OrderedMap.get?_mapValues]
    constructor
    · intro ⟨x, hx, hphase⟩
      have ⟨x', hx', heq⟩ := Option.map_eq_some_iff.mp hx
      exact ⟨x', hx', by rw [← heq] at hphase; exact hphase⟩
    · intro ⟨x, hx, hphase⟩
      exact ⟨_, Option.map_eq_some_iff.mpr ⟨x, hx, rfl⟩, hphase⟩
  | @settle s t memberId settlement now x _ hx hresume =>
    have hphase := resume_phase hresume
    have he := resume_effect hbase hx hresume
    refine h.same he.scheduler hbudget ?_
    exact he.slots_resume ⟨x, hx, hphase⟩
  | @fireTimer s index now c _ hget =>
    have ⟨⟨a, ha, _⟩, _⟩ := hbase.retry (m := c.memberId) (.inl ⟨c, mem_of_getElem? hget, rfl⟩)
    have ⟨hcontrollers, hsettled⟩ := afterRetry_slots
      (finalizeMember_concluded (s := { s with timers := s.timers.eraseIdx index }) now ha
        hbase.runEnds)
    exact h.alone (fireTimer_effect hbase hget now).scheduler hbudget hcontrollers hsettled rfl
  | @settleRetry s index failure now c at_ _ hget =>
    have ⟨hlate, _⟩ := hbase.retry (m := c.memberId) (.inr ⟨_, mem_of_getElem? hget, rfl⟩)
    have ⟨hcontrollers, hsettled⟩ := afterRetry_slots
      (resumeCleanup_concluded (s := { s with retries := s.retries.eraseIdx index }) now at_ failure
        hlate hbase.runEnds)
    exact h.alone (settleRetry_effect hbase hget failure now).scheduler hbudget hcontrollers
      hsettled rfl
  | restart => exact ⟨fun _ => rfl, fun e he => (not_mem_nil he).elim, rfl, absurd rfl⟩
  | @interrupted s index _ _ _ _ _ _ _ =>
    have ⟨rows, recoveries, heq⟩ := reconcileInterruptedRun_frame
      { s with listings := s.listings.eraseIdx index }
    exact h.alone (by rw [heq]) hbudget (by rw [heq]) (by rw [heq]) rfl
  | @recovery s index failed r _ hget =>
    have ⟨rows, recoveries, heq⟩ := hbase.recovery_frame hget failed
    exact h.alone (by rw [heq]) hbudget (by rw [heq]) (by rw [heq]) rfl
  | @reconcileExpired s index listed _ _ =>
    have ⟨sharedSpace, removals, heq, _⟩ := reconcileExpiredSpace_eq
      { s with expiryListings := s.expiryListings.eraseIdx index } listed.1
    exact h.alone (by rw [heq]) hbudget (by rw [heq]) (by rw [heq]) rfl
  | @removal s index failed resourceId _ _ =>
    have ⟨sharedSpace, resources, heq, _⟩ := directoryRemoved_eq
      { s with removals := s.removals.eraseIdx index } resourceId failed
    exact h.alone (by rw [heq]) hbudget (by rw [heq]) (by rw [heq]) rfl

end TaskHandoff.AgentRuns.AgentRunState
