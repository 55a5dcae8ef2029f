import TaskHandoff.AgentRuns.Kept

/-! # Members execute at most once

A member leaves the queued status with its execution and never comes back to it. So neither a
repeated invocation nor a restart executes it again, and its session is created once. -/

namespace TaskHandoff.AgentRuns.AgentRunState

open AgentRunStatus Rows Machine List Prod

variable {s t : AgentRunState} {a : RunAction} {m : MemberId} {as : List RunAction}

/-! ## The logs of executions and sessions -/

/-- What the logs say of the members. -/
structure Once (s : AgentRunState) : Prop where
  started : ∀ m ∈ s.executed.map fst, ∃ a, s.statusOf m = some a ∧ a ≠ .queued
  executed : (s.executed.map fst).Nodup
  created : s.created.Nodup
  covered : ∀ m ∈ s.created, m ∈ s.executed.map fst
  early : ∀ m x, s.controllers.get? m = some x → Phase.Early x.phase →
    m ∉ s.created ∧ m ∈ s.executed.map fst

theorem ne_queued_of_reaches {a b : AgentRunStatus} (ha : a ≠ .queued) (h : a.Reaches b) :
    b ≠ .queued := by
  rintro rfl
  exact ha h.eq_queued

theorem Once.effect (h : Once s) (he : Effect m s t) : Once t := by
  have honward := Onward.of_moves he.moves
  have hexecuted : t.executed.map fst = s.executed.map fst ∨
      t.executed.map fst = s.executed.map fst ++ [m] ∧ s.statusOf m = some .queued := by
    rcases he.executedLog with heq | ⟨heq, _, hqueued, _⟩
    · exact .inl (by rw [heq])
    · exact .inr ⟨by rw [heq, map_append]; rfl, hqueued⟩
  have hfresh (hqueued : s.statusOf m = some .queued) : m ∉ s.executed.map fst := by
    intro hin
    have ⟨a, ha, haq⟩ := h.started m hin
    rw [hqueued] at ha
    exact haq (Option.some.inj ha).symm
  have hmono {m' : MemberId} (hin : m' ∈ s.executed.map fst) : m' ∈ t.executed.map fst := by
    rcases hexecuted with heq | ⟨heq, _⟩ <;> rw [heq]
    · exact hin
    · exact mem_append_left _ hin
  constructor
  · intro m' hin
    have hold (hin : m' ∈ s.executed.map fst) : ∃ a, t.statusOf m' = some a ∧ a ≠ .queued := by
      have ⟨a, ha, haq⟩ := h.started m' hin
      have ⟨b, hb, hreach⟩ := honward.statusOf ha
      exact ⟨b, hb, ne_queued_of_reaches haq hreach⟩
    rcases hexecuted with heq | ⟨heq, _⟩
    · exact hold (heq ▸ hin)
    rcases mem_concat.mp (heq ▸ hin) with hin | rfl
    · exact hold hin
    have ⟨b, hb, hbq, _⟩ := he.status
    exact ⟨b, hb, hbq⟩
  · rcases hexecuted with heq | ⟨heq, hqueued⟩
    · rw [heq]
      exact h.executed
    · rw [heq]
      exact nodup_append.mpr ⟨h.executed, nodup_singleton m, fun a ha b hb hab =>
        hfresh hqueued (mem_singleton.mp hb ▸ hab ▸ ha)⟩
  · rcases he.createdLog with heq | ⟨heq, x, hx, hphase⟩
    · rw [heq]
      exact h.created
    · rw [heq]
      exact nodup_append.mpr ⟨h.created, nodup_singleton m, fun a ha b hb hab =>
        (h.early m x hx hphase).1 (mem_singleton.mp hb ▸ hab ▸ ha)⟩
  · intro m' hin
    rcases he.createdLog with heq | ⟨heq, x, hx, hphase⟩
    · exact hmono (h.covered m' (heq ▸ hin))
    rcases mem_concat.mp (heq ▸ hin) with hold | hnew
    · exact hmono (h.covered m' hold)
    · rw [hnew]
      exact hmono (h.early m x hx hphase).2
  · intro m' x hx hphase
    by_cases hm : m' = m
    · subst hm
      have ⟨hcreated, hcase⟩ := he.early x hx hphase
      rw [hcreated]
      rcases hcase with hne | ⟨x', hx', hphase'⟩
      · rcases he.executedLog with heq | ⟨heq, _, hqueued, _⟩
        · exact absurd heq hne
        · refine ⟨fun hin => hfresh hqueued (h.covered m' hin), ?_⟩
          rw [heq, map_append]
          exact mem_append_right _ (mem_singleton_self m')
      · have hold := h.early m' x' hx' hphase'
        exact ⟨hold.1, hmono hold.2⟩
    · have hold := h.early m' x ((he.others m' hm).symm.trans hx) hphase
      refine ⟨fun hin => ?_, hmono hold.2⟩
      rcases he.createdLog with heq | ⟨heq, _⟩
      · exact hold.1 (heq ▸ hin)
      rcases mem_concat.mp (heq ▸ hin) with hin | hnew
      · exact hold.1 hin
      · exact hm hnew

theorem Once.same (h : Once s) (honward : Onward s.rows t.rows) (hexecuted : t.executed = s.executed)
    (hcreated : t.created = s.created) (hcontrollers : ∀ m x, t.controllers.get? m = some x →
      ∃ x', s.controllers.get? m = some x' ∧ x'.phase = x.phase) : Once t := by
  constructor
  · intro m hin
    have ⟨b, hb, hbq⟩ := h.started m (hexecuted ▸ hin)
    have ⟨b', hb', hreach⟩ := honward.statusOf hb
    exact ⟨b', hb', ne_queued_of_reaches hbq hreach⟩
  · exact hexecuted ▸ h.executed
  · exact hcreated ▸ h.created
  · rw [hexecuted, hcreated]
    exact h.covered
  · intro m x hx hphase
    have ⟨x', hx', hsame⟩ := hcontrollers m x hx
    rw [hexecuted, hcreated]
    exact h.early m x' hx' (hsame ▸ hphase)

variable {p q : AgentRunState × Handed}

theorem Once.turn (hturn : Turn a p q) (hbase : Base p.1 p.2.members) (h : Once p.1) :
    Once q.1 := by
  have honward := (hturn.work hbase).onward hbase
  cases hturn.work hbase with
  | effect m he => exact h.effect he
  | invited _ _ heq =>
    rw [heq] at honward ⊢
    exact h.same honward rfl rfl fun m x hx => ⟨x, hx, rfl⟩
  | moved _ hexecuted hcreated hcontrollers => exact h.same honward hexecuted hcreated hcontrollers

/-! ## Behind a restart -/

/-- From `s` on, no member that `s` had started is executed or gets a session. -/
structure After (s t : AgentRunState) : Prop where
  onward : Onward s.rows t.rows
  logs : ∃ executed created, t.executed = s.executed ++ executed ∧ t.created = s.created ++ created ∧
    (∀ m a, s.statusOf m = some a → a ≠ .queued → m ∉ executed.map fst ∧ m ∉ created) ∧
    ∀ m x, t.controllers.get? m = some x → Phase.Early x.phase → m ∈ executed.map fst

theorem After.restart (s : AgentRunState) : After s s.restart :=
  ⟨.refl _, [], [], (append_nil _).symm, (append_nil _).symm,
    fun _ _ _ _ => ⟨not_mem_nil, not_mem_nil⟩, fun m x hx => by cases hx⟩

theorem After.turn (hturn : Turn a p q) (hbase : Base p.1 p.2.members) (h : After s p.1) :
    After s q.1 := by
  have hwork := hturn.work hbase
  have ⟨executed, created, hexecuted, hcreated, hnone, hearly⟩ := h.logs
  refine ⟨h.onward.trans (hwork.onward hbase), ?_⟩
  cases hwork with
  | invited _ _ heq =>
    rw [heq]
    exact h.logs
  | moved _ hexecuted' hcreated' hcontrollers =>
    refine ⟨executed, created, hexecuted'.trans hexecuted, hcreated'.trans hcreated, hnone, ?_⟩
    intro m x hx hphase
    have ⟨x', hx', hsame⟩ := hcontrollers m x hx
    exact hearly m x' hx' (hsame ▸ hphase)
  | effect m he =>
    -- the new entries of the logs
    have hlog : ∃ new, q.1.executed = p.1.executed ++ new ∧
        ∀ m' ∈ new.map fst, m' = m ∧ p.1.statusOf m = some .queued := by
      rcases he.executedLog with heq | ⟨heq, _, hqueued, _⟩
      · exact ⟨[], by rw [heq, append_nil], fun _ h => by cases h⟩
      · exact ⟨_, heq, fun m' hm' => ⟨mem_singleton.mp hm', hqueued⟩⟩
    have hlog' : ∃ new, q.1.created = p.1.created ++ new ∧
        ∀ m' ∈ new, m' = m ∧ m ∈ executed.map fst := by
      rcases he.createdLog with heq | ⟨heq, x, hx, hphase⟩
      · exact ⟨[], by rw [heq, append_nil], fun _ h => by cases h⟩
      · exact ⟨_, heq, fun m' hm' => ⟨mem_singleton.mp hm', hearly m x hx hphase⟩⟩
    have ⟨new, hnew, hnewOf⟩ := hlog
    have ⟨new', hnew', hnewOf'⟩ := hlog'
    refine ⟨executed ++ new, created ++ new', ?_, ?_, fun m' a ha haq => ⟨?_, ?_⟩, ?_⟩
    · rw [hnew, hexecuted, append_assoc]
    · rw [hnew', hcreated, append_assoc]
    · rw [map_append]
      intro hin
      rcases mem_append.mp hin with hold | hadded
      · exact (hnone m' a ha haq).1 hold
      have ⟨heq, hqueued⟩ := hnewOf m' hadded
      have ⟨b, hb, hreach⟩ := h.onward.statusOf ha
      rw [heq] at hb
      exact ne_queued_of_reaches haq hreach (Option.some.inj (hb.symm.trans hqueued))
    · intro hin
      rcases mem_append.mp hin with hold | hadded
      · exact (hnone m' a ha haq).2 hold
      · have ⟨heq, hexec⟩ := hnewOf' m' hadded
        exact (hnone m' a ha haq).1 (heq ▸ hexec)
    · intro m' x hx hphase
      rw [map_append]
      by_cases hm : m' = m
      · subst hm
        rcases (he.early x hx hphase).2 with hne | ⟨x', hx', hphase'⟩
        · rcases he.executedLog with heq | ⟨heq, _⟩
          · exact absurd heq hne
          · have hsame : new = [(m', p.1.rows.status)] := append_cancel_left (hnew.symm.trans heq)
            rw [hsame]
            exact mem_append_right _ (mem_singleton_self m')
        · exact mem_append_left _ (hearly m' x' hx' hphase')
      · exact mem_append_left _ (hearly m' x ((he.others m' hm).symm.trans hx) hphase)

/-! ## Every run -/

theorem create_once (budget : AgentRunBudget) (input : RootInput) : Once (create budget input) :=
  ⟨fun _ h => (not_mem_nil h).elim, nodup_nil, nodup_nil,
    fun _ h => (not_mem_nil h).elim, fun _ _ h => by cases h⟩

variable {budget : AgentRunBudget} {input : RootInput}

theorem run_once (h : run step (create budget input) as = some s) : Once s := by
  have hinv := run_invariant (I := fun s => Base s [] ∧ Once s) (fun s a t hstep hs =>
    ⟨step_base hs.1 hstep, step_keeps (P := fun p => Once p.1) (fun _ _ => Once.turn) hs.1 hstep
      hs.2⟩) h ⟨create_base budget input, create_once budget input⟩
  exact hinv.2

theorem run_after (hs : Base s []) (h : run step s.restart as = some t) : After s t := by
  have hinv := run_invariant (I := fun t => Base t [] ∧ After s t) (fun u a t hstep hu =>
    ⟨step_base hu.1 hstep, step_keeps (P := fun p => After s p.1) (fun _ _ => After.turn) hu.1
      hstep hu.2⟩) h ⟨hs.restart, .restart s⟩
  exact hinv.2

/-- In every run each member is executed at most once, and asks for its session at most once; a
member that had started before a restart does neither after it. -/
theorem members_execute_at_most_once (budget : AgentRunBudget) (input : RootInput)
    (as : List RunAction) (s : AgentRunState) (h : run step (create budget input) as = some s) :
    s.created.Nodup ∧ (s.executed.map fst).Nodup ∧
      ∀ before after t, as = before ++ .restart :: after →
        run step (create budget input) before = some t →
        ∃ executed created, s.executed = t.executed ++ executed ∧ s.created = t.created ++ created ∧
          ∀ m a, t.statusOf m = some a → a ≠ .queued → m ∉ executed.map fst ∧ m ∉ created := by
  have honce := run_once h
  refine ⟨honce.created, honce.executed, fun before after t has hbefore => ?_⟩
  rw [has, run_append, hbefore] at h
  have ⟨executed, created, hexecuted, hcreated, hnone, _⟩ := (run_after (run_base hbefore) h).logs
  exact ⟨executed, created, hexecuted, hcreated, hnone⟩

/-- The root has a session before the restart; the run is recovered behind it. -/
theorem members_execute_at_most_once_recovered : ∃ s, run step (planRun agentRunDefaultBudget)
        (prepareRoot ++ [.restart, .list, .reconcile 0 readySurroundings]) = some s ∧
      s.created = [0] ∧ s.created.Nodup ∧ (s.executed.map fst).Nodup := by
  have h := members_execute_at_most_once agentRunDefaultBudget ⟨"root", "agent", "go", planSnapshot⟩
    (prepareRoot ++ [.restart, .list, .reconcile 0 readySurroundings]) _ rfl
  exact ⟨_, rfl, rfl, h.1, h.2.1⟩

/-! ## Later states of a run -/

/-- From any state of a run on, the run and its members keep their places and their statuses only
move on; what is at its end stays there. -/
theorem statuses_move_on {later : List RunAction} (h : run step (create budget input) as = some s)
    (hlater : run step s later = some t) :
    Onward s.rows t.rows ∧
      ∀ m a, s.statusOf m = some a → a.terminal = true → t.statusOf m = some a := by
  have hinv := run_invariant (I := fun u => Base u [] ∧ Onward s.rows u.rows)
    (fun u b v hstep hu => ⟨step_base hu.1 hstep, step_keeps
      (P := fun p => Onward s.rows p.1.rows) (fun p q hturn hbase honward =>
        honward.trans ((hturn.work hbase).onward hbase)) hu.1 hstep hu.2⟩) hlater
    ⟨run_base h, .refl s.rows⟩
  refine ⟨hinv.2, fun m a ha hterminal => ?_⟩
  have ⟨b, hb, hreach⟩ := hinv.2.statusOf ha
  exact hb.trans (congrArg some (hreach.of_terminal hterminal))

theorem statuses_move_on_recovered : ∃ s t, run step (planRun agentRunDefaultBudget)
      prepareRoot = some s ∧ run step s [.restart, .list] = some t ∧ Onward s.rows t.rows := by
  refine ⟨?s, ?t, ?run, ?later, (statuses_move_on ?run ?later).1⟩
  case run => rfl
  case later => rfl

end TaskHandoff.AgentRuns.AgentRunState
