import TaskHandoff.AgentRuns.Tracking

/-! # Recovering an interrupted run

`reconcileInterruptedRun` brings the run and its members to finalizing, closes the threads it finds
and ends all of them. The parts between two `await`s are `Recovered`. -/

namespace TaskHandoff.AgentRuns.AgentRunState

open AgentRunStatus Rows

variable {s t u : AgentRunState} {rows rows' : Rows}

/-! ## Transitions of all members -/

variable {l : List MemberId} {status : AgentRunStatus} {skip : AgentRunStatus → Bool}

theorem transitionMembers_eq (h : transitionMembers rows skip status l = .ok rows') :
    rows.Moves rows' (fun _ a => a = status) (fun _ => False) ∧
      rows'.sharedSpace = rows.sharedSpace ∧ rows'.resources = rows.resources ∧
      ∀ m ∈ l, ∀ a, rows'.statusOf m = some a → a = status ∨ skip a = true := by
  induction l generalizing rows with
  | nil =>
    cases h
    exact ⟨.refl _ _ _, rfl, rfl, nofun⟩
  | cons memberId rest ih =>
    unfold transitionMembers at h
    split at h
    next hskip =>
      have ⟨hmoves, hspace, hresources, hrest⟩ := ih h
      refine ⟨hmoves, hspace, hresources, fun m hm a ha => ?_⟩
      rcases List.mem_cons.mp hm with rfl | hin
      · have ⟨b, hb, hab⟩ := hmoves.before ha
        rcases hab with rfl | ⟨_, heq⟩
        · have ⟨member, hget, hstatus⟩ := statusOf_eq_some.mp hb
          rw [hget, Option.all_some, hstatus] at hskip
          exact .inr hskip
        · exact .inl heq
      · exact hrest m hin a ha
    · split at h
      · cases h
      next moved hmoved =>
        have ⟨_, _, _, _, hrows⟩ := transitionMember_eq hmoved
        have ⟨hmoves, hspace, hresources, hrest⟩ := ih h
        refine ⟨?_, ?_, ?_, fun m hm a ha => ?_⟩
        · exact ((transitionMember_moves hmoved).mono (fun _ _ h => h.2) fun _ => id).trans hmoves
        · rw [hspace, hrows]
        · rw [hresources, hrows]
        · rcases List.mem_cons.mp hm with rfl | hin
          · have ⟨b, hb, hab⟩ := hmoves.before ha
            rw [transitionMember_statusOf hmoved] at hb
            cases hb
            rcases hab with heq | ⟨_, heq⟩ <;> exact .inl heq
          · exact hrest m hin a ha

theorem transitionMembers_ok (h : ∀ m a, rows.statusOf m = some a →
      skip a = true ∨ canTransitionAgentRunStatus a status = true) :
    ∃ rows', transitionMembers rows skip status l = .ok rows' := by
  induction l generalizing rows with
  | nil => exact ⟨rows, rfl⟩
  | cons memberId rest ih =>
    unfold transitionMembers
    split
    · exact ih h
    rename_i hskip
    cases hget : rows.members.get? memberId with
    | none => simp [hget] at hskip
    | some member =>
      rw [hget] at hskip
      have hstatus := statusOf_eq_some.mpr ⟨member, hget, rfl⟩
      have hcan := (h memberId member.status hstatus).resolve_left hskip
      have hok : ∃ moved, rows.transitionMember memberId
          { status, error := some (some nodeRestarted) } = .ok moved :=
        transitionMember_ok hstatus hcan
      have ⟨moved, hmoved⟩ := hok
      rw [hmoved]
      refine ih fun m a ha => ?_
      have ⟨b, hb, hab⟩ := (transitionMember_moves hmoved).before ha
      rcases hab with rfl | ⟨_, _, rfl⟩
      · exact h m a hb
      · exact .inr (by simp [canTransitionAgentRunStatus])

theorem mem_keys_of_statusOf {m : MemberId} {a : AgentRunStatus} (h : rows.statusOf m = some a) :
    m ∈ rows.members.keys := by
  have ⟨_, hget, _⟩ := statusOf_eq_some.mp h
  exact Decidable.byContradiction fun hnot => by
    rw [OrderedMap.get?_eq_none.mpr hnot] at hget
    cases hget

/-! ## What a recovery does -/

/-- A part of a recovery has run. -/
structure Recovered (s t : AgentRunState) : Prop where
  frame : ∃ rows recoveries, t = { s with rows, recoveries }
  moves : s.rows.Moves t.rows (fun _ a => a.Late) Late
  late : t.rows.status.Late
  members : ∀ m a, t.statusOf m = some a → a.Late
  space : t.rows.sharedSpace = s.rows.sharedSpace
  resources : SameResources s.rows t.rows
  /-- The run ends with all of its members. -/
  ended : t.rows.status.terminal = true → s.rows.status.terminal = true ∨
    ∀ m a, t.statusOf m = some a → a.terminal = true
  /-- Without resources there is nothing to wait for. -/
  bare : s.rows.resources = [] → s.recoveries = [] →
    t.rows.status.terminal = true ∧ t.recoveries = []

theorem SameResources.nil_iff (h : SameResources rows rows') :
    rows'.resources = [] ↔ rows.resources = [] := by
  have ⟨f, hf, _⟩ := h
  rw [hf, List.map_eq_nil_iff]

section

variable (h : s.Finalizing)

include h

theorem endRecovery_recovered : Recovered s s.endRecovery := by
  have hsame : s.rows.resources = [] → s.rows.status.terminal = true → Recovered s s :=
    fun _ hterminal =>
      ⟨⟨_, _, rfl⟩, .refl _ _ _, h.late, h.members, rfl, .refl _, fun h => .inl h,
        fun _ hnone => ⟨hterminal, hnone⟩⟩
  have hstays (hopen : s.rows.resources ≠ []) : Recovered s s :=
    ⟨⟨_, _, rfl⟩, .refl _ _ _, h.late, h.members, rfl, .refl _, .inl, fun hnil => absurd hnil hopen⟩
  unfold endRecovery
  simp only
  split
  next hpending =>
    have hopen : s.rows.resources ≠ [] := by
      intro hnil
      rw [hnil] at hpending
      simp at hpending
    split
    · exact hstays hopen
    rename_i rows hrows
    have hmoves := transitionRun_moves hrows
    have ⟨_, _, _, _, _, heq⟩ := transitionRun_eq hrows
    refine ⟨⟨_, _, rfl⟩, ?_, ?_, ?_, ?_, ?_, ?_, fun hnil => absurd hnil hopen⟩
    · exact hmoves.mono (fun _ _ h => h.elim) fun a ha => ha ▸ late_finalizing
    · rw [heq]
      exact late_finalizing
    · rw [heq]
      exact h.members
    · rw [heq]
    · exact .of_eq (by rw [heq])
    · intro hterminal
      rw [heq] at hterminal
      cases hterminal
  · have hok : ∃ rows, transitionMembers s.rows terminal .failed
        s.rows.members.keys = .ok rows := by
      refine transitionMembers_ok fun m a ha => ?_
      rcases late_iff.mp (h.members m a ha) with rfl | hterminal
      · exact .inr rfl
      · exact .inl hterminal
    have ⟨rows, hok⟩ := hok
    have ⟨hmoves, hspace, hresources, hall⟩ := transitionMembers_eq hok
    have hended : ∀ m a, rows.statusOf m = some a → a.terminal = true := by
      intro m a ha
      have hkey : m ∈ s.rows.members.keys := hmoves.keys ▸ mem_keys_of_statusOf ha
      rcases hall m hkey a ha with rfl | hterminal
      · rfl
      · exact hterminal
    have hstatus : rows.status = s.rows.status := by
      rcases hmoves.status with h | ⟨_, h⟩
      · exact h
      · exact h.elim
    have hmoves : s.rows.Moves rows (fun _ a => a.Late) Late :=
      hmoves.mono (fun _ a ha => ha ▸ .of_terminal rfl) fun _ h => h.elim
    rw [hok]
    simp only
    split
    next herror =>
      have hcan := transitionRun_error herror
      have hterminal : rows.status.terminal = true := by
        rcases late_iff.mp h.late with hfinalizing | hterminal
        · rw [hstatus, hfinalizing] at hcan
          cases hcan
        · rw [hstatus]
          exact hterminal
      exact ⟨⟨_, _, rfl⟩, hmoves, .of_terminal hterminal,
        fun m a ha => .of_terminal (hended m a ha), hspace, .of_eq hresources,
        fun _ => .inr hended, fun _ hnone => ⟨hterminal, hnone⟩⟩
    next ended hrun =>
      have hmoves' := transitionRun_moves hrun
      have ⟨_, _, _, _, _, heq⟩ := transitionRun_eq hrun
      have hended' : ∀ m a, ended.statusOf m = some a → a.terminal = true := by
        rw [heq]
        exact hended
      have hterminal : ended.status.terminal = true := by
        rw [heq]
        rfl
      refine ⟨⟨_, _, rfl⟩, hmoves.trans (hmoves'.mono (fun _ _ h => h.elim) fun a ha => ?_),
        .of_terminal hterminal, fun m a ha => .of_terminal (hended' m a ha), ?_, ?_,
        fun _ => .inr hended', fun _ hnone => ⟨hterminal, hnone⟩⟩
      · rw [ha]
        exact .of_terminal rfl
      · rw [heq]
        exact hspace
      · exact .of_eq (by rw [heq]; exact hresources)

theorem Finalizing.waits (hopen : s.rows.resources ≠ [])
    (recoveries : List Recovery) : Recovered s { s with recoveries } :=
  ⟨⟨_, _, rfl⟩, .refl _ _ _, h.late, h.members, rfl, .refl _, .inl, fun hnil => absurd hnil hopen⟩

theorem recoverInstances_recovered (instanceIds : List String)
    (hopen : s.rows.resources ≠ [] ∨ instanceIds = []) :
    Recovered s (s.recoverInstances instanceIds) := by
  cases instanceIds with
  | nil => exact endRecovery_recovered h
  | cons instanceId rest => exact h.waits (hopen.resolve_right nofun) _

theorem Finalizing.transition (resourceId : Nat)
    (phase : AgentRunResourcePhase) (increment : Bool) :
    Finalizing { s with rows := s.rows.transition resourceId phase increment } :=
  ⟨h.late, h.members⟩

end

theorem sameResources_transition (rows : Rows) (resourceId : Nat) (phase : AgentRunResourcePhase)
    (increment : Bool) : SameResources rows (rows.transition resourceId phase increment) := by
  refine ⟨_, rfl, fun r => ?_⟩
  split <;> exact ⟨rfl, rfl⟩

theorem Recovered.after_transition {resourceId : Nat} {phase : AgentRunResourcePhase}
    {increment : Bool}
    (h : Recovered { s with rows := s.rows.transition resourceId phase increment } t) :
    Recovered s t := by
  have hsame := sameResources_transition s.rows resourceId phase increment
  have ⟨rows, recoveries, hframe⟩ := h.frame
  refine ⟨⟨rows, recoveries, hframe⟩, ?_, h.late, h.members, h.space, hsame.trans h.resources,
    h.ended, fun hnil => h.bare (hsame.nil_iff.mpr hnil)⟩
  refine Moves.trans (t := s.rows.transition resourceId phase increment) ?_ h.moves
  exact .of_fields (Nat.le_refl _) rfl

theorem recoverResources_recovered (h : s.Finalizing) (instanceIds : List String)
    (rest : List AgentRunResourceRecord)
    (hopen : s.rows.resources ≠ [] ∨ instanceIds = [] ∧ rest = []) :
    Recovered s (s.recoverResources instanceIds rest) := by
  induction rest generalizing s instanceIds with
  | nil => exact recoverInstances_recovered h instanceIds (hopen.imp_right And.left)
  | cons resource rest ih =>
    have hopen : s.rows.resources ≠ [] := hopen.resolve_right fun h => by cases h.2
    unfold recoverResources
    split
    · exact ih h _ (.inl hopen)
    split
    · refine Recovered.after_transition (ih (h.transition _ _ _) _ (.inl ?_))
      exact fun hnil => hopen ((sameResources_transition _ _ _ _).nil_iff.mp hnil)
    · refine Recovered.after_transition ((h.transition _ _ _).waits ?_ _)
      exact fun hnil => hopen ((sameResources_transition _ _ _ _).nil_iff.mp hnil)

theorem resumeRecovery_recovered (h : s.Finalizing) (hopen : s.rows.resources ≠ []) (r : Recovery)
    (failed : Bool) : Recovered s (s.resumeRecovery r failed) := by
  unfold resumeRecovery
  split
  · refine Recovered.after_transition (recoverResources_recovered (h.transition _ _ _) _ _ (.inl ?_))
    exact fun hnil => hopen ((sameResources_transition _ _ _ _).nil_iff.mp hnil)
  · exact recoverInstances_recovered h _ (.inl hopen)

theorem reconcileInterruptedRun_terminal (h : s.rows.status.terminal = true) :
    s.reconcileInterruptedRun = s := by
  unfold reconcileInterruptedRun
  split
  · rfl
  next hok =>
    have ⟨hlive, _⟩ := finalizeRun_eq hok
    rw [h] at hlive
    cases hlive

theorem reconcileInterruptedRun_recovered (h : s.rows.status.terminal = false) :
    Recovered s s.reconcileInterruptedRun := by
  unfold reconcileInterruptedRun
  split
  next herror =>
    rw [finalizeRun_error herror] at h
    cases h
  rename_i finalizing hfinalizing
  obtain ⟨_, _, _, _, _, heq⟩ := finalizeRun_eq hfinalizing
  have hok : ∃ rows, finalizeMembers finalizing = .ok rows := by
    refine transitionMembers_ok fun m a _ => ?_
    cases a <;> simp [terminal, canTransitionAgentRunStatus, agentRunTransitions]
  obtain ⟨rows, hok⟩ := hok
  obtain ⟨hmoves, hspace, hresources, hall⟩ := transitionMembers_eq hok
  have hstatus : rows.status = .finalizing := by
    rcases hmoves.status with h | ⟨_, h⟩
    · rw [h, heq]
    · exact h.elim
  have hready : Finalizing { s with rows } := by
    refine ⟨?_, fun m a ha => ?_⟩
    · rw [hstatus]
      exact late_finalizing
    have hkey : m ∈ finalizing.members.keys := hmoves.keys ▸ mem_keys_of_statusOf ha
    rcases hall m hkey a ha with rfl | hskip
    · exact late_finalizing
    simp only [Bool.or_eq_true, decide_eq_true_eq] at hskip
    rcases hskip with hterminal | rfl
    · exact .of_terminal hterminal
    · exact late_finalizing
  rw [hok]
  have hrec := recoverResources_recovered (s := { s with rows }) hready [] rows.resources (by
    by_cases hnil : rows.resources = []
    · exact .inr ⟨rfl, hnil⟩
    · exact .inl hnil)
  obtain ⟨rows', recoveries, hframe⟩ := hrec.frame
  have hspace : rows.sharedSpace = s.rows.sharedSpace := by rw [hspace, heq]
  have hresources : rows.resources = s.rows.resources := by rw [hresources, heq]
  refine ⟨⟨rows', recoveries, hframe⟩, ?_, hrec.late, hrec.members, hrec.space.trans hspace,
    (SameResources.of_eq hresources).trans hrec.resources, fun hterminal => ?_,
    fun hnil => hrec.bare (hresources.trans hnil)⟩
  · refine Moves.trans (t := finalizing) ?_ ((hmoves.mono (fun _ a ha => ha ▸ late_finalizing)
      fun _ h => h.elim).trans hrec.moves)
    rw [heq]
    exact ⟨rfl, rfl, rfl, Nat.le_refl _, fun _ a h => ⟨a, h, rfl, rfl, .inl rfl⟩,
      .inr ⟨reaches_of_transition (transition_finalizing.mpr h), late_finalizing⟩⟩
  · rcases hrec.ended hterminal with hopen | hended
    · rw [show ({ s with rows } : AgentRunState).rows.status = .finalizing from hstatus] at hopen
      cases hopen
    · exact .inr hended

end TaskHandoff.AgentRuns.AgentRunState
