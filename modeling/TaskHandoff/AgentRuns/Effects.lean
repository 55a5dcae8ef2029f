import TaskHandoff.AgentRuns.Tracking

/-! # The effects of executing a member

Every piece of `executeMember`, of a retry and of `failQueued` has an effect, so the base is kept
through all of them. -/

namespace TaskHandoff.AgentRuns.AgentRunState

open AgentRunStatus Rows Scheduler OrderedMap List Option

variable {s t u : AgentRunState} {m : MemberId} {x : Execution}

/-! ## Before the execution is suspended again -/

/-- What an execution has done to the rows before it goes on or ends: nobody is at an end. -/
structure Prelude (m : MemberId) (s u : AgentRunState) : Prop where
  frame : ∃ rows executed created, u = { s with rows, executed, created }
  moves : s.rows.Moves u.rows (fun m' a => m' = m ∧ a ≠ .queued ∧ a.terminal = false)
    (fun a => m = s.rootMemberId ∧ a ≠ .queued ∧ a.terminal = false)
  space : s.rows.sharedSpace.isSome = true → u.rows.sharedSpace.isSome = true
  resources : u.rows.resources = [] → s.rows.resources = []
  executedLog : u.executed = s.executed ∨
    u.executed = s.executed ++ [(m, s.rows.status)] ∧ s.controllers.get? m = none ∧
      s.statusOf m = some .queued ∧ s.rows.status ≠ .finalizing
  createdLog : u.created = s.created ∨
    u.created = s.created ++ [m] ∧ ∃ x, s.controllers.get? m = some x ∧ Phase.Early x.phase

theorem Prelude.refl (m : MemberId) (s : AgentRunState) : Prelude m s s :=
  ⟨⟨_, _, _, rfl⟩, .refl _ _ _, id, id, .inl rfl, .inl rfl⟩

section

variable (h : Prelude m s u)

include h

theorem Prelude.rows {rows : Rows}
    (hmoves : u.rows.Moves rows (fun m' a => m' = m ∧ a ≠ .queued ∧ a.terminal = false)
      (fun a => m = s.rootMemberId ∧ a ≠ .queued ∧ a.terminal = false))
    (hspace : u.rows.sharedSpace.isSome = true → rows.sharedSpace.isSome = true)
    (hresources : rows.resources = [] → u.rows.resources = []) : Prelude m s { u with rows } := by
  have ⟨_, _, _, hframe⟩ := h.frame
  refine ⟨?_, h.moves.trans hmoves, fun hs => hspace (h.space hs),
    fun hnil => h.resources (hresources hnil), h.executedLog, h.createdLog⟩
  subst hframe
  exact ⟨_, _, _, rfl⟩

theorem Prelude.runTerminal (hu : u.rows.status.terminal = true) :
    s.rows.status.terminal = true := by
  rcases h.moves.status with heq | ⟨_, _, _, hfalse⟩
  · rw [← heq]
    exact hu
  · rw [hu] at hfalse
    cases hfalse

theorem Prelude.terminal {m' : MemberId} (hu : u.Terminal m') : s.Terminal m' := by
  have ⟨b, hb, hterminal⟩ := hu
  have ⟨a, ha, hab⟩ := h.moves.before hb
  rcases hab with rfl | ⟨_, _, _, hfalse⟩
  · exact ⟨b, ha, hterminal⟩
  · rw [hterminal] at hfalse
    cases hfalse

theorem Prelude.runEnds (hs : s.RunEndsWithRoot) : u.RunEndsWithRoot := by
  intro hterminal
  have hroot : u.rootMemberId = s.rootMemberId := h.moves.rootMemberId
  rw [hroot]
  exact (hs (h.runTerminal hterminal)).move h.moves

end

/-! ## The ends of a piece -/

theorem setExecution_effect (hpre : Prelude m s u) (hends : s.RunEndsWithRoot)
    (hstatus : ∃ a, u.statusOf m = some a ∧ a ≠ .queued) (hmember : x.cleanup.memberId = m)
    (hphase : ¬ Phase.Ending x.phase) (hrun : m = s.rootMemberId → u.rows.status ≠ .queued)
    (hearly : Phase.Early x.phase → u.created = s.created ∧
      (u.executed ≠ s.executed ∨ ∃ x', s.controllers.get? m = some x' ∧ Phase.Early x'.phase)) :
    Effect m s (u.setExecution m x) := by
  have hends := hpre.runEnds hends
  have ⟨_, _, _, hframe⟩ := hpre.frame
  have hlive : (u.setExecution m x).Live m :=
    ⟨x, get?_set_self _ _ _, fun h => hphase (by rw [h]; trivial)⟩
  have ⟨a, ha, haq⟩ := hstatus
  subst hframe
  exact
    { hpre with
      scheduler := rfl
      submitted := rfl
      listings := rfl
      recoveries := rfl
      moves := hpre.moves.mono (fun _ _ h => ⟨h.1, h.2.1⟩) fun _ h => ⟨h.1, h.2.1⟩
      others := fun m' hne => get?_set_ne _ _ hne
      own := fun x' hx' => by
        have hsame : x' = x := some.inj (hx'.symm.trans (get?_set_self _ _ _))
        subst hsame
        refine ⟨hmember, fun h => (hphase h).elim, fun h => ?_⟩
        exact (hphase (by rw [h]; trivial)).elim
      newTimers := fun c hc => .inl hc
      oldTimers := fun c hc _ => hc
      newRetries := fun r hr => .inl hr
      oldRetries := fun r hr _ => hr
      keyed := id
      status := ⟨a, ha, haq, .inl hlive, fun _ => .inl hlive⟩
      runStatus := hrun
      managed := .inl rfl
      runEnds := hends
      slots := .inr (.inl ⟨hlive, rfl⟩)
      spaceKept := hpre.space
      runEnded := fun h => .inl (hpre.runTerminal h)
      rootEnded := fun _ h => .inr (.inl (hpre.terminal h))
      retried := fun c hc => .inl hc
      early := fun x' hx' => by
        have hsame : x' = x := some.inj (hx'.symm.trans (get?_set_self _ _ _))
        subst hsame
        exact hearly }

variable {c : Cleanup} {r : AgentRunState × Finalized} {now index : Nat} {settlement : Settlement}

theorem Concluded.effect {r : AgentRunState} {f : Finalized}
    {controllers : OrderedMap MemberId Execution} {settled : Nat}
    {retries : List (Cleanup × CleanupAwait)} (hc : Concluded c u (r, f)) (hpre : Prelude m s u)
    (hs : s.RunEndsWithRoot) (hkeyed : s.Keyed) (hmember : c.memberId = m)
    (hrun : m = s.rootMemberId → u.rows.status ≠ .queued)
    (hothers : ∀ m', m' ≠ m → controllers.get? m' = s.controllers.get? m')
    (hown : ∀ x, controllers.get? m = some x → x.cleanup.memberId = m ∧
      (x.phase = .finished → r.Terminal m ∨ Attended { r with controllers, settled, retries } m))
    (hearly : ∀ x, controllers.get? m = some x → Phase.Early x.phase → u.created = s.created ∧
      ∃ x', s.controllers.get? m = some x' ∧ Phase.Early x'.phase)
    (hnewRetries : ∀ e ∈ retries, e ∈ s.retries ∨ e.1.memberId = m)
    (holdRetries : ∀ e ∈ s.retries, e ∈ retries)
    (hactive : r.Terminal m ∨ Live { r with controllers, settled, retries } m ∨
      Attended { r with controllers, settled, retries } m)
    (hslots : controllers = s.controllers ∧ settled = s.settled ∨
      Live { r with controllers, settled, retries } m ∧ settled = s.settled ∨
      ¬ Live { r with controllers, settled, retries } m ∧ settled = s.settled + 1) :
    Effect m s { r with controllers, settled, retries } := by
  have hroot : u.rootMemberId = s.rootMemberId := hpre.moves.rootMemberId
  have ⟨_, _, _, hpreframe⟩ := hpre.frame
  have ⟨_, _, _, _, hframe⟩ := hc.frame
  have hmoves : s.rows.Moves r.rows (fun m' a => m' = m ∧ a ≠ .queued)
      (fun a => m = s.rootMemberId ∧ a ≠ .queued) := by
    refine (hpre.moves.mono (fun _ _ h => ⟨h.1, h.2.1⟩) fun _ h => ⟨h.1, h.2.1⟩).trans ?_
    exact hc.moves.mono (fun _ _ h => ⟨h.1.trans hmember, h.2.ne_queued⟩)
      fun _ h => ⟨(hmember.symm.trans h.1).trans hroot, h.2.ne_queued⟩
  have hlate : r.IsLate m := hmember ▸ hc.late
  have ⟨b, hb, hblate⟩ := hlate
  have hnone : u.rows.sharedSpace = none → r.rows.sharedSpace = none := by
    intro h
    rcases hc.space with hsame | ⟨_, hsome, _⟩
    · exact hsame.trans h
    · rw [h] at hsome
      cases hsome
  have htimers : u.timers = s.timers := by
    subst hpreframe
    rfl
  have ⟨new, hnew, hadded, _⟩ := hc.timers
  have hnew : r.timers = s.timers ++ new := htimers ▸ hnew
  have hsame : r.scheduler = s.scheduler ∧ r.submitted = s.submitted ∧
      r.listings = s.listings ∧ r.recoveries = s.recoveries := by
    subst hframe hpreframe
    exact ⟨rfl, rfl, rfl, rfl⟩
  have hlogs : r.executed = u.executed ∧ r.created = u.created := by
    subst hframe
    exact ⟨rfl, rfl⟩
  have hmanaged : u.managed = s.managed := by
    subst hpreframe
    rfl
  exact
    { scheduler := hsame.1
      submitted := hsame.2.1
      listings := hsame.2.2.1
      recoveries := hsame.2.2.2
      moves := hmoves
      others := hothers
      own := fun x hx => ⟨(hown x hx).1, fun _ => hlate, (hown x hx).2⟩
      newTimers := fun c' hmem => by
        rcases mem_append.mp (hnew ▸ hmem) with hold | hmem
        · exact .inl hold
        · exact .inr ⟨(hadded c' hmem).1.trans hmember, hlate⟩
      oldTimers := fun c' hmem _ => by
        rw [hnew]
        exact mem_append_left _ hmem
      newRetries := fun e hmem => (hnewRetries e hmem).imp_right fun h => ⟨h, hlate⟩
      oldRetries := fun e hmem _ => holdRetries e hmem
      keyed := fun _ => hc.keyed (by subst hpreframe; exact hkeyed)
      status := ⟨b, hb, hblate.ne_queued, .inr hblate, fun hfalse => by
        rcases hactive with ⟨a, ha, htrue⟩ | hactive
        · rw [some.inj (hb.symm.trans ha), htrue] at hfalse
          cases hfalse
        · exact hactive⟩
      runStatus := fun hm hq => by
        have hreach := hc.moves.reaches
        rw [show r.rows.status = .queued from hq] at hreach
        exact hrun hm hreach.eq_queued
      managed := hmanaged ▸ hc.managed
      runEnds := fun hterminal => by
        have hroot' : r.rootMemberId = s.rootMemberId := hmoves.rootMemberId
        show r.Terminal r.rootMemberId
        rw [hroot']
        rcases hc.runEnds hterminal with hold | ⟨hcroot, hended, _⟩
        · exact (hs (hpre.runTerminal hold)).move hmoves
        · rw [← hroot, ← hcroot]
          exact hended
      slots := hslots
      spaceKept := fun h => by
        rcases hc.space with hsame | ⟨⟨space, hspace, _⟩, _⟩
        · exact hsame.symm ▸ hpre.space h
        · exact hspace.symm ▸ rfl
      runEnded := fun h => by
        rcases hc.runEnds h with hold | ⟨hcroot, _, hretained⟩
        · exact .inl (hpre.runTerminal hold)
        · exact .inr ⟨(hmember.symm.trans hcroot).trans hroot, .inl hretained⟩
      rootEnded := fun hm h => by
        rcases hc.rootEnds (hmember.trans (hm.trans hroot.symm)) (hmember.symm ▸ h) with
          hr | hr | hr
        · exact .inl hr
        · exact .inr (.inl (hpre.terminal (hmember ▸ hr)))
        · exact .inr (.inr (hnone hr))
      retried := fun c' hmem => by
        by_cases hsame : r.timers = u.timers
        · exact .inl (htimers ▸ hsame ▸ hmem)
        right
        rcases hc.retried hsame with hlive | ⟨hcroot, hspace, hopen⟩
        · exact .inl (hmember ▸ hlive)
        · exact .inr ⟨(hmember.symm.trans hcroot).trans hroot, hnone hspace, hopen⟩
      resources := fun hnil => by
        have ⟨f, hf, _⟩ := hc.resources
        exact hpre.resources (map_eq_nil_iff.mp (hf.symm.trans hnil))
      executedLog := by
        rw [hlogs.1]
        exact hpre.executedLog
      createdLog := by
        rw [hlogs.2]
        exact hpre.createdLog
      early := fun x hx hphase => by
        rw [hlogs.2]
        exact (hearly x hx hphase).imp_right .inr }

theorem afterFinalize_effect (hpre : Prelude m s u)
    (hs : s.RunEndsWithRoot) (hkeyed : s.Keyed) (hmember : x.cleanup.memberId = m)
    (hc : Concluded x.cleanup u r) (hrun : m = s.rootMemberId → u.rows.status ≠ .queued) :
    Effect m s (afterFinalize m x r) := by
  have ⟨_, _, _, hpreframe⟩ := hpre.frame
  have ⟨_, _, _, _, hframe⟩ := hc.frame
  have hdone : r.2 = .done → r.1.Terminal m ∨ r.1.Attended m := by
    intro h
    exact hmember ▸ hc.done (by subst hpreframe; exact hkeyed) h
  have hthrew : r.2 = .threw → r.1.Terminal m := fun h => hmember ▸ hc.threw h
  obtain ⟨r, f⟩ := r
  have hsame : r.controllers = s.controllers ∧ r.retries = s.retries ∧ r.settled = s.settled := by
    subst hframe hpreframe
    exact ⟨rfl, rfl, rfl⟩
  have ⟨hcontrollers, hretries, hsettled⟩ := hsame
  have hset (x' : Execution) : (r.controllers.set m x').get? m = some x' := get?_set_self _ _ _
  have hothers (x' : Execution) (m' : MemberId) (hne : m' ≠ m) :
      (r.controllers.set m x').get? m' = s.controllers.get? m' := by
    rw [get?_set_ne _ _ hne, hcontrollers]
  have hsuspended (phase : Phase) (hphase : phase ≠ .rejected)
      (hfinished : phase = .finished → r.Terminal m ∨ r.Attended m)
      (hearly : ¬ Phase.Early phase) : Effect m s (r.setExecution m { x with phase }) := by
    have hlive : (r.setExecution m { x with phase }).Live m := ⟨_, hset _, hphase⟩
    refine hc.effect hpre hs hkeyed hmember hrun (hothers _) (fun x' hx' => ?_)
      (fun x' hx' hphase' => ?_) (fun e he => .inl (hretries ▸ he)) (fun e he => hretries.symm ▸ he) (.inr (.inl hlive))
      (.inr (.inl ⟨hlive, hsettled⟩))
    · have hsame : { x with phase } = x' := some.inj ((hset _).symm.trans hx')
      subst hsame
      exact ⟨hmember, hfinished⟩
    have hsame : { x with phase } = x' := some.inj ((hset _).symm.trans hx')
    subst hsame
    exact (hearly hphase').elim
  cases f with
  | awaiting a => exact hsuspended (.finalizing a) (by simp) (fun h => by cases h) id
  | done => exact hsuspended .finished (by simp) (fun _ => hdone rfl) id
  | threw =>
    -- the execution rejected: its slot is free, and its controller stays
    have hdead : ¬ (afterFinalize m x (r, .threw)).Live m := by
      intro ⟨x', hx', hphase⟩
      have hsame : { x with phase := .rejected } = x' := some.inj ((hset _).symm.trans hx')
      subst hsame
      exact hphase rfl
    refine hc.effect hpre hs hkeyed hmember hrun (hothers _) (fun x' hx' => ?_)
      (fun x' hx' hphase' => ?_) (fun e he => .inl (hretries ▸ he)) (fun e he => hretries.symm ▸ he) (.inl (hthrew rfl))
      (.inr (.inr ⟨hdead, ?_⟩))
    · have hsame : { x with phase := .rejected } = x' := some.inj ((hset _).symm.trans hx')
      subst hsame
      exact ⟨hmember, fun h => by cases h⟩
    · have hsame : { x with phase := .rejected } = x' := some.inj ((hset _).symm.trans hx')
      subst hsame
      exact hphase'.elim
    · show r.settled + 1 = s.settled + 1
      rw [hsettled]

/-! ## Executing -/

theorem Keyed.unkey (h : s.Keyed) (m : MemberId) : (s.unkey m).Keyed :=
  fun m' hm' => h m' (mem_filter.mp hm').1

theorem unkey_prelude (hpre : Prelude m s u) (m' : MemberId) :
    Prelude m (s.unkey m') (u.unkey m') := by
  have ⟨_, _, _, hframe⟩ := hpre.frame
  subst hframe
  exact ⟨⟨_, _, _, rfl⟩, hpre.moves, hpre.space, hpre.resources, hpre.executedLog, hpre.createdLog⟩

theorem Effect.of_unkey {k : MemberId} (hkeyed : s.Keyed) (h : Effect m (s.unkey k) t) :
    Effect m s t :=
  { h with keyed := fun _ => h.keyed (hkeyed.unkey k) }

theorem endWith_effect (hpre : Prelude m s u) (hends : s.RunEndsWithRoot) (hkeyed : s.Keyed)
    (hknown : ∃ a, u.statusOf m = some a) (hmember : x.cleanup.memberId = m)
    (hrun : m = s.rootMemberId → u.rows.status ≠ .queued) (result : Option AgentRunResult)
    (error : Option AgentRunError) (now : Nat) : Effect m s (u.endWith m x result error now) := by
  have ⟨a, ha⟩ := hknown
  subst hmember
  have h := finalizeMember_concluded (c := { x.cleanup with result, error }) now ha
    (hpre.runEnds hends)
  exact .of_unkey (k := x.cleanup.memberId) hkeyed
    (afterFinalize_effect (unkey_prelude hpre _) hends (hkeyed.unkey _) rfl h hrun)

/-- The member has started, and its execution is in a piece that started at `s`. -/
structure Going (m : MemberId) (s u : AgentRunState) : Prop where
  pre : Prelude m s u
  ends : s.RunEndsWithRoot
  keyed : s.Keyed
  status : ∃ a, u.statusOf m = some a ∧ a ≠ .queued
  run : m = s.rootMemberId → u.rows.status ≠ .queued

/-- Its session is not asked for yet. -/
def Going.Early (m : MemberId) (s u : AgentRunState) : Prop :=
  u.created = s.created ∧
    (u.executed ≠ s.executed ∨ ∃ x', s.controllers.get? m = some x' ∧ Phase.Early x'.phase)

/-- How a piece that started at `s` comes to its next `await`: the execution is suspended before its
finalization, or the finalization starts. -/
inductive Piece (m : MemberId) (s : AgentRunState) : AgentRunState → Prop where
  | suspend {u : AgentRunState} {x : Execution} (h : Going m s u)
      (hmember : x.cleanup.memberId = m)
      (hphase : ¬ Phase.Ending x.phase) (hearly : Phase.Early x.phase → Going.Early m s u) :
      Piece m s (u.setExecution m x)
  | finalize {u : AgentRunState} {x : Execution} (hpre : Prelude m s u)
      (hends : s.RunEndsWithRoot) (hkeyed : s.Keyed)
      (hknown : ∃ a, u.statusOf m = some a) (hmember : x.cleanup.memberId = m)
      (hrun : m = s.rootMemberId → u.rows.status ≠ .queued) (result : Option AgentRunResult)
      (error : Option AgentRunError) (now : Nat) : Piece m s (u.endWith m x result error now)

theorem Piece.effect (h : Piece m s t) : Effect m s t := by
  cases h with
  | suspend h hmember hphase hearly =>
    exact setExecution_effect h.pre h.ends h.status hmember hphase h.run hearly
  | finalize hpre hends hkeyed hknown hmember hrun result error now =>
    exact endWith_effect hpre hends hkeyed hknown hmember hrun result error now

section

variable (h : Going m s u)

include h

theorem Going.endWith (hmember : x.cleanup.memberId = m)
    (result : Option AgentRunResult) (error : Option AgentRunError) (now : Nat) :
    Piece m s (u.endWith m x result error now) := by
  have ⟨a, ha, _⟩ := h.status
  exact .finalize h.pre h.ends h.keyed ⟨a, ha⟩ hmember h.run result error now

theorem Going.suspend (hmember : x.cleanup.memberId = m)
    (hphase : ¬ Phase.Ending x.phase) (hearly : Phase.Early x.phase → Going.Early m s u) :
    Piece m s (u.setExecution m x) :=
  .suspend h hmember hphase hearly

theorem Going.rows {rows : Rows}
    (hmoves : u.rows.Moves rows (fun m' a => m' = m ∧ a ≠ .queued ∧ a.terminal = false)
      (fun a => m = s.rootMemberId ∧ a ≠ .queued ∧ a.terminal = false))
    (hspace : u.rows.sharedSpace.isSome = true → rows.sharedSpace.isSome = true)
    (hresources : rows.resources = [] → u.rows.resources = []) : Going m s { u with rows } := by
  refine ⟨h.pre.rows hmoves hspace hresources, h.ends, h.keyed, ?_, ?_⟩
  · have ⟨a, ha, haq⟩ := h.status
    have ⟨b, hb, hab⟩ := hmoves.statusOf ha
    refine ⟨b, hb, ?_⟩
    rcases hab with rfl | ⟨_, _, hbq, _⟩
    · exact haq
    · exact hbq
  · intro hm hq
    rcases hmoves.status with heq | ⟨_, _, hne, _⟩
    · exact h.run hm (heq ▸ hq)
    · exact hne hq

variable (hearly : Going.Early m s u)

include hearly

theorem materialize_piece
    (hmember : x.cleanup.memberId = m) (materializer : Except AgentRunError Unit) (now : Nat) :
    Piece m s (u.materialize m x materializer now) := by
  unfold materialize
  split
  · exact h.endWith hmember none _ now
  split
  · exact h.endWith hmember none _ now
  · exact h.suspend hmember id fun _ => hearly

theorem ensure_piece
    (hmember : x.cleanup.memberId = m) (otherUsage : Nat) : Piece m s (u.ensure m x otherUsage) := by
  unfold ensure
  split
  · exact h.suspend hmember (fun h => h) fun _ => hearly
  split
  · exact h.suspend hmember id fun _ => hearly
  rename_i rows hok
  refine Going.suspend (h.rows ?_ ?_ ?_) hmember id fun _ => hearly
  · unfold ensureSharedSpace at hok
    split at hok
    · split at hok
      · cases hok
      · cases hok
        exact .refl _ _ _
    · cases hok
      exact .of_fields (Nat.le_refl _) rfl
  · intro _
    unfold ensureSharedSpace at hok
    split at hok
    next hsome =>
      split at hok
      · cases hok
      cases hok
      rw [hsome]
      rfl
    · cases hok
      rfl
  · unfold ensureSharedSpace at hok
    split at hok
    · split at hok
      · cases hok
      · cases hok
        exact id
    · cases hok
      exact id

theorem prepareMember_piece
    (hmember : x.cleanup.memberId = m) (env : Surroundings) : Piece m s (u.prepareMember m x env) := by
  unfold prepareMember
  split
  · exact h.endWith hmember none _ env.now
  rename_i target _
  have hgoing : Going m s { u with rows := { u.rows with nextId := u.rows.nextId + 1 } } :=
    h.rows (.of_fields (Nat.le_succ _) rfl) id id
  simp only
  split
  · refine ensure_piece hgoing hearly ?_ env.otherUsage
    exact hmember
  · refine materialize_piece hgoing hearly ?_ env.materializer env.now
    exact hmember

end

theorem startRun_eq {rows : Rows} (h : s.startRun m = .ok rows) :
    Prelude m s { s with rows } ∧ rows.members = s.rows.members ∧
      (m = s.rootMemberId → rows.status ≠ .queued) := by
  unfold startRun at h
  split at h
  swap
  next hm =>
    cases h
    exact ⟨.refl m s, rfl, fun h => absurd h hm⟩
  rename_i hm
  have hmoves := transitionRun_moves h
  have ⟨_, _, _, _, _, hrows⟩ := transitionRun_eq h
  have hstatus : rows.status = .preparing := by rw [hrows]
  refine ⟨(Prelude.refl m s).rows (hmoves.mono (fun _ _ h => h.elim) fun a ha => ?_) ?_ ?_, ?_, ?_⟩
  · rw [ha]
    exact ⟨hm, (fun h => by cases h), rfl⟩
  · rw [hrows]
    exact id
  · rw [hrows]
    exact id
  · rw [hrows]
  · intro _ hq
    rw [hstatus] at hq
    cases hq

theorem executeMember_piece (hends : s.RunEndsWithRoot) (hkeyed : s.Keyed)
    (hknown : ∃ a, s.statusOf m = some a ∧ (a = .queued ∨ a.Late))
    (hnone : s.controllers.get? m = none) (env : Surroundings) :
    Piece m s (s.executeMember m env) := by
  have ⟨a, ha, hlate⟩ := hknown
  unfold executeMember
  rw [hnone]
  simp only [isSome_none, Bool.false_eq_true, if_false]
  split
  next hfinalizing =>
    refine .finalize (.refl m s) hends hkeyed ⟨a, ha⟩ rfl (fun _ hq => ?_) none _ env.now
    rw [hfinalizing] at hq
    cases hq
  rename_i hgoes
  split
  next herror =>
    refine .finalize (.refl m s) hends hkeyed ⟨a, ha⟩ rfl (fun hm hq => ?_) none _ env.now
    unfold startRun at herror
    rw [if_pos (show m = s.rows.rootMemberId from hm)] at herror
    have hcan := transitionRun_error herror
    rw [hq] at hcan
    cases hcan
  next rows hstart =>
    have ⟨hpre, hmembers, hrun⟩ := startRun_eq hstart
    have ha' : rows.statusOf m = some a := by
      unfold Rows.statusOf
      rw [hmembers]
      exact ha
    split
    next herror => exact .finalize hpre hends hkeyed ⟨a, ha'⟩ rfl hrun none _ env.now
    rename_i prepared hok
    have hmoves := transitionMember_moves hok
    have hstatus := transitionMember_statusOf hok
    have ⟨member, _, hget, hcan, hrows⟩ := transitionMember_eq hok
    have hqueued : a = .queued := by
      have hsame : a = member.status :=
        some.inj (ha'.symm.trans (statusOf_eq_some.mpr ⟨member, hget, rfl⟩))
      rcases hlate with hqueued | hlate
      · exact hqueued
      · have hreach := reaches_of_transition (hsame ▸ hcan)
        exact absurd (hlate.reaches hreach) (by unfold Late; decide)
    have hmoves' : rows.Moves prepared.appendTimeline
        (fun m' a => m' = m ∧ a ≠ .queued ∧ a.terminal = false)
        (fun a => m = s.rootMemberId ∧ a ≠ .queued ∧ a.terminal = false) := by
      refine (hmoves.mono (fun m' a ha => ⟨ha.1, ?_⟩) fun _ h => h.elim).trans
        (.of_fields (Nat.le_refl _) rfl)
      rw [ha.2]
      exact ⟨by decide, rfl⟩
    refine prepareMember_piece ⟨⟨⟨_, _, _, rfl⟩, hpre.moves.trans hmoves', fun hsome => ?_,
      fun hnil => ?_, .inr ⟨rfl, hnone, hqueued ▸ ha, hgoes⟩, .inl rfl⟩,
      hends, hkeyed, ⟨_, hstatus, by decide⟩, fun hm hq => ?_⟩ ⟨rfl, .inl ?_⟩ rfl env
    · have hsome := hpre.space hsome
      rw [hrows]
      exact hsome
    · rw [hrows] at hnil
      exact hpre.resources hnil
    · rw [hrows] at hq
      exact hrun hm hq
    · simp

/-! ## Behind an `await` -/

theorem createSession_piece (h : Going m s s) (hx : s.controllers.get? m = some x)
    (hphase : Phase.Early x.phase) (hmember : x.cleanup.memberId = m)
    (tools : Except AgentRunError Unit) (now : Nat) :
    Piece m s (s.createSession m x tools now) := by
  unfold createSession
  simp only
  split
  · refine h.endWith ?_ none _ now
    exact hmember
  split
  · refine h.endWith ?_ none _ now
    exact hmember
  split
  · have hgoing : Going m s { s with created := s.created ++ [m] } := by
      refine ⟨⟨⟨_, _, _, rfl⟩, h.pre.moves, id, id, .inl rfl, ?_⟩, h.ends, h.keyed,
        h.status, h.run⟩
      exact .inr ⟨rfl, x, hx, hphase⟩
    refine hgoing.suspend ?_ id fun h => h.elim
    exact hmember
  · refine h.endWith ?_ none _ now
    exact hmember

section

variable (h : Going m s u)

include h

theorem poll_piece (hmember : x.cleanup.memberId = m) (now : Nat) : Piece m s (u.poll m x now) := by
  unfold poll
  split
  · exact h.endWith hmember none _ now
  · exact h.suspend hmember id fun h => h.elim

theorem sessionCreated_piece (hmember : x.cleanup.memberId = m)
    (session : CreatedSession) (now : Nat) : Piece m s (u.sessionCreated m x session now) := by
  unfold sessionCreated
  simp only
  split
  · refine h.endWith ?_ none _ now
    exact hmember
  rename_i rows resourceId hregister
  have ⟨r, hr, _⟩ := register_mem hregister
  have ⟨_, _, hrows, _⟩ := register_eq hregister
  have hsome : (rows.transition resourceId .ready).resources ≠ [] := by
    intro hnil
    rw [map_eq_nil_iff.mp hnil] at hr
    cases hr
  have hregistered : Going m s { u with rows := rows.transition resourceId .ready } := by
    refine h.rows ((register_moves hregister).trans ?_) ?_ fun hnil => absurd hnil hsome
    · exact .of_fields (Nat.le_refl _) rfl
    · rw [hrows]
      exact id
  split
  · refine hregistered.endWith ?_ none _ now
    exact hmember
  rename_i running hrunning
  have hmoves := transitionMember_moves hrunning
  have ⟨_, _, _, _, hrows⟩ := transitionMember_eq hrunning
  have hgoing : Going m s { u with rows := running } := by
    refine hregistered.rows (hmoves.mono (fun m' a ha => ⟨ha.1, ?_⟩) fun _ h => h.elim) ?_ ?_
    · rw [ha.2]
      exact ⟨(fun h => by cases h), rfl⟩
    · rw [hrows]
      exact id
    · rw [hrows]
      exact fun hnil => absurd hnil hsome
  have hroot : running.rootMemberId = s.rootMemberId := hgoing.pre.moves.rootMemberId
  split
  · refine hgoing.endWith ?_ none _ now
    exact hmember
  rename_i started hstarted
  have hsome' : running.resources ≠ [] := by
    rw [hrows]
    exact hsome
  refine poll_piece (hgoing.rows ?_ ?_ ?_) ?_ now
  · split at hstarted
    next hm =>
      refine ((transitionRun_moves hstarted).mono (fun _ _ h => h.elim) fun a ha => ?_).trans
        (.of_fields (Nat.le_refl _) rfl)
      rw [ha]
      exact ⟨hm.trans hroot, (fun h => by cases h), rfl⟩
    · cases hstarted
      exact .of_fields (Nat.le_refl _) rfl
  · split at hstarted
    · have ⟨_, _, _, _, _, hrows⟩ := transitionRun_eq hstarted
      rw [hrows]
      exact id
    · cases hstarted
      exact id
  · split at hstarted
    · have ⟨_, _, _, _, _, hrows⟩ := transitionRun_eq hstarted
      rw [hrows]
      exact fun hnil => absurd hnil hsome'
    · cases hstarted
      exact fun hnil => absurd hnil hsome'
  · exact hmember

theorem ensureRunDirectory_piece (hearly : Going.Early m s u)
    (hmember : x.cleanup.memberId = m) (failure : Option AgentRunError) : Piece m s (u.ensureRunDirectory m x failure) := by
  have hupdate {rows updated : Rows} {patch : AgentRunSharedSpaceRecord → AgentRunSharedSpaceRecord}
      (hg : Going m s { u with rows }) (hok : rows.updateSharedSpace patch = .ok updated) :
      Going m s { u with rows := updated } := by
    have ⟨_, _, hrows⟩ := updateSharedSpace_eq hok
    subst hrows
    exact hg.rows (.of_fields (Nat.le_refl _) rfl) (fun _ => rfl) id
  unfold ensureRunDirectory
  simp only
  split
  · split
    · exact h.suspend hmember id fun _ => hearly
    next hok => exact (hupdate h hok).suspend hmember id fun _ => hearly
  split
  · split
    · exact h.suspend hmember id fun _ => hearly
    next hok => exact (hupdate h hok).suspend hmember id fun _ => hearly
  rename_i rows hok
  have hactive := hupdate h hok
  split
  · split
    · exact hactive.suspend hmember id fun _ => hearly
    next hok => exact (hupdate hactive hok).suspend hmember id fun _ => hearly
  rename_i registered hregister
  have ⟨_, _, hrows, _⟩ := register_eq hregister
  refine Going.suspend (hactive.rows (register_moves hregister) ?_ ?_) hmember id
    fun _ => hearly
  · rw [hrows]
    exact id
  · rw [hrows]
    exact fun hnil => (append_eq_nil_iff.mp hnil).1

theorem inspected_piece (hmember : x.cleanup.memberId = m)
    (answer : SessionStatus) (usageBytes otherUsage : Nat) :
    Piece m s (u.inspected m x answer usageBytes otherUsage) := by
  unfold inspected
  split
  · exact h.suspend hmember id fun h => h.elim
  · refine Going.suspend (h.rows ?_ (fun _ => rfl) id) hmember id fun h => h.elim
    exact .of_fields (Nat.le_refl _) rfl

end

theorem Base.going (h : Base s []) (hx : s.controllers.get? m = some x) : Going m s s := by
  have hexecuting := h.executing m x hx
  have ⟨a, ha, haq⟩ := hexecuting.status
  refine ⟨.refl m s, h.runEnds, h.keyed, ⟨a, ha, haq⟩, fun hm hq => ?_⟩
  have hroot := h.runQueued hq
  rw [← hm, ha] at hroot
  exact haq (some.inj hroot)

theorem finished_effect (h : Going m s s) (hlate : s.IsLate m)
    (hended : s.Terminal m ∨ s.Attended m) : Effect m s
      { s with controllers := s.controllers.erase m, settled := s.settled + 1 } := by
  have ⟨a, ha, hlate⟩ := hlate
  have herased : (s.controllers.erase m).get? m = none := get?_erase_self _ _
  have hdead : ¬ { s with
      controllers := s.controllers.erase m, settled := s.settled + 1 : AgentRunState }.Live m := by
    intro ⟨x, hx, _⟩
    rw [show (s.controllers.erase m).get? m = some x from hx] at herased
    cases herased
  exact
    { scheduler := rfl
      submitted := rfl
      listings := rfl
      recoveries := rfl
      moves := .refl _ _ _
      others := fun m' hne => get?_erase_ne _ hne
      own := fun x' hx' => by
        rw [herased] at hx'
        cases hx'
      newTimers := fun c hc => .inl hc
      oldTimers := fun c hc _ => hc
      newRetries := fun r hr => .inl hr
      oldRetries := fun r hr _ => hr
      keyed := id
      status := ⟨a, ha, hlate.ne_queued, .inr hlate, fun hfalse => by
        rcases hended with ⟨b, hb, hterminal⟩ | hattended
        · rw [some.inj (ha.symm.trans hb), hterminal] at hfalse
          cases hfalse
        · exact .inr hattended⟩
      runStatus := h.run
      managed := .inl rfl
      runEnds := h.ends
      slots := .inr (.inr ⟨hdead, rfl⟩)
      spaceKept := id
      runEnded := .inl
      rootEnded := fun _ h => .inr (.inl h)
      retried := fun c hc => .inl hc
      resources := id
      executedLog := .inl rfl
      createdLog := .inl rfl
      early := fun x' hx' => by
        rw [show (s.controllers.erase m).get? m = some x' from hx'] at herased
        cases herased }

theorem resume_piece (h : Base s []) (hx : s.controllers.get? m = some x)
    (hresume : s.resume m x now x.phase settlement = some t) :
    Piece m s t ∨ (∃ a failure, x.phase = .finalizing a ∧ settlement = .cleanup failure ∧
        t = afterFinalize m x (s.resumeCleanup x.cleanup now a failure)) ∨
      (x.phase = .finished ∧
        t = { s with controllers := s.controllers.erase m, settled := s.settled + 1 }) := by
  have hgoing := h.going hx
  have hmember := (h.executing m x hx).memberId
  have hearly (hphase : Phase.Early x.phase) : Going.Early m s s := ⟨rfl, .inr ⟨x, hx, hphase⟩⟩
  unfold resume at hresume
  split at hresume
  case h_1 _ _ _ hphase =>
    cases hresume
    exact .inl (ensureRunDirectory_piece hgoing (hearly (by rw [hphase]; trivial)) hmember _)
  case h_3 _ _ _ hphase =>
    cases hresume
    exact .inl (materialize_piece hgoing (hearly (by rw [hphase]; trivial)) hmember _ now)
  case h_5 _ _ _ hphase =>
    cases hresume
    exact .inl (createSession_piece hgoing hx (by rw [hphase]; trivial) hmember _ now)
  case h_7 =>
    cases hresume
    exact .inl (sessionCreated_piece hgoing hmember _ now)
  case h_9 =>
    cases hresume
    refine .inl (hgoing.suspend ?_ (fun h => ?_) fun h => ?_)
    · exact hmember
    · split at h <;> exact h
    · split at h <;> exact h.elim
  case h_10 =>
    cases hresume
    refine .inl (hgoing.suspend ?_ id fun h => h.elim)
    exact hmember
  case h_11 =>
    cases hresume
    exact .inl (inspected_piece hgoing hmember _ _ _)
  case h_15 =>
    cases hresume
    refine .inl (hgoing.suspend ?_ id fun h => h.elim)
    exact hmember
  case h_16 =>
    cases hresume
    exact .inl (poll_piece hgoing hmember now)
  case h_17 _ _ a failure hphase =>
    cases hresume
    exact .inr (.inl ⟨a, failure, hphase, rfl, rfl⟩)
  case h_18 _ _ hphase =>
    cases hresume
    exact .inr (.inr ⟨hphase, rfl⟩)
  case h_19 => cases hresume
  all_goals
    cases hresume
    exact .inl (hgoing.endWith hmember _ _ now)

theorem resume_phase (hresume : s.resume m x now x.phase settlement = some t) :
    x.phase ≠ .rejected := by
  intro heq
  rw [heq] at hresume
  cases settlement <;> cases hresume

theorem resume_effect (h : Base s []) (hx : s.controllers.get? m = some x)
    (hresume : s.resume m x now x.phase settlement = some t) : Effect m s t := by
  have hgoing := h.going hx
  have hexecuting := h.executing m x hx
  rcases resume_piece h hx hresume with hpiece | ⟨a, failure, hphase, _, rfl⟩ | ⟨hphase, rfl⟩
  · exact hpiece.effect
  · have hlate := hexecuting.ending (by rw [hphase]; trivial)
    exact afterFinalize_effect (.refl m s) h.runEnds h.keyed hexecuting.memberId
      (resumeCleanup_concluded now a failure (hexecuting.memberId.symm ▸ hlate) h.runEnds) hgoing.run
  · have hlate := hexecuting.ending (by rw [hphase]; trivial)
    exact finished_effect hgoing hlate (hexecuting.finished hphase)

/-! ## Retries -/

theorem mem_eraseIdx_of_ne {α : Type} {l : List α} {a b : α}
    (ha : l[index]? = some a) (hb : b ∈ l) (hne : b ≠ a) : b ∈ l.eraseIdx index := by
  have ⟨i, hi⟩ := mem_iff_getElem?.mp hb
  refine mem_eraseIdx_iff_getElem?.mpr ⟨i, fun heq => hne ?_, hi⟩
  rw [heq, ha] at hi
  exact (some.inj hi).symm

theorem afterRetry_effect (hends : s.RunEndsWithRoot)
    (hkeyed : s.Keyed) (hrun : c.memberId = s.rootMemberId → s.rows.status ≠ .queued)
    (hown : ∀ x, s.controllers.get? c.memberId = some x → x.cleanup.memberId = c.memberId)
    (hc : Concluded c s r) : Effect c.memberId s (afterRetry c r) := by
  have ⟨_, _, _, _, hframe⟩ := hc.frame
  have hdone := hc.done hkeyed
  have hthrew := hc.threw
  obtain ⟨r, f⟩ := r
  have hsame : r.controllers = s.controllers ∧ r.retries = s.retries ∧ r.settled = s.settled := by
    subst hframe
    exact ⟨rfl, rfl, rfl⟩
  have ⟨hcontrollers, hretries, hsettled⟩ := hsame
  have hgoes (retries : List (Cleanup × CleanupAwait))
      (hnew : ∀ e ∈ retries, e ∈ s.retries ∨ e.1.memberId = c.memberId)
      (hold : ∀ e ∈ s.retries, e ∈ retries)
      (hactive : r.Terminal c.memberId ∨ Attended { r with retries } c.memberId) :
      Effect c.memberId s { r with retries } := by
    refine hc.effect (.refl _ s) hends hkeyed rfl hrun (fun m' _ => by rw [hcontrollers])
      (fun x hx => ?_) (fun x hx hphase => ?_) hnew hold (hactive.imp_right .inr)
      (.inl ⟨hcontrollers, hsettled⟩)
    · exact ⟨hown x (hcontrollers ▸ hx), fun _ => hactive⟩
    · exact ⟨rfl, x, hcontrollers ▸ hx, hphase⟩
  cases f with
  | awaiting a =>
    refine hgoes _ (fun e he => ?_) (fun e he => ?_) (.inr (.inl (.inr ⟨(c, a), ?_, rfl⟩)))
    · rcases mem_concat.mp he with hold | hnew
      · exact .inl (hretries ▸ hold)
      · exact .inr (by rw [hnew])
    · exact mem_append_left _ (hretries.symm ▸ he)
    · exact mem_append_right _ (mem_singleton_self _)
  | done =>
    refine hgoes r.retries (fun e he => .inl (hretries ▸ he)) (fun e he => hretries.symm ▸ he) ?_
    exact hdone rfl
  | threw =>
    exact hgoes r.retries (fun e he => .inl (hretries ▸ he))
      (fun e he => hretries.symm ▸ he) (.inl (hthrew rfl))

theorem Base.retry (h : Base s []) (hretrying : s.Retrying m) :
    s.IsLate m ∧ (m = s.rootMemberId → s.rows.status ≠ .queued) ∧
      ∀ x, s.controllers.get? m = some x → x.cleanup.memberId = m := by
  have ⟨a, ha, hlate⟩ := h.retrying m hretrying
  refine ⟨⟨a, ha, hlate⟩, fun hm hq => ?_, fun x hx => (h.executing m x hx).memberId⟩
  have hroot := h.runQueued hq
  rw [← hm, ha] at hroot
  exact hlate.ne_queued (some.inj hroot)

theorem fireTimer_effect (h : Base s []) (hget : s.timers[index]? = some c) (now : Nat) :
    Effect c.memberId s
      (afterRetry c (finalizeMember { s with timers := s.timers.eraseIdx index } c now)) := by
  have hmem : c ∈ s.timers := mem_of_getElem? hget
  have ⟨⟨a, ha, hlate⟩, hrun, hown⟩ := h.retry (m := c.memberId) (.inl ⟨c, hmem, rfl⟩)
  let s' : AgentRunState := { s with timers := s.timers.eraseIdx index }
  have hsub : ∀ c' ∈ s'.timers, c' ∈ s.timers := fun c' hc' => mem_of_mem_eraseIdx hc'
  have hrest : ∀ c' ∈ s.timers, c'.memberId ≠ c.memberId → c' ∈ s'.timers :=
    fun c' hc' hne => mem_eraseIdx_of_ne hget hc' fun heq => hne (by rw [heq])
  have hkeyed : (s'.unkey c.memberId).Keyed := by
    intro m hm
    have ⟨hin, hne⟩ := mem_filter.mp hm
    have ⟨c', hc', hcm⟩ := h.keyed m hin
    exact ⟨c', hrest c' hc' (hcm ▸ of_decide_eq_true hne), hcm⟩
  have he := afterRetry_effect (s := s'.unkey c.memberId) h.runEnds hkeyed hrun hown
    (finalizeMember_concluded now ha h.runEnds)
  exact
    { he with
      newTimers := fun c' hc' => (he.newTimers c' hc').imp_left (hsub c')
      oldTimers := fun c' hc' hne => he.oldTimers c' (hrest c' hc' hne) hne
      keyed := fun _ => he.keyed hkeyed
      retried := fun c' hc' => (he.retried c' hc').imp_left (hsub c') }

theorem settleRetry_effect (h : Base s []) {a : CleanupAwait}
    (hget : s.retries[index]? = some (c, a)) (failure : Option AgentRunError) (now : Nat) :
    Effect c.memberId s (afterRetry c
        (resumeCleanup { s with retries := s.retries.eraseIdx index } c now a failure)) := by
  have hmem : (c, a) ∈ s.retries := mem_of_getElem? hget
  have ⟨hlate, hrun, hown⟩ := h.retry (m := c.memberId) (.inr ⟨(c, a), hmem, rfl⟩)
  let s' : AgentRunState := { s with retries := s.retries.eraseIdx index }
  have hsub : ∀ e ∈ s'.retries, e ∈ s.retries := fun e he => mem_of_mem_eraseIdx he
  have hrest : ∀ e ∈ s.retries, e.1.memberId ≠ c.memberId → e ∈ s'.retries :=
    fun e he hne => mem_eraseIdx_of_ne hget he fun heq => hne (by rw [heq])
  have he := afterRetry_effect (s := s') h.runEnds h.keyed hrun hown
    (resumeCleanup_concluded now a failure hlate h.runEnds)
  exact
    { he with
      newRetries := fun e hin => (he.newRetries e hin).imp_left (hsub e)
      oldRetries := fun e hin hne => he.oldRetries e (hrest e hin hne) hne }

/-! ## Queued members that fail -/

/-- A queued member fails, and with its root the run. -/
structure Failed (m : MemberId) (s : AgentRunState) (rows : Rows) (managed : Bool) : Prop where
  moves : s.rows.Moves rows (fun m' a => m' = m ∧ a.Late) fun a => m = s.rootMemberId ∧ a.Late
  status : rows.statusOf m = some .failed
  sharedSpace : rows.sharedSpace = s.rows.sharedSpace
  resources : rows.resources = s.rows.resources
  run : m = s.rootMemberId ∧ managed = false ∧ rows.status = .failed ∨
    m ≠ s.rootMemberId ∧ managed = s.managed ∧ rows.status = s.rows.status

theorem failQueued_cases (s : AgentRunState) (m : MemberId) (reason : SchedulerSkipReason)
    (hroot : s.statusOf s.rootMemberId = some .queued → s.rows.status.terminal = false) :
    s.statusOf m ≠ some .queued ∧ s.failQueued m reason = s ∨ s.statusOf m = some .queued ∧
        ∃ rows managed, s.failQueued m reason = { s with rows, managed } ∧
          Failed m s rows managed := by
  unfold failQueued
  split
  next hnone =>
    refine .inl ⟨fun h => ?_, rfl⟩
    have ⟨_, hget, _⟩ := statusOf_eq_some.mp h
    rw [hnone] at hget
    cases hget
  rename_i member hget
  have hstatus : s.statusOf m = some member.status := statusOf_eq_some.mpr ⟨member, hget, rfl⟩
  split
  swap
  next hother =>
    refine .inl ⟨fun h => hother ?_, rfl⟩
    exact some.inj (hstatus.symm.trans h)
  rename_i hqueued
  rw [hqueued] at hstatus
  refine .inr ⟨hstatus, ?_⟩
  simp only
  split
  next herror =>
    have hcan := transitionMember_error hstatus herror
    cases hcan
  rename_i finalizing hfinalizing
  split
  next herror =>
    have hcan := transitionMember_error (transitionMember_statusOf hfinalizing) herror
    cases hcan
  rename_i failed hfailed
  have hmoves : s.rows.Moves failed (fun m' a => m' = m ∧ a.Late)
      fun a => m = s.rootMemberId ∧ a.Late := by
    refine ((transitionMember_moves hfinalizing).mono (fun m' a ha => ?_)
      fun _ h => h.elim).trans ((transitionMember_moves hfailed).mono (fun m' a ha => ?_)
      fun _ h => h.elim)
    · exact ⟨ha.1, ha.2 ▸ late_finalizing⟩
    · exact ⟨ha.1, ha.2 ▸ .of_terminal rfl⟩
  have hend := transitionMember_statusOf hfailed
  have ⟨_, _, _, _, hrows⟩ := transitionMember_eq hfinalizing
  have ⟨_, _, _, _, hrows'⟩ := transitionMember_eq hfailed
  have hsame : failed.status = s.rows.status ∧ failed.sharedSpace = s.rows.sharedSpace ∧
      failed.resources = s.rows.resources ∧ failed.rootMemberId = s.rootMemberId := by
    rw [hrows', hrows]
    exact ⟨rfl, rfl, rfl, rfl⟩
  have ⟨hrun, hspace, hresources, hrootId⟩ := hsame
  split
  swap
  next hm =>
    have hm : m ≠ s.rootMemberId := fun h => hm (h.trans hrootId.symm)
    exact ⟨failed, s.managed, rfl, hmoves, hend, hspace, hresources, .inr ⟨hm, rfl, hrun⟩⟩
  rename_i hm
  have hm : m = s.rootMemberId := hm.trans hrootId
  split
  next herror =>
    have hterminal := finalizeRun_error herror
    rw [hrun, hroot (hm ▸ hstatus)] at hterminal
    cases hterminal
  rename_i ending hending
  have ⟨hlive, _, _, _, _, hrows⟩ := finalizeRun_eq hending
  split
  next herror =>
    have hcan := transitionRun_error herror
    rw [hrows] at hcan
    cases hcan
  rename_i ended hended
  have ⟨_, _, _, _, _, hrows'⟩ := transitionRun_eq hended
  refine ⟨ended, false, rfl, ?_, ?_, ?_, ?_, .inl ⟨hm, rfl, ?_⟩⟩
  · refine hmoves.trans ?_
    rw [hrows', hrows]
    exact ⟨rfl, rfl, rfl, Nat.le_refl _, fun _ a h => ⟨a, h, rfl, rfl, .inl rfl⟩,
      .inr ⟨reaches_terminal hlive rfl, hm, .of_terminal rfl⟩⟩
  · rw [hrows', hrows]
    exact hend
  · rw [hrows', hrows]
    exact hspace
  · rw [hrows', hrows]
    exact hresources
  · rw [hrows']

theorem Failed.effect {rows : Rows} {managed : Bool} (h : Failed m s rows managed)
    (hqueued : s.statusOf m = some .queued) (hends : s.RunEndsWithRoot)
    (hnone : s.controllers.get? m = none) : Effect m s { s with rows, managed } := by
  have hended : Terminal { s with rows, managed } m := ⟨_, h.status, rfl⟩
  exact
    { scheduler := rfl
      submitted := rfl
      listings := rfl
      recoveries := rfl
      moves := h.moves.mono (fun _ _ h => ⟨h.1, h.2.ne_queued⟩) fun _ h => ⟨h.1, h.2.ne_queued⟩
      others := fun _ _ => rfl
      own := fun x hx => by
        rw [show s.controllers.get? m = some x from hx] at hnone
        cases hnone
      newTimers := fun c hc => .inl hc
      oldTimers := fun c hc _ => hc
      newRetries := fun r hr => .inl hr
      oldRetries := fun r hr _ => hr
      keyed := id
      status := ⟨_, h.status, (fun h => by cases h), .inr (.of_terminal rfl), fun h => by cases h⟩
      runStatus := fun hm hq => by
        rcases h.run with ⟨_, _, hfailed⟩ | ⟨hne, _⟩
        · rw [show rows.status = .queued from hq] at hfailed
          cases hfailed
        · exact hne hm
      managed := by
        rcases h.run with ⟨_, hfalse, hfailed⟩ | ⟨_, hsame, _⟩
        · exact .inr ⟨hfalse, by rw [show rows.status = .failed from hfailed]; rfl⟩
        · exact .inl hsame
      runEnds := fun hterminal => by
        have hroot : rows.rootMemberId = s.rootMemberId := h.moves.rootMemberId
        show Terminal { s with rows, managed } rows.rootMemberId
        rw [hroot]
        rcases h.run with ⟨hm, _⟩ | ⟨_, _, hsame⟩
        · exact hm ▸ hended
        · exact (hends (hsame ▸ hterminal)).move (t := { s with rows, managed }) h.moves
      slots := .inl ⟨rfl, rfl⟩
      spaceKept := fun hspace => by
        rw [h.sharedSpace]
        exact hspace
      runEnded := fun hterminal => by
        rcases h.run with ⟨hm, _⟩ | ⟨_, _, hsame⟩
        · exact .inr ⟨hm, .inr hqueued⟩
        · exact .inl (hsame ▸ hterminal)
      rootEnded := fun hm _ => by
        rcases h.run with ⟨_, _, hfailed⟩ | ⟨hne, _⟩
        · exact .inl (by rw [show rows.status = .failed from hfailed]; rfl)
        · exact absurd hm hne
      retried := fun c hc => .inl hc
      resources := fun hnil => h.resources ▸ hnil
      executedLog := .inl rfl
      createdLog := .inl rfl
      early := fun x hx => by
        rw [show s.controllers.get? m = some x from hx] at hnone
        cases hnone }

end TaskHandoff.AgentRuns.AgentRunState
