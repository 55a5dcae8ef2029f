import TaskHandoff.AgentRuns.Moves

/-! # What a finalization does

A finalization goes on until it awaits, is done or throws. `Concluded` says what it has done to the
run by then; every part of `finalizeMember` meets it. -/

namespace TaskHandoff.AgentRuns.AgentRunState

open AgentRunStatus Rows List

def statusOf (s : AgentRunState) (m : MemberId) : Option AgentRunStatus := s.rows.statusOf m

def Terminal (s : AgentRunState) (m : MemberId) : Prop :=
  ∃ a, s.statusOf m = some a ∧ a.terminal = true

def IsLate (s : AgentRunState) (m : MemberId) : Prop := ∃ a, s.statusOf m = some a ∧ a.Late

/-- A retry of the cleanup of the member is scheduled or goes on. -/
def Retrying (s : AgentRunState) (m : MemberId) : Prop :=
  (∃ c ∈ s.timers, c.memberId = m) ∨ ∃ r ∈ s.retries, r.1.memberId = m

/-- Its cleanup is retried, unless the coordinator has stopped. -/
def Attended (s : AgentRunState) (m : MemberId) : Prop := s.Retrying m ∨ s.accepting = false

/-- Every key that blocks another retry belongs to a timer. -/
def Keyed (s : AgentRunState) : Prop :=
  ∀ m ∈ s.cleanupRetryTimers, ∃ c ∈ s.timers, c.memberId = m

/-- The space is kept until its time. -/
def Retained (rows : Rows) : Prop :=
  ∃ space, rows.sharedSpace = some space ∧ space.state = .retained ∧ space.expiresAt.isSome = true

/-- The resources are the same up to their phases. -/
def SameResources (s t : Rows) : Prop :=
  ∃ f : AgentRunResourceRecord → AgentRunResourceRecord, t.resources = s.resources.map f ∧
    ∀ r, (f r).kind = r.kind ∧ (f r).instanceId = r.instanceId

theorem SameResources.refl (s : Rows) : SameResources s s := ⟨id, by simp, fun _ => ⟨rfl, rfl⟩⟩

theorem SameResources.trans {s t u : Rows} (h : SameResources s t) (h' : SameResources t u) :
    SameResources s u := by
  have ⟨f, hf, hsame⟩ := h
  have ⟨g, hg, hsame'⟩ := h'
  refine ⟨g ∘ f, by rw [hg, hf, map_map], fun r => ?_⟩
  exact ⟨(hsame' (f r)).1.trans (hsame r).1, (hsame' (f r)).2.trans (hsame r).2⟩

theorem SameResources.of_eq {s t : Rows} (h : t.resources = s.resources) : SameResources s t :=
  ⟨id, by simp [h], fun _ => ⟨rfl, rfl⟩⟩

/-- What a finalization with these arguments has done so far. -/
structure Concluded (c : Cleanup) (s : AgentRunState) (r : AgentRunState × Finalized) : Prop where
  frame : ∃ rows managed keys timers,
    r.1 = { s with rows, managed, cleanupRetryTimers := keys, timers }
  moves : s.rows.Moves r.1.rows (fun m a => m = c.memberId ∧ a.Late)
    (fun a => c.memberId = s.rootMemberId ∧ a.Late)
  timers : ∃ new, r.1.timers = s.timers ++ new ∧
    (∀ c' ∈ new, c'.memberId = c.memberId ∧ c'.error = c.error ∧ c'.result = c.result) ∧
    new.length ≤ 1 ∧ ∀ a, r.2 = .awaiting a → new = []
  keyed : s.Keyed → r.1.Keyed
  late : r.1.IsLate c.memberId
  done : s.Keyed → r.2 = .done → r.1.Terminal c.memberId ∨ r.1.Attended c.memberId
  threw : r.2 = .threw → r.1.Terminal c.memberId
  managed : r.1.managed = s.managed ∨ r.1.managed = false ∧ r.1.rows.status.terminal = true
  runEnds : r.1.rows.status.terminal = true → s.rows.status.terminal = true ∨
    c.memberId = s.rootMemberId ∧ r.1.Terminal c.memberId ∧ Retained r.1.rows
  space : r.1.rows.sharedSpace = s.rows.sharedSpace ∨
    Retained r.1.rows ∧ s.rows.sharedSpace.isSome = true ∧ r.1.rows.status.terminal = true
  resources : SameResources s.rows r.1.rows
  /-- Behind the end of the root the run is at its end, or its shared space is missing. -/
  rootEnds : c.memberId = s.rootMemberId → r.1.Terminal c.memberId →
    r.1.rows.status.terminal = true ∨ s.Terminal c.memberId ∨ s.rows.sharedSpace = none
  /-- A retry is scheduled for a member that is not at its end, or for a missing space. -/
  retried : r.1.timers ≠ s.timers → ¬ r.1.Terminal c.memberId ∨
    c.memberId = s.rootMemberId ∧ s.rows.sharedSpace = none ∧ r.1.rows.status.terminal = false
  status : ∀ a, r.1.statusOf c.memberId = some a → a.terminal = true →
    s.statusOf c.memberId = some a ∨ a = finalStatus c (s.isCancelled c)
  runStatus : r.1.rows.status.terminal = true → s.rows.status.terminal = true ∨
    r.1.rows.status = finalStatus c (s.isCancelled c)

variable {s t : AgentRunState} {c : Cleanup} {a : AgentRunStatus} {rows : Rows}

theorem reaches_terminal {b : AgentRunStatus} (ha : a.terminal = false) (hb : b.terminal = true) :
    a.Reaches b := by
  revert ha hb
  unfold Reaches
  cases a <;> cases b <;> decide

theorem finalStatus_terminal (c : Cleanup) (cancelled : Bool) :
    (finalStatus c cancelled).terminal = true := by
  unfold finalStatus
  split
  · split <;> rfl
  · rfl

theorem IsLate.of_terminal {m : MemberId} (h : s.Terminal m) : s.IsLate m := by
  have ⟨a, ha, hterminal⟩ := h
  exact ⟨a, ha, .of_terminal hterminal⟩

/-! ## Retries -/

theorem scheduleCleanupRetry_eq (s : AgentRunState) (c : Cleanup) :
    ∃ keys new, s.scheduleCleanupRetry c =
        { s with cleanupRetryTimers := keys, timers := s.timers ++ new } ∧
      (∀ c' ∈ new, c' = c) ∧ new.length ≤ 1 ∧ (s.Keyed → (s.scheduleCleanupRetry c).Keyed) ∧
      (s.Keyed → (s.scheduleCleanupRetry c).Attended c.memberId) := by
  unfold scheduleCleanupRetry
  split
  next hstopped =>
    refine ⟨s.cleanupRetryTimers, [], by simp, by simp, Nat.zero_le _, id, fun _ => .inr ?_⟩
    simpa using hstopped
  split
  next hhas =>
    refine ⟨s.cleanupRetryTimers, [], by simp, by simp, Nat.zero_le _, id, fun hkeyed => ?_⟩
    exact .inl (.inl (hkeyed c.memberId (contains_iff_mem.mp hhas)))
  · refine ⟨_, [c], rfl, fun c' h => mem_singleton.mp h, Nat.le_refl _,
      fun hkeyed m hm => ?_, fun _ => ?_⟩
    · rcases mem_concat.mp hm with hold | rfl
      · have ⟨c', hc', hm'⟩ := hkeyed m hold
        exact ⟨c', mem_append_left _ hc', hm'⟩
      · exact ⟨c, mem_append_right _ mem_cons_self, rfl⟩
    · exact .inl (.inl ⟨c, mem_append_right _ mem_cons_self, rfl⟩)

/-! ## The end of the run -/

theorem finalizeRun_eq {rows' : Rows} (h : finalizeRun rows = .ok rows') :
    rows.status.terminal = false ∧ ∃ revision result error cleanup,
      rows' = { rows with status := .finalizing, revision, result, error, cleanup } := by
  unfold finalizeRun at h
  split at h
  next hfinal =>
    cases h
    exact ⟨by rw [hfinal]; rfl, rows.revision, rows.result, rows.error, rows.cleanup,
      by rw [← hfinal]⟩
  · have ⟨hcan, heq⟩ := transitionRun_eq h
    exact ⟨transition_finalizing.mp hcan, heq⟩

theorem finalizeRun_error {e : AgentRunError} (h : finalizeRun rows = .error e) :
    rows.status.terminal = true := by
  unfold finalizeRun at h
  split at h
  · cases h
  have hcan := transitionRun_error h
  cases hterminal : rows.status.terminal with
  | true => rfl
  | false => rw [transition_finalizing.mpr hterminal] at hcan; cases hcan

variable {status : AgentRunStatus}

theorem concludeRun_cases (s : AgentRunState) (c : Cleanup) (now : Nat)
    (hstatus : status.terminal = true) :
    (s.rows.status.terminal = true ∧ s.concludeRun c status now = (s, .threw)) ∨
      (s.rows.status.terminal = false ∧ s.rows.sharedSpace = none ∧
        ∃ c' revision result error cleanup, c'.memberId = c.memberId ∧ c'.error = c.error ∧
          c'.result = c.result ∧ s.concludeRun c status now = (scheduleCleanupRetry { s with rows :=
              { s.rows with status := .finalizing, revision, result, error, cleanup } } c', .done)) ∨
      (s.rows.status.terminal = false ∧ ∃ space revision result error cleanup,
        s.rows.sharedSpace = some space ∧ s.concludeRun c status now = ({ s with
            rows := { s.rows with
              status, revision, result, error, cleanup
              sharedSpace := some { space with
                state := .retained
                expiresAt := some (now + sharedSpaceTtlMs) } }
            managed := false }, .done)) := by
  unfold concludeRun retain
  simp only
  split
  next hfinalize => exact .inl ⟨finalizeRun_error hfinalize, rfl⟩
  rename_i rows hfinalize
  have ⟨hlive, _, _, _, _, hrows⟩ := finalizeRun_eq hfinalize
  right
  subst hrows
  split
  next hretain =>
    left
    have hnone := updateSharedSpace_error hretain
    refine ⟨hlive, hnone, ?_⟩
    split
    next herror =>
      have hcan := transitionRun_error herror
      cases hcan
    rename_i hok
    have ⟨_, _, _, _, _, hrows⟩ := transitionRun_eq hok
    subst hrows
    let c' : Cleanup :=
      { c with
        sessionCreated := false
        providerThreadResourceId := none
        workspace := false }
    exact ⟨c', _, _, _, _, rfl, rfl, rfl, rfl⟩
  next hretain =>
    right
    have ⟨space, hspace, hrows⟩ := updateSharedSpace_eq hretain
    subst hrows
    split
    next herror =>
      have hcan := transitionRun_error herror
      rw [(transition_terminal hstatus).mpr (.inl rfl)] at hcan
      cases hcan
    next hok =>
      have ⟨_, _, _, _, _, hrows⟩ := transitionRun_eq hok
      subst hrows
      exact ⟨hlive, space, _, _, _, _, hspace, rfl⟩

variable (now : Nat)

/-- A finalization that ends where it is leaves all as it is. -/
theorem unchanged_concluded {r : Finalized} (hlate : s.IsLate c.memberId)
    (hended : r = .done ∨ r = .threw → s.Terminal c.memberId) : Concluded c s (s, r) where
  frame := ⟨_, _, _, _, rfl⟩
  moves := .refl _ _ _
  timers := ⟨[], by simp, by simp, Nat.zero_le _, fun _ _ => rfl⟩
  keyed := id
  late := hlate
  done := fun _ hdone => .inl (hended (.inl hdone))
  threw := fun hthrew => hended (.inr hthrew)
  managed := .inl rfl
  runEnds := .inl
  space := .inl rfl
  resources := .refl _
  rootEnds := fun _ h => .inr (.inl h)
  retried := absurd rfl
  status := fun b hb _ => .inl hb
  runStatus := .inl

theorem ended_concluded {r : Finalized} (hended : s.Terminal c.memberId) : Concluded c s (s, r) :=
  unchanged_concluded (.of_terminal hended) fun _ => hended

theorem concludeRun_concluded (hroot : c.memberId = s.rootMemberId)
    (hmember : s.statusOf c.memberId = some a) (ha : a.terminal = true)
    (hstatus : status = finalStatus c (s.isCancelled c)) :
    Concluded c s (s.concludeRun c status now) := by
  have hterminal : status.terminal = true := hstatus ▸ finalStatus_terminal _ _
  have hended : s.Terminal c.memberId := ⟨a, hmember, ha⟩
  rcases concludeRun_cases s c now hterminal with ⟨hend, heq⟩ | ⟨hlive, hspace, c', revision,
    result, error, cleanup, hc', herror, hresult, heq⟩ | ⟨hlive, space, revision, result, error,
    cleanup, hspace, heq⟩
  · rw [heq]
    exact ended_concluded hended
  · have ⟨keys, new, hretry, hnew, hone, hkeyed, hthere⟩ := scheduleCleanupRetry_eq
      { s with rows := { s.rows with status := .finalizing, revision, result, error, cleanup } } c'
    rw [heq]
    rw [hretry] at hkeyed hthere
    rw [hretry]
    exact
      { frame := ⟨_, _, _, _, rfl⟩
        moves := ⟨rfl, rfl, rfl, Nat.le_refl _, fun _ a h => ⟨a, h, rfl, rfl, .inl rfl⟩,
          .inr ⟨reaches_of_transition (transition_finalizing.mpr hlive), hroot, late_finalizing⟩⟩
        timers := ⟨new, rfl, fun c'' h => by
          rw [hnew c'' h]
          exact ⟨hc', herror, hresult⟩, hone, by simp⟩
        keyed := hkeyed
        late := .of_terminal hended
        done := fun _ _ => .inl hended
        threw := by simp
        managed := .inl rfl
        runEnds := nofun
        space := .inl rfl
        resources := .of_eq rfl
        rootEnds := fun _ _ => .inr (.inr hspace)
        retried := fun _ => .inr ⟨hroot, hspace, rfl⟩
        status := fun b hb _ => .inl hb
        runStatus := nofun }
  · rw [heq]
    exact
      { frame := ⟨_, _, _, _, rfl⟩
        moves := ⟨rfl, rfl, rfl, Nat.le_refl _, fun _ a h => ⟨a, h, rfl, rfl, .inl rfl⟩,
          .inr ⟨reaches_terminal hlive hterminal, hroot, .of_terminal hterminal⟩⟩
        timers := ⟨[], by simp, by simp, Nat.zero_le _, fun _ _ => rfl⟩
        keyed := id
        late := .of_terminal hended
        done := fun _ _ => .inl hended
        threw := by simp
        managed := .inr ⟨rfl, hterminal⟩
        runEnds := fun _ => .inr ⟨hroot, hended, _, rfl, rfl, rfl⟩
        space := .inr ⟨⟨_, rfl, rfl, rfl⟩, by rw [hspace]; rfl, hterminal⟩
        resources := .of_eq rfl
        rootEnds := fun _ _ => .inl hterminal
        retried := absurd rfl
        status := fun b hb _ => .inl hb
        runStatus := fun _ => .inr hstatus }

/-! ## The parts of a finalization -/

theorem transitionThread_eq (s : AgentRunState) (c : Cleanup) (phase : AgentRunResourcePhase)
    (increment : Bool) : ∃ rows, s.transitionThread c phase increment = { s with rows } ∧
      rows.Moves s.rows (fun _ _ => False) (fun _ => False) ∧
      s.rows.Moves rows (fun _ _ => False) (fun _ => False) ∧
      rows.sharedSpace = s.rows.sharedSpace ∧ SameResources s.rows rows := by
  unfold transitionThread
  split
  · exact ⟨s.rows, rfl, .refl _ _ _, .refl _ _ _, rfl, .refl _⟩
  refine ⟨_, rfl, .of_fields (Nat.le_refl _) rfl,
    .of_fields (Nat.le_refl _) rfl, rfl, _, rfl, fun r => ?_⟩
  split <;> exact ⟨rfl, rfl⟩

theorem Concluded.after {r : AgentRunState × Finalized} (h : Concluded c { s with rows } r)
    (hmoves : s.rows.Moves rows (fun m a => m = c.memberId ∧ a.Late) fun _ => False)
    (hstatus : rows.status = s.rows.status) (hspace : rows.sharedSpace = s.rows.sharedSpace)
    (hresources : SameResources s.rows rows)
    (hended : ∀ a, rows.statusOf c.memberId = some a → a.terminal = true →
      s.statusOf c.memberId = some a ∨ a = finalStatus c (s.isCancelled c))
    (hroot : c.memberId = s.rootMemberId → (∃ a, rows.statusOf c.memberId = some a ∧
      a.terminal = true) → s.Terminal c.memberId ∨ r.1.rows.status.terminal = true ∨
        s.rows.sharedSpace = none) : Concluded c s r := by
  have ⟨_, _, _, _, hframe⟩ := h.frame
  have hsame : rows.rootMemberId = s.rootMemberId := hmoves.rootMemberId
  have hcancelled : isCancelled { s with rows } c = s.isCancelled c := by
    simp only [isCancelled, hstatus]
  have hmoves' : rows.Moves r.1.rows (fun m a => m = c.memberId ∧ a.Late)
      (fun a => c.memberId = s.rootMemberId ∧ a.Late) :=
    h.moves.mono (fun _ _ => id) fun a ha => ⟨ha.1.trans hsame, ha.2⟩
  exact
    { h with
      frame := ⟨_, _, _, _, hframe⟩
      moves := (hmoves.mono (fun _ _ => id) (fun _ h => h.elim)).trans hmoves'
      runEnds := fun hend => by
        rcases h.runEnds hend with hold | ⟨hc, hrest⟩
        · exact .inl (hstatus ▸ hold)
        · exact .inr ⟨hc.trans hsame, hrest⟩
      space := by
        rcases h.space with hold | ⟨hret, hsome, hend⟩
        · exact .inl (hold.trans hspace)
        · exact .inr ⟨hret, hspace ▸ hsome, hend⟩
      resources := hresources.trans h.resources
      rootEnds := fun hc hend => by
        rcases h.rootEnds (hc.trans hsame.symm) hend with hrun | hold | hnone
        · exact .inl hrun
        · rcases hroot hc hold with hterminal | hrun | hnone
          · exact .inr (.inl hterminal)
          · exact .inl hrun
          · exact .inr (.inr hnone)
        · exact .inr (.inr (hspace ▸ hnone))
      retried := fun hne => by
        rcases h.retried hne with hlive | ⟨hc, hnone, hopen⟩
        · exact .inl hlive
        · exact .inr ⟨hc.trans hsame, hspace ▸ hnone, hopen⟩
      status := fun a ha hterminal => by
        rcases h.status a ha hterminal with hold | hfinal
        · exact hended a hold hterminal
        · exact .inr (hcancelled ▸ hfinal)
      runStatus := fun hend => by
        rcases h.runStatus hend with hold | hfinal
        · exact .inl (hstatus ▸ hold)
        · exact .inr (hcancelled ▸ hfinal) }

/-- A retry is scheduled for a member in finalizing; a run may come to finalizing with its root. -/
theorem retry_concluded {revision : Nat} {result : Option AgentRunResult}
    {error : Option AgentRunError} {cleanup : Option AgentRunCleanupDiagnostic}
    (hmember : s.statusOf c.memberId = some .finalizing) (hrun : status = s.rows.status ∨
      c.memberId = s.rootMemberId ∧ s.rows.status.terminal = false ∧ status = .finalizing) :
    Concluded c s (scheduleCleanupRetry
      { s with rows := { s.rows with status, revision, result, error, cleanup } } c, .done) := by
  have ⟨keys, new, hretry, hnew, hone, hkeyed, hthere⟩ := scheduleCleanupRetry_eq
    { s with rows := { s.rows with status, revision, result, error, cleanup } } c
  rw [hretry] at hkeyed hthere
  rw [hretry]
  have hlive (h : Terminal { s with
      rows := { s.rows with status, revision, result, error, cleanup },
      cleanupRetryTimers := keys, timers := s.timers ++ new } c.memberId) : False := by
    have ⟨a, ha, hterminal⟩ := h
    have hsame : a = .finalizing := Option.some.inj (ha.symm.trans hmember)
    rw [hsame] at hterminal
    cases hterminal
  have hrunLive : status.terminal = true → s.rows.status.terminal = true := by
    intro hterminal
    rcases hrun with rfl | ⟨_, _, rfl⟩
    · exact hterminal
    · cases hterminal
  exact
    { frame := ⟨_, _, _, _, rfl⟩
      moves := ⟨rfl, rfl, rfl, Nat.le_refl _, fun _ a h => ⟨a, h, rfl, rfl, .inl rfl⟩, by
        rcases hrun with heq | ⟨hroot, hopen, heq⟩
        · exact .inl heq
        · have hreach := reaches_of_transition (transition_finalizing.mpr hopen)
          exact .inr ⟨heq ▸ hreach, hroot, heq ▸ late_finalizing⟩⟩
      timers := ⟨new, rfl, fun c' h => by
        rw [hnew c' h]
        exact ⟨rfl, rfl, rfl⟩, hone, nofun⟩
      keyed := hkeyed
      late := ⟨_, hmember, late_finalizing⟩
      done := fun hkeyed _ => .inr (hthere hkeyed)
      threw := nofun
      managed := .inl rfl
      runEnds := fun h => .inl (hrunLive h)
      space := .inl rfl
      resources := .of_eq rfl
      rootEnds := fun _ h => (hlive h).elim
      retried := fun _ => .inl hlive
      status := fun a ha hterminal => (hlive ⟨a, ha, hterminal⟩).elim
      runStatus := fun h => .inl (hrunLive h) }

/-- The run is at its end with its root only. -/
def RunEndsWithRoot (s : AgentRunState) : Prop :=
  s.rows.status.terminal = true → s.Terminal s.rootMemberId

theorem awaiting_concluded (a : CleanupAwait) (hlate : s.IsLate c.memberId) :
    Concluded c s (s, .awaiting a) :=
  unchanged_concluded hlate nofun

theorem cleanupFailed_concluded (cause : AgentRunError) (hlate : s.IsLate c.memberId)
    (hends : s.RunEndsWithRoot) : Concluded c s (s.cleanupFailed c cause) := by
  have ⟨a, ha, hlate⟩ := hlate
  unfold cleanupFailed
  split
  next herror =>
    have hcan := transitionMember_error ha herror
    rcases late_iff.mp hlate with rfl | hterminal
    · cases hcan
    · exact ended_concluded ⟨a, ha, hterminal⟩
  rename_i rows hok
  have hmoves := transitionMember_moves hok
  have hfinal := transitionMember_statusOf hok
  have ⟨member, revision, hmember, hcan, hrows⟩ := transitionMember_eq hok
  have hold : s.statusOf c.memberId = some .finalizing := by
    have hstatus : a = member.status := by
      have heq := statusOf_eq_some.mpr ⟨member, hmember, rfl⟩
      exact Option.some.inj (ha.symm.trans heq)
    rcases late_iff.mp hlate with rfl | hterminal
    · exact ha
    · rw [← hstatus, transition_finalizing, hterminal] at hcan
      cases hcan
  have hpre {r : AgentRunState × Finalized} (h : Concluded c { s with rows } r) :
      Concluded c s r := by
    have hlive (b : AgentRunStatus) (hb : rows.statusOf c.memberId = some b)
        (hterminal : b.terminal = true) : False := by
      rw [hfinal] at hb
      cases hb
      cases hterminal
    refine h.after (hmoves.mono (fun m b hb => ⟨hb.1, ?_⟩) fun _ => id) ?_ ?_ ?_ ?_ ?_
    · rw [hb.2]
      exact late_finalizing
    · rw [hrows]
    · rw [hrows]
    · exact .of_eq (by rw [hrows])
    · exact fun b hb hterminal => (hlive b hb hterminal).elim
    · exact fun _ ⟨b, hb, hterminal⟩ => (hlive b hb hterminal).elim
  apply hpre
  split
  swap
  · exact @retry_concluded { s with rows } c rows.status rows.revision rows.result rows.error
      rows.cleanup hfinal (.inl rfl)
  rename_i hroot
  have hlive : rows.status.terminal = false := by
    cases hterminal : s.rows.status.terminal with
    | false => rw [hrows]; exact hterminal
    | true =>
      have ⟨b, hb, hend⟩ := hends hterminal
      have hsame : rows.rootMemberId = s.rows.rootMemberId := hmoves.rootMemberId
      rw [hroot, hsame] at hold
      rw [Option.some.inj (hb.symm.trans hold)] at hend
      cases hend
  split
  next herror =>
    rw [finalizeRun_error herror] at hlive
    cases hlive
  rename_i finalizing hfinalizing
  have ⟨_, _, _, _, _, hfinalizing⟩ := finalizeRun_eq hfinalizing
  subst hfinalizing
  simp only
  split
  next herror =>
    have hcan := transitionRun_error herror
    cases hcan
  next retried hretried =>
    have ⟨_, _, _, _, _, hretried⟩ := transitionRun_eq hretried
    subst hretried
    exact retry_concluded hfinal (.inr ⟨hroot, hlive, rfl⟩)

theorem concludeRun_ends (s : AgentRunState) (c : Cleanup) (now : Nat)
    (hstatus : status.terminal = true) :
    (s.concludeRun c status now).1.rows.status.terminal = true ∨ s.rows.sharedSpace = none := by
  rcases concludeRun_cases s c now hstatus with ⟨hend, heq⟩ | ⟨_, hspace, _⟩ | ⟨_, _, _, _, _, _,
    _, heq⟩
  · exact .inl (by rw [heq]; exact hend)
  · exact .inr hspace
  · exact .inl (by rw [heq]; exact hstatus)

theorem concludeMember_terminal (hended : s.Terminal c.memberId) :
    Concluded c s (s.concludeMember c true now) := by
  have ⟨a, ha, hterminal⟩ := hended
  unfold concludeMember
  simp only [if_true]
  split
  next hroot => exact concludeRun_concluded now hroot ha hterminal rfl
  · exact ended_concluded hended

theorem concludeMember_concluded (hlate : s.IsLate c.memberId) :
    Concluded c s (s.concludeMember c false now) := by
  have ⟨a, ha, hlate⟩ := hlate
  have hfinal := finalStatus_terminal c (s.isCancelled c)
  unfold concludeMember
  simp only [Bool.false_eq_true, if_false]
  cases htransition : s.rows.transitionMember c.memberId
      (endTransition c (finalStatus c (s.isCancelled c))) with
  | error e =>
    have hcan := transitionMember_error ha htransition
    rcases late_iff.mp hlate with rfl | hterminal
    · have hok : canTransitionAgentRunStatus .finalizing
          (endTransition c (finalStatus c (s.isCancelled c))).status = true :=
        (transition_terminal hfinal).mpr (.inl rfl)
      rw [hok] at hcan
      cases hcan
    · exact ended_concluded ⟨a, ha, hterminal⟩
  | ok rows =>
    have hmoves := transitionMember_moves htransition
    have hstatus := transitionMember_statusOf htransition
    have ⟨member, revision, hmember, _, hrows⟩ := transitionMember_eq htransition
    have hended : Terminal { s with rows := rows.appendTimeline } c.memberId := ⟨_, hstatus, hfinal⟩
    have hpre {r : AgentRunState × Finalized}
        (h : Concluded c { s with rows := rows.appendTimeline } r)
        (hroot : c.memberId = s.rootMemberId →
          r.1.rows.status.terminal = true ∨ s.rows.sharedSpace = none) : Concluded c s r := by
      refine h.after ?_ ?_ ?_ ?_ ?_ ?_
      · have hmoves : s.rows.Moves rows (fun m a => m = c.memberId ∧ a.Late) fun _ => False :=
          hmoves.mono (fun m b hb => ⟨hb.1, hb.2 ▸ .of_terminal hfinal⟩) fun _ => id
        exact hmoves.trans (.of_fields (Nat.le_refl _) rfl)
      · rw [hrows]
        rfl
      · rw [hrows]
        rfl
      · exact .of_eq (by rw [hrows]; rfl)
      · intro b hb _
        exact .inr (Option.some.inj (hb.symm.trans hstatus))
      · exact fun hc _ => .inr (hroot hc)
    simp only [Except.map]
    have hsame : rows.rootMemberId = s.rootMemberId := hmoves.rootMemberId
    split
    next hroot =>
      have hcancelled : isCancelled { s with rows := rows.appendTimeline } c = s.isCancelled c := by
        rw [hrows]
        rfl
      refine hpre (concludeRun_concluded now hroot hstatus hfinal (by rw [hcancelled])) ?_
      intro _
      have hends := concludeRun_ends { s with rows := rows.appendTimeline } c now hfinal
      refine hends.imp_right fun hnone => ?_
      rw [hrows] at hnone
      exact hnone
    next hroot => exact hpre (ended_concluded hended) fun hc => absurd (hc.trans hsame.symm) hroot

theorem disposeWorkspace_concluded (hlate : s.IsLate c.memberId) :
    Concluded c s (s.disposeWorkspace c now) := by
  unfold disposeWorkspace
  split
  · exact awaiting_concluded .disposing hlate
  · exact concludeMember_concluded now hlate

theorem transitionThread_concluded (phase : AgentRunResourcePhase) (increment : Bool)
    (k : AgentRunState → AgentRunState × Finalized) (hlate : s.IsLate c.memberId)
    (hends : s.RunEndsWithRoot)
    (hk : ∀ u : AgentRunState, u.IsLate c.memberId → u.RunEndsWithRoot → Concluded c u (k u)) :
    Concluded c s (k (s.transitionThread c phase increment)) := by
  have ⟨rows, heq, hback, hmoves, hspace, hresources⟩ := transitionThread_eq s c phase increment
  have hstatus : rows.status = s.rows.status := by
    rcases hmoves.status with h | ⟨_, h⟩
    · exact h
    · exact h.elim
  have hbefore {m : MemberId} {a : AgentRunStatus} (ha : rows.statusOf m = some a) :
      s.statusOf m = some a := by
    have ⟨b, hb, hab⟩ := hback.statusOf ha
    rcases hab with rfl | ⟨_, h⟩
    · exact hb
    · exact h.elim
  have hafter {m : MemberId} {a : AgentRunStatus} (ha : s.statusOf m = some a) :
      rows.statusOf m = some a := by
    have ⟨b, hb, hab⟩ := hmoves.statusOf ha
    rcases hab with rfl | ⟨_, h⟩
    · exact hb
    · exact h.elim
  rw [heq]
  have ⟨a, ha, halate⟩ := hlate
  have h := hk { s with rows } ⟨a, hafter ha, halate⟩ fun hterminal => by
    have ⟨b, hb, hend⟩ := hends (hstatus ▸ hterminal)
    have hroot : rows.rootMemberId = s.rootMemberId := hmoves.rootMemberId
    refine ⟨b, ?_, hend⟩
    show rows.statusOf rows.rootMemberId = some b
    rw [hroot]
    exact hafter hb
  refine h.after (hmoves.mono (fun _ _ h => h.elim) fun _ => id) hstatus hspace hresources ?_ ?_
  · exact fun b hb _ => .inl (hbefore hb)
  · exact fun _ ⟨b, hb, hend⟩ => .inl ⟨b, hbefore hb, hend⟩

theorem closeSession_concluded (hlate : s.IsLate c.memberId)
    (hends : s.RunEndsWithRoot) : Concluded c s (s.closeSession c now) := by
  unfold closeSession
  split
  · exact transitionThread_concluded .deleting false (fun u => (u, .awaiting .closing)) hlate hends
      fun u hu _ => awaiting_concluded .closing hu
  · exact disposeWorkspace_concluded now hlate

theorem resumeCleanup_concluded (at_ : CleanupAwait) (failure : Option AgentRunError)
    (hlate : s.IsLate c.memberId) (hends : s.RunEndsWithRoot) :
    Concluded c s (s.resumeCleanup c now at_ failure) := by
  cases at_ with
  | closing =>
    cases failure with
    | none =>
      exact transitionThread_concluded .deleted false (fun u => u.disposeWorkspace c now) hlate
        hends fun u hu _ => disposeWorkspace_concluded now hu
    | some cause =>
      exact transitionThread_concluded .deleteRetrying true (fun u => u.cleanupFailed c cause)
        hlate hends fun u hu hends => cleanupFailed_concluded cause hu hends
  | disposing =>
    cases failure with
    | none => exact concludeMember_concluded now hlate
    | some cause => exact cleanupFailed_concluded cause hlate hends

/-- The key of the member is free again. -/
def unkey (s : AgentRunState) (m : MemberId) : AgentRunState :=
  { s with cleanupRetryTimers := s.cleanupRetryTimers.filter (· ≠ m) }

theorem finalizeMember_concluded (hmember : s.statusOf c.memberId = some a)
    (hends : s.RunEndsWithRoot) : Concluded c (s.unkey c.memberId) (s.finalizeMember c now) := by
  have ⟨member, hget, hstatus⟩ := statusOf_eq_some.mp hmember
  unfold finalizeMember
  simp only [hget]
  split
  next hterminal =>
    exact concludeMember_terminal (s := s.unkey c.memberId) now ⟨a, hmember, hstatus ▸ hterminal⟩
  rename_i hlive
  split
  next hfinalizing =>
    refine closeSession_concluded (s := s.unkey c.memberId) now ⟨a, hmember, ?_⟩ hends
    rw [← hstatus, hfinalizing]
    exact late_finalizing
  · have hcan : canTransitionAgentRunStatus a .finalizing = true := by
      rw [transition_finalizing, ← hstatus]
      exact Bool.eq_false_iff.mpr hlive
    split
    next herror =>
      rw [show canTransitionAgentRunStatus a .finalizing = false from
        transitionMember_error hmember herror] at hcan
      cases hcan
    rename_i rows hok
    have hmoves := transitionMember_moves hok
    have hfinal := transitionMember_statusOf hok
    have ⟨_, _, _, _, hrows⟩ := transitionMember_eq hok
    have hroot : rows.rootMemberId = s.rootMemberId := hmoves.rootMemberId
    have hlive (b : AgentRunStatus) (hb : rows.statusOf c.memberId = some b)
        (hterminal : b.terminal = true) : False := by
      rw [Option.some.inj (hb.symm.trans hfinal)] at hterminal
      cases hterminal
    have hends' : RunEndsWithRoot { s.unkey c.memberId with rows } := by
      intro hterminal
      have hterminal : s.rows.status.terminal = true := by
        rw [hrows] at hterminal
        exact hterminal
      have ⟨b, hb, hend⟩ := hends hterminal
      have ⟨b', hb', hbb⟩ := hmoves.statusOf hb
      refine ⟨b', ?_, ?_⟩
      · show rows.statusOf rows.rootMemberId = some b'
        rw [hroot]
        exact hb'
      rcases hbb with rfl | ⟨hreach, _⟩
      · exact hend
      · rw [hreach.of_terminal hend]
        exact hend
    have h := @closeSession_concluded { s.unkey c.memberId with rows } c now
      ⟨_, hfinal, late_finalizing⟩ hends'
    refine Concluded.after (s := s.unkey c.memberId) h ?_ ?_ ?_ ?_ ?_ ?_
    · exact hmoves.mono (fun m b hb => ⟨hb.1, hb.2 ▸ late_finalizing⟩) fun _ => id
    · rw [hrows]
      rfl
    · rw [hrows]
      rfl
    · exact .of_eq (by rw [hrows]; rfl)
    · exact fun b hb hterminal => (hlive b hb hterminal).elim
    · exact fun _ ⟨b, hb, hterminal⟩ => (hlive b hb hterminal).elim

end TaskHandoff.AgentRuns.AgentRunState
