import TaskHandoff.AgentRuns.Turns

/-! # The base in every run

Every turn keeps the base, so every action and every run does. An invariant of the turns holds in
every state that a run reaches. -/

namespace TaskHandoff.AgentRuns.AgentRunState

open AgentRunStatus Rows Scheduler SchedulerExecutionRuntime Machine OrderedMap List Option Nat

variable {s t : AgentRunState} {a : RunAction} {m : MemberId} {pending rest : List MemberId}

/-! ## Quiet changes -/

/-- A change that leaves the executions and the retries alone. -/
structure Quiet (s t : AgentRunState) (pending rest : List MemberId) : Prop where
  moves : s.rows.Moves t.rows (fun _ _ => False) fun _ => False
  resources : t.rows.resources = [] → s.rows.resources = []
  idle : s.Idle → t.rows.resources = [] ∧ t.rows.sharedSpace = none ∧ t.settled = 0
  controllers : ∀ m, (t.controllers.get? m).map (fun x => (x.phase, x.cleanup.memberId)) =
    (s.controllers.get? m).map fun x => (x.phase, x.cleanup.memberId)
  timers : t.timers = s.timers
  retries : t.retries = s.retries
  keys : t.cleanupRetryTimers = s.cleanupRetryTimers
  managed : t.managed = s.managed
  stopped : s.accepting = false → t.accepting = false
  listings : ∀ l ∈ t.listings, l ∈ s.listings
  recoveries : t.recoveries ≠ [] → s.recoveries ≠ []
  back : ∀ m, t.Waiting rest m → s.Waiting pending m
  kept : ∀ m, s.statusOf m = some .queued → s.Waiting pending m → t.Waiting rest m

theorem Quiet.refl (s : AgentRunState) (pending : List MemberId) : Quiet s s pending pending :=
  ⟨.refl _ _ _, id, fun h => ⟨h.resources, h.sharedSpace, h.settled⟩, fun _ => rfl, rfl, rfl, rfl, rfl,
    id, fun _ => id, id, fun _ => id, fun _ _ => id⟩

theorem Base.quiet (h : Base s pending) (hq : Quiet s t pending rest) : Base t rest := by
  have hroot : t.rootMemberId = s.rootMemberId := hq.moves.rootMemberId
  have hstatus : t.rows.status = s.rows.status := by
    rcases hq.moves.status with h | ⟨_, h⟩
    · exact h
    · exact h.elim
  have hof (m : MemberId) : t.statusOf m = s.statusOf m := by
    cases ht : t.statusOf m with
    | none => exact (hq.moves.known.mp ht).symm
    | some b =>
      have ⟨a, ha, hab⟩ := hq.moves.before ht
      rcases hab with rfl | ⟨_, h⟩
      · exact ha.symm
      · exact h.elim
  have hget {m : MemberId} {x : Execution} (hx : t.controllers.get? m = some x) :
      ∃ x', s.controllers.get? m = some x' ∧ x.phase = x'.phase ∧
        x.cleanup.memberId = x'.cleanup.memberId := by
    have heq := hq.controllers m
    rw [hx] at heq
    have ⟨x', hx', hsame⟩ := map_eq_some_iff.mp heq.symm
    exact ⟨x', hx', (Prod.ext_iff.mp hsame).1.symm, (Prod.ext_iff.mp hsame).2.symm⟩
  have hsome (m : MemberId) : (t.controllers.get? m).isSome = (s.controllers.get? m).isSome := by
    have heq := congrArg isSome (hq.controllers m)
    rw [isSome_map, isSome_map] at heq
    exact heq
  have hlive (m : MemberId) : t.Live m ↔ s.Live m := by
    constructor
    · intro ⟨x, hx, hphase⟩
      have ⟨x', hx', hsame, _⟩ := hget hx
      exact ⟨x', hx', hsame ▸ hphase⟩
    intro ⟨x, hx, hphase⟩
    have heq := hq.controllers m
    rw [hx] at heq
    have ⟨x', hx', hsame⟩ := map_eq_some_iff.mp heq
    exact ⟨x', hx', fun h => hphase ((Prod.ext_iff.mp hsame).1.symm.trans h)⟩
  have hretrying (m : MemberId) : t.Retrying m ↔ s.Retrying m := by
    unfold Retrying
    rw [hq.timers, hq.retries]
  constructor
  · have ⟨member, hmember, hparent⟩ := h.root
    have ⟨member', hmember', hmove⟩ := hq.moves.member _ _ hmember
    exact ⟨member', hroot.symm ▸ hmember', hmove.parent.trans hparent⟩
  · intro m a ha
    exact lt_of_lt_of_le (h.numbered m a (hof m ▸ ha)) hq.moves.nextId
  · intro m hw
    rw [hof, hsome]
    exact h.waiting m (hq.back m hw)
  · intro m x hx
    have ⟨x', hx', hphase, hmember⟩ := hget hx
    have hold := h.executing m x' hx'
    refine ⟨hmember.trans hold.memberId, hof m ▸ hold.status, ?_, ?_⟩
    · unfold IsLate
      rw [hof, hphase]
      exact hold.ending
    unfold Terminal
    rw [hof, hphase]
    exact fun hend => (hold.finished hend).imp_right (Or.imp (hretrying m).mpr hq.stopped)
  · intro m hr
    unfold IsLate
    rw [hof]
    exact h.retrying m ((hretrying m).mp hr)
  · intro m hm
    rw [hq.timers]
    exact h.keyed m (hq.keys ▸ hm)
  · intro hterminal
    unfold Terminal
    rw [hroot, hof]
    exact h.runEnds (hstatus ▸ hterminal)
  · rw [hstatus, hroot, hof]
    exact h.runQueued
  · rw [hroot, hof]
    intro hqueued
    have hold := h.idle hqueued
    have ⟨hnil, hnone, hsettled⟩ := hq.idle hold
    refine ⟨hstatus ▸ hold.status, fun m => ?_, hsettled, hq.timers.trans hold.timers,
      hq.retries.trans hold.retries, fun m a ha => ?_, hnil, hnone, ?_⟩
    · have heq := hsome m
      rw [hold.controllers m] at heq
      exact not_isSome_iff_eq_none.mp (by rw [heq]; exact Bool.false_ne_true)
    · exact (hold.alone m a (hof m ▸ ha)).trans hroot.symm
    · exact Decidable.byContradiction fun hne => hq.recoveries hne hold.recoveries
  · rw [hq.managed, hstatus]
    intro hm hlive' m a ha hterminal
    rw [hof] at ha
    have hold := h.tracked hm hlive' m a ha hterminal
    split
    next hqueued =>
      rw [if_pos hqueued] at hold
      exact hq.kept m (hqueued ▸ ha) hold
    next hqueued =>
      rw [if_neg hqueued] at hold
      exact hold.imp (hlive m).mpr (Or.imp (hretrying m).mpr hq.stopped)
  · rw [hq.managed, hstatus, hroot, hof]
    intro hm hterminal
    have ⟨hnowait, hnolive, hnoretry, hlisted⟩ := h.unowned hm hterminal
    exact ⟨fun hw => hnowait (hq.back _ hw), fun hl => hnolive ((hlive _).mp hl),
      fun hr => hnoretry ((hretrying _).mp hr), fun hne l hl => hlisted hne l (hq.listings l hl)⟩
  · intro l hl
    rw [hstatus]
    exact h.listed l (hq.listings l hl)
  · intro hne
    have ⟨hfinalizing, hopen, hm⟩ := h.recovering (hq.recoveries hne)
    exact ⟨hfinalizing.move hq.moves, fun hnil => hopen (hq.resources hnil), hq.managed.trans hm⟩

theorem Base.recovered (h : Base s []) (hmanaged : s.managed = false) (hr : Recovered s t) :
    Base t [] := by
  have ⟨_, _, hframe⟩ := hr.frame
  have hroot : t.rootMemberId = s.rootMemberId := hr.moves.rootMemberId
  have hsame : t.managed = s.managed ∧ t.controllers = s.controllers ∧ t.timers = s.timers ∧
      t.retries = s.retries ∧ t.cleanupRetryTimers = s.cleanupRetryTimers ∧
      t.listings = s.listings ∧ t.scheduler = s.scheduler ∧ t.submitted = s.submitted := by
    rw [hframe]
    exact ⟨rfl, rfl, rfl, rfl, rfl, rfl, rfl, rfl⟩
  have ⟨hm, hcontrollers, htimers, hretries, hkeys, hlistings, hscheduler, hsubmitted⟩ := hsame
  have hwaiting (m : MemberId) : t.Waiting [] m ↔ s.Waiting [] m := by
    unfold Waiting queue
    rw [hscheduler, hsubmitted, hroot]
  have hretrying (m : MemberId) : t.Retrying m ↔ s.Retrying m := by
    unfold Retrying
    rw [htimers, hretries]
  have hknown {m : MemberId} (h : ∃ a, s.statusOf m = some a) :
      ∃ b, t.statusOf m = some b ∧ b.Late := by
    have ⟨a, ha⟩ := h
    have ⟨b, hb, _⟩ := hr.moves.statusOf ha
    exact ⟨b, hb, hr.members m b hb⟩
  have hopen (ht : t.rows.status.terminal = false) : s.rows.status.terminal = false := by
    cases hs : s.rows.status.terminal with
    | false => rfl
    | true => rw [← hr.moves.reaches.of_terminal hs, ht] at hs; cases hs
  constructor
  · have ⟨member, hmember, hparent⟩ := h.root
    have ⟨member', hmember', hmove⟩ := hr.moves.member _ _ hmember
    exact ⟨member', hroot.symm ▸ hmember', hmove.parent.trans hparent⟩
  · intro m a ha
    have ⟨a', ha', _⟩ := hr.moves.before ha
    exact lt_of_lt_of_le (h.numbered m a' ha') hr.moves.nextId
  · intro m hw
    have ⟨a, ha, _⟩ := h.waiting m ((hwaiting m).mp hw)
    have ⟨b, hb, hlate⟩ := hknown ⟨a, ha⟩
    exact ⟨b, hb, .inr (.inr hlate)⟩
  · intro m x hx
    have hold := h.executing m x (hcontrollers ▸ hx)
    have ⟨a, ha, _⟩ := hold.status
    have ⟨b, hb, hlate⟩ := hknown ⟨a, ha⟩
    refine ⟨hold.memberId, ⟨b, hb, hlate.ne_queued⟩, fun _ => ⟨b, hb, hlate⟩, fun hfinished => ?_⟩
    exact (hold.finished hfinished).imp (fun h => h.move hr.moves)
      (Or.imp (hretrying m).mpr fun hstopped => (congrArg _ hscheduler).trans hstopped)
  · intro m hretry
    exact (h.retrying m ((hretrying m).mp hretry)).move hr.moves
  · intro m hkey
    rw [htimers]
    exact h.keyed m (hkeys ▸ hkey)
  · intro hterminal
    rw [hroot]
    rcases hr.ended hterminal with hold | hall
    · exact (h.runEnds hold).move hr.moves
    have ⟨member, hmember, _⟩ := h.root
    have ⟨b, hb, _⟩ := hknown ⟨_, statusOf_eq_some.mpr ⟨member, hmember, rfl⟩⟩
    exact ⟨b, hb, hall _ b hb⟩
  · exact fun hqueued => absurd hqueued hr.late.ne_queued
  · exact fun hqueued => absurd rfl (hr.members _ _ hqueued).ne_queued
  · intro htrue
    rw [hm, hmanaged] at htrue
    cases htrue
  · intro _ hterminal
    have ⟨hnowait, hnolive, hnoretry, hlisted⟩ := h.unowned hmanaged (hopen hterminal)
    rw [hroot, hlistings]
    refine ⟨fun hw => hnowait ((hwaiting _).mp hw), ?_, fun hretry => hnoretry ((hretrying _).mp hretry),
      fun _ => hlisted fun hqueued => ?_⟩
    · unfold Live
      rw [hcontrollers]
      exact hnolive
    -- without resources the recovery has ended the run at once
    have hidle := h.idle hqueued
    rw [(hr.bare hidle.resources hidle.recoveries).1] at hterminal
    cases hterminal
  · intro l hl
    rw [hlistings] at hl
    exact (h.listed l hl).trans hr.moves.reaches
  · intro hne
    refine ⟨⟨hr.late, hr.members⟩, fun hnil => ?_, hm.trans hmanaged⟩
    have hnil := hr.resources.nil_iff.mp hnil
    by_cases hrec : s.recoveries = []
    · exact hne (hr.bare hnil hrec).2
    · exact (h.recovering hrec).2.1 hnil

variable {listing : Listing} {index : Nat} {snapshot : AgentRunMemberExecutionSnapshot}
  {input : Invocation} {rows : Rows} {p q : AgentRunState × Handed}

section

variable (h : Base s [])

include h

theorem Base.acceptRoot
    (hget : s.listings[index]? = some listing) (hmanaged : s.managed = false)
    (hstatus : listing.status = .queued) (hresources : s.rows.resources = []) : Base { s with
      listings := s.listings.eraseIdx index
      managed := true
      submitted := s.submitted + 1 } [] := by
  have hmem : listing ∈ s.listings := mem_of_getElem? hget
  have hqueued (hopen : s.rows.status.terminal = false) :
      s.statusOf s.rootMemberId = some .queued := by
    refine Decidable.byContradiction fun hne => ?_
    exact (h.unowned hmanaged hopen).2.2.2 hne listing hmem hstatus
  have hwaiting {m : MemberId} (hw : Waiting { s with
      listings := s.listings.eraseIdx index, managed := true, submitted := s.submitted + 1 } [] m) :
      s.Waiting [] m ∨ m = s.rootMemberId := by
    rcases hw with hq | ⟨hm, _⟩ | hp
    · exact .inl (.inl hq)
    · exact .inr hm
    · cases hp
  refine { h with
    waiting := ?_, executing := fun m x hx => { h.executing m x hx with }
    idle := fun hq => { h.idle hq with }, tracked := ?_, unowned := nofun
    listed := fun l hl => h.listed l (mem_of_mem_eraseIdx hl)
    recovering := fun hne => absurd hresources (h.recovering hne).2.1 }
  · intro m hw
    rcases hwaiting hw with hold | rfl
    · exact h.waiting m hold
    cases hopen : s.rows.status.terminal with
    | false => exact ⟨_, hqueued hopen, .inl rfl⟩
    | true =>
      have ⟨a, ha, hterminal⟩ := h.runEnds hopen
      exact ⟨a, ha, .inr (.inr (.of_terminal hterminal))⟩
  · intro _ hopen m a ha hterminal
    have hidle := h.idle (hqueued hopen)
    have hm : m = s.rootMemberId := hidle.alone m a ha
    subst hm
    have haq : a = .queued := some.inj (ha.symm.trans (hqueued hopen))
    rw [if_pos haq]
    exact .inr (.inl ⟨rfl, succ_pos _⟩)

theorem Base.relist {listings : List Listing} {managed : Bool}
    (hlisted : ∀ l ∈ listings, l.status.Reaches s.rows.status)
    (hmanaged : managed = true → s.managed = true)
    (hunowned : managed = false → s.rows.status.terminal = false → s.managed = false ∧
      (s.statusOf s.rootMemberId ≠ some .queued → ∀ l ∈ listings, l.status ≠ .queued)) :
    Base { s with listings, managed } [] := by
  refine { h with
    executing := fun m x hx => { h.executing m x hx with }
    idle := fun hq => { h.idle hq with }, tracked := fun htracked => h.tracked (hmanaged htracked)
    unowned := ?_, listed := hlisted, recovering := ?_ }
  · intro hfree hopen
    have ⟨hnowait, hnolive, hnoretry, _⟩ := h.unowned (hunowned hfree hopen).1 hopen
    exact ⟨hnowait, hnolive, hnoretry, (hunowned hfree hopen).2⟩
  intro hne
  have ⟨hfinalizing, hopen, hfree⟩ := h.recovering hne
  refine ⟨⟨hfinalizing.late, hfinalizing.members⟩, hopen, ?_⟩
  exact Bool.eq_false_iff.mpr fun htrue => Bool.eq_false_iff.mp hfree (hmanaged htrue)

theorem Base.unmanage
    (hget : s.listings[index]? = some listing) (hterminal : listing.status.terminal = true) :
    Base { s with listings := s.listings.eraseIdx index, managed := false } [] := by
  have hreach := h.listed listing (mem_of_getElem? hget)
  refine h.relist (fun l hl => h.listed l (mem_of_mem_eraseIdx hl)) (by simp) fun _ hopen => ?_
  rw [hreach.of_terminal hterminal, hterminal] at hopen
  cases hopen

theorem Base.list :
    Base { s with listings := s.listings ++ [⟨s.rows.status, s.rootStatus⟩] } [] := by
  refine h.relist ?_ id fun hfree hopen => ⟨hfree, fun hne l hl => ?_⟩
  · intro l hl
    rcases mem_concat.mp hl with hold | rfl
    · exact h.listed l hold
    · exact .refl _
  · rcases mem_concat.mp hl with hold | rfl
    · exact (h.unowned hfree hopen).2.2.2 hne l hold
    · exact fun hqueued => hne (h.runQueued hqueued)

theorem Base.restart : Base s.restart [] := by
  have hwaiting {m : MemberId} (hw : s.restart.Waiting [] m) : False := by
    rcases hw with hq | ⟨_, hlt⟩ | hp
    · cases hq
    · exact absurd hlt (lt_irrefl 0)
    · cases hp
  have hretrying {m : MemberId} (hr : s.restart.Retrying m) : False := by
    rcases hr with ⟨_, hc, _⟩ | ⟨_, hr, _⟩
    · cases hc
    · cases hr
  constructor
  · exact h.root
  · exact h.numbered
  · exact fun m hw => (hwaiting hw).elim
  · exact fun m x hx => by cases hx
  · exact fun m hr => (hretrying hr).elim
  · exact fun m hm => by cases hm
  · exact h.runEnds
  · exact h.runQueued
  · intro hq
    have hidle := h.idle hq
    exact ⟨hidle.status, fun _ => rfl, rfl, rfl, rfl, hidle.alone, hidle.resources,
      hidle.sharedSpace, rfl⟩
  · nofun
  · intro _ _
    refine ⟨fun hw => hwaiting hw, fun hl => ?_, fun hr => hretrying hr, fun _ l hl => ?_⟩
    · have ⟨_, hx, _⟩ := hl
      cases hx
    · cases hl
  · exact fun l hl => by cases hl
  · exact absurd rfl

theorem Base.invite (hrun : s.rows.status = .running)
    (hrow : addRow s.rows input snapshot = .ok (rows, m)) (timeline : Bool)
    (hpending : rows.statusOf m = some .queued ∧ rest = [m] ∨
      rows.statusOf m ≠ some .queued ∧ rest = []) :
    Base { s with rows := if timeline then rows.appendTimeline else rows } rest := by
  have hne := addRow_ne_root h hrow
  let t : AgentRunState := { s with rows := if timeline then rows.appendTimeline else rows }
  have hof (m' : MemberId) : t.statusOf m' = rows.statusOf m' := by cases timeline <;> rfl
  have hsame : t.rootMemberId = s.rootMemberId ∧ t.rows.status = s.rows.status ∧
      s.rows.nextId ≤ t.rows.nextId := by
    rcases addRow_cases hrow with ⟨heq, _⟩ | ⟨_, _, _, _, _, heq⟩
    · subst heq
      cases timeline <;> exact ⟨rfl, rfl, le_refl _⟩
    · subst heq
      cases timeline <;> exact ⟨rfl, rfl, le_succ _⟩
  have ⟨hroot, hstatus, hnext⟩ := hsame
  -- the members there were keep their rows
  have hold {m' : MemberId} {member : AgentRunMember} (hget : s.rows.members.get? m' = some member) :
      t.rows.members.get? m' = some member := by
    rcases addRow_cases hrow with ⟨heq, _⟩ | ⟨_, parent, _, _, _, heq⟩
    · subst heq
      cases timeline <;> exact hget
    have hlt := h.numbered m' _ (statusOf_eq_some.mpr ⟨member, hget, rfl⟩)
    have hset := (get?_set_ne s.rows.members
      (calledMember input (parent.depth + 1) snapshot) (Nat.ne_of_lt hlt)).trans hget
    subst heq
    cases timeline <;> exact hset
  have hkept {m' : MemberId} {a : AgentRunStatus} (ha : s.statusOf m' = some a) :
      t.statusOf m' = some a := by
    have ⟨member, hget, hmember⟩ := statusOf_eq_some.mp ha
    exact statusOf_eq_some.mpr ⟨member, hold hget, hmember⟩
  have hback {m' : MemberId} {a : AgentRunStatus} (ha : t.statusOf m' = some a) :
      s.statusOf m' = some a ∨ m' = m ∧ a = .queued ∧ m' < t.rows.nextId := by
    rw [hof] at ha
    rcases addRow_cases hrow with ⟨heq, _⟩ | ⟨hm, _, _, _, _, heq⟩
    · rw [heq] at ha
      exact .inl ha
    by_cases hm' : m' = s.rows.nextId
    · right
      refine ⟨hm'.trans hm.symm, ?_, ?_⟩
      · have ⟨member, hget, hmember⟩ := statusOf_eq_some.mp ha
        rw [heq, hm'] at hget
        have hset := (get?_set_self _ _ _).symm.trans hget
        rw [← hmember, ← Option.some.inj hset]
        rfl
      · have hlt : m' < rows.nextId := by rw [heq, hm']; exact lt_succ_self _
        cases timeline <;> exact hlt
    · left
      have ⟨member, hget, hmember⟩ := statusOf_eq_some.mp ha
      rw [heq] at hget
      exact statusOf_eq_some.mpr ⟨member, (get?_set_ne _ _ hm').symm.trans hget, hmember⟩
  have hwaiting {m' : MemberId} (hw : t.Waiting rest m') : s.Waiting [] m' ∨ m' ∈ rest := by
    rcases hw with hq | ⟨hm, hlt⟩ | hp
    · exact .inl (.inl hq)
    · exact .inl (.inr (.inl ⟨hm.trans hroot, hlt⟩))
    · exact .inr hp
  have hrest {m' : MemberId} (hm' : m' ∈ rest) : m' = m ∧ rows.statusOf m = some .queued := by
    rcases hpending with ⟨hq, heq⟩ | ⟨_, heq⟩
    · exact ⟨mem_singleton.mp (heq ▸ hm'), hq⟩
    · rw [heq] at hm'
      cases hm'
  have ⟨root, hgetRoot, hparent⟩ := h.root
  have hstarted : s.statusOf s.rootMemberId ≠ some .queued := by
    intro hq
    rcases (h.idle hq).status with heq | heq <;> rw [hrun] at heq <;> cases heq
  constructor
  · exact ⟨root, hroot.symm ▸ hold hgetRoot, hparent⟩
  · intro m' a ha
    rcases hback ha with hs | ⟨_, _, hlt⟩
    · exact lt_of_lt_of_le (h.numbered m' a hs) hnext
    · exact hlt
  · intro m' hw
    rcases hwaiting hw with hs | hm'
    · have ⟨a, ha, hcase⟩ := h.waiting m' hs
      exact ⟨a, hkept ha, hcase⟩
    · have ⟨heq, hq⟩ := hrest hm'
      exact ⟨.queued, (hof m').trans (heq ▸ hq), .inl rfl⟩
  · intro m' x hx
    have hx := h.executing m' x hx
    have ⟨a, ha, haq⟩ := hx.status
    refine ⟨hx.memberId, ⟨a, hkept ha, haq⟩, fun hending => ?_, fun hfinished => ?_⟩
    · have ⟨b, hb, hlate⟩ := hx.ending hending
      exact ⟨b, hkept hb, hlate⟩
    rcases hx.finished hfinished with ⟨b, hb, hterminal⟩ | hr
    · exact .inl ⟨b, hkept hb, hterminal⟩
    · exact .inr hr
  · intro m' hr
    have ⟨b, hb, hlate⟩ := h.retrying m' hr
    exact ⟨b, hkept hb, hlate⟩
  · exact h.keyed
  · intro hterminal
    rw [hstatus, hrun] at hterminal
    cases hterminal
  · intro hq
    rw [hstatus, hrun] at hq
    cases hq
  · intro hq
    rw [hroot] at hq
    have ⟨a, ha⟩ : ∃ a, s.statusOf s.rootMemberId = some a :=
      ⟨_, statusOf_eq_some.mpr ⟨root, hgetRoot, rfl⟩⟩
    rw [hkept ha] at hq
    exact absurd (ha.trans hq) hstarted
  · intro hmanaged _ m' a ha hterminal
    rcases hback ha with hs | ⟨hm', haq, _⟩
    · have hold := h.tracked hmanaged (by rw [hrun]; rfl) m' a hs hterminal
      split
      next haq =>
        rw [if_pos haq] at hold
        rcases hold with hq | ⟨hm, hlt⟩ | hp
        · exact .inl hq
        · exact .inr (.inl ⟨hm.trans hroot.symm, hlt⟩)
        · cases hp
      next haq =>
        rw [if_neg haq] at hold
        exact hold
    · rw [if_pos haq]
      refine .inr (.inr ?_)
      rcases hpending with ⟨_, heq⟩ | ⟨hq, _⟩
      · rw [heq, hm']
        exact mem_singleton_self _
      · exact absurd ((hof m).symm.trans (hm' ▸ haq ▸ ha)) hq
  · intro hmanaged hopen
    have ⟨hnowait, hnolive, hnoretry, hlisted⟩ := h.unowned hmanaged (by rw [hrun]; rfl)
    rw [hroot]
    refine ⟨fun hw => ?_, hnolive, hnoretry, fun _ => hlisted hstarted⟩
    rcases hwaiting hw with hs | hm'
    · exact hnowait hs
    · exact hne (hrest hm').1.symm
  · intro l hl
    rw [hstatus]
    exact h.listed l hl
  · intro hrec
    have hlate := (h.recovering hrec).1.late
    rw [hrun] at hlate
    exact absurd hlate (by unfold Late; decide)

theorem Base.cancel
    (hrows : s.rows.transitionRun { status := .finalizing } = .ok rows) :
    Base { s with rows, scheduler := (s.scheduler.clearQueued () .jobDisabled).1 } s.queue := by
  have hmoves := transitionRun_moves hrows
  have ⟨hcan, _, _, _, _, heq⟩ := transitionRun_eq hrows
  have hopen : s.rows.status.terminal = false := transition_finalizing.mp hcan
  let t : AgentRunState := { s with rows, scheduler := (s.scheduler.clearQueued () .jobDisabled).1 }
  have hqueue : t.queue = [] := by
    unfold queue
    rw [show t.scheduler.queueOf () = [] from by
      show ((s.scheduler.queued.erase ()).get? ()).getD [] = []
      rw [get?_erase_self]
      rfl]
    rfl
  have hof (m : MemberId) : t.statusOf m = s.statusOf m := by
    show rows.statusOf m = s.rows.statusOf m
    rw [heq]
    rfl
  have hroot : t.rootMemberId = s.rootMemberId := hmoves.rootMemberId
  have hwaiting (m : MemberId) : t.Waiting s.queue m ↔ s.Waiting [] m := by
    unfold Waiting
    rw [hqueue, hroot]
    simp only [not_mem_nil, false_or, or_false]
    exact or_comm
  have hfinalizing : t.rows.status = .finalizing := by
    show rows.status = .finalizing
    rw [heq]
  constructor
  · have ⟨member, hmember, hparent⟩ := h.root
    have ⟨member', hmember', hmove⟩ := hmoves.member _ _ hmember
    exact ⟨member', hroot.symm ▸ hmember', hmove.parent.trans hparent⟩
  · intro m a ha
    exact lt_of_lt_of_le (h.numbered m a (hof m ▸ ha)) hmoves.nextId
  · intro m hw
    rw [hof]
    exact h.waiting m ((hwaiting m).mp hw)
  · intro m x hx
    have hold := h.executing m x hx
    have ⟨a, ha, haq⟩ := hold.status
    exact ⟨hold.memberId, ⟨a, (hof m).trans ha, haq⟩, fun h => (hold.ending h).move hmoves,
      fun h => (hold.finished h).imp_left fun h => h.move hmoves⟩
  · exact fun m hr => (h.retrying m hr).move hmoves
  · exact h.keyed
  · intro hterminal
    rw [hfinalizing] at hterminal
    cases hterminal
  · intro hq
    rw [hfinalizing] at hq
    cases hq
  · intro hq
    rw [hroot, hof] at hq
    have hidle := h.idle hq
    refine ⟨.inr hfinalizing, hidle.controllers, hidle.settled, hidle.timers, hidle.retries,
      fun m a ha => (hidle.alone m a (hof m ▸ ha)).trans hroot.symm, ?_, ?_, hidle.recoveries⟩
    · rw [heq]
      exact hidle.resources
    · rw [heq]
      exact hidle.sharedSpace
  · intro hmanaged _ m a ha hterminal
    rw [hwaiting]
    exact h.tracked hmanaged hopen m a (hof m ▸ ha) hterminal
  · intro hmanaged _
    rw [hroot, hwaiting, hof]
    exact h.unowned hmanaged hopen
  · exact fun l hl => (h.listed l hl).trans hmoves.reaches
  · intro hne
    have ⟨hfinal, hresources, hm⟩ := h.recovering hne
    refine ⟨hfinal.move hmoves, ?_, hm⟩
    rw [heq]
    exact hresources

end

theorem queue_enqueue (s : AgentRunState) (m : MemberId) :
    AgentRunState.queue { s with scheduler := { s.scheduler with
      queued := s.scheduler.queued.set () (s.scheduler.queueOf () ++ [⟨m, s.policy⟩]) } } =
      s.queue ++ [m] := by
  unfold queue queueOf
  rw [get?_set_self]
  exact map_append

theorem executeMember_some {x : Execution} (hget : s.controllers.get? m = some x)
    (env : Surroundings) : s.executeMember m env = { s with settled := s.settled + 1 } := by
  unfold executeMember
  rw [hget]
  rfl

theorem Base.execute_effect (h : Base s [m]) (hget : s.controllers.get? m = none)
    (env : Surroundings) : Effect m s (s.executeMember m env) := by
  have ⟨a, ha, hcase⟩ := h.waiting m (.inr (.inr (mem_singleton_self m)))
  rw [hget] at hcase
  have hlate : a = .queued ∨ a.Late := hcase.imp_right fun h => h.resolve_left nofun
  exact (executeMember_piece h.runEnds h.keyed ⟨a, ha, hlate⟩ hget env).effect

theorem Base.execute (h : Base s [m]) (env : Surroundings) : Base (s.executeMember m env) [] := by
  cases hget : s.controllers.get? m with
  | none =>
    exact h.effect (h.execute_effect hget env) (.inl (mem_singleton_self m)) nofun
      fun m' hm' => .inl (mem_singleton.mp hm')
  | some x =>
    have ⟨b, hb, hbq⟩ := (h.executing m x hget).status
    rw [executeMember_some hget]
    refine h.quiet { Quiet.refl _ [] with
      idle := fun hidle => ?_, back := fun m' hw => ?_, kept := fun m' hq hw => ?_ }
    · have hnone := hidle.controllers m
      rw [hget] at hnone
      cases hnone
    · rcases hw with hq | hr | hp
      · exact .inl hq
      · exact .inr (.inl hr)
      · cases hp
    · rcases hw with hq' | hr | hp
      · exact .inl hq'
      · exact .inr (.inl hr)
      · rw [mem_singleton.mp hp, hb] at hq
        exact absurd (some.inj hq) hbq

theorem Base.open_of_queued (h : Base s pending)
    (hq : s.statusOf s.rootMemberId = some .queued) : s.rows.status.terminal = false := by
  rcases (h.idle hq).status with heq | heq <;> rw [heq] <;> rfl

theorem Base.failQueued (h : Base s pending) (m : MemberId) (reason : SchedulerSkipReason) :
    s.statusOf m ≠ some .queued ∧ s.failQueued m reason = s ∨
      Effect m s (s.failQueued m reason) ∧
        (m = s.rootMemberId → (s.failQueued m reason).rows.status.terminal = true) := by
  rcases failQueued_cases s m reason h.open_of_queued with hkept | ⟨hqueued, _, _, heq, hfailed⟩
  · exact .inl hkept
  rw [heq]
  refine .inr ⟨hfailed.effect hqueued h.runEnds ?_, fun hroot => ?_⟩
  · cases hget : s.controllers.get? m with
    | none => rfl
    | some x =>
      have ⟨a, ha, haq⟩ := (h.executing m x hget).status
      exact absurd (some.inj (ha.symm.trans hqueued)) haq
  · rcases hfailed.run with ⟨_, _, hstatus⟩ | ⟨hne, _⟩
    · exact congrArg terminal hstatus
    · exact absurd hroot hne

theorem Base.fail (h : Base s (m :: rest)) (reason : SchedulerSkipReason) :
    Base (s.failQueued m reason) rest := by
  rcases h.failQueued m reason with ⟨hne, heq⟩ | ⟨heffect, _⟩
  · rw [heq]
    refine h.quiet { Quiet.refl _ [] with back := fun m' hw => ?_, kept := fun m' hq hw => ?_ }
    · exact hw.imp_right fun h => h.imp_right fun h => mem_cons_of_mem m h
    refine hw.imp_right fun h => h.imp_right fun h => ?_
    rcases mem_cons.mp h with rfl | hin
    · exact absurd hq hne
    · exact hin
  · exact h.effect heffect (.inl mem_cons_self) (fun m' hm' => mem_cons_of_mem m hm')
      fun m' hm' => mem_cons.mp hm'

/-- Without the timers, members may wait for a finalization that nobody starts any more. -/
theorem Base.dropRetries (h : Base s pending) (hstopped : s.accepting = false) :
    Base { s with timers := [], cleanupRetryTimers := [] } pending := by
  have hretrying {m : MemberId} (hr : Retrying { s with timers := [], cleanupRetryTimers := [] } m) :
      s.Retrying m := by
    rcases hr with ⟨_, hc, _⟩ | hr
    · cases hc
    · exact .inr hr
  refine { h with
    executing := fun m x hx => { h.executing m x hx with
      finished := fun hend => ((h.executing m x hx).finished hend).imp_right fun _ => .inr hstopped }
    retrying := fun m hr => h.retrying m (hretrying hr), keyed := nofun
    idle := fun hq => { h.idle hq with timers := rfl }, tracked := ?_, unowned := ?_
    recovering := fun hne => ?_ }
  · intro hmanaged hopen m a ha hterminal
    have hold := h.tracked hmanaged hopen m a ha hterminal
    split
    next hqueued =>
      rw [if_pos hqueued] at hold
      exact hold
    next hqueued => exact .inr (.inr hstopped)
  · intro hmanaged hopen
    have ⟨hnowait, hnolive, hnoretry, hlisted⟩ := h.unowned hmanaged hopen
    exact ⟨hnowait, hnolive, fun hr => hnoretry (hretrying hr), hlisted⟩
  · have ⟨hfinalizing, hrest⟩ := h.recovering hne
    exact ⟨⟨hfinalizing.late, hfinalizing.members⟩, hrest⟩

theorem reconcileInterruptedRun_frame (s : AgentRunState) :
    ∃ rows recoveries, s.reconcileInterruptedRun = { s with rows, recoveries } := by
  cases hopen : s.rows.status.terminal with
  | true => exact ⟨s.rows, s.recoveries, reconcileInterruptedRun_terminal hopen⟩
  | false => exact (reconcileInterruptedRun_recovered hopen).frame

theorem Base.recovery_frame (h : Base s []) {r : Recovery}
    (hget : s.recoveries[index]? = some r) (failed : Bool) : ∃ rows recoveries,
      resumeRecovery { s with recoveries := s.recoveries.eraseIdx index } r failed =
        { s with rows, recoveries } := by
  have hne : s.recoveries ≠ [] := ne_nil_of_mem (mem_of_getElem? hget)
  have ⟨hfinalizing, hresources, _⟩ := h.recovering hne
  exact (resumeRecovery_recovered (s := { s with recoveries := s.recoveries.eraseIdx index })
    ⟨hfinalizing.late, hfinalizing.members⟩ hresources r failed).frame

theorem Idle.space_of (h : s.Idle) {sharedSpace : Option AgentRunSharedSpaceRecord}
    (hsome : sharedSpace.isSome = s.rows.sharedSpace.isSome) : sharedSpace = none := by
  rw [h.sharedSpace] at hsome
  exact not_isSome_iff_eq_none.mp (by rw [hsome]; exact Bool.false_ne_true)

theorem reconcileExpiredSpace_eq (s : AgentRunState) (space : AgentRunSharedSpaceRecord) :
    ∃ sharedSpace removals, s.reconcileExpiredSpace space =
        { s with rows := { s.rows with sharedSpace }, removals } ∧
      sharedSpace.isSome = s.rows.sharedSpace.isSome := by
  have hpatched (patch : AgentRunSharedSpaceRecord → AgentRunSharedSpaceRecord) {rows : Rows}
      (h : s.rows.updateSharedSpace patch = .ok rows) :
      ∃ sharedSpace, rows = { s.rows with sharedSpace } ∧
        sharedSpace.isSome = s.rows.sharedSpace.isSome := by
    obtain ⟨space, hspace, heq⟩ := updateSharedSpace_eq h
    exact ⟨_, heq, by rw [hspace]; rfl⟩
  have hsame : ∃ sharedSpace removals, s = { s with rows := { s.rows with sharedSpace }, removals } ∧
      sharedSpace.isSome = s.rows.sharedSpace.isSome := ⟨s.rows.sharedSpace, s.removals, rfl, rfl⟩
  have hkept {patch : AgentRunSharedSpaceRecord → AgentRunSharedSpaceRecord} {rows : Rows}
      (h : s.rows.updateSharedSpace patch = .ok rows) :
      ∃ sharedSpace removals, { s with rows } =
        { s with rows := { s.rows with sharedSpace }, removals } ∧
      sharedSpace.isSome = s.rows.sharedSpace.isSome := by
    obtain ⟨sharedSpace, heq, hsome⟩ := hpatched _ h
    exact ⟨sharedSpace, s.removals, by rw [heq], hsome⟩
  unfold reconcileExpiredSpace
  split
  · exact hsame
  split
  · dsimp only
    split
    · exact hsame
    next hok => exact hkept hok
  split
  · dsimp only
    split
    · exact hsame
    next hok => exact hkept hok
  · split
    · exact hsame
    next hok =>
      obtain ⟨sharedSpace, heq, hsome⟩ := hpatched _ hok
      exact ⟨sharedSpace, _, by rw [heq], hsome⟩

theorem directoryRemoved_eq (s : AgentRunState) (resourceId : Nat) (failed : Bool) :
    ∃ sharedSpace resources, s.directoryRemoved resourceId failed =
        { s with rows := { s.rows with sharedSpace, resources } } ∧
      sharedSpace.isSome = s.rows.sharedSpace.isSome ∧
      SameResources s.rows { s.rows with sharedSpace, resources } := by
  unfold directoryRemoved
  simp only
  split
  · exact ⟨s.rows.sharedSpace, s.rows.resources, rfl, rfl, .refl _⟩
  next rows hok =>
    have ⟨space, hspace, heq⟩ := updateSharedSpace_eq hok
    subst heq
    exact ⟨_, _, rfl, by rw [hspace]; rfl, sameResources_transition s.rows _ _ _⟩

theorem Turn.base (hturn : Turn a p q) (h : Base p.1 p.2.members) : Base q.1 q.2.members := by
  cases hturn with
  | @takeRoot s _ _ hsubmitted | @dropRoot s _ _ hsubmitted =>
    refine h.quiet { Quiet.refl _ [] with back := fun m hw => ?_, kept := fun m _ hw => ?_ }
    · rcases hw with hq | ⟨hm, _⟩ | hp
      · exact .inl hq
      · exact .inr (.inl ⟨hm, hsubmitted⟩)
      · exact .inr (.inl ⟨mem_singleton.mp hp, hsubmitted⟩)
    · rcases hw with hq | ⟨hm, _⟩ | hp
      · exact .inl hq
      · exact .inr (.inr (mem_singleton.mpr hm))
      · cases hp
  | invite _ hrun _ _ hrow hqueued timeline =>
    exact Base.invite h hrun hrow timeline (.inl ⟨hqueued, rfl⟩)
  | invited _ hrun _ _ hrow hqueued timeline =>
    exact Base.invite h hrun hrow timeline (.inr ⟨hqueued, rfl⟩)
  | refuse => exact h
  | @enqueue s m =>
    refine h.quiet { Quiet.refl _ [] with back := fun m' hw => ?_, kept := fun m' _ hw => ?_ }
    · rcases hw with hq | hr | hp
      · rw [queue_enqueue] at hq
        exact (mem_append.mp hq).imp_right .inr
      · exact .inr (.inl hr)
      · cases hp
    unfold Waiting
    rw [queue_enqueue]
    rcases hw with hq | hr | hp
    · exact .inl (mem_append_left _ hq)
    · exact .inr (.inl hr)
    · exact .inl (mem_append_right _ hp)
  | begin | listExpired => exact h.quiet { Quiet.refl _ _ with }
  | release =>
    exact h.quiet { Quiet.refl _ [] with
      idle := fun hidle => ⟨hidle.resources, hidle.sharedSpace, by rw [hidle.settled]⟩ }
  | @pop s _ next rest _ _ hqueue =>
    have hold : s.queue = next.event :: rest.map QueuedEvent.event := by
      unfold queue
      rw [hqueue, map_cons]
    have hnew (r : SchedulerExecutionRuntime Unit MemberId) (now : Int) :
        ((r.dequeue () rest).begin () next.event next.policy now).1.queueOf () = rest :=
      (World.queueOf_dequeue r () () rest).trans (if_pos rfl)
    refine h.quiet { Quiet.refl _ [] with
      idle := fun hidle => ⟨hidle.resources, hidle.sharedSpace, by rw [hidle.settled]⟩
      back := fun m hw => ?_, kept := fun m _ hw => ?_ }
    · rcases hw with hq | hr | hp
      · refine .inl ?_
        rw [hold]
        unfold queue at hq
        rw [hnew] at hq
        exact mem_cons_of_mem _ hq
      · exact .inr (.inl hr)
      · refine .inl ?_
        rw [hold, mem_singleton.mp hp]
        exact mem_cons_self
    · rcases hw with hq | hr | hp
      · rw [hold] at hq
        rcases mem_cons.mp hq with rfl | hin
        · exact .inr (.inr (mem_singleton_self _))
        refine .inl ?_
        unfold queue
        rw [hnew]
        exact hin
      · exact .inr (.inl hr)
      · cases hp
  | execute _ => exact Base.execute h _
  | fail reason => exact Base.fail h reason
  | settleDown => exact h
  | cancel _ _ hrows => exact Base.cancel h hrows
  | @stop s =>
    refine h.quiet { Quiet.refl _ [] with
      stopped := fun _ => rfl, back := fun m hw => ?_, kept := fun m _ hw => ?_ }
    · rcases hw with hq | ⟨_, hlt⟩ | hp
      · cases hq
      · cases hlt
      · rcases mem_append.mp hp with hroot | hq
        · have ⟨hne, hm⟩ := mem_replicate.mp hroot
          exact .inr (.inl ⟨hm, Nat.pos_of_ne_zero hne⟩)
        · exact .inl hq
    · refine .inr (.inr (mem_append.mpr ?_))
      rcases hw with hq | ⟨hm, hlt⟩ | hp
      · exact .inr hq
      · exact .inl (mem_replicate.mpr ⟨ne_of_gt hlt, hm⟩)
      · cases hp
  | dropRetries _ hstopped => exact Base.dropRetries h hstopped
  | @abort s =>
    refine h.quiet { Quiet.refl _ [] with controllers := fun m => ?_ }
    rw [get?_mapValues, Option.map_map]
    rfl
  | @settle s t memberId settlement now x _ hx hresume =>
    have hphase := resume_phase hresume
    exact h.effect (resume_effect h hx hresume) (.inr (.inl ⟨x, hx, hphase⟩)) nofun nofun
  | fireTimer _ hget =>
    exact h.effect (fireTimer_effect h hget _)
      (.inr (.inr (.inl (.inl ⟨_, mem_of_getElem? hget, rfl⟩)))) nofun nofun
  | settleRetry _ hget =>
    exact h.effect (settleRetry_effect h hget _ _)
      (.inr (.inr (.inl (.inr ⟨_, mem_of_getElem? hget, rfl⟩)))) nofun nofun
  | @overlay s input m rows resourceId _ _ _ hmaterializing hrows =>
    have hwaiting (m : MemberId) : ({ s with rows } : AgentRunState).Waiting [] m ↔ s.Waiting [] m := by
      unfold Waiting
      rw [show ({ s with rows } : AgentRunState).rootMemberId = s.rootMemberId from
        (register_moves (P := fun _ _ => False) (Q := fun _ => False) hrows).rootMemberId]
      rfl
    refine h.quiet { Quiet.refl _ [] with
      moves := register_moves hrows, resources := fun hnil => ?_, idle := fun hidle => ?_
      back := fun m => (hwaiting m).mp, kept := fun m _ => (hwaiting m).mpr }
    · have ⟨_, _, heq, _⟩ := register_eq hrows
      rw [heq] at hnil
      exact (append_eq_nil_iff.mp hnil).1
    · unfold isMaterializing at hmaterializing
      rw [hidle.controllers m] at hmaterializing
      cases hmaterializing
  | @overlayPhase s resourceId phase increment _ hoverlay =>
    refine h.quiet { Quiet.refl _ [] with
      moves := .of_fields (Nat.le_refl _) rfl, idle := fun hidle => ?_
      resources := (sameResources_transition _ _ _ _).nil_iff.mp }
    unfold isOverlay at hoverlay
    rw [hidle.resources] at hoverlay
    cases hoverlay
  | restart => exact Base.restart h
  | list => exact Base.list h
  | pass => exact h.quiet { Quiet.refl _ [] with listings := fun l hl => mem_of_mem_eraseIdx hl }
  | unmanage _ hget hterminal => exact Base.unmanage h hget hterminal
  | acceptRoot _ hget hmanaged hstatus _ hresources =>
    exact Base.acceptRoot h hget hmanaged hstatus hresources
  | refuseRoot =>
    rcases Base.failQueued h _ .schedulerStopped with ⟨_, heq⟩ | ⟨heffect, hterminal⟩
    · rw [heq]
      exact h
    · exact h.effect heffect (.inr (.inr (.inr (hterminal rfl)))) nofun nofun
  | @interrupted s index _ listing _ hget hmanaged hlive _ =>
    have hbase : Base { s with listings := s.listings.eraseIdx index } [] :=
      h.quiet { Quiet.refl _ [] with listings := fun l hl => mem_of_mem_eraseIdx hl }
    cases hopen : s.rows.status.terminal with
    | true =>
      have heq := reconcileInterruptedRun_terminal
        (s := { s with listings := s.listings.eraseIdx index }) hopen
      rw [heq]
      exact hbase
    | false => exact hbase.recovered hmanaged (reconcileInterruptedRun_recovered hopen)
  | @recovery s index _ r _ hget =>
    have hne : s.recoveries ≠ [] := ne_nil_of_mem (mem_of_getElem? hget)
    have ⟨hfinalizing, hresources, hmanaged⟩ := h.recovering hne
    have hbase : Base { s with recoveries := s.recoveries.eraseIdx index } [] :=
      h.quiet { Quiet.refl _ [] with recoveries := fun _ => hne }
    exact hbase.recovered hmanaged (resumeRecovery_recovered
      (s := { s with recoveries := s.recoveries.eraseIdx index })
      ⟨hfinalizing.late, hfinalizing.members⟩ hresources r _)
  | @reconcileExpired s index listed _ _ =>
    have ⟨sharedSpace, removals, heq, hsome⟩ := reconcileExpiredSpace_eq
      { s with expiryListings := s.expiryListings.eraseIdx index } listed.1
    rw [heq]
    exact h.quiet { Quiet.refl _ [] with
      moves := .of_fields (Nat.le_refl _) rfl
      idle := fun hidle => ⟨hidle.resources, hidle.space_of hsome, hidle.settled⟩ }
  | @removal s index failed resourceId _ _ =>
    have ⟨sharedSpace, resources, heq, hsome, hresources⟩ := directoryRemoved_eq
      { s with removals := s.removals.eraseIdx index } resourceId failed
    rw [heq]
    exact h.quiet { Quiet.refl _ [] with
      moves := .of_fields (Nat.le_refl _) rfl, resources := hresources.nil_iff.mp
      idle := fun hidle =>
        ⟨hresources.nil_iff.mpr hidle.resources, hidle.space_of hsome, hidle.settled⟩ }

/-! ## Statuses only move on -/

/-- The run and its members have kept their places and moved on. -/
structure Onward (s t : Rows) : Prop where
  rootMemberId : t.rootMemberId = s.rootMemberId
  budget : t.budget = s.budget
  status : s.status.Reaches t.status
  member : ∀ m member, s.members.get? m = some member → ∃ member', t.members.get? m = some member' ∧
    member'.parentMemberId = member.parentMemberId ∧ member'.depth = member.depth ∧
    member.status.Reaches member'.status

theorem Onward.refl (s : Rows) : Onward s s :=
  ⟨rfl, rfl, .refl _, fun _ member h => ⟨member, h, rfl, rfl, .refl _⟩⟩

theorem Onward.trans {s t u : Rows} (h : Onward s t) (h' : Onward t u) : Onward s u := by
  refine ⟨h'.rootMemberId.trans h.rootMemberId, h'.budget.trans h.budget,
    h.status.trans h'.status, fun m member hget => ?_⟩
  have ⟨member', hget', hparent, hdepth, hreach⟩ := h.member m member hget
  have ⟨member'', hget'', hparent', hdepth', hreach'⟩ := h'.member m member' hget'
  exact ⟨member'', hget'', hparent'.trans hparent, hdepth'.trans hdepth, hreach.trans hreach'⟩

theorem Onward.of_moves {s t : Rows} {P : MemberId → AgentRunStatus → Prop}
    {Q : AgentRunStatus → Prop} (h : s.Moves t P Q) : Onward s t := by
  refine ⟨h.rootMemberId, h.budget, h.reaches, fun m member hget => ?_⟩
  have ⟨member', hget', hmove⟩ := h.member m member hget
  refine ⟨member', hget', hmove.parent, hmove.depth, ?_⟩
  rcases hmove.status with heq | ⟨hreach, _⟩
  · exact .inl heq.symm
  · exact hreach

theorem Onward.statusOf {s t : Rows} (h : Onward s t) {a : AgentRunStatus}
    (ha : s.statusOf m = some a) : ∃ b, t.statusOf m = some b ∧ a.Reaches b := by
  have ⟨member, hget, hstatus⟩ := statusOf_eq_some.mp ha
  have ⟨member', hget', _, _, hreach⟩ := h.member m member hget
  exact ⟨member'.status, statusOf_eq_some.mpr ⟨member', hget', rfl⟩, hstatus ▸ hreach⟩

theorem Onward.invite (h : Base s pending)
    (hrow : addRow s.rows input snapshot = .ok (rows, m)) (timeline : Bool) :
    Onward s.rows (if timeline then rows.appendTimeline else rows) := by
  have hsame : Onward rows (if timeline then rows.appendTimeline else rows) := by
    cases timeline
    · exact .refl _
    · exact .of_moves (P := fun _ _ => False) (Q := fun _ => False)
        (.of_fields (Nat.le_refl _) rfl)
  refine Onward.trans ?_ hsame
  rcases addRow_cases hrow with ⟨heq, _⟩ | ⟨_, parent, _, _, _, heq⟩
  · subst heq
    exact .refl _
  subst heq
  refine ⟨rfl, rfl, .refl _, fun m' member hget => ⟨member, ?_, rfl, rfl, .refl _⟩⟩
  have hlt := h.numbered m' _ (statusOf_eq_some.mpr ⟨member, hget, rfl⟩)
  exact (get?_set_ne _ _ (Nat.ne_of_lt hlt)).trans hget

/-- What a turn does: work for one member, a new row, or nothing that an execution could see. -/
inductive Work (p q : AgentRunState × Handed) : Prop where
  | effect (m : MemberId) (h : Effect m p.1 q.1)
  | invited {input : Invocation} {snapshot : AgentRunMemberExecutionSnapshot} {rows : Rows}
      {m : MemberId} (hrow : addRow p.1.rows input snapshot = .ok (rows, m)) (timeline : Bool)
      (heq : q.1 = { p.1 with rows := if timeline then rows.appendTimeline else rows })
  | moved {P : MemberId → AgentRunStatus → Prop} {Q : AgentRunStatus → Prop}
      (hmoves : p.1.rows.Moves q.1.rows P Q) (hexecuted : q.1.executed = p.1.executed)
      (hcreated : q.1.created = p.1.created)
      (hcontrollers : ∀ m x, q.1.controllers.get? m = some x →
        ∃ x', p.1.controllers.get? m = some x' ∧ x'.phase = x.phase)

theorem Work.unmoved (hmoves : p.1.rows.Moves q.1.rows (fun _ _ => False) fun _ => False)
    (hsame : (q.1.executed, q.1.created, q.1.controllers) =
      (p.1.executed, p.1.created, p.1.controllers)) : Work p q := by
  simp only [Prod.mk.injEq] at hsame
  obtain ⟨hexecuted, hcreated, hcontrollers⟩ := hsame
  exact .moved hmoves hexecuted hcreated fun _ x hx => ⟨x, hcontrollers ▸ hx, rfl⟩

theorem Recovered.work (h : Recovered s t) (hsame : (s.rows, s.executed, s.created, s.controllers) =
    (p.1.rows, p.1.executed, p.1.created, p.1.controllers)) : Work p (t, .nobody) := by
  simp only [Prod.mk.injEq] at hsame
  obtain ⟨hrows, hexecuted, hcreated, hcontrollers⟩ := hsame
  have ⟨_, _, hframe⟩ := h.frame
  refine .moved (hrows ▸ h.moves) ?_ ?_ fun m x hx => ⟨x, ?_, rfl⟩
  · rw [hframe]
    exact hexecuted
  · rw [hframe]
    exact hcreated
  · rw [hframe] at hx
    exact hcontrollers ▸ hx

theorem Turn.work (hturn : Turn a p q) (h : Base p.1 p.2.members) : Work p q := by
  cases hturn with
  | takeRoot | dropRoot | refuse | enqueue | begin | release | pop | settleDown | stop | dropRetries
  | list | pass | unmanage | acceptRoot | listExpired => exact .unmoved (.refl _ _ _) rfl
  | invite _ _ _ _ hrow _ timeline | invited _ _ _ _ hrow _ timeline =>
    exact .invited hrow timeline rfl
  | @execute s m env =>
    cases hget : s.controllers.get? m with
    | none => exact .effect m (h.execute_effect hget env)
    | some x =>
      rw [executeMember_some hget]
      exact .unmoved (.refl _ _ _) rfl
  | fail | refuseRoot =>
    rcases h.failQueued _ _ with ⟨_, heq⟩ | ⟨heffect, _⟩
    · rw [heq]
      exact .unmoved (.refl _ _ _) rfl
    · exact .effect _ heffect
  | cancel _ _ hrows => exact .moved (transitionRun_moves hrows) rfl rfl fun m x hx => ⟨x, hx, rfl⟩
  | @abort s =>
    refine .moved (.refl _ (fun _ _ => False) fun _ => False) rfl rfl fun m x hx => ?_
    rw [get?_mapValues] at hx
    have ⟨x', hx', heq⟩ := map_eq_some_iff.mp hx
    exact ⟨x', hx', by rw [← heq]⟩
  | settle _ hx hresume => exact .effect _ (resume_effect h hx hresume)
  | fireTimer _ hget => exact .effect _ (fireTimer_effect h hget _)
  | settleRetry _ hget => exact .effect _ (settleRetry_effect h hget _ _)
  | overlay _ _ _ _ hrows => exact .unmoved (register_moves hrows) rfl
  | overlayPhase => exact .unmoved (.of_fields (Nat.le_refl _) rfl) rfl
  | restart =>
    exact .moved (.refl _ (fun _ _ => False) fun _ => False) rfl rfl fun m x hx => by cases hx
  | @interrupted s index _ listing _ _ _ _ _ =>
    cases hopen : s.rows.status.terminal with
    | true =>
      have heq := reconcileInterruptedRun_terminal
        (s := { s with listings := s.listings.eraseIdx index }) hopen
      rw [heq]
      exact .unmoved (.refl _ _ _) rfl
    | false =>
      exact (reconcileInterruptedRun_recovered
        (s := { s with listings := s.listings.eraseIdx index }) hopen).work rfl
  | @recovery s index _ r _ hget =>
    have hne : s.recoveries ≠ [] := ne_nil_of_mem (mem_of_getElem? hget)
    have ⟨hfinalizing, hresources, _⟩ := h.recovering hne
    exact (resumeRecovery_recovered (s := { s with recoveries := s.recoveries.eraseIdx index })
      ⟨hfinalizing.late, hfinalizing.members⟩ hresources r _).work rfl
  | @reconcileExpired s index listed _ _ =>
    have ⟨sharedSpace, removals, heq, _⟩ := reconcileExpiredSpace_eq
      { s with expiryListings := s.expiryListings.eraseIdx index } listed.1
    rw [heq]
    exact .unmoved (.of_fields (Nat.le_refl _) rfl) rfl
  | @removal s index failed resourceId _ _ =>
    have ⟨sharedSpace, resources, heq, _⟩ := directoryRemoved_eq
      { s with removals := s.removals.eraseIdx index } resourceId failed
    rw [heq]
    exact .unmoved (.of_fields (Nat.le_refl _) rfl) rfl

theorem Work.onward (h : Work p q) (hbase : Base p.1 p.2.members) : Onward p.1.rows q.1.rows := by
  cases h with
  | effect _ h => exact .of_moves h.moves
  | invited hrow timeline heq =>
    rw [heq]
    exact .invite hbase hrow timeline
  | moved hmoves => exact .of_moves hmoves

/-! ## Every run -/

theorem turns_base (hturns : Turns a p q) (h : Base p.1 p.2.members) : Base q.1 q.2.members := by
  induction hturns with
  | refl => exact h
  | tail _ hturn ih => exact hturn.base ih

theorem step_base (h : Base s []) (hstep : s.step a = some t) : Base t [] :=
  turns_base (step_turns h hstep) h

theorem step_keeps {P : AgentRunState × Handed → Prop}
    (hturn : ∀ p q, Turn a p q → Base p.1 p.2.members → P p → P q) (h : Base s [])
    (hstep : s.step a = some t) (hs : P (s, .nobody)) : P (t, .nobody) := by
  have hturns := step_turns h hstep
  suffices hall : ∀ q, Turns a (s, .nobody) q → Base q.1 q.2.members ∧ P q from (hall _ hturns).2
  intro q hq
  induction hq with
  | refl => exact ⟨h, hs⟩
  | tail _ hlast ih => exact ⟨hlast.base ih.1, hturn _ _ hlast ih.1 ih.2⟩

theorem create_base (budget : AgentRunBudget) (input : RootInput) :
    Base (create budget input) [] := by
  have hof {m : MemberId} {a : AgentRunStatus}
      (ha : (create budget input).statusOf m = some a) : m = 0 ∧ a = .queued := by
    have ⟨member, hget, hstatus⟩ := statusOf_eq_some.mp ha
    rcases get?_set_eq_some hget with ⟨rfl, rfl⟩ | ⟨_, hnone⟩
    · exact ⟨rfl, hstatus.symm⟩
    · cases hnone
  have hretrying {m : MemberId} (hr : (create budget input).Retrying m) : False := by
    rcases hr with ⟨_, hc, _⟩ | ⟨_, hr, _⟩
    · cases hc
    · cases hr
  have hroot : (create budget input).statusOf 0 = some .queued := rfl
  constructor
  · exact ⟨rootMember input, rfl, rfl⟩
  · exact fun m a ha => by rw [(hof ha).1]; exact one_pos
  · intro m hw
    rcases hw with hq | ⟨rfl, _⟩ | hp
    · cases hq
    · exact ⟨.queued, hroot, .inl rfl⟩
    · cases hp
  · exact fun m x hx => by cases hx
  · exact fun m hr => (hretrying hr).elim
  · exact fun m hm => by cases hm
  · exact fun h => by cases h
  · exact fun _ => hroot
  · exact fun _ => ⟨.inl rfl, fun _ => rfl, rfl, rfl, rfl, fun m a ha => (hof ha).1, rfl, rfl, rfl⟩
  · intro _ _ m a ha _
    rw [if_pos (hof ha).2]
    exact .inr (.inl ⟨(hof ha).1, one_pos⟩)
  · exact fun h => by cases h
  · exact fun l hl => by cases hl
  · exact absurd rfl

theorem run_base {budget : AgentRunBudget} {input : RootInput} {as : List RunAction}
    (h : run step (create budget input) as = some s) : Base s [] :=
  run_invariant (fun _ _ _ hstep hs => step_base hs hstep) h (create_base budget input)

/-! ## A run that is started -/

def planSnapshot : AgentRunMemberExecutionSnapshot where
  agentRevision := 1
  targetInstanceId := "instance"
  cwdFolderId := "folder"
  appendedPrompt := ""
  providerId := "codex"
  modelEntityId := none
  modelName := none
  modelUpstreamName := none
  reasoningEffort := none
  permissionMode := none
  workspaceMaterializer := "overlay-copy-on-write"
  processSandbox := "instance"

def planRun (budget : AgentRunBudget) : AgentRunState :=
  create budget ⟨"root", "agent", "go", planSnapshot⟩

def readySurroundings : Surroundings := ⟨.ok ⟨"instance", "runtime"⟩, 0, .ok (), 0⟩

/-- The root is prepared up to its first poll. -/
def prepareRoot : List RunAction :=
  [.submitRoot readySurroundings, .settle 0 (.ensureRunDirectory none) 0,
    .settle 0 (.ensure (.ok ())) 0, .settle 0 (.prepare none (.ok ())) 0,
    .settle 0 (.create (.ok ⟨"session-0", "thread-0"⟩)) 0]

def invoke (parent : MemberId) (clientRequestId : String) : RunAction :=
  .addMember ⟨parent, clientRequestId, "agent", "go"⟩ (.ok planSnapshot) readySurroundings

/-- A callee is prepared up to its first poll. -/
def prepareCallee (m : MemberId) (thread : String) : List RunAction :=
  [.settle m (.prepare none (.ok ())) 0, .settle m (.create (.ok ⟨thread, thread⟩)) 0]

end TaskHandoff.AgentRuns.AgentRunState
