import TaskHandoff.AgentRuns.Slots

/-! # Waiting for a queued member

A member may wait for a member that it has invoked, and holds its slot meanwhile. Where the slots
outnumber the ancestors that the queued members can have, some member with a slot goes on; the
default budget does not keep to that. -/

namespace TaskHandoff.AgentRuns.AgentRunState

open AgentRunStatus Rows Machine OrderedMap List Relation

variable {s t : AgentRunState} {a : RunAction} {m : MemberId} {p q : AgentRunState × Handed}
  {rows : Rows}

/-! ## The tree of invocations -/

/-- The members form a tree within the budget. -/
structure Tree (rows : Rows) : Prop where
  size : rows.members.keys.length ≤ rows.budget.maxMembers
  depth : ∀ m member, rows.members.get? m = some member → member.depth ≤ rows.budget.maxDepth
  top : ∀ m member, rows.members.get? m = some member → member.parentMemberId = none →
    m = rows.rootMemberId ∧ member.depth = 0
  below : ∀ m member parentId, rows.members.get? m = some member →
    member.parentMemberId = some parentId →
    ∃ parent, rows.members.get? parentId = some parent ∧ member.depth = parent.depth + 1

theorem Tree.moves {rows' : Rows} {P : MemberId → AgentRunStatus → Prop} {Q : AgentRunStatus → Prop}
    (h : Tree rows) (hmoves : rows.Moves rows' P Q) : Tree rows' := by
  have hback {m : MemberId} {member' : AgentRunMember}
      (hget' : rows'.members.get? m = some member') :
      ∃ member, rows.members.get? m = some member ∧
        member'.parentMemberId = member.parentMemberId ∧ member'.depth = member.depth := by
    cases hget : rows.members.get? m with
    | none =>
      rw [get?_eq_none, ← hmoves.keys, ← get?_eq_none, hget'] at hget
      cases hget
    | some member =>
      have ⟨moved, hmoved, hmove⟩ := hmoves.member m member hget
      rw [hget'] at hmoved
      cases hmoved
      exact ⟨member, rfl, hmove.parent, hmove.depth⟩
  constructor
  · rw [hmoves.keys, hmoves.budget]
    exact h.size
  · intro m member' hget'
    have ⟨member, hget, _, hdepth⟩ := hback hget'
    rw [hdepth, hmoves.budget]
    exact h.depth m member hget
  · intro m member' hget' hnone
    have ⟨member, hget, hparent, hdepth⟩ := hback hget'
    rw [hdepth, hmoves.rootMemberId]
    exact h.top m member hget (hparent ▸ hnone)
  · intro m member' parentId hget' hsome
    have ⟨member, hget, hparent, hdepth⟩ := hback hget'
    have ⟨parent, hgetParent, heq⟩ := h.below m member parentId hget (hparent ▸ hsome)
    have ⟨parent', hgetParent', hmove⟩ := hmoves.member parentId parent hgetParent
    exact ⟨parent', hgetParent', by rw [hdepth, heq, hmove.depth]⟩

theorem Tree.timeline (h : Tree rows) (timeline : Bool) :
    Tree (if timeline then rows.appendTimeline else rows) := by
  cases timeline
  · exact h
  · exact { h with }

theorem Tree.invite {pending : List MemberId} (hbase : Base s pending) (h : Tree s.rows)
    {input : Invocation} {snapshot : AgentRunMemberExecutionSnapshot}
    (hrow : addRow s.rows input snapshot = .ok (rows, m)) : Tree rows := by
  rcases addRow_cases hrow with ⟨heq, _⟩ | ⟨_, parent, hparent, hroom, hdepth, heq⟩
  · rw [heq]
    exact h
  have hfresh : s.rows.members.get? s.rows.nextId = none := by
    cases hget : s.rows.members.get? s.rows.nextId with
    | none => rfl
    | some member =>
      exact absurd (hbase.numbered _ _ (statusOf_eq_some.mpr ⟨member, hget, rfl⟩))
        (Nat.lt_irrefl _)
  have hkept {m' : MemberId} {member : AgentRunMember}
      (hget : s.rows.members.get? m' = some member) :
      (s.rows.members.set s.rows.nextId
        (calledMember input (parent.depth + 1) snapshot)).get? m' = some member := by
    refine (get?_set_ne _ _ ?_).trans hget
    intro heq
    rw [heq, hfresh] at hget
    cases hget
  subst heq
  constructor
  · rw [keys_set_of_none hfresh, length_append]
    exact hroom
  · intro m' member hget
    rcases get?_set_eq_some hget with ⟨_, rfl⟩ | ⟨_, hold⟩
    · exact hdepth
    · exact h.depth m' member hold
  · intro m' member hget hnone
    rcases get?_set_eq_some hget with ⟨_, rfl⟩ | ⟨_, hold⟩
    · cases hnone
    · exact h.top m' member hold hnone
  · intro m' member parentId hget hsome
    rcases get?_set_eq_some hget with ⟨_, rfl⟩ | ⟨_, hold⟩
    · cases hsome
      exact ⟨parent, hkept hparent, rfl⟩
    · have ⟨parent', hget', heq⟩ := h.below m' member parentId hold hsome
      exact ⟨parent', hkept hget', heq⟩

theorem Tree.turn (hturn : Turn a p q) (hbase : Base p.1 p.2.members) (h : Tree p.1.rows) :
    Tree q.1.rows := by
  cases hturn.work hbase with
  | effect _ he => exact h.moves he.moves
  | invited hrow timeline heq =>
    rw [heq]
    exact (Tree.invite hbase h hrow).timeline timeline
  | moved hmoves => exact h.moves hmoves

def parentOf (s : AgentRunState) (m : MemberId) : Option MemberId :=
  (s.rows.members.get? m).bind AgentRunMember.parentMemberId

def depthOf (s : AgentRunState) (m : MemberId) : Nat :=
  (s.rows.members.get? m).elim 0 AgentRunMember.depth

theorem Tree.parentOf_eq (h : Tree s.rows) {parentId : MemberId} (hp : s.parentOf m = some parentId) :
    s.depthOf m = s.depthOf parentId + 1 ∧
      (s.depthOf parentId = 0 → parentId = s.rootMemberId) := by
  have ⟨member, hget, hparent⟩ := Option.bind_eq_some_iff.mp hp
  have ⟨parent, hgetParent, heq⟩ := h.below m member parentId hget hparent
  unfold depthOf
  rw [hget, hgetParent]
  refine ⟨heq, fun hzero => ?_⟩
  have hzero : parent.depth = 0 := hzero
  cases hup : parent.parentMemberId with
  | none => exact (h.top parentId parent hgetParent hup).1
  | some above =>
    have ⟨_, _, hdepth⟩ := h.below parentId parent above hgetParent hup
    omega

/-! ## Budgets with room -/

/-- The slots are more than the ancestors that the members without a slot can have. -/
def Roomy (budget : AgentRunBudget) : Prop :=
  budget.maxDepth = 0 ∨ budget.maxMembers ≤ budget.maxConcurrency ∨
    1 + (budget.maxMembers - budget.maxConcurrency) * (budget.maxDepth - 1) < budget.maxConcurrency

instance (budget : AgentRunBudget) : Decidable (Roomy budget) :=
  inferInstanceAs (Decidable (_ ∨ _ ∨ _))

/-- The members that are still queued. -/
def queuedMembers (s : AgentRunState) : Finset MemberId :=
  s.rows.members.keys.toFinset.filter fun m => s.statusOf m = some .queued

theorem mem_queuedMembers : m ∈ s.queuedMembers ↔ s.statusOf m = some .queued := by
  unfold queuedMembers
  rw [Finset.mem_filter, mem_toFinset]
  exact ⟨fun h => h.2, fun h => ⟨mem_keys_of_statusOf h, h⟩⟩

theorem card_live_add_queued (hbase : Base s []) (h : Tree s.rows) :
    s.liveMembers.card + s.queuedMembers.card ≤ s.rows.budget.maxMembers := by
  have hdisjoint : Disjoint s.liveMembers s.queuedMembers := by
    refine Finset.disjoint_left.mpr fun m hlive hqueued => ?_
    have ⟨x, hx, _⟩ := mem_liveMembers.mp hlive
    have ⟨a, ha, haq⟩ := (hbase.executing m x hx).status
    exact haq (Option.some.inj (ha.symm.trans (mem_queuedMembers.mp hqueued)))
  have hsub : s.liveMembers ∪ s.queuedMembers ⊆ s.rows.members.keys.toFinset := by
    intro m hm
    rw [mem_toFinset]
    rcases Finset.mem_union.mp hm with hlive | hqueued
    · have ⟨x, hx, _⟩ := mem_liveMembers.mp hlive
      have ⟨a, ha, _⟩ := (hbase.executing m x hx).status
      exact mem_keys_of_statusOf ha
    · exact mem_keys_of_statusOf (mem_queuedMembers.mp hqueued)
  have hcard := Finset.card_le_card hsub
  rw [Finset.card_union_of_disjoint hdisjoint] at hcard
  have hkeys := toFinset_card_le s.rows.members.keys
  have hsize := h.size
  omega

/-- While a member waits for a slot, no slot that is left by its execution, and every slot is held. -/
theorem exists_unblocked (hbase : Base s []) (hslots : Slots (s, .nobody)) (htree : Tree s.rows)
    (hroomy : Roomy s.rows.budget) (hwaiting : m ∈ s.queue) (hqueued : s.statusOf m = some .queued)
    {waits : MemberId → MemberId → Prop} (hwaits : ∀ p c, waits p c → s.parentOf c = some p) :
    0 < s.settled ∨ ∃ r, s.Live r ∧ ∀ c, s.statusOf c = some .queued → ¬ TransGen waits r c := by
  by_cases hsettled : 0 < s.settled
  · exact .inl hsettled
  refine .inr (Classical.byContradiction fun hblocked => ?_)
  have hblocked : ∀ r ∈ s.liveMembers, ∃ c ∈ s.queuedMembers, Ancestors.Above s.parentOf r c := by
    intro r hr
    refine Classical.byContradiction fun hfree => hblocked ⟨r, mem_liveMembers.mp hr, ?_⟩
    intro c hc hrc
    exact hfree ⟨c, mem_queuedMembers.mpr hc, TransGen.mono hwaits r c hrc⟩
  have hfull : s.rows.budget.maxConcurrency ≤ s.liveMembers.card := by
    have hne : s.scheduler.queueOf () ≠ [] := by
      intro hnil
      unfold queue at hwaiting
      rw [hnil] at hwaiting
      cases hwaiting
    have hle := hslots.full hne
    have hcount := hslots.counted
    have hzero : s.settled = 0 := Nat.eq_zero_of_not_pos hsettled
    rw [hcount] at hle
    have hstarting : Handed.starting .nobody = 0 := rfl
    simp only [hzero, hstarting] at hle
    exact hle
  have hpos := s.rows.budget.maxConcurrency_pos
  have hsize := card_live_add_queued hbase htree
  have hone : 0 < s.queuedMembers.card := Finset.card_pos.mpr ⟨m, mem_queuedMembers.mpr hqueued⟩
  have hroot : ∀ a b, s.parentOf b = some a → s.depthOf a = 0 → a = s.rootMemberId :=
    fun a b hb => (htree.parentOf_eq hb).2
  have hcard := Ancestors.card_le_of_above (d := s.rows.budget.maxDepth)
    (fun a b hb => (htree.parentOf_eq hb).1) hroot s.liveMembers s.queuedMembers hblocked
    fun b hb => by
      have ⟨member, hget, _⟩ := statusOf_eq_some.mp (mem_queuedMembers.mp hb)
      unfold depthOf
      rw [hget]
      exact htree.depth b member hget
  rcases hroomy with hflat | hwide | hroom
  · -- a live member has a callee below the root
    have ⟨r, hr⟩ := Finset.card_pos.mp (Nat.lt_of_lt_of_le hpos hfull)
    have ⟨c, hc, hrc⟩ := hblocked r hr
    have ⟨_, hp⟩ : ∃ p, s.parentOf c = some p := by
      cases hrc with
      | single hb => exact ⟨_, hb⟩
      | tail _ hb => exact ⟨_, hb⟩
    have hdepth := (htree.parentOf_eq hp).1
    have ⟨member, hget, _⟩ := statusOf_eq_some.mp (mem_queuedMembers.mp hc)
    have hle := htree.depth c member hget
    unfold depthOf at hdepth
    rw [hget] at hdepth
    have hdepth : member.depth = _ := hdepth
    omega
  · omega
  · have hmul : s.queuedMembers.card * (s.rows.budget.maxDepth - 1) ≤
        (s.rows.budget.maxMembers - s.rows.budget.maxConcurrency) * (s.rows.budget.maxDepth - 1) :=
      Nat.mul_le_mul_right _ (by omega)
    omega

/-! ## Every run -/

theorem create_slots (budget : AgentRunBudget) (input : RootInput) :
    Slots (create budget input, .nobody) :=
  ⟨nofun, fun _ he => (not_mem_nil he).elim, rfl, absurd rfl⟩

theorem create_tree (budget : AgentRunBudget) (input : RootInput) :
    Tree (create budget input).rows := by
  have hget {m : MemberId} {member : AgentRunMember}
      (h : (create budget input).rows.members.get? m = some member) :
      m = 0 ∧ member = rootMember input := by
    rcases get?_set_eq_some h with h | ⟨_, hnone⟩
    · exact h
    · cases hnone
  constructor
  · exact budget.maxMembers_pos
  · intro m member h
    rw [(hget h).2]
    exact Nat.zero_le _
  · intro m member h _
    exact ⟨(hget h).1, by rw [(hget h).2]; rfl⟩
  · intro m member parentId h hsome
    rw [(hget h).2] at hsome
    cases hsome

variable {budget : AgentRunBudget} {as : List RunAction} {input : RootInput}

theorem run_slots (h : run step (create budget input) as = some s) :
    Slots (s, .nobody) ∧ Tree s.rows ∧ s.rows.budget = budget := by
  have hinv := run_invariant
    (I := fun s => Base s [] ∧ Slots (s, .nobody) ∧ Tree s.rows ∧ s.rows.budget = budget)
    (fun s a t hstep hs => ?_) h
    ⟨create_base budget input, create_slots budget input, create_tree budget input, rfl⟩
  · exact hinv.2
  refine ⟨step_base hs.1 hstep, step_keeps (P := fun p => Slots p ∧ Tree p.1.rows ∧
    p.1.rows.budget = budget) (fun p q hturn hbase hp => ⟨hp.1.turn hturn hbase,
    hp.2.1.turn hturn hbase, ?_⟩) hs.1 hstep hs.2⟩
  exact ((hturn.work hbase).onward hbase).budget.trans hp.2.2

/-- Where the budget has room, a queued member never waits for members that all wait for one: some
member with a slot goes on, or a slot is about to be given back. -/
theorem queued_member_not_deadlocked (requested : Option AgentRunBudget) (input : RootInput)
    (as : List RunAction) (s : AgentRunState) (m : MemberId) (waits : MemberId → MemberId → Prop)
    (h : run step (create (effectiveAgentRunBudget requested) input) as = some s)
    (hroomy : Roomy (effectiveAgentRunBudget requested)) (hwaiting : m ∈ s.queue)
    (hqueued : s.statusOf m = some .queued) (hwaits : ∀ p c, waits p c → s.parentOf c = some p) :
    0 < s.settled ∨ ∃ r, s.Live r ∧ ∀ c, s.statusOf c = some .queued → ¬ TransGen waits r c := by
  have ⟨hslots, htree, hbudget⟩ := run_slots h
  exact exists_unblocked (run_base h) hslots htree (hbudget ▸ hroomy) hwaiting hqueued hwaits

/-- One slot more than a chain through the depth can take. -/
def pairBudget : AgentRunBudget := ⟨3, 1, 2, by decide, by decide⟩

def pairRun : List RunAction :=
  prepareRoot ++ [invoke 0 "a"] ++ prepareCallee 4 "4" ++ [invoke 0 "b"]

theorem pairRun_run : ∃ s, run step (create (effectiveAgentRunBudget (some pairBudget))
        ⟨"root", "agent", "go", planSnapshot⟩) pairRun = some s ∧
      s.queue = [7] ∧ s.statusOf 7 = some .queued := ⟨_, rfl, rfl, rfl⟩

theorem queued_member_not_deadlocked_pair :
    ∃ s, run step (create (effectiveAgentRunBudget (some pairBudget))
        ⟨"root", "agent", "go", planSnapshot⟩) pairRun = some s ∧
      (0 < s.settled ∨ ∃ r, s.Live r ∧ ∀ c, s.statusOf c = some .queued →
        ¬ TransGen (fun p c => s.parentOf c = some p) r c) := by
  have ⟨s, hrun, hqueue, hqueued⟩ := pairRun_run
  exact ⟨s, hrun, queued_member_not_deadlocked (some pairBudget) _ pairRun s 7 _ hrun (by decide)
    (by rw [hqueue]; exact mem_singleton_self 7) hqueued fun _ _ => id⟩

/-! ## Trees and slots of every run -/

theorem Tree.up (h : Tree s.rows) {member : AgentRunMember} {d : Nat}
    (hget : s.rows.members.get? m = some member) (hdepth : member.depth = d) :
    (fun up : Option MemberId => up.bind s.parentOf)^[d] (some m) = some s.rootMemberId := by
  induction d generalizing m member with
  | zero =>
    cases hparent : member.parentMemberId with
    | none => exact congrArg some (h.top m member hget hparent).1
    | some parentId =>
      have ⟨_, _, heq⟩ := h.below m member parentId hget hparent
      omega
  | succ d ih =>
    cases hparent : member.parentMemberId with
    | none =>
      have hzero := (h.top m member hget hparent).2
      omega
    | some parentId =>
      have ⟨parent, hgetParent, heq⟩ := h.below m member parentId hget hparent
      have hup : s.parentOf m = some parentId := Option.bind_eq_some_iff.mpr ⟨member, hget, hparent⟩
      rw [Function.iterate_succ_apply, Option.bind_some, hup]
      exact ih hgetParent (by omega)

/-- In every run the members are a tree within the budget, and each has as many invokers above it,
up to the root, as its depth says. -/
theorem members_within_budget (h : run step (create budget input) as = some s) :
    Tree s.rows ∧ s.rows.budget = budget ∧
      ∀ m member, s.rows.members.get? m = some member →
        (fun up : Option MemberId => up.bind s.parentOf)^[member.depth] (some m) =
          some s.rootMemberId :=
  have hrun := (run_slots h).2
  ⟨hrun.1, hrun.2, fun _ _ hget => hrun.1.up hget rfl⟩

theorem members_within_budget_pair : ∃ s, run step (planRun pairBudget) pairRun = some s ∧
    s.statusOf 7 = some .queued ∧ Tree s.rows := by
  have ⟨s, hrun, _, hqueued⟩ := pairRun_run
  exact ⟨s, hrun, hqueued, (members_within_budget hrun).1⟩

/-- In every run the slots taken are those of the executions that go on or give theirs back, and a
member waits in the queue only while all slots are taken. -/
theorem slots_accounted (h : run step (create budget input) as = some s) :
    s.scheduler.runningCount () = s.liveMembers.card + s.settled ∧
      (s.queue ≠ [] → budget.maxConcurrency ≤ s.liveMembers.card + s.settled) := by
  have ⟨hslots, _, hbudget⟩ := run_slots h
  have hcounted := hslots.counted
  refine ⟨hcounted, fun hqueue => ?_⟩
  have hfull := hslots.full fun hnil => hqueue (by unfold queue; rw [hnil]; rfl)
  rw [hcounted, hbudget] at hfull
  exact hfull

theorem slots_accounted_pair : ∃ s, run step (planRun pairBudget) pairRun = some s ∧
    s.queue = [7] ∧ pairBudget.maxConcurrency ≤ s.liveMembers.card + s.settled := by
  have ⟨s, hrun, hqueue, _⟩ := pairRun_run
  exact ⟨s, hrun, hqueue, (slots_accounted hrun).2 (by rw [hqueue]; exact cons_ne_nil 7 [])⟩

/-! ## The default budget -/

/-- Each member invokes the next, down to the depth of the budget. -/
def chainRun : List RunAction :=
  prepareRoot ++ [invoke 0 "a"] ++ prepareCallee 4 "4" ++ [invoke 4 "b"] ++ prepareCallee 7 "7" ++
    [invoke 7 "c"] ++ prepareCallee 10 "10" ++ [invoke 10 "d"]

theorem chainRun_run :
    ∃ s, run step (create (effectiveAgentRunBudget none) ⟨"root", "agent", "go", planSnapshot⟩)
        chainRun = some s ∧
      s.queue = [13] ∧ s.statusOf 13 = some .queued ∧ s.settled = 0 ∧
      s.controllers.keys = [0, 4, 7, 10] ∧
      s.parentOf 4 = some 0 ∧ s.parentOf 7 = some 4 ∧ s.parentOf 10 = some 7 ∧
      s.parentOf 13 = some 10 ∧ s.statusOf 0 = some .running ∧ s.statusOf 4 = some .running ∧
      s.statusOf 7 = some .running ∧ s.statusOf 10 = some .running :=
  ⟨_, rfl, rfl, rfl, rfl, rfl, rfl, rfl, rfl, rfl, rfl, rfl, rfl, rfl⟩

/-- Under the default budget a chain of running members, each waiting for the one it invoked, holds
all slots while the last callee is queued. -/
theorem chain_deadlocks :
    ∃ s, run step (create (effectiveAgentRunBudget none) ⟨"root", "agent", "go", planSnapshot⟩)
        chainRun = some s ∧
      13 ∈ s.queue ∧ s.statusOf 13 = some .queued ∧ s.settled = 0 ∧
      ∀ r, s.Live r → TransGen
        (fun p c => s.parentOf c = some p ∧ s.statusOf p = some .running) r 13 := by
  have ⟨s, hrun, hqueue, hqueued, hsettled, hkeys, h4, h7, h10, h13, r0, r4, r7, r10⟩ :=
    chainRun_run
  refine ⟨s, hrun, by rw [hqueue]; exact mem_singleton_self 13, hqueued, hsettled, ?_⟩
  intro r ⟨x, hx, _⟩
  have hin : r ∈ s.controllers.keys := Decidable.byContradiction fun hnot => by
    rw [get?_eq_none.mpr hnot] at hx
    cases hx
  rw [hkeys] at hin
  let waits : MemberId → MemberId → Prop :=
    fun p c => s.parentOf c = some p ∧ s.statusOf p = some .running
  have third : TransGen waits 10 13 := .single ⟨h13, r10⟩
  have second : TransGen waits 7 13 := .head ⟨h10, r7⟩ third
  have first : TransGen waits 4 13 := .head ⟨h7, r4⟩ second
  have root : TransGen waits 0 13 := .head ⟨h4, r0⟩ first
  simp only [mem_cons, not_mem_nil, or_false] at hin
  rcases hin with rfl | rfl | rfl | rfl
  · exact root
  · exact first
  · exact second
  · exact third

end TaskHandoff.AgentRuns.AgentRunState
