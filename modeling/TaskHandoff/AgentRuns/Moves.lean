import TaskHandoff.AgentRuns.Coordinator

/-! # How the rows of a run move

Statuses only move on. What an operation does to the rows is said by the members it moves and the
statuses it moves them to. -/

namespace TaskHandoff.AgentRuns

open OrderedMap Option

/-! ## The order of statuses -/

namespace AgentRunStatus

def rank : AgentRunStatus → Nat
  | .queued => 0
  | .preparing => 1
  | .running => 2
  | .finalizing => 3
  | .completed | .failed | .cancelled => 4

/-- The other status is the same or further on. -/
def Reaches (a b : AgentRunStatus) : Prop := a = b ∨ a.rank < b.rank

/-- Finalizing, or at its end. -/
def Late (a : AgentRunStatus) : Prop := 3 ≤ a.rank

theorem Reaches.refl (a : AgentRunStatus) : a.Reaches a := .inl rfl

theorem Reaches.rank_le {a b : AgentRunStatus} (h : a.Reaches b) : a.rank ≤ b.rank := by
  rcases h with rfl | h <;> omega

theorem Reaches.trans {a b c : AgentRunStatus} (h : a.Reaches b) (h' : b.Reaches c) :
    a.Reaches c := by
  rcases h with rfl | h
  · exact h'
  rcases h' with rfl | h'
  · exact .inr h
  · exact .inr (Nat.lt_trans h h')

variable {a : AgentRunStatus}

theorem terminal_iff : a.terminal = true ↔ a.rank = 4 := by cases a <;> decide

theorem rank_le_four (a : AgentRunStatus) : a.rank ≤ 4 := by cases a <;> decide

variable {b : AgentRunStatus}

theorem Reaches.of_terminal (h : a.Reaches b) (ha : a.terminal = true) : b = a := by
  rcases h with rfl | h
  · rfl
  have hrank := terminal_iff.mp ha
  have hle := b.rank_le_four
  omega

theorem Late.reaches (ha : a.Late) (h : a.Reaches b) : b.Late := Nat.le_trans ha h.rank_le

theorem Late.of_terminal (h : a.terminal = true) : a.Late := by
  have hrank := terminal_iff.mp h
  unfold Late
  omega

theorem late_iff : a.Late ↔ a = .finalizing ∨ a.terminal = true := by
  cases a <;> simp [Late, rank, terminal]

theorem late_finalizing : Late .finalizing := Nat.le_refl 3

theorem Late.ne_queued (h : a.Late) : a ≠ .queued := by
  rintro rfl
  exact Nat.not_succ_le_zero 2 h

theorem Reaches.eq_queued (h : a.Reaches .queued) : a = .queued := by
  rcases h with h | h
  · exact h
  · exact absurd h (Nat.not_lt_zero _)

theorem reaches_of_transition (h : canTransitionAgentRunStatus a b = true) : a.Reaches b := by
  unfold Reaches
  revert h
  cases a <;> cases b <;> decide

theorem transition_terminal (hb : b.terminal = true) :
    canTransitionAgentRunStatus a b = true ↔ a = .finalizing ∨ a = b := by
  revert hb
  cases a <;> cases b <;> decide

theorem transition_finalizing :
    canTransitionAgentRunStatus a .finalizing = true ↔ a.terminal = false := by
  cases a <;> decide

end AgentRunStatus

/-! ## Moves -/

namespace Rows

def statusOf (s : Rows) (memberId : MemberId) : Option AgentRunStatus :=
  (s.members.get? memberId).map AgentRunMember.status

theorem statusOf_eq_some {s : Rows} {memberId : MemberId} {status : AgentRunStatus} :
    s.statusOf memberId = some status ↔
      ∃ member, s.members.get? memberId = some member ∧ member.status = status :=
  map_eq_some_iff

/-- The member has moved to a status that `P` admits, or has stayed. -/
structure MemberMoves (a b : AgentRunMember) (P : AgentRunStatus → Prop) : Prop where
  parent : b.parentMemberId = a.parentMemberId
  depth : b.depth = a.depth
  status : b.status = a.status ∨ a.status.Reaches b.status ∧ P b.status

/-- Members have moved to statuses that `P` admits, the run to one that `Q` admits. -/
structure Moves (s t : Rows) (P : MemberId → AgentRunStatus → Prop) (Q : AgentRunStatus → Prop) :
    Prop where
  rootMemberId : t.rootMemberId = s.rootMemberId
  budget : t.budget = s.budget
  keys : t.members.keys = s.members.keys
  nextId : s.nextId ≤ t.nextId
  member : ∀ m a, s.members.get? m = some a → ∃ b, t.members.get? m = some b ∧ MemberMoves a b (P m)
  status : t.status = s.status ∨ s.status.Reaches t.status ∧ Q t.status

variable {s t u : Rows} {P P' : MemberId → AgentRunStatus → Prop} {Q Q' : AgentRunStatus → Prop}

theorem Moves.refl (s : Rows) (P : MemberId → AgentRunStatus → Prop)
    (Q : AgentRunStatus → Prop) : Moves s s P Q :=
  ⟨rfl, rfl, rfl, Nat.le_refl _, fun _ a h => ⟨a, h, rfl, rfl, .inl rfl⟩, .inl rfl⟩

theorem MemberMoves.trans {a b c : AgentRunMember} {P : AgentRunStatus → Prop}
    (h : MemberMoves a b P) (h' : MemberMoves b c P) : MemberMoves a c P := by
  refine ⟨h'.parent.trans h.parent, h'.depth.trans h.depth, ?_⟩
  rcases h'.status with heq | ⟨hreach, hP⟩
  · rw [heq]
    exact h.status
  right
  rcases h.status with heq' | ⟨hreach', _⟩
  · exact ⟨heq' ▸ hreach, hP⟩
  · exact ⟨hreach'.trans hreach, hP⟩

theorem Moves.trans (h : Moves s t P Q) (h' : Moves t u P Q) : Moves s u P Q := by
  constructor
  · exact h'.rootMemberId.trans h.rootMemberId
  · exact h'.budget.trans h.budget
  · exact h'.keys.trans h.keys
  · exact Nat.le_trans h.nextId h'.nextId
  · intro m a ha
    have ⟨b, hb, hab⟩ := h.member m a ha
    have ⟨c, hc, hbc⟩ := h'.member m b hb
    exact ⟨c, hc, hab.trans hbc⟩
  · rcases h'.status with heq | ⟨hreach, hQ⟩
    · rw [heq]
      exact h.status
    · right
      rcases h.status with heq' | ⟨hreach', _⟩
      · exact ⟨heq' ▸ hreach, hQ⟩
      · exact ⟨hreach'.trans hreach, hQ⟩

theorem Moves.mono (h : Moves s t P Q) (hP : ∀ m a, P m a → P' m a) (hQ : ∀ a, Q a → Q' a) :
    Moves s t P' Q' := by
  refine ⟨h.rootMemberId, h.budget, h.keys, h.nextId, fun m a ha => ?_, ?_⟩
  · have ⟨b, hb, hab⟩ := h.member m a ha
    exact ⟨b, hb, hab.parent, hab.depth, hab.status.imp_right fun h => ⟨h.1, hP m _ h.2⟩⟩
  · exact h.status.imp_right fun h => ⟨h.1, hQ _ h.2⟩

theorem Moves.reaches (h : Moves s t P Q) : s.status.Reaches t.status := by
  rcases h.status with heq | ⟨hreach, _⟩
  · exact .inl heq.symm
  · exact hreach

variable {m : MemberId} {a : AgentRunStatus}

theorem Moves.statusOf (h : Moves s t P Q) (ha : s.statusOf m = some a) :
    ∃ b, t.statusOf m = some b ∧ (b = a ∨ a.Reaches b ∧ P m b) := by
  have ⟨x, hx, hxa⟩ := statusOf_eq_some.mp ha
  have ⟨y, hy, hxy⟩ := h.member m x hx
  exact ⟨y.status, statusOf_eq_some.mpr ⟨y, hy, rfl⟩, hxa ▸ hxy.status⟩

theorem Moves.known (h : Moves s t P Q) : t.statusOf m = none ↔ s.statusOf m = none := by
  rw [Rows.statusOf, Rows.statusOf, map_eq_none_iff, map_eq_none_iff,
    get?_eq_none, get?_eq_none, h.keys]

theorem Moves.before (h : Moves s t P Q) {b : AgentRunStatus} (hb : t.statusOf m = some b) :
    ∃ a, s.statusOf m = some a ∧ (b = a ∨ a.Reaches b ∧ P m b) := by
  cases ha : s.statusOf m with
  | none =>
    rw [h.known.mpr ha] at hb
    cases hb
  | some a =>
    have ⟨b', hb', hab⟩ := h.statusOf ha
    rw [hb] at hb'
    cases hb'
    exact ⟨a, rfl, hab⟩

/-! ## Operations -/

theorem transitionRun_eq {tr : AgentRunTransition} (h : s.transitionRun tr = .ok t) :
    canTransitionAgentRunStatus s.status tr.status = true ∧ ∃ revision result error cleanup,
        t = { s with status := tr.status, revision, result, error, cleanup } := by
  unfold transitionRun at h
  split at h
  next hcan =>
    refine ⟨hcan, ?_⟩
    simp only at h
    split at h
    next hsame =>
      cases h
      exact ⟨_, _, _, _, by rw [hsame.1]⟩
    · cases h
      exact ⟨_, _, _, _, rfl⟩
  · cases h

theorem transitionRun_ok {tr : AgentRunTransition}
    (h : canTransitionAgentRunStatus s.status tr.status = true) :
    ∃ t, s.transitionRun tr = .ok t := by
  unfold transitionRun
  rw [if_pos h]
  simp only
  split <;> exact ⟨_, rfl⟩

variable {tr : AgentRunMemberTransition}

theorem transitionMember_eq (h : s.transitionMember m tr = .ok t) :
    ∃ member revision, s.members.get? m = some member ∧
      canTransitionAgentRunStatus member.status tr.status = true ∧
      t = { s with members := s.members.set m (tr.apply member), revision } := by
  unfold transitionMember at h
  split at h
  · cases h
  rename_i member hmember
  split at h
  next hcan =>
    split at h
    next hsame =>
      cases h
      exact ⟨member, s.revision, hmember, hcan, by rw [hsame, set_of_get? hmember]⟩
    · cases h
      exact ⟨member, _, hmember, hcan, rfl⟩
  · cases h

theorem transitionMember_ok (ha : s.statusOf m = some a)
    (h : canTransitionAgentRunStatus a tr.status = true) :
    ∃ t, s.transitionMember m tr = .ok t := by
  have ⟨member, hmember, hstatus⟩ := statusOf_eq_some.mp ha
  subst hstatus
  unfold transitionMember
  simp only [hmember, h, if_true]
  split <;> exact ⟨_, rfl⟩

variable {e : AgentRunError}

theorem transitionMember_error (ha : s.statusOf m = some a)
    (h : s.transitionMember m tr = .error e) : canTransitionAgentRunStatus a tr.status = false := by
  cases hcan : canTransitionAgentRunStatus a tr.status with
  | false => rfl
  | true =>
    have ⟨t, ht⟩ := transitionMember_ok ha hcan
    rw [ht] at h
    cases h

theorem transitionRun_error {tr : AgentRunTransition} (h : s.transitionRun tr = .error e) :
    canTransitionAgentRunStatus s.status tr.status = false := by
  cases hcan : canTransitionAgentRunStatus s.status tr.status with
  | false => rfl
  | true =>
    have ⟨t, ht⟩ := transitionRun_ok hcan
    rw [ht] at h
    cases h

theorem transitionRun_moves {tr : AgentRunTransition} (h : s.transitionRun tr = .ok t) :
    Moves s t (fun _ _ => False) (· = tr.status) := by
  have ⟨hcan, _, _, _, _, ht⟩ := transitionRun_eq h
  subst ht
  exact ⟨rfl, rfl, rfl, Nat.le_refl _, fun _ a h => ⟨a, h, rfl, rfl, .inl rfl⟩,
    .inr ⟨AgentRunStatus.reaches_of_transition hcan, rfl⟩⟩

theorem transitionMember_moves (h : s.transitionMember m tr = .ok t) :
    Moves s t (fun m' a => m' = m ∧ a = tr.status) (fun _ => False) := by
  have ⟨member, _, hmember, hcan, ht⟩ := transitionMember_eq h
  subst ht
  refine ⟨rfl, rfl, keys_set_of_get? hmember, Nat.le_refl _, fun m' a ha => ?_, .inl rfl⟩
  by_cases hm : m' = m
  · subst hm
    rw [hmember] at ha
    cases ha
    exact ⟨_, get?_set_self _ _ _, rfl, rfl,
      .inr ⟨AgentRunStatus.reaches_of_transition hcan, rfl, rfl⟩⟩
  · exact ⟨a, (get?_set_ne _ _ hm).trans ha, rfl, rfl, .inl rfl⟩

theorem transitionMember_statusOf (h : s.transitionMember m tr = .ok t) :
    t.statusOf m = some tr.status := by
  have ⟨member, _, hmember, hcan, ht⟩ := transitionMember_eq h
  subst ht
  exact statusOf_eq_some.mpr ⟨_, get?_set_self _ _ _, rfl⟩

variable {patch : AgentRunSharedSpaceRecord → AgentRunSharedSpaceRecord}

theorem updateSharedSpace_eq (h : s.updateSharedSpace patch = .ok t) :
    ∃ space, s.sharedSpace = some space ∧ t = { s with sharedSpace := some (patch space) } := by
  unfold updateSharedSpace at h
  split at h
  · cases h
  next space hspace =>
    cases h
    exact ⟨space, hspace, rfl⟩

theorem updateSharedSpace_error
    (h : s.updateSharedSpace patch = .error e) : s.sharedSpace = none := by
  unfold updateSharedSpace at h
  split at h
  next hnone => exact hnone
  · cases h

theorem Moves.of_fields (hnext : s.nextId ≤ t.nextId)
    (hsame : (t.rootMemberId, t.budget, t.members, t.status) =
      (s.rootMemberId, s.budget, s.members, s.status)) : Moves s t P Q := by
  simp only [Prod.mk.injEq] at hsame
  obtain ⟨hroot, hbudget, hmembers, hstatus⟩ := hsame
  refine ⟨hroot, hbudget, by rw [hmembers], hnext, fun _ a h => ⟨a, ?_, rfl, rfl, .inl rfl⟩,
    .inl hstatus⟩
  rw [hmembers]
  exact h

variable {input : ResourceInput} {resourceId : Nat}

variable (h : s.register input = .ok (t, resourceId))

include h

theorem register_eq :
    ∃ resources nextId, t = { s with resources := s.resources ++ resources, nextId } ∧
      s.nextId ≤ nextId ∧
      (∀ r ∈ resources, r.kind = input.kind ∧ r.instanceId = input.instanceId) := by
  unfold register at h
  split at h
  · split at h
    · cases h
    · cases h
      exact ⟨[], s.nextId, by simp, Nat.le_refl _, nofun⟩
  · cases h
    exact ⟨_, _, rfl, Nat.le_succ _, fun r hr => by rw [List.mem_singleton.mp hr]; exact ⟨rfl, rfl⟩⟩

theorem register_mem :
    ∃ r ∈ t.resources, r.kind = input.kind ∧ r.instanceId = input.instanceId := by
  unfold register at h
  split at h
  next existing hfind =>
    split at h
    · cases h
    rename_i hsame
    cases h
    have hkind := List.find?_some hfind
    simp only [decide_eq_true_eq] at hkind
    simp only [not_or, not_not] at hsame
    exact ⟨existing, List.mem_of_find?_eq_some hfind, hkind.1, hsame.2.1⟩
  · cases h
    exact ⟨_, List.mem_append_right _ (List.mem_singleton_self _), rfl, rfl⟩

theorem register_moves : Moves s t P Q := by
  have ⟨_, _, ht, hnext, _⟩ := register_eq h
  subst ht
  exact .of_fields hnext rfl

end Rows

end TaskHandoff.AgentRuns
