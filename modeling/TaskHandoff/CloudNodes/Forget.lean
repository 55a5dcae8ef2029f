import TaskHandoff.CloudNodes.Channels

/-! # Forgetting a node

`forgetNode` counts the claim revision of its handle up, and an attach compares
that count before it goes on after an await. The comparison is missing after
the pairing was saved, and a pending claim keeps the recorded error in place.
-/

namespace TaskHandoff.CloudNodes

open Machine OrderedMap AttachCall

/-! ## What the helpers leave alone -/

/-- The attaches in progress, the revisions and the record of effects are the same. -/
structure SameAttaches (s t : Channels) : Prop where
  attaches : t.attaches = s.attaches
  claimRevisions : t.claimRevisions = s.claimRevisions
  effects : t.effects = s.effects

theorem SameAttaches.trans {s t u : Channels} (h : SameAttaches s t) (hu : SameAttaches t u) :
    SameAttaches s u :=
  ⟨hu.attaches.trans h.attaches, hu.claimRevisions.trans h.claimRevisions,
    hu.effects.trans h.effects⟩

namespace Channels

variable {s t : Channels} {env : Env} {nodeHandle : String} {id : Nat} {a : AttachCall}

theorem enqueueNodeLifecycle_same (s : Channels) (nodeId : String) (operation : NodeNotification)
    (isAsync : Bool) : SameAttaches s (s.enqueueNodeLifecycle nodeId operation isAsync) := by
  unfold enqueueNodeLifecycle
  split <;> exact ⟨rfl, rfl, rfl⟩

theorem settleNodeLifecycle_same {nodeId : String} (h : s.settleNodeLifecycle nodeId = some t) :
    SameAttaches s t := by
  unfold settleNodeLifecycle at h
  split at h
  · cases h
  · cases h
    exact ⟨rfl, rfl, rfl⟩
  · cases h
    exact ⟨rfl, rfl, rfl⟩

theorem recordError_same (s : Channels) (nodeHandle code : String) :
    SameAttaches s (s.recordError nodeHandle code) :=
  ⟨rfl, rfl, rfl⟩

theorem preserveLocal_same (s : Channels) (nodeHandle : String) :
    SameAttaches s (s.preserveLocal nodeHandle) :=
  ⟨rfl, rfl, rfl⟩

theorem closeNode_same (s : Channels) (env : Env) (nodeHandle : String) :
    SameAttaches s (s.closeNode env nodeHandle) := by
  unfold closeNode
  split
  · exact ⟨rfl, rfl, rfl⟩
  · have hdiscard : SameAttaches s (s.discardChannel nodeHandle) := ⟨rfl, rfl, rfl⟩
    exact hdiscard.trans (enqueueNodeLifecycle_same _ _ _ _)

theorem handleClosed_same (s : Channels) (env : Env) (nodeHandle : String) (attach : Nat) :
    SameAttaches s (s.handleClosed env nodeHandle attach) := by
  unfold handleClosed
  split
  · exact ⟨rfl, rfl, rfl⟩
  split
  · exact ⟨rfl, rfl, rfl⟩
  have herase : SameAttaches s { s with channels := s.channels.erase nodeHandle } :=
    ⟨rfl, rfl, rfl⟩
  exact herase.trans (enqueueNodeLifecycle_same _ _ _ _)

/-! ## Attaches of forgotten nodes -/

/-- An attach is marked as forgotten exactly when its revision is out of date,
none that waits for its pairing is, and none did anything while it was. -/
structure Guarded (s : Channels) : Prop where
  current : ∀ id a, s.attaches.get? id = some a → a.forgotten = false →
    a.revision = s.claimRevision a.verified.nodeHandle
  stale : ∀ id a, s.attaches.get? id = some a → a.forgotten = true →
    a.revision < s.claimRevision a.verified.nodeHandle
  saving : ∀ id a nodeId, s.attaches.get? id = some a → a.phase = .saving nodeId →
    a.forgotten = false
  effects : ∀ e ∈ s.effects, e.2.2 = false

theorem guarded_new : Guarded new where
  current := by simp [new]
  stale := by simp [new]
  saving := by simp [new]
  effects := by simp [new]

variable (h : Guarded s)

include h

theorem Guarded.same (hst : SameAttaches s t) : Guarded t := by
  have hrev : ∀ handle, t.claimRevision handle = s.claimRevision handle := by
    intro handle
    rw [claimRevision, claimRevision, hst.claimRevisions]
  constructor
  · intro id a ha hf
    rw [hst.attaches] at ha
    rw [hrev]
    exact h.current id a ha hf
  · intro id a ha hf
    rw [hst.attaches] at ha
    rw [hrev]
    exact h.stale id a ha hf
  · rw [hst.attaches]
    exact h.saving
  · rw [hst.effects]
    exact h.effects

theorem Guarded.endAttach (id : Nat) : Guarded (s.endAttach id) where
  current i a ha := h.current i a (get?_erase_eq_some ha).2
  stale i a ha := h.stale i a (get?_erase_eq_some ha).2
  saving i a nodeId ha := h.saving i a nodeId (get?_erase_eq_some ha).2
  effects := h.effects

theorem Guarded.end_of_same (hst : SameAttaches s t) (id : Nat) : Guarded (t.endAttach id) :=
  (h.same hst).endAttach id

/-- An attach moves on; only a current one may go on to wait for its pairing. -/
theorem Guarded.setAttach (ha : s.attaches.get? id = some a) {phase : AttachPhase}
    (hphase : ∀ nodeId, phase = .saving nodeId → a.forgotten = false) :
    Guarded (s.setAttach id { a with phase := phase }) := by
  constructor
  · intro i b hb
    rcases get?_set_eq_some hb with ⟨-, rfl⟩ | ⟨-, hb'⟩
    · exact h.current id a ha
    · exact h.current i b hb'
  · intro i b hb
    rcases get?_set_eq_some hb with ⟨-, rfl⟩ | ⟨-, hb'⟩
    · exact h.stale id a ha
    · exact h.stale i b hb'
  · intro i b nodeId hb
    rcases get?_set_eq_some hb with ⟨-, rfl⟩ | ⟨-, hb'⟩
    · exact hphase nodeId
    · exact h.saving i b nodeId hb'
  · exact h.effects

theorem Guarded.effect {effect : AttachEffect × String × Bool}
    (hcurrent : effect.2.2 = false) : Guarded { s with effects := effect :: s.effects } where
  __ := h
  effects e he := by
    rcases List.mem_cons.mp he with rfl | he
    · exact hcurrent
    · exact h.effects e he

theorem Guarded.not_forgotten (ha : s.attaches.get? id = some a)
    (hclaim : s.isCurrentClaim env a = true) : a.forgotten = false := by
  have hrev : s.claimRevision a.verified.nodeHandle = a.revision := by
    simp only [isCurrentClaim, Bool.and_eq_true, decide_eq_true_eq] at hclaim
    exact hclaim.1
  cases hf : a.forgotten with
  | false => rfl
  | true =>
    have := h.stale id a ha hf
    omega

theorem Guarded.beginAttach (v : VerifiedNodeRelayAllocation)
    (phase : AttachPhase) : Guarded (s.beginAttach env v phase) := by
  constructor
  · intro i b hb
    rcases get?_set_eq_some hb with ⟨-, rfl⟩ | ⟨-, hb'⟩
    · exact fun _ => rfl
    · exact h.current i b hb'
  · intro i b hb hf
    rcases get?_set_eq_some hb with ⟨-, rfl⟩ | ⟨-, hb'⟩
    · cases hf
    · exact h.stale i b hb' hf
  · intro i b nodeId hb hsaving
    rcases get?_set_eq_some hb with ⟨-, rfl⟩ | ⟨-, hb'⟩
    · rfl
    · exact h.saving i b nodeId hb' hsaving
  · exact h.effects

theorem Guarded.attach (v : VerifiedNodeRelayAllocation) : Guarded (s.attach env v) := by
  simp only [Channels.attach]
  split
  · exact h
  split
  · exact h.same ⟨rfl, rfl, rfl⟩
  split
  · exact h.same ⟨rfl, rfl, rfl⟩
  split
  · exact h.same ⟨rfl, rfl, rfl⟩
  split
  · exact h.beginAttach v _
  split
  · exact h.same ⟨rfl, rfl, rfl⟩
  split
  · exact h
  · exact (h.same (closeNode_same s env v.nodeHandle)).beginAttach v _

theorem Guarded.install (ha : s.attaches.get? id = some a)
    (hcurrent : a.forgotten = false) (nodeId : String) : Guarded (s.install env id a nodeId) := by
  simp only [Channels.install]
  generalize hinstalled : ({ s with
      channels := s.channels.set a.verified.nodeHandle ⟨id, a.verified.allocationId, nodeId⟩
      claims := s.claims.erase a.verified.nodeHandle
      errors := s.errors.erase a.verified.nodeHandle
      trust := s.trust.erase a.verified.nodeHandle
      effects := (.installChannel, a.verified.nodeHandle, a.forgotten) :: s.effects } :
        Channels) = installed
  have hguarded : Guarded installed := by
    have hrecorded : Guarded { s with
        effects := (.installChannel, a.verified.nodeHandle, a.forgotten) :: s.effects } :=
      h.effect hcurrent
    rw [← hinstalled]
    exact hrecorded.same ⟨rfl, rfl, rfl⟩
  have hlookup : installed.attaches.get? id = some a := by
    rw [← hinstalled]
    exact ha
  split
  · exact hguarded.endAttach id
  have hattached : SameAttaches installed (if env.attachCloses then
      installed.handleClosed env a.verified.nodeHandle id else installed) := by
    split
    · exact handleClosed_same _ _ _ _
    · exact ⟨rfl, rfl, rfl⟩
  have hnotified := hattached.trans
    (enqueueNodeLifecycle_same _ nodeId .connected env.connectedIsAsync)
  refine (hguarded.same hnotified).setAttach ?_ (by simp)
  rw [hnotified.attaches]
  exact hlookup

theorem Guarded.attachIdentity (ha : s.attaches.get? id = some a)
    (connection : Connection) (identity : ResolvedNode) :
    Guarded (s.attachIdentity env id a connection identity) := by
  simp only [Channels.attachIdentity]
  split
  · exact h.endAttach id
  rename_i hclaim
  have hcurrent := h.not_forgotten ha (by simpa using hclaim)
  split
  · exact h.end_of_same (recordError_same _ _ _) id
  split
  · exact h.end_of_same (preserveLocal_same _ _) id
  split
  · exact Guarded.setAttach (h.effect hcurrent) ha (fun _ _ => hcurrent)
  · exact h.install ha hcurrent identity.nodeId

theorem Guarded.settle {outcome : Settled} (hs : s.settle env id outcome = some t) : Guarded t := by
  unfold Channels.settle at hs
  split at hs
  · cases hs
  rename_i a ha
  split at hs
  · cases hs
    exact h.endAttach id
  · cases hs
    exact h.end_of_same (preserveLocal_same _ _) id
  · cases hs
    unfold connectFailed
    split
    · exact h.end_of_same (recordError_same _ _ _) id
    · exact h.endAttach id
  next outcome hphase =>
    cases hs
    simp only [trustRequired]
    split
    · exact h.endAttach id
    split
    · exact h.end_of_same (recordError_same _ _ _) id
    have htrust : SameAttaches s { s with
        trust := s.trust.set a.verified.nodeHandle outcome
        errors := s.errors.erase a.verified.nodeHandle } := ⟨rfl, rfl, rfl⟩
    exact h.end_of_same htrust id
  · cases hs
    unfold connected
    split
    · exact h.endAttach id
    split
    · exact h.end_of_same (recordError_same _ _ _) id
    split
    · exact h.setAttach ha (by simp)
    · exact h.attachIdentity ha _ _
  · cases hs
    exact h.end_of_same (recordError_same _ _ _) id
  · cases hs
    exact h.attachIdentity ha _ _
  · cases hs
    exact h.endAttach id
  next nodeId hphase =>
    cases hs
    exact h.install ha (h.saving id a nodeId ha hphase) nodeId
  · cases hs
    simp only [notified]
    split
    · exact h.endAttach id
    · exact h.end_of_same (recordError_same _ _ _) id
  · cases hs

/-! ## Forgetting -/

end Channels

open Channels

/-- The attach has its pairing on the way to the store. -/
def AttachPhase.isSaving : AttachPhase → Bool
  | .saving _ => true
  | _ => false

/-- A node is forgotten while it has no claim beside a recorded error, and no
attach of it waits for its pairing. -/
def ForgetsCleanly (s : Channels) : Env × Event → Prop
  | (_, .forgetNode nodeHandle) =>
    ¬ (s.claims.contains nodeHandle = true ∧ s.errors.contains nodeHandle = true) ∧
      ∀ a ∈ s.attaches.values, a.verified.nodeHandle = nodeHandle → a.phase.isSaving = false
  | _ => True

instance (s : Channels) : (action : Env × Event) → Decidable (ForgetsCleanly s action)
  | (_, .forgetNode _) => inferInstanceAs (Decidable (_ ∧ _))
  | (_, .noteClaim ..) | (_, .recordClaimFailure ..) | (_, .forgetClaim _) | (_, .closeNode _)
  | (_, .attachUnverified ..) | (_, .attach _) | (_, .settle ..) | (_, .socketClosed ..)
  | (_, .lifecycleSettled _) => .isTrue trivial

/-- Nothing is known of the node. -/
structure Clean (s : Channels) (nodeHandle : String) : Prop where
  claims : s.claims.get? nodeHandle = none
  errors : s.errors.get? nodeHandle = none
  trust : s.trust.get? nodeHandle = none
  channels : s.channels.get? nodeHandle = none

namespace Channels

theorem enqueueNodeLifecycle_maps (s : Channels) (nodeId : String) (operation : NodeNotification)
    (isAsync : Bool) : (s.enqueueNodeLifecycle nodeId operation isAsync).channels = s.channels ∧
      (s.enqueueNodeLifecycle nodeId operation isAsync).claims = s.claims ∧
      (s.enqueueNodeLifecycle nodeId operation isAsync).errors = s.errors ∧
      (s.enqueueNodeLifecycle nodeId operation isAsync).trust = s.trust := by
  unfold enqueueNodeLifecycle
  split <;> exact ⟨rfl, rfl, rfl, rfl⟩

theorem closeNode_maps (s : Channels) (env : Env) (nodeHandle : String) :
    (s.closeNode env nodeHandle).channels.get? nodeHandle = none ∧
      (s.closeNode env nodeHandle).claims = s.claims ∧
      (s.closeNode env nodeHandle).errors = s.errors ∧
      (s.closeNode env nodeHandle).trust = s.trust := by
  unfold closeNode
  split
  next hnone => exact ⟨hnone, rfl, rfl, rfl⟩
  · obtain ⟨hchannels, hclaims, herrors, htrust⟩ :=
      enqueueNodeLifecycle_maps (s.discardChannel nodeHandle) _ .disconnected
        env.disconnectedIsAsync
    rw [hchannels]
    exact ⟨get?_erase_self _ _, hclaims, herrors, htrust⟩

theorem forgetNode_clean (s : Channels) (env : Env) (nodeHandle : String) :
    Clean (s.forgetNode env nodeHandle) nodeHandle ↔
      ¬ (s.claims.contains nodeHandle = true ∧ s.errors.contains nodeHandle = true) := by
  simp only [forgetNode]
  split
  next hclaim =>
    constructor
    · rintro hclean ⟨-, herror⟩
      have hnone := hclean.errors
      simp only [closeNode_maps] at hnone
      simp [contains, hnone] at herror
    · intro hnot
      have herror : s.errors.get? nodeHandle = none := by
        have hno : ¬ s.errors.contains nodeHandle = true := fun herr => hnot ⟨hclaim, herr⟩
        simpa [contains] using hno
      constructor <;> simp only [closeNode_maps, get?_erase_self, herror]
  next hclaim =>
    have hclaim' : ¬ s.claims.contains nodeHandle = true := hclaim
    have hnone : s.claims.get? nodeHandle = none := by simpa [contains] using hclaim'
    refine iff_of_true ?_ fun h => hclaim' h.1
    constructor <;> simp only [closeNode_maps, get?_erase_self, hnone]

variable (h : Guarded s)

include h

section

variable (hsaving : ∀ a ∈ s.attaches.values, a.verified.nodeHandle = nodeHandle →
    a.phase.isSaving = false)

include hsaving

/-- Counting the revision up makes the attaches of the node stale, no others. -/
theorem Guarded.counted : Guarded { s with
      claimRevisions := s.claimRevisions.set nodeHandle (s.claimRevision nodeHandle + 1)
      attaches := s.attaches.mapValues (forget nodeHandle) } := by
  have hlookup : ∀ {i b}, (s.attaches.mapValues (forget nodeHandle)).get? i = some b →
      ∃ a, s.attaches.get? i = some a ∧ b = a.forget nodeHandle := by
    intro i b hb
    rw [get?_mapValues, Option.map_eq_some_iff] at hb
    obtain ⟨a, ha, hab⟩ := hb
    exact ⟨a, ha, hab.symm⟩
  constructor
  · intro i b hb hf
    obtain ⟨a, ha, rfl⟩ := hlookup hb
    unfold forget at hf ⊢
    split at hf
    · cases hf
    next hne =>
      rw [if_neg hne, h.current i a ha hf]
      simp [claimRevision, get?_set_ne _ _ hne]
  · intro i b hb hf
    obtain ⟨a, ha, rfl⟩ := hlookup hb
    unfold forget at hf ⊢
    split
    next heq =>
      have hle : a.revision ≤ s.claimRevision a.verified.nodeHandle := by
        cases hfa : a.forgotten with
        | false => exact Nat.le_of_eq (h.current i a ha hfa)
        | true => exact Nat.le_of_lt (h.stale i a ha hfa)
      simpa [claimRevision, heq] using Nat.lt_succ_of_le hle
    next hne =>
      rw [if_neg hne] at hf
      have hlt := h.stale i a ha hf
      simpa [claimRevision, get?_set_ne _ _ hne] using hlt
  · intro i b nodeId hb hphase
    obtain ⟨a, ha, rfl⟩ := hlookup hb
    unfold forget at hphase ⊢
    split at hphase
    next heq =>
      have hopen := hsaving a (mem_values.mpr ⟨i, ha⟩) heq
      rw [show a.phase = .saving nodeId from hphase] at hopen
      cases hopen
    next hne =>
      rw [if_neg hne]
      exact h.saving i a nodeId ha hphase
  · exact h.effects

theorem Guarded.forgetNode : Guarded (s.forgetNode env nodeHandle) := by
  have hcounted := h.counted hsaving
  refine Guarded.same ?_ (closeNode_same _ env nodeHandle)
  split
  · exact hcounted.same ⟨rfl, rfl, rfl⟩
  · exact hcounted.same ⟨rfl, rfl, rfl⟩

end

theorem Guarded.step {action : Env × Event} (hs : step s action = some t)
    (hclean : ForgetsCleanly s action) : Guarded t := by
  obtain ⟨env, event⟩ := action
  cases event with
  | noteClaim nodeHandle requestedAt =>
    cases hs
    exact h.same ⟨rfl, rfl, rfl⟩
  | recordClaimFailure nodeHandle code =>
    cases hs
    exact h.same (recordError_same _ _ _)
  | forgetClaim nodeHandle =>
    cases hs
    exact h.same ⟨rfl, rfl, rfl⟩
  | forgetNode nodeHandle =>
    cases hs
    exact h.forgetNode hclean.2
  | closeNode nodeHandle =>
    cases hs
    exact h.same (closeNode_same _ _ _)
  | attachUnverified nodeHandle code =>
    cases nodeHandle with
    | none =>
      cases hs
      exact h
    | some nodeHandle =>
      cases hs
      exact h.same (recordError_same _ _ _)
  | attach v =>
    cases hs
    exact h.attach v
  | settle id outcome => exact h.settle hs
  | socketClosed nodeHandle id =>
    cases hs
    exact h.same (handleClosed_same _ _ _ _)
  | lifecycleSettled nodeId => exact h.same (settleNodeLifecycle_same hs)

end Channels

/-- Over every run that forgets nodes cleanly, no attach saved a pairing or
installed a channel after its node was forgotten. In every state, forgetting a
node leaves nothing of it unless it has a claim beside a recorded error. -/
theorem forget_final {as : List (Env × Event)} {s : Channels} (h : run step new as = some s)
    (hclean : AllSteps step ForgetsCleanly new as) : (∀ e ∈ s.effects, e.2.2 = false) ∧
      ∀ env nodeHandle t, step s (env, .forgetNode nodeHandle) = some t → (Clean t nodeHandle ↔
          ¬ (s.claims.contains nodeHandle = true ∧ s.errors.contains nodeHandle = true)) := by
  have hguarded : Guarded s :=
    run_invariant_of_steps (fun _ _ _ hs hP hg => hg.step hs hP) h hclean guarded_new
  refine ⟨hguarded.effects, ?_⟩
  intro env nodeHandle t ht
  cases ht
  exact forgetNode_clean s env nodeHandle

/-- Answers for a node that is not managed here yet. -/
def quietEnv : Env := ⟨true, none, none, some false, false, false, true, true⟩

/-- An attach up to the saving of its pairing. -/
def pairingRun : List (Env × Event) :=
  [(quietEnv, .noteClaim "h" 0), (quietEnv, .attach ⟨"h", "allocation", none⟩),
    (quietEnv, .settle 0 (.connected ⟨"node", true⟩)),
    (quietEnv, .settle 0 (.ensured ⟨"node", false⟩))]

/-- The node is forgotten once its channel is installed. -/
theorem forget_final_attached :
    ∃ s, run step new (pairingRun ++ [(quietEnv, .settle 0 (.saved false)),
        (quietEnv, .forgetNode "h")]) = some s ∧
      s.effects = [(.installChannel, "h", false), (.savePairing, "h", false)] ∧
      ∀ e ∈ s.effects, e.2.2 = false := by
  have h := @forget_final (pairingRun ++ [(quietEnv, .settle 0 (.saved false)),
    (quietEnv, .forgetNode "h")]) _ rfl (by decide)
  exact ⟨_, rfl, rfl, h.1⟩

/-- Forgetting a node that has a claim and a recorded error keeps the error,
and a node forgotten while its pairing is saved gets its channel afterwards. -/
theorem forgotten_not_final :
    (∃ s, run step new [(quietEnv, .recordClaimFailure "h" "CLOUD_TIMEOUT"),
        (quietEnv, .noteClaim "h" 0), (quietEnv, .forgetNode "h")] = some s ∧
      s.errors.get? "h" = some "CLOUD_TIMEOUT") ∧
    ∃ s, run step new (pairingRun ++ [(quietEnv, .forgetNode "h"),
        (quietEnv, .settle 0 (.saved false))]) = some s ∧
      (AttachEffect.installChannel, "h", true) ∈ s.effects ∧
      s.channels.get? "h" = some ⟨0, "allocation", "node"⟩ :=
  ⟨⟨_, rfl, rfl⟩, ⟨_, rfl, by decide, rfl⟩⟩

end TaskHandoff.CloudNodes
