import TaskHandoff.Persistence.Trust

/-! # Trust is granted by approval

A context is answered active through a pin. Followed back through the history, the pin comes from an
approval of a pending request, and behind it lies no other approval and no revocation of the same
identity, and no answer to a later share revision. -/

namespace TaskHandoff.Persistence.AccessRepository

open OrderedMap Option Machine

/-! ## Rows that a query finds -/

theorem firstRow_mem {α : Type} {before : α → α → Bool} {rows : List α} {a : α}
    (h : firstRow before rows = some a) : a ∈ rows := by
  induction rows generalizing a with
  | nil => cases h
  | cons b rest ih =>
    rw [firstRow] at h
    cases hrest : firstRow before rest with
    | none =>
      rw [hrest] at h
      cases h
      exact List.mem_cons_self
    | some c =>
      rw [hrest] at h
      simp only at h
      split at h
      · cases h
        exact List.mem_cons_of_mem b (ih hrest)
      · cases h
        exact List.mem_cons_self

/-- An active pin of an identity. -/
def ActivePin (s : AccessRepository) (id : Nat) (pin : CloudControlPlanePin) : Prop :=
  s.pins.get? id = some pin ∧ pin.status = .active

theorem mem_activePins {s : AccessRepository} {id : Nat} {pin : CloudControlPlanePin} :
    (id, pin) ∈ s.activePins ↔ s.ActivePin id pin := by
  rw [activePins, List.mem_filter, ← get?_eq_some, decide_eq_true_eq]
  rfl

theorem findActive_some {s : AccessRepository} {context : TrustContext} {id : Nat}
    {pin : CloudControlPlanePin} (h : s.findActiveCloudControlPlanePin context = some (id, pin)) :
    s.ActivePin id pin ∧ pin.columns.identity = context.identity ∧
      staleFor context pin = false := by
  have ⟨hfound, hfresh⟩ := filter_eq_some_iff.mp h
  have hmem := List.mem_filter.mp (firstRow_mem hfound)
  exact ⟨mem_activePins.mp hmem.1, of_decide_eq_true hmem.2, Bool.not_eq_true' _ ▸ hfresh⟩

/-! ## What a call does to the pins -/

variable {s t : AccessRepository} {input : ObserveInput} {now : Nat} {observation : Observation}

theorem expire_pins (s : AccessRepository) (now : Nat) :
    (s.expireCloudControlPlaneTrustRequests now).pins = s.pins := rfl

theorem updateRequest_pins {id : Nat} {request : TrustRequest}
    (h : s.updateRequest id request = .ok t) : t.pins = s.pins := by
  unfold updateRequest at h
  split at h
  · cases h
    rfl
  · cases h

theorem insertRequest_pins {request : TrustRequest} (h : s.insertRequest request = .ok t) :
    t.pins = s.pins := by
  unfold insertRequest at h
  split at h
  · split at h
    · cases h
    · cases h
      rfl
  · cases h

theorem updatePin_ok {id : Nat} {pin : CloudControlPlanePin} (h : s.updatePin id pin = .ok t) :
    pin.columns.valid = true ∧ t = { s with pins := s.pins.set id pin } := by
  unfold updatePin at h
  split at h
  next hvalid =>
    cases h
    exact ⟨hvalid, rfl⟩
  · cases h

theorem insertPin_ok {pin : CloudControlPlanePin} (h : s.insertPin pin = .ok t) :
    pin.columns.valid = true ∧ t = { s with
      pins := s.pins.set s.nextId pin
      nextId := s.nextId + 1 } ∧
      ∀ id old, s.ActivePin id old → old.columns.identity ≠ pin.columns.identity := by
  unfold insertPin at h
  split at h
  next hvalid =>
    split at h
    · cases h
    next hnone =>
      cases h
      refine ⟨hvalid, rfl, fun id old hold hsame => hnone ?_⟩
      exact List.any_eq_true.mpr ⟨(id, old), mem_activePins.mpr hold, by simpa using hsame⟩
  · cases h

theorem map_ok {α β ε : Type} {result : Except ε α} {f : α → β} {b : β}
    (h : result.map f = .ok b) : ∃ a, result = .ok a ∧ f a = b := by
  cases result with
  | error error => cases h
  | ok a => exact ⟨a, rfl, Except.ok.inj h⟩

theorem pendingObservation_pins (h : s.pendingObservation input = .ok (t, observation)) :
    t.pins = s.pins ∧ ∀ pin, observation ≠ .active pin := by
  have ⟨a, hinsert, heq⟩ := map_ok h
  cases heq
  exact ⟨insertRequest_pins hinsert, fun _ => Observation.noConfusion⟩

theorem observe_cases (h : s.observeCloudControlPlaneTrust input = .ok (t, observation)) :
    (t.pins = s.pins ∧ ∀ pin, observation ≠ .active pin) ∨
      ∃ id pin, s.ActivePin id pin ∧ pin.columns.identity = input.context.identity ∧
        staleFor input.context pin = false ∧ t.pins = s.pins.set id (seenPin input pin) ∧
        (seenPin input pin).columns.valid = true := by
  unfold observeCloudControlPlaneTrust at h
  have hpins := s.expire_pins input.now
  simp only at h
  generalize s.expireCloudControlPlaneTrustRequests input.now = u at h hpins
  split at h
  next id pin hfound =>
    have ⟨hactive, hidentity, hfresh⟩ := findActive_some hfound
    have ⟨a, hupdate, heq⟩ := map_ok h
    cases heq
    have ⟨hvalid, ht⟩ := updatePin_ok hupdate
    refine .inr ⟨id, pin, ⟨hpins ▸ hactive.1, hactive.2⟩, hidentity, hfresh, ?_, hvalid⟩
    exact hpins ▸ congrArg pins ht
  · left
    have hkept (h : t.pins = u.pins ∧ ∀ pin, observation ≠ .active pin) :
        t.pins = s.pins ∧ ∀ pin, observation ≠ .active pin := ⟨h.1.trans hpins, h.2⟩
    split at h
    · exact hkept (pendingObservation_pins h)
    split at h
    · have ⟨a, hupdate, heq⟩ := map_ok h
      cases heq
      exact hkept ⟨updateRequest_pins hupdate, fun _ => Observation.noConfusion⟩
    split at h
    · have ⟨a, hupdate, heq⟩ := map_ok h
      cases heq
      exact hkept ⟨updateRequest_pins hupdate, fun _ => Observation.noConfusion⟩
    · exact hkept (pendingObservation_pins h)

theorem revoke_cases {controlPlaneFingerprint : String → String} {input : RevokeInput}
    {pin : CloudControlPlanePin}
    (h : s.revokeCloudControlPlaneTrustPin controlPlaneFingerprint input now = .ok (t, pin)) :
    t.requests = s.requests ∧ (t.pins = s.pins ∨
      ∃ revoked, revoked.status = .revoked ∧ t.pins = s.pins.set input.pinId revoked) := by
  unfold revokeCloudControlPlaneTrustPin at h
  split at h
  · cases h
  rename_i old _
  split at h
  · cases h
  split at h
  · cases h
  split at h
  · cases h
    exact ⟨rfl, .inl rfl⟩
  split at h
  · cases h
  · have ⟨a, hupdate, heq⟩ := map_ok h
    cases heq
    have ⟨_, ht⟩ := updatePin_ok hupdate
    subst ht
    exact ⟨rfl, .inr ⟨_, rfl, rfl⟩⟩

theorem retry_pins {input : RetryInput} {request : TrustRequest}
    (h : s.retryCloudControlPlaneTrustRequest input = .ok (t, request)) : t.pins = s.pins := by
  unfold retryCloudControlPlaneTrustRequest at h
  have hpins := s.expire_pins input.now
  simp only at h
  split at h
  · cases h
  split at h
  · cases h
    exact hpins
  · cases h
  all_goals
    split at h
    · cases h
      exact hpins
    have ⟨a, hinsert, heq⟩ := map_ok h
    cases heq
    exact (insertRequest_pins hinsert).trans hpins

theorem foldl_revoke {rows : List (Nat × CloudControlPlanePin)}
    {revoke : CloudControlPlanePin → CloudControlPlanePin}
    (hrevoke : ∀ pin, (revoke pin).status = .revoked)
    {pins : OrderedMap Nat CloudControlPlanePin} {id : Nat} {pin : CloudControlPlanePin}
    (h : (rows.foldl (fun pins row => pins.set row.1 (revoke row.2)) pins).get? id = some pin) :
    pins.get? id = some pin ∨ pin.status = .revoked := by
  induction rows generalizing pins with
  | nil => exact .inl h
  | cons row rows ih =>
    rcases ih h with hrest | hrevoked
    · rcases get?_set_eq_some hrest with ⟨_, rfl⟩ | ⟨_, hold⟩
      · exact .inr (hrevoke row.2)
      · exact .inl hold
    · exact .inr hrevoked

theorem filter_getD (o : Option String) : (o.filter (· ≠ "")).getD "" = o.getD "" := by
  cases o with
  | none => rfl
  | some text =>
    by_cases h : text = ""
    · simp [Option.filter, h]
    · simp [Option.filter, h]

theorem approvedPin_identity (request : TrustRequest) (input : TrustDecision) (now : Nat) :
    (approvedPin request input now).columns.identity = request.columns.identity := by
  simp only [approvedPin, TrustColumns.identity, filter_getD]

theorem approveRequest_cases {input : TrustDecision} {request : TrustRequest}
    {result : DecisionResult} (h : s.approveRequest input now request = .ok (t, result)) :
    (∀ id old, s.ActivePin id old → old.columns.identity ≠ request.columns.identity) ∧
      (approvedPin request input now).columns.valid = true ∧ ∀ id pin, t.pins.get? id = some pin →
        (id = s.nextId ∧ pin = approvedPin request input now) ∨ s.pins.get? id = some pin ∨
          pin.status = .revoked := by
  unfold approveRequest at h
  simp only at h
  split at h
  · cases h
  rename_i u hinsert
  have ⟨hvalid, hu, hnone⟩ := insertPin_ok hinsert
  rw [approvedPin_identity] at hnone
  refine ⟨hnone, hvalid, ?_⟩
  have hadded (id : Nat) (pin : CloudControlPlanePin)
      (hget : (s.pins.set s.nextId (approvedPin request input now)).get? id = some pin) :
      (id = s.nextId ∧ pin = approvedPin request input now) ∨ s.pins.get? id = some pin := by
    rcases get?_set_eq_some hget with ⟨hid, hpin⟩ | ⟨_, hold⟩
    · exact .inl ⟨hid, hpin⟩
    · exact .inr hold
  split at h
  · cases h
  rename_i v hupdate
  have hsame : v.pins = s.pins.set s.nextId (approvedPin request input now) :=
    (updateRequest_pins hupdate).trans (congrArg pins hu)
  split at h
  · cases h
    intro id pin hget
    rw [hsame] at hget
    rcases hadded id pin hget with hnew | hold
    · exact .inl hnew
    · exact .inr (.inl hold)
  · cases h
    intro id pin hget
    have hkept := @foldl_revoke (v.supersededPins s.nextId (approvedPin request input now))
      (fun old => old.revoke now (some "superseded-by-key-rotation")) (fun _ => rfl) v.pins id
      pin hget
    rcases hkept with hkept | hrevoked
    · rw [hsame] at hkept
      rcases hadded id pin hkept with hnew | hold
      · exact .inl hnew
      · exact .inr (.inl hold)
    · exact .inr (.inr hrevoked)

/-! ## Histories -/

section History

variable (controlPlaneFingerprint : String → String)

/-- The call approves a pending, unexpired request of the identity, with the fingerprint and the
revision that the request has. -/
def Approves (s : AccessRepository) (a : Action) (identity : Identity) : Prop :=
  ∃ input now request result, a = .decide input now ∧ input.action = .approve ∧
    s.requests.get? input.requestId = some request ∧ request.columns.identity = identity ∧
    request.status = .pending ∧ now < request.expiresAt ∧
    input.expectedFingerprint = controlPlaneFingerprint request.columns.controlPlanePublicKey ∧
    input.expectedRevision = request.revision ∧
    s.decideCloudControlPlaneTrust controlPlaneFingerprint input now = .ok result

/-- The call revokes a pin of the identity. -/
def Revokes (s : AccessRepository) (a : Action) (identity : Identity) : Prop :=
  ∃ id pin t revoked, s.ActivePin id pin ∧ pin.columns.identity = identity ∧
    s.step controlPlaneFingerprint a = some t ∧ t.pins.get? id = some revoked ∧
    revoked.status = .revoked

/-- The call answers active to the identity at a share revision. -/
def AnswersActive (s : AccessRepository) (a : Action) (identity : Identity) (revision : Nat) :
    Prop :=
  ∃ input t pin, a = .observe input ∧ input.context.identity = identity ∧
    input.context.shareRevision = some revision ∧
    s.observeCloudControlPlaneTrust input = .ok (t, .active pin)

/-- What holds of the calls behind the approval that a pin with this share revision goes back
to. -/
structure Quiet (identity : Identity) (revision : Nat) (s : AccessRepository) (a : Action) :
    Prop where
  approved : ¬ Approves controlPlaneFingerprint s a identity
  revoked : ¬ Revokes controlPlaneFingerprint s a identity
  answered : identity.accessMode = .shared → ∀ r, AnswersActive s a identity r → r ≤ revision

/-- The run contains an approval of the identity, and is quiet behind it. -/
def GoesBack (actions : List Action) (s : AccessRepository) (identity : Identity)
    (P : AccessRepository → Action → Prop) : Prop :=
  ∃ before a after s₁ s₂, actions = before ++ a :: after ∧
    run (step controlPlaneFingerprint) new before = some s₁ ∧
    Approves controlPlaneFingerprint s₁ a identity ∧
    s₁.step controlPlaneFingerprint a = some s₂ ∧
    run (step controlPlaneFingerprint) s₂ after = some s ∧
    AllSteps (step controlPlaneFingerprint) P s₂ after

variable {controlPlaneFingerprint} {actions : List Action} {a : Action} {identity : Identity}

theorem get?_expire {id : Nat} {request : TrustRequest} :
    (s.expireCloudControlPlaneTrustRequests now).requests.get? id = some request ∧
        request.status = .pending ↔
      s.requests.get? id = some request ∧ request.status = .pending ∧ now < request.expiresAt := by
  unfold expireCloudControlPlaneTrustRequests
  rw [get?_mapValues, map_eq_some_iff]
  constructor
  · intro ⟨⟨r, hr, heq⟩, hpending⟩
    split at heq
    · rw [← heq] at hpending
      cases hpending
    next hkept =>
      subst heq
      exact ⟨hr, hpending, by
        by_contra hlate
        exact hkept ⟨hpending, by omega⟩⟩
  · intro ⟨hr, hpending, hnow⟩
    exact ⟨⟨request, hr, if_neg fun h => absurd h.2 (by omega)⟩, hpending⟩

theorem decide_cases {input : TrustDecision} {result : DecisionResult}
    (h : s.decideCloudControlPlaneTrust controlPlaneFingerprint input now = .ok (t, result)) :
    let u := s.expireCloudControlPlaneTrustRequests now
    t = u ∨ ∃ request, u.requests.get? input.requestId = some request ∧
      (u.rejectRequest input now request = .ok (t, result) ∨
        Approves controlPlaneFingerprint s (.decide input now) request.columns.identity ∧
          u.approveRequest input now request = .ok (t, result)) := by
  have hdecided := h
  unfold decideCloudControlPlaneTrust at h
  simp only at h
  split at h
  · cases h
  rename_i request hrequest
  split at h
  · cases h
  rename_i hfingerprint
  split at h
  · cases h
    exact .inl rfl
  split at h
  · cases h
  rename_i hrevision
  split at h
  · cases h
  rename_i hpending
  split at h
  · exact .inr ⟨request, hrequest, .inl h⟩
  next haction =>
    have ⟨hstored, hstatus, hnow⟩ := get?_expire.mp ⟨hrequest, not_not.mp hpending⟩
    exact .inr ⟨request, hrequest, .inr ⟨⟨input, now, request, _, rfl, haction, hstored,
      rfl, hstatus, hnow, (not_not.mp hfingerprint).symm, (not_not.mp hrevision).symm,
      hdecided⟩, h⟩⟩

theorem Approves.request {input : TrustDecision}
    (h : Approves controlPlaneFingerprint s (.decide input now) identity) :
    ∃ request result, request.columns.identity = identity ∧
      s.decideCloudControlPlaneTrust controlPlaneFingerprint input now = .ok result ∧
      (s.expireCloudControlPlaneTrustRequests now).approveRequest input now request =
        .ok result := by
  have ⟨input', now', request, result, heq, haction, hstored, hidentity, hstatus, hnow,
    hfingerprint, hrevision, hdecided⟩ := h
  cases heq
  have ⟨hrequest, _⟩ := get?_expire.mpr ⟨hstored, hstatus, hnow⟩
  refine ⟨request, result, hidentity, hdecided, ?_⟩
  have hfirst : ((s.expireCloudControlPlaneTrustRequests now).repeatedDecision input request) =
      none := by
    rw [repeatedDecision, haction]
    simp [hstatus]
  unfold decideCloudControlPlaneTrust at hdecided
  simp only [hrequest, hfirst, hfingerprint, hrevision, hstatus, haction, ne_eq, not_true_eq_false,
    if_false] at hdecided
  exact hdecided

/-! ## One call -/

/-- The share revision a pin allows contexts from. -/
def bound (pin : CloudControlPlanePin) : Nat := pin.columns.shareRevision.getD 0

theorem bound_seenPin (input : ObserveInput) (pin : CloudControlPlanePin) :
    bound pin ≤ bound (seenPin input pin) := by
  unfold bound seenPin
  simp only
  split
  next hforward =>
    have ⟨r, hr, hlt⟩ := (any_eq_true _ _).mp (Bool.and_eq_true_iff.mp hforward).2
    rw [hr]
    exact Nat.le_of_lt (of_decide_eq_true hlt)
  · exact Nat.le_refl _

variable {pin : CloudControlPlanePin}

theorem answered_le_bound {r : Nat} (hmode : input.context.accessMode = .shared)
    (hr : input.context.shareRevision = some r) : r ≤ bound (seenPin input pin) := by
  unfold bound seenPin shareRevisionForward
  by_cases hforward : pin.columns.shareRevision.getD 0 < r
  · simp [hmode, hr, hforward]
  · simp [hmode, hr, hforward]
    omega

/-- No identity has two active pins. -/
def UniquePins (s : AccessRepository) : Prop :=
  ∀ id₁ id₂ pin₁ pin₂, s.ActivePin id₁ pin₁ → s.ActivePin id₂ pin₂ →
    pin₁.columns.identity = pin₂.columns.identity → id₁ = id₂

theorem behind_cases {α : Type} {result : Except TrustError (AccessRepository × α)}
    (h : s.behind result = t) : t = s ∨ ∃ answer, result = .ok (t, answer) := by
  cases result with
  | error error => exact .inl h.symm
  | ok answer => exact .inr ⟨answer.2, by rw [← h]; rfl⟩

theorem step_active {id : Nat} (hstep : s.step controlPlaneFingerprint a = some t)
    (hactive : t.ActivePin id pin) :
    (∃ old, s.ActivePin id old ∧ pin.columns.identity = old.columns.identity ∧
        bound old ≤ bound pin ∧ (old.columns.valid = true → pin.columns.valid = true)) ∨
      id = s.nextId ∧ Approves controlPlaneFingerprint s a pin.columns.identity ∧
        (∀ id' old, s.ActivePin id' old → old.columns.identity ≠ pin.columns.identity) ∧
        pin.columns.valid = true := by
  have hkeeps (hold : s.pins.get? id = some pin) : ∃ old, s.ActivePin id old ∧
      pin.columns.identity = old.columns.identity ∧ bound old ≤ bound pin ∧
        (old.columns.valid = true → pin.columns.valid = true) :=
    ⟨pin, ⟨hold, hactive.2⟩, rfl, Nat.le_refl _, fun hvalid => hvalid⟩
  have hsame (hpins : t.pins = s.pins) := hkeeps (hpins ▸ hactive.1)
  cases a with
  | observe input =>
    left
    rcases behind_cases (some.inj hstep) with rfl | ⟨answer, h⟩
    · exact hsame rfl
    rcases observe_cases h with ⟨hpins, _⟩ | ⟨seen, old, hold, _, _, hpins, hvalid⟩
    · exact hsame hpins
    have hget := hactive.1
    rw [hpins] at hget
    rcases get?_set_eq_some hget with ⟨rfl, rfl⟩ | ⟨_, hkept⟩
    · exact ⟨old, hold, rfl, bound_seenPin input old, fun _ => hvalid⟩
    · exact hkeeps hkept
  | decide input now =>
    rcases behind_cases (some.inj hstep) with rfl | ⟨answer, h⟩
    · exact .inl (hsame rfl)
    rcases decide_cases h with rfl | ⟨request, _, hreject | ⟨happroves, happrove⟩⟩
    · exact .inl (hsame rfl)
    · have ⟨a, hupdate, heq⟩ := map_ok hreject
      cases heq
      exact .inl (hsame ((updateRequest_pins hupdate).trans (expire_pins s now)))
    have ⟨hnone, hvalid, hpins⟩ := approveRequest_cases happrove
    rcases hpins id pin hactive.1 with ⟨hid, hpin⟩ | hkept | hrevoked
    · right
      have hidentity : pin.columns.identity = request.columns.identity :=
        hpin ▸ approvedPin_identity request input now
      rw [hidentity]
      exact ⟨hid, happroves, hnone, hpin ▸ hvalid⟩
    · exact .inl (hkeeps hkept)
    · have hstatus := hactive.2
      rw [hrevoked] at hstatus
      cases hstatus
  | revoke input now =>
    left
    rcases behind_cases (some.inj hstep) with rfl | ⟨answer, h⟩
    · exact hsame rfl
    rcases (revoke_cases h).2 with hpins | ⟨revoked, hrevoked, hpins⟩
    · exact hsame hpins
    have hget := hactive.1
    rw [hpins] at hget
    rcases get?_set_eq_some hget with ⟨_, rfl⟩ | ⟨_, hkept⟩
    · have hstatus := hactive.2
      rw [hrevoked] at hstatus
      cases hstatus
    · exact hkeeps hkept
  | retry input =>
    left
    rcases behind_cases (some.inj hstep) with rfl | ⟨answer, h⟩
    · exact hsame rfl
    · exact hsame (retry_pins h)
  | withdraw controlPlaneId reason now =>
    cases hstep
    exact .inl (hsame rfl)
  | expire now =>
    cases hstep
    exact .inl (hsame rfl)

theorem UniquePins.step (hunique : s.UniquePins)
    (hstep : s.step controlPlaneFingerprint a = some t) : t.UniquePins := by
  intro id₁ id₂ pin₁ pin₂ h₁ h₂ hsame
  rcases step_active hstep h₁ with ⟨old₁, hold₁, hid₁, _⟩ | ⟨hnew₁, _, hnone₁, _⟩ <;>
    rcases step_active hstep h₂ with ⟨old₂, hold₂, hid₂, _⟩ | ⟨hnew₂, _, hnone₂, _⟩
  · exact hunique id₁ id₂ old₁ old₂ hold₁ hold₂ (by rw [← hid₁, ← hid₂, hsame])
  · exact absurd (hid₁.symm.trans hsame) (hnone₂ id₁ old₁ hold₁)
  · exact absurd (hid₂.symm.trans hsame.symm) (hnone₁ id₂ old₂ hold₂)
  · rw [hnew₁, hnew₂]

theorem quiet_step {id : Nat} {old pin : CloudControlPlanePin} (hunique : s.UniquePins)
    (hstep : s.step controlPlaneFingerprint a = some t) (hold : s.ActivePin id old)
    (hactive : t.ActivePin id pin) (hidentity : pin.columns.identity = old.columns.identity) :
    Quiet controlPlaneFingerprint pin.columns.identity (bound pin) s a := by
  constructor
  · intro happroves
    have ⟨input, now, _, _, ha, _⟩ := happroves
    subst ha
    have ⟨request, result, hrequest, _, happrove⟩ := happroves.request
    have hnone := (@approveRequest_cases _ result.1 _ _ _ result.2 happrove).1
    exact hnone id old hold (by rw [hrequest, hidentity])
  · intro ⟨id', pin', t', revoked, hpin', hsame, hstep', hget, hrevoked⟩
    have hid := hunique id' id pin' old hpin' hold (hsame.trans hidentity)
    rw [hstep] at hstep'
    cases hstep'
    rw [hid, hactive.1] at hget
    cases hget
    have hstatus := hactive.2
    rw [hrevoked] at hstatus
    cases hstatus
  · intro hshared r ⟨input, t', answered, ha, hcontext, hr, hanswer⟩
    subst ha
    have hbehind : s.behind (s.observeCloudControlPlaneTrust input) = t := some.inj hstep
    rw [hanswer] at hbehind
    cases hbehind
    rcases observe_cases hanswer with ⟨_, hnot⟩ | ⟨id', pin', hpin', hsame, hfresh, hpins, _⟩
    · exact absurd rfl (hnot answered)
    have hid := hunique id' id pin' old hpin' hold (by rw [hsame, hcontext, hidentity])
    subst hid
    have hget : (s.pins.set id' (seenPin input pin')).get? id' = some pin := by
      rw [← hpins]
      exact hactive.1
    rw [get?_set_self] at hget
    have hmode : input.context.accessMode = .shared := by
      rw [← hcontext] at hshared
      exact hshared
    cases hget
    exact answered_le_bound hmode hr

/-! ## Runs -/

theorem GoesBack.imp {P Q : AccessRepository → Action → Prop}
    (h : GoesBack controlPlaneFingerprint actions s identity P) (hPQ : ∀ s a, P s a → Q s a) :
    GoesBack controlPlaneFingerprint actions s identity Q := by
  have ⟨before, approval, after, s₁, s₂, hactions, hbefore, happroves, happroval, hafter, hall⟩ := h
  exact ⟨before, approval, after, s₁, s₂, hactions, hbefore, happroves, happroval, hafter,
    hall.imp hPQ⟩

theorem GoesBack.snoc {P : AccessRepository → Action → Prop}
    (h : GoesBack controlPlaneFingerprint actions s identity P)
    (hstep : s.step controlPlaneFingerprint a = some t) (ha : P s a) :
    GoesBack controlPlaneFingerprint (actions ++ [a]) t identity P := by
  have ⟨before, approval, after, s₁, s₂, hactions, hbefore, happroves, happroval, hafter, hall⟩ := h
  refine ⟨before, approval, after ++ [a], s₁, s₂, ?_, hbefore, happroves, happroval,
    run_snoc hafter hstep, hall.snoc hafter ha⟩
  rw [hactions, List.append_assoc, List.cons_append]

variable (controlPlaneFingerprint) in
/-- Every active pin goes back to its approval. -/
structure Traced (actions : List Action) (s : AccessRepository) : Prop where
  unique : s.UniquePins
  traced : ∀ id pin, s.ActivePin id pin →
    GoesBack controlPlaneFingerprint actions s pin.columns.identity
      (Quiet controlPlaneFingerprint pin.columns.identity (bound pin))

theorem Traced.step (h : Traced controlPlaneFingerprint actions s)
    (hrun : run (AccessRepository.step controlPlaneFingerprint) .new actions = some s)
    (hstep : s.step controlPlaneFingerprint a = some t) :
    Traced controlPlaneFingerprint (actions ++ [a]) t := by
  refine ⟨h.unique.step hstep, fun id pin hactive => ?_⟩
  rcases step_active hstep hactive with ⟨old, hold, hidentity, hbound, _⟩ | ⟨_, happroves, _⟩
  · have hgoes := h.traced id old hold
    rw [← hidentity] at hgoes
    have hquiet := quiet_step h.unique hstep hold hactive hidentity
    exact (hgoes.imp fun s a hquiet => ⟨hquiet.approved, hquiet.revoked, fun hshared r hr =>
      Nat.le_trans (hquiet.answered hshared r hr) hbound⟩).snoc hstep hquiet
  · exact ⟨actions, a, [], s, t, rfl, hrun, happroves, hstep, rfl, trivial⟩

theorem Traced.new : Traced controlPlaneFingerprint [] .new := by
  have hempty (id : Nat) (pin : CloudControlPlanePin) :
      ¬ AccessRepository.new.ActivePin id pin := fun h => by cases h.1
  exact ⟨fun id _ pin _ h => absurd h (hempty id pin), fun id pin h => absurd h (hempty id pin)⟩

/-- A context is answered active only behind an approval of a pending request of its identity.
Since then its identity was not approved again and no pin of it was revoked, and the share
revision of a shared context is not lower than any that was answered active. -/
theorem active_only_by_approval {actions : List Action} {input : ObserveInput}
    (hrun : run (step controlPlaneFingerprint) new actions = some s)
    (hanswer : s.observeCloudControlPlaneTrust input = .ok (t, .active pin)) :
    GoesBack controlPlaneFingerprint actions s input.context.identity fun s a =>
      ¬ Approves controlPlaneFingerprint s a input.context.identity ∧
        ¬ Revokes controlPlaneFingerprint s a input.context.identity ∧
        (input.context.accessMode = .shared → ∀ revision,
          input.context.shareRevision = some revision → ∀ r,
            AnswersActive s a input.context.identity r → r ≤ revision) := by
  have htraced : Traced controlPlaneFingerprint actions s :=
    run_history (fun _ _ _ _ hrun hstep h => Traced.step h hrun hstep) Traced.new hrun
  rcases observe_cases hanswer with ⟨_, hnot⟩ | ⟨id, old, hold, hidentity, hfresh, _⟩
  · exact absurd rfl (hnot pin)
  have hgoes := htraced.traced id old hold
  rw [hidentity] at hgoes
  refine hgoes.imp fun s a hquiet => ⟨hquiet.approved, hquiet.revoked, ?_⟩
  intro hshared revision hrevision r hr
  have hbound : ¬ revision < bound old := by
    simpa [staleFor, hshared, hrevision, bound] using hfresh
  have hle := hquiet.answered hshared r hr
  omega

end History

/-- A shared context. -/
def exampleContext (shareRevision : Nat) : TrustContext where
  nodeId := "node"
  nodeHandle := "handle"
  controlPlaneId := "plane"
  controlPlanePublicKey := "key"
  bindingId := "binding"
  bindingRevision := 1
  accountId := "guest"
  ownerAccountId := "owner"
  accessMode := .shared
  shareGrantId := some "grant"
  shareRole := some "editor"
  shareRevision := some shareRevision

/-- Two observations with a later share revision in the second, an approval between them and a
withdrawal behind. -/
def exampleActions : List Action :=
  [.observe ⟨exampleContext 1, 10, 100⟩,
    .decide ⟨.approve, 0, "key", 1, none, false, ⟨.local, "admin"⟩⟩ 20,
    .observe ⟨exampleContext 3, 30, 100⟩, .withdraw "plane" "closed" 40]

theorem exampleActions_run : ∃ s, ∃ answer : AccessRepository × CloudControlPlanePin,
      run (step id) new exampleActions = some s ∧
      s.observeCloudControlPlaneTrust ⟨exampleContext 3, 50, 100⟩ =
        .ok (answer.1, .active answer.2) :=
  ⟨_, (_, _), rfl, rfl⟩

theorem active_only_by_approval_example : ∃ s, run (step id) new exampleActions = some s ∧
      GoesBack id exampleActions s (exampleContext 3).identity fun s a =>
        ¬ Approves id s a (exampleContext 3).identity ∧
          ¬ Revokes id s a (exampleContext 3).identity ∧
          ((exampleContext 3).accessMode = .shared → ∀ revision,
            (exampleContext 3).shareRevision = some revision → ∀ r,
              AnswersActive s a (exampleContext 3).identity r → r ≤ revision) := by
  have ⟨s, _, hrun, hanswer⟩ := exampleActions_run
  exact ⟨s, hrun, active_only_by_approval hrun hanswer⟩

end TaskHandoff.Persistence.AccessRepository
