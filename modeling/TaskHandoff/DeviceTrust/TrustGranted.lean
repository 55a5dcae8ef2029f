import TaskHandoff.DeviceTrust.TrustOutcomes

/-! # Where trust comes from

An active pin goes back to one approval of a pending request of its context, by an administrator
that is not a session of the same device or by the system actor, and has been active ever since. A
context that was decided on gets a new pending request by an explicit retry alone, unless its pin is
still active. -/

namespace TaskHandoff.DeviceTrust.Trust

open Machine List Option

namespace Store

/-! ## Approvals -/

/-- The actor administers the binding of the request, and is no session of the device that asks. -/
structure ForeignAdmin (actor : Actor) (r : Request) (s : Store) : Prop where
  manages : actor.type = .system ∨ "settings:manage" ∈ actor.permissionIds
  session : actor.type = .cloudAccount → ∃ pin ∈ s.pins, actor.deviceTrustPinId = some pin.id ∧
    pin.status = .active ∧ pin.context.bindingId = r.context.bindingId ∧
    pin.context.devicePublicKey ≠ r.context.devicePublicKey ∧
    ∃ role, s.resolveRole pin.roleId = some role ∧ "settings:manage" ∈ role.permissionIds

variable {r : Request}

variable {s t : Store} {a : Action} {role : ResolvedRole} {input : Observe}

theorem foreignAdmin_of_ok {actor : Actor}
    (hadmin : s.assertAdmin actor (some r.context.bindingId) = .ok ())
    (hforeign : s.assertNotSelfApproval actor r = .ok ()) : ForeignAdmin actor r s := by
  rw [assertAdmin] at hadmin
  split at hadmin
  · cases hadmin
  rename_i hpermitted
  constructor
  · simp only [Bool.and_eq_true, decide_eq_true_eq, Bool.not_eq_true', not_and,
      Bool.not_eq_false, contains_iff_mem] at hpermitted
    exact Decidable.or_iff_not_imp_left.mpr hpermitted
  intro hcloud
  rw [if_pos hcloud] at hadmin
  rw [assertNotSelfApproval, if_pos hcloud] at hforeign
  split at hadmin
  · cases hadmin
  rename_i pin hpin
  rw [hpin] at hforeign
  have ⟨id, hid, hget⟩ := bind_eq_some_iff.mp hpin
  have ⟨hmem, hpinid⟩ := getPin_some hget
  dsimp only at hadmin hforeign
  split at hadmin
  swap
  · cases hadmin
  rename_i hok
  simp only [Bool.and_eq_true, decide_eq_true_eq, isNone_some, Bool.false_or,
    some.injEq] at hok
  have ⟨⟨hactive, hmanages⟩, hbinding⟩ := hok
  split at hforeign
  · cases hforeign
  rename_i hkey
  refine ⟨pin, hmem, hid.trans (congrArg some hpinid.symm), hactive, hbinding.symm, ?_, ?_⟩
  · intro heq
    simp [hactive, heq] at hkey
  cases hrole : s.resolveRole pin.roleId with
  | none => simp [hrole] at hmanages
  | some role =>
    rw [hrole] at hmanages
    exact ⟨role, rfl, by simpa using hmanages⟩

/-- What a pin keeps from its approval on. -/
structure Carries (p q : Pin) : Prop where
  id : q.id = p.id
  context : q.context = p.context
  roleId : q.roleId = p.roleId
  authorizationRevision : q.authorizationRevision = p.authorizationRevision

theorem Carries.refl (p : Pin) : Carries p p := ⟨rfl, rfl, rfl, rfl⟩

/-- The approval a pin goes back to, in the history of actions `as`: at the state `s₀` the request
`r` was approved under `role`, and the pin has been active in every state since. -/
structure GrantedBy (cfg : Settings) (as : List Action) (p : Pin) (input : Decide) (r : Request)
    (role : ResolvedRole) : Prop where
  context : r.context = p.context
  roleId : p.roleId = r.context.cloudAccessRoleId
  authorizationRevision : p.authorizationRevision = role.authorizationRevision
  history : ∃ (before since : List Action) (s₀ : Store) (a : Store × Request × Pin),
    as = before ++ .approve input :: since ∧ run (step cfg) empty before = some s₀ ∧
    s₀.approve cfg input = .ok a ∧ a.2.2.id = p.id ∧ Approvable cfg input s₀ r role ∧
    ForeignAdmin input.actor r s₀ ∧
    ∀ upTo, upTo <+: since → ∀ m, run (step cfg) empty (before ++ .approve input :: upTo) = some m →
      ∃ q ∈ m.pins, q.id = p.id ∧ q.status = .active

/-- Every active pin goes back to an approval. -/
def Granted (cfg : Settings) (as : List Action) (s : Store) : Prop :=
  ∀ p ∈ s.pins, p.status = .active → ∃ input r role, GrantedBy cfg as p input r role

variable {cfg : Settings} {as : List Action}

theorem GrantedBy.extend {p q : Pin} {input : Decide}
    (h : GrantedBy cfg as p input r role) (hrun : run (step cfg) empty (as ++ [a]) = some t)
    (hq : q ∈ t.pins) (hactive : q.status = .active) (hcarries : Carries p q) :
    GrantedBy cfg (as ++ [a]) q input r role where
  context := h.context.trans hcarries.context.symm
  roleId := hcarries.roleId.trans h.roleId
  authorizationRevision := hcarries.authorizationRevision.trans h.authorizationRevision
  history := by
    have ⟨before, since, s₀, x, has, hbefore, hok, hid, happrovable, hadmin, hsince⟩ := h.history
    have happend : as ++ [a] = before ++ .approve input :: (since ++ [a]) := by simp [has]
    refine ⟨before, since ++ [a], s₀, x, happend, hbefore, hok, hid.trans hcarries.id.symm,
      happrovable, hadmin, ?_⟩
    intro upTo hupTo m hm
    cases prefix_concat_iff.mp hupTo with
    | inl heq =>
      rw [heq, ← happend, hrun] at hm
      cases hm
      exact ⟨q, hq, rfl, hactive⟩
    | inr hprefix =>
      rw [hcarries.id]
      exact hsince upTo hprefix m hm

theorem grantedBy_approval {input : Decide}
    {x : Store × Request × Pin} (hrun : run (step cfg) empty as = some s)
    (hlast : run (step cfg) empty (as ++ [.approve input]) = some x.1)
    (hok : s.approve cfg input = .ok x) (happrovable : Approvable cfg input s r role)
    (hpin : x.2.2 = approvedPin r input role r.context.cloudAccessRoleId none)
    (hmem : x.2.2 ∈ x.1.pins) : GrantedBy cfg (as ++ [.approve input]) x.2.2 input r role where
  context := by rw [hpin]; rfl
  roleId := by rw [hpin]; rfl
  authorizationRevision := by rw [hpin]; rfl
  history := by
    refine ⟨as, [], s, x, rfl, hrun, hok, rfl, happrovable,
      foreignAdmin_of_ok happrovable.admin happrovable.foreign, ?_⟩
    intro upTo hupTo m hm
    rw [prefix_nil.mp hupTo, hlast] at hm
    cases hm
    exact ⟨x.2.2, hmem, rfl, by rw [hpin]; rfl⟩

/-! ## Steps -/

theorem Asked.pins (h : Asked cfg input s t r) : ∀ p ∈ t.pins, p.status = .active → p ∈ s.pins := by
  cases h with
  | refreshed => exact fun p hp _ => hp
  | created _ hsettles => exact hsettles.pins

theorem Observed.pins {o : Observation}
    (h : Observed cfg input s t o) : ∀ q ∈ t.pins, q.status = .active →
      ∃ p ∈ s.pins, p.status = .active ∧ Carries p q := by
  intro x hx hxactive
  cases h with
  | unchanged => exact ⟨x, hx, hxactive, .refl x⟩
  | answered hp hcontext hactive hrole hmoved hanswers =>
    cases mem_setPin hx with
    | inl heq =>
      subst heq
      exact ⟨_, hp, hactive, hanswers.id, hanswers.context, hanswers.roleId,
        hanswers.authorizationRevision⟩
    | inr hold => exact ⟨x, hold.1, hxactive, .refl x⟩
  | expired => exact ⟨x, hx, hxactive, .refl x⟩
  | touched => exact ⟨x, hx, hxactive, .refl x⟩
  | asked hreopens hsettles hinactive hasked =>
    exact ⟨x, hsettles.pins x (hasked.pins x hx hxactive) hxactive, hxactive, .refl x⟩

theorem step_granted (hrun : run (step cfg) empty as = some s)
    (hstep : step cfg s a = some t) (h : Granted cfg as s) : Granted cfg (as ++ [a]) t := by
  have hlast : run (step cfg) empty (as ++ [a]) = some t := run_snoc hrun hstep
  -- A pin that was active before goes on under its approval.
  have hkept : ∀ p ∈ s.pins, p.status = .active → ∀ q ∈ t.pins, q.status = .active →
      Carries p q → ∃ input r role, GrantedBy cfg (as ++ [a]) q input r role := by
    intro p hp hactive q hq hqactive hcarries
    have ⟨input, r, role, hgranted⟩ := h p hp hactive
    exact ⟨input, r, role, hgranted.extend hlast hq hqactive hcarries⟩
  intro q hq hactive
  cases step_outcome (run_rows hrun) hstep with
  | settled _ hsettles => exact hkept q (hsettles.pins q hq hactive) hactive q hq hactive (.refl q)
  | failed _ => exact hkept q hq hactive q hq hactive (.refl q)
  | observed hok hfresh hobserved =>
    have ⟨p, hp, hpactive, hcarries⟩ := hobserved.pins q hq hactive
    exact hkept p hp hpactive q hq hactive hcarries
  | approved hok hfresh happrovable hpin hstore =>
    have hmem := hq
    rw [hstore] at hmem
    cases mem_append.mp hmem with
    | inl hold => exact hkept q hold hactive q hq hactive (.refl q)
    | inr hnew =>
      cases mem_singleton.mp hnew
      exact ⟨_, _, _, grantedBy_approval hrun hlast hok happrovable hpin hq⟩

theorem run_granted (hrun : run (step cfg) empty as = some s) : Granted cfg as s := by
  refine run_history (I := Granted cfg) ?_ ?_ hrun
  · intro as s a t hs hstep h
    exact step_granted hs hstep h
  · intro p hp
    cases hp

/-! ## New requests -/

/-- The reasons for which a context gets a new pending request. -/
inductive MayAsk (input : Observe) (s : Store) : Prop
  | retry (h : input.explicitRetry = true)
  | firstSeen (h : ∀ q ∈ s.requests, q.context ≠ input.context)
  | trusted (last : Request) (p : Pin) (hlast : s.lastRequest input.context = some last)
      (happroved : last.status = .approved) (hpin : last.approvedPinId = some p.id)
      (hp : p ∈ s.pins) (hcontext : p.context = input.context) (hactive : p.status = .active)

theorem mayAsk_of_reopens (hrows : s.Rows)
    (h : s.latestRequest input.context = none ∨ s.reopens input = true) : MayAsk input s := by
  cases h with
  | inl hnone => exact .firstSeen (latestRequest_none hnone)
  | inr hreopens =>
    rw [reopens] at hreopens
    split at hreopens
    next p hfound =>
      obtain ⟨hp, hcontext, hactive⟩ := findActivePin_some hfound
      obtain ⟨last, hlast, happroved, hpin⟩ := hrows.active p hp hactive
      exact .trusted last p (hcontext ▸ hlast) happroved hpin hp hcontext hactive
    · rw [Bool.and_eq_true] at hreopens
      exact .retry hreopens.1

theorem outcome_pending (hrows : s.Rows) (h : Outcome cfg s a t)
    (hr : r ∈ t.requests) (hpending : r.status = .pending)
    (hnew : ∀ q ∈ s.requests, q.id = r.id → q.status ≠ .pending) :
    ∃ input, a = .observe input ∧ r.context = input.context ∧ MayAsk input s := by
  have hold : r ∈ s.requests → False := fun hmem => hnew r hmem rfl hpending
  have htouched : ∀ q ∈ s.requests, q.status = .pending → r.id = q.id → False :=
    fun q hq hqp hid => hnew q hq hid.symm hqp
  cases h with
  | settled _ hsettles => exact (hold (hsettles.requests r hr hpending)).elim
  | failed _ => exact (hold hr).elim
  | approved hok hfresh happrovable hpin hstore =>
    rw [hstore] at hr
    cases mem_setRequest hr with
    | inl heq =>
      subst heq
      cases hpending
    | inr hmem => exact (hold hmem.1).elim
  | observed hok hfresh hobserved =>
    cases hobserved with
    | unchanged => exact (hold hr).elim
    | answered => exact (hold hr).elim
    | expired hlatest hstale hwas =>
      have hsettles := Settles.expired hrows (latestRequest_some hlatest).1 hwas
      exact (hold ((hsettles _).requests r hr hpending)).elim
    | touched hlatest hstale hwas =>
      cases mem_setRequest hr with
      | inl heq =>
        have hid := (congrArg Request.id heq).trans (touchRequest_id ..)
        exact (htouched _ (latestRequest_some hlatest).1 hwas hid).elim
      | inr hmem => exact (hold hmem.1).elim
    | asked hreopens hsettles hinactive hasked =>
      cases hasked with
      | refreshed reason hq hcontext hwas =>
        cases mem_setRequest hr with
        | inl heq =>
          have hid := (congrArg Request.id heq).trans (touchRequest_id ..)
          exact (htouched _ (hsettles.requests _ hq hwas) hwas hid).elim
        | inr hmem => exact (hold (hsettles.requests r hmem.1 hpending)).elim
      | created reason hlater hfresh' hnone hvalid =>
        cases mem_append.mp hr with
        | inl hmem =>
          have hbefore := hlater.requests r hmem hpending
          exact (hold (hsettles.requests r hbefore hpending)).elim
        | inr hadded =>
          cases mem_singleton.mp hadded
          exact ⟨_, rfl, rfl, mayAsk_of_reopens hrows hreopens⟩

/-! ## Runs -/

/-- Behind every history, an observation is answered active only under a pin that goes back to an
approval of its context and has been active since, while the role of the approval resolves at a
revision no higher than the one that was granted; a context has at most one active pin; and a new
pending request is a first one, an explicitly asked one, or one of a context whose pin is active. -/
theorem run_trust {cfg : Settings} {as : List Action} {s : Store}
    (hrun : run (step cfg) empty as = some s) :
    (∀ input t p role, s.getRequest input.requestId = none →
      s.observeClient cfg input = .ok (t, .active p role) →
      p.context = input.context ∧
      ∃ decision r granted, GrantedBy cfg as p decision r granted ∧
        s.resolveRole r.context.cloudAccessRoleId = some role ∧
        role.authorizationRevision ≤ granted.authorizationRevision) ∧
    (∀ p ∈ s.pins, ∀ q ∈ s.pins, p.status = .active → q.status = .active →
      p.context = q.context → p = q) ∧
    (∀ a t, step cfg s a = some t → ∀ r ∈ t.requests, r.status = .pending →
      (∀ q ∈ s.requests, q.id = r.id → q.status ≠ .pending) →
      ∃ input, a = .observe input ∧ r.context = input.context ∧ MayAsk input s) := by
  have hrows := run_rows hrun
  refine ⟨?_, ?_, ?_⟩
  · intro input t p role hfresh hok
    have hobserved := observeClient_ok hrows (getRequest_none hfresh) hok
    cases hobserved with
    | unchanged ho => cases ho
    | answered hp hcontext hactive hrole hmoved hanswers =>
      have ⟨decision, r, granted, hgranted⟩ := run_granted hrun _ hp hactive
      refine ⟨hanswers.context.trans hcontext, decision, r, granted, ?_, ?_, ?_⟩
      · exact {
          context := hgranted.context.trans hanswers.context.symm
          roleId := hanswers.roleId.trans hgranted.roleId
          authorizationRevision :=
            hanswers.authorizationRevision.trans hgranted.authorizationRevision
          history := hanswers.id ▸ hgranted.history }
      · rw [← hgranted.roleId]
        exact hrole
      · rw [← hgranted.authorizationRevision]
        simp only [roleMoved, Bool.or_eq_false_iff, decide_eq_false_iff_not] at hmoved
        omega
  · intro p hp q hq hpactive hqactive hcontext
    exact hrows.active_unique hp hq hpactive hqactive hcontext
  · intro a t hstep r hr hpending hnew
    exact outcome_pending hrows (step_outcome hrows hstep) hr hpending hnew

/-- The second request finds the pin of the first one active. -/
def sampleActive (s : Store) : Bool :=
  match s.observeClient sampleSettings (sampleObserve 5 120 "r2") with
  | .ok (_, .active _ _) => true
  | _ => false

/-- A device that an administrator approved is answered active. -/
theorem run_trust_sample :
    ∃ s t p role, run (step sampleSettings) empty (sampleTrusted sampleAdmin) = some s ∧
      s.observeClient sampleSettings (sampleObserve 5 120 "r2") = .ok (t, .active p role) ∧
      p.context = sampleContext ∧ ∃ decision r granted,
        GrantedBy sampleSettings (sampleTrusted sampleAdmin) p decision r granted ∧
        role.authorizationRevision ≤ granted.authorizationRevision := by
  have hfresh : (run (step sampleSettings) empty (sampleTrusted sampleAdmin)).map
      (fun s => (s.getRequest "r2").isNone) = some true := by
    decide +kernel
  obtain ⟨s, hrun, hnone⟩ := map_eq_some_iff.mp hfresh
  have hactive : (run (step sampleSettings) empty (sampleTrusted sampleAdmin)).map
      sampleActive = some true := by
    decide +kernel
  rw [hrun, map_some, sampleActive] at hactive
  split at hactive
  next t p role hok =>
    have htrust := (run_trust hrun).1 (sampleObserve 5 120 "r2") t p role
      (isNone_iff_eq_none.mp hnone) hok
    obtain ⟨hcontext, decision, r, granted, hgranted, _, hrevision⟩ := htrust
    exact ⟨s, t, p, role, hrun, hok, hcontext, decision, r, granted, hgranted, hrevision⟩
  · cases hactive

/-- The system actor approves without any permission. -/
theorem system_actor_grants : ∃ s t p role, run (step sampleSettings) empty
        (sampleTrusted ⟨.system, "auth-disabled", [], none⟩) = some s ∧
      s.observeClient sampleSettings (sampleObserve 5 120 "r2") = .ok (t, .active p role) ∧
      ∀ decision, .approve decision ∈ sampleTrusted ⟨.system, "auth-disabled", [], none⟩ →
        "settings:manage" ∉ decision.actor.permissionIds := by
  have hactive : (run (step sampleSettings) empty
      (sampleTrusted ⟨.system, "auth-disabled", [], none⟩)).map
      sampleActive = some true := by
    decide +kernel
  obtain ⟨s, hrun, hs⟩ := map_eq_some_iff.mp hactive
  unfold sampleActive at hs
  split at hs
  next t p role hok =>
    refine ⟨s, t, p, role, hrun, hok, ?_⟩
    intro decision hmem
    simp only [sampleTrusted, mem_cons, reduceCtorEq, Action.approve.injEq, not_mem_nil,
      or_false, false_or] at hmem
    rw [hmem]
    exact not_mem_nil
  · cases hs

end Store

end TaskHandoff.DeviceTrust.Trust
