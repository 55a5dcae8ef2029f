import TaskHandoff.DeviceTrust.TrustOutcomes

/-! # Share revisions

A shared context comes with the share revision of its ticket, and a device that presents a lower one
than it was trusted under is to be turned away. The highest revision is kept on the active pin and
on the pending request. It is lost where the role check of a pin comes before the revision check,
and where a client asks again explicitly: such an observation stores a request under its own
revision, however low, and an approval then makes it count. -/

namespace TaskHandoff.DeviceTrust.Trust

open Machine List Option Store

/-! ## What observations came to -/

/-- An observation of a client in the history of the service. -/
structure Entry where
  context : Context
  shareRevision : Option Nat
  active : Bool
  stored : Bool

/-- An observation and what it came to. -/
def Store.entry (s : Store) (input : Observe) (x : Answer (Store × Observation)) : Entry where
  context := input.context
  shareRevision := input.shareRevision
  active :=
    match x with
    | .error _ => false
    | .ok a => a.2.isActive
  stored :=
    match x with
    | .error _ => false
    | .ok a => decide (a.1.pins ≠ s.pins ∨ a.1.requests ≠ s.requests)

/-- The share revision of an observation of `c` that was answered active. -/
def Entry.answered (e : Entry) (c : Context) (k : Nat) : Prop :=
  e.context = c ∧ c.accessMode = .shared ∧ e.active = true ∧ e.shareRevision = some k

instance (e : Entry) (c : Context) (k : Nat) : Decidable (e.answered c k) :=
  inferInstanceAs (Decidable (_ ∧ _ ∧ _ ∧ _))

/-- Behind `e`, an observation of its context with a lower share revision is not answered active and
stores nothing. -/
def Entry.bars (e f : Entry) : Prop :=
  ∀ k ∈ e.shareRevision, ∀ r ∈ f.shareRevision, e.answered f.context k → r < k →
    f.active = false ∧ f.stored = false

instance (e f : Entry) : Decidable (e.bars f) :=
  inferInstanceAs (Decidable (∀ k ∈ e.shareRevision, ∀ r ∈ f.shareRevision, _))

/-- The service with the observations it handled. -/
structure Watched where
  store : Store
  log : List Entry

namespace Watched

def empty : Watched := ⟨Store.empty, []⟩

def step (cfg : Settings) (w : Watched) (a : Action) : Option Watched :=
  (Store.step cfg w.store a).map fun t =>
    match a with
    | .observe input => ⟨t, w.log ++ [w.store.entry input (w.store.observeClient cfg input)]⟩
    | _ => ⟨t, w.log⟩

/-- Share revisions never went back. -/
def Forward (w : Watched) : Prop := w.log.Pairwise Entry.bars

instance (w : Watched) : Decidable w.Forward :=
  inferInstanceAs (Decidable (w.log.Pairwise Entry.bars))

/-- The step is no observation with a share revision below one that was answered active, in a branch
that stores a request without looking at the revision. -/
def Guarded (w : Watched) : Action → Prop
  | .observe input =>
    ∀ e ∈ w.log, ∀ k ∈ e.shareRevision, ∀ r ∈ input.shareRevision,
      e.answered input.context k → r < k → w.store.reopens input = false
  | _ => True

instance (w : Watched) : (a : Action) → Decidable (w.Guarded a)
  | .observe input =>
    inferInstanceAs (Decidable (∀ e ∈ w.log, ∀ k ∈ e.shareRevision, ∀ r ∈ input.shareRevision, _))
  | .approve _ | .reject _ | .revokePin _ | .expire _ _ | .editRole _ _ _ _ =>
    inferInstanceAs (Decidable True)

/-! ## The revisions that are kept -/

/-- A share revision is not below one that was answered active for the context. -/
def Covers (log : List Entry) (c : Context) (o : Option Nat) : Prop :=
  ∀ e ∈ log, ∀ k, e.answered c k → ∃ known, o = some known ∧ k ≤ known

structure Inv (w : Watched) : Prop where
  rows : w.store.Rows
  forward : w.Forward
  asked : ∀ e ∈ w.log, e.active = true → ∃ r ∈ w.store.requests, r.context = e.context
  pins : ∀ p ∈ w.store.pins, p.status = .active → Covers w.log p.context p.shareRevision
  requests : ∀ r ∈ w.store.requests, r.status = .pending → Covers w.log r.context r.shareRevision

theorem Inv.empty : Inv Watched.empty := by
  refine ⟨Store.Rows.empty, List.Pairwise.nil, ?_, ?_, ?_⟩ <;> intro x hx <;> cases hx

variable {w : Watched}

variable {t : Store} {o : Option Nat} {c : Context} {input : Observe} {p : Pin}
  {cfg : Settings}

theorem Inv.settles (h : w.Inv) (ht : Settles w.store t) : Inv ⟨t, w.log⟩ where
  rows := ht.rows
  forward := h.forward
  asked e he hactive := by
    have ⟨r, hr, hcontext⟩ := h.asked e he hactive
    have ⟨q, hq, hqr⟩ := ht.contexts r hr
    exact ⟨q, hq, hqr.trans hcontext⟩
  pins p hp hactive := h.pins p (ht.pins p hp hactive) hactive
  requests r hr hpending := h.requests r (ht.requests r hr hpending) hpending

/-! ## Observations -/

variable {log : List Entry} {f : Entry}

theorem Covers.append_inactive (h : Covers log c o)
    (hf : f.active = false) : Covers (log ++ [f]) c o := by
  intro e he k hanswered
  cases mem_append.mp he with
  | inl hold => exact h e hold k hanswered
  | inr hnew =>
    cases mem_singleton.mp hnew
    cases hf.symm.trans hanswered.2.2.1

theorem Covers.append_other (h : Covers log c o) (hf : f.context ≠ c)
    : Covers (log ++ [f]) c o := by
  intro e he k hanswered
  cases mem_append.mp he with
  | inl hold => exact h e hold k hanswered
  | inr hnew =>
    cases mem_singleton.mp hnew
    exact absurd hanswered.1 hf

theorem Forward.append (h : w.Forward) (hf : ∀ e ∈ w.log, e.bars f) :
    (w.log ++ [f]).Pairwise Entry.bars := by
  refine pairwise_append.mpr ⟨h, pairwise_singleton _ _, ?_⟩
  intro e he g hg
  cases mem_singleton.mp hg
  exact hf e he

theorem Inv.append_inactive (h : Inv ⟨t, log⟩) (hf : f.active = false)
    (hbars : ∀ e ∈ log, e.bars f) : Inv ⟨t, log ++ [f]⟩ where
  rows := h.rows
  forward := Forward.append h.forward hbars
  asked e he hactive := by
    cases mem_append.mp he with
    | inl hold => exact h.asked e hold hactive
    | inr hnew =>
      cases mem_singleton.mp hnew
      cases hf.symm.trans hactive
  pins p hp hactive := (h.pins p hp hactive).append_inactive hf
  requests r hr hpending := (h.requests r hr hpending).append_inactive hf

theorem Inv.answered (h : w.Inv) {p q : Pin} (hp : p ∈ w.store.pins)
    (hcontext : p.context = input.context) (hactive : p.status = .active)
    (hanswers : Answers p q input) (hfc : f.context = input.context)
    (hfr : f.shareRevision = input.shareRevision) : Inv ⟨w.store.setPin q, w.log ++ [f]⟩ where
  rows := h.rows.setPin hp hanswers.id hanswers.context fun _ => hactive
  forward := by
    refine Forward.append h.forward ?_
    intro e he k hk r hr hanswered hlt
    rw [hfc, ← hcontext] at hanswered
    have ⟨known, hknown, hle⟩ := h.pins p hp hactive e he k hanswered
    have htaken := (hanswers.taken r (hfr.symm.trans hr) hanswered.2.1).2 known hknown
    omega
  asked e he heactive := by
    cases mem_append.mp he with
    | inl hold => exact h.asked e hold heactive
    | inr hnew =>
      cases mem_singleton.mp hnew
      have ⟨r, hr, _⟩ := h.rows.active p hp hactive
      have ⟨hmem, hrc⟩ := lastRequest_some hr
      exact ⟨r, hmem, hrc.trans (hcontext.trans hfc.symm)⟩
  pins x hx hxactive := by
    cases mem_setPin hx with
    | inl heq =>
      subst heq
      intro e he k hanswered
      rw [hanswers.context] at hanswered
      cases mem_append.mp he with
      | inl hold =>
        have ⟨known, hknown, hle⟩ := h.pins p hp hactive e hold k hanswered
        cases hinput : input.shareRevision with
        | none => exact ⟨known, (hanswers.kept hinput).trans hknown, hle⟩
        | some r =>
          have ⟨hrow, hbelow⟩ := hanswers.taken r hinput hanswered.2.1
          exact ⟨r, hrow, hle.trans (hbelow known hknown)⟩
      | inr hnew =>
        cases mem_singleton.mp hnew
        have hrow := hanswers.taken k (hfr.symm.trans hanswered.2.2.2) hanswered.2.1
        exact ⟨k, hrow.1, Nat.le_refl k⟩
    | inr hold =>
      refine (h.pins x hold.1 hxactive).append_other ?_
      intro hsame
      have heq := h.rows.active_unique hold.1 hp hxactive hactive
        (hsame.symm.trans (hfc.trans hcontext.symm))
      exact hold.2 (heq ▸ hanswers.id.symm)
  requests r hr hpending := by
    refine (h.requests r hr hpending).append_other ?_
    intro hsame
    exact h.rows.not_both hp hr hactive hpending (hcontext.trans (hfc.symm.trans hsame))

variable {r : Request}

theorem Inv.touched (h : w.Inv) (hr : r ∈ w.store.requests)
    (hpending : r.status = .pending) (reason : Reason)
    (hcovers : Covers w.log r.context (input.shareRevision <|> r.shareRevision)) :
    Inv ⟨w.store.setRequest (touchRequest r input reason), w.log⟩ where
  __ := h
  rows := touched_rows h.rows hr hpending input reason
  asked e he hactive := by
    have ⟨x, hx, hcontext⟩ := h.asked e he hactive
    have ⟨y, hy, hyx⟩ := Settles.contexts_setRequest (touchRequest_id r input reason)
      (touchRequest_context r input reason) (fun z hz hid => h.rows.request_eq hz hr hid) x hx
    exact ⟨y, hy, hyx.trans hcontext⟩
  requests x hx hxp := by
    cases mem_setRequest hx with
    | inl heq =>
      subst heq
      rw [touchRequest_context, touchRequest_shareRevision]
      exact hcovers
    | inr hold => exact h.requests x hold.1 hxp

theorem Inv.created (h : w.Inv) (hrows : (w.store.addRequest r).Rows)
    (hcovers : Covers w.log r.context r.shareRevision) : Inv ⟨w.store.addRequest r, w.log⟩ where
  __ := h
  rows := hrows
  asked e he hactive := by
    have ⟨x, hx, hcontext⟩ := h.asked e he hactive
    exact ⟨x, mem_append.mpr (.inl hx), hcontext⟩
  requests x hx hxp := by
    cases mem_append.mp hx with
    | inl hold => exact h.requests x hold hxp
    | inr hnew =>
      cases mem_singleton.mp hnew
      exact hcovers

theorem shareRevision_of_valid (h : r.valid = true) (hshared : r.context.accessMode = .shared) :
    ∃ k, r.shareRevision = some k := by
  simp only [Request.valid, Context.valid, hshared, Bool.and_eq_true, beq_iff_eq] at h
  have hsome : r.shareRevision.isSome = true := h.1.1.1.2 ▸ h.1.1.1.1.2
  exact isSome_iff_exists.mp hsome

section Observing

variable {cfg : Settings} {w : Watched} {input : Observe}

variable {e : Entry} {t : Store}

/-- Where a request is stored whatever the revision, the revision is not below one that was answered
active. -/
theorem Guarded.not_below (hguarded : w.Guarded (.observe input)) (h : w.Inv)
    (hreopens : w.store.latestRequest input.context = none ∨ w.store.reopens input = true)
    (he : e ∈ w.log) {k r : Nat} (hanswered : e.answered input.context k)
    (hr : input.shareRevision = some r) : k ≤ r := by
  refine Decidable.byContradiction fun hlt => ?_
  cases hreopens with
  | inl hnone =>
    have ⟨x, hx, hcontext⟩ := h.asked e he hanswered.2.2.1
    exact latestRequest_none hnone x hx (hcontext.trans hanswered.1)
  | inr hopens =>
    have hclosed := hguarded e he k hanswered.2.2.2 r hr hanswered (by omega)
    rw [hopens] at hclosed
    cases hclosed

theorem latest_bound (h : w.Inv) {latest : Request}
    (hlatest : w.store.latestRequest input.context = some latest)
    (hstale : isStaleShareRevision latest input = false)
    (hpending : latest.status = .pending) (he : e ∈ w.log) {k r : Nat}
    (hanswered : e.answered input.context k) (hr : input.shareRevision = some r) : k ≤ r := by
  have ⟨hmem, hcontext⟩ := latestRequest_some hlatest
  have ⟨known, hknown, hle⟩ := h.requests latest hmem hpending e he k (hcontext ▸ hanswered)
  simp [isStaleShareRevision, hanswered.2.1, hknown, hr] at hstale
  omega

theorem covers_refreshed {c : Context} {o known : Option Nat} (h : Covers log c known)
    (hr : ∀ e ∈ log, ∀ k, e.answered c k → ∀ r, o = some r → k ≤ r) :
    Covers log c (o <|> known) := by
  intro e he k hanswered
  cases o with
  | none => exact h e he k hanswered
  | some r => exact ⟨r, rfl, hr e he k hanswered r rfl⟩

theorem bars_of_below (hfc : f.context = input.context)
    (hfr : f.shareRevision = input.shareRevision)
    (h : ∀ e ∈ w.log, ∀ k r, e.answered input.context k → input.shareRevision = some r → k ≤ r) :
    ∀ e ∈ w.log, e.bars f := by
  intro e he k hk r hr hanswered hlt
  have hle := h e he k r (hfc ▸ hanswered) (hfr.symm.trans hr)
  omega

theorem Inv.asked_ok (h : w.Inv) {r : Request}
    (hcovers : ∀ e ∈ w.log, ∀ k, e.answered input.context k →
      ∀ r, input.shareRevision = some r → k ≤ r)
    (hinactive : ∀ p ∈ w.store.pins, p.context = input.context → p.status = .active → False)
    (hasked : Asked cfg input w.store t r) : Inv ⟨t, w.log⟩ := by
  have hrows := hasked.rows h.rows hinactive
  cases hasked with
  | refreshed reason hr hcontext hpending =>
    apply h.touched hr hpending
    apply covers_refreshed (h.requests _ hr hpending)
    rw [hcontext]
    exact hcovers
  | created reason hsettles hfresh hnone hvalid =>
    apply (h.settles hsettles).created hrows
    intro e he k hanswered
    have ⟨r, hr⟩ := shareRevision_of_valid hvalid (hanswered.2.1)
    exact ⟨r, hr, hcovers e he k hanswered r hr⟩

theorem Inv.observed (h : w.Inv) (hguarded : w.Guarded (.observe input))
    {o : Observation} (ho : Observed cfg input w.store t o) :
    Inv ⟨t, w.log ++ [w.store.entry input (.ok (t, o))]⟩ := by
  cases ho with
  | unchanged hinactive =>
    refine h.append_inactive hinactive ?_
    intro e he k hk r hr hanswered hlt
    exact ⟨hinactive, by simp [entry]⟩
  | answered hp hcontext hactive hrole hmoved hanswers =>
    exact h.answered hp hcontext hactive hanswers rfl rfl
  | expired hlatest hstale hpending =>
    have hmem := (latestRequest_some hlatest).1
    have hsettled := h.settles (Settles.expired h.rows hmem hpending input.now)
    refine hsettled.append_inactive rfl (bars_of_below rfl rfl ?_)
    exact fun e he k r hanswered hr => latest_bound h hlatest hstale hpending he hanswered hr
  | @touched latest hlatest hstale hpending =>
    have ⟨hmem, hcontext⟩ := latestRequest_some hlatest
    have hbound : ∀ e ∈ w.log, ∀ k r, e.answered input.context k →
        input.shareRevision = some r → k ≤ r :=
      fun e he k r hanswered hr => latest_bound h hlatest hstale hpending he hanswered hr
    have htouched : Inv ⟨w.store.setRequest (touchRequest latest input latest.reason), w.log⟩ :=
      h.touched hmem hpending latest.reason
        (covers_refreshed (h.requests _ hmem hpending) fun e he k hanswered r hr =>
          hbound e he k r (hcontext ▸ hanswered) hr)
    exact htouched.append_inactive rfl (bars_of_below rfl rfl hbound)
  | asked hreopens hsettles hinactive hasked =>
    have hbound : ∀ e ∈ w.log, ∀ k r, e.answered input.context k →
        input.shareRevision = some r → k ≤ r :=
      fun e he k r hanswered hr => hguarded.not_below h hreopens he hanswered hr
    have hstored : Inv ⟨t, w.log⟩ := (h.settles hsettles).asked_ok
      (fun e he k hanswered r hr => hbound e he k r hanswered hr) hinactive hasked
    exact hstored.append_inactive rfl (bars_of_below rfl rfl hbound)

end Observing

/-! ## Runs -/

theorem Inv.approved (h : w.Inv) {input : Decide} {role : ResolvedRole}
    (hrows : ((w.store.addPin p).setRequest (approvedRequest r input
      r.context.cloudAccessRoleId)).Rows) (happrovable : Approvable cfg input w.store r role)
    (hpin : p = approvedPin r input role r.context.cloudAccessRoleId none) :
    Inv ⟨(w.store.addPin p).setRequest (approvedRequest r input
      r.context.cloudAccessRoleId), w.log⟩ where
  rows := hrows
  forward := h.forward
  asked e he hactive := by
    have ⟨x, hx, hcontext⟩ := h.asked e he hactive
    have hmem := (getRequest_some happrovable.found).1
    have hsame : ∀ z ∈ w.store.requests, z.id = r.id → z = r :=
      fun z hz hid => h.rows.request_eq hz hmem hid
    have ⟨y, hy, hyx⟩ := Settles.contexts_setRequest (r := r)
      (q := approvedRequest r input r.context.cloudAccessRoleId) rfl rfl hsame x hx
    exact ⟨y, hy, hyx.trans hcontext⟩
  pins x hx hactive := by
    cases mem_append.mp hx with
    | inl hold => exact h.pins x hold hactive
    | inr hnew =>
      cases mem_singleton.mp hnew
      rw [hpin]
      exact h.requests r (getRequest_some happrovable.found).1 happrovable.pending
  requests x hx hpending := by
    cases mem_setRequest hx with
    | inl heq =>
      subst heq
      cases hpending
    | inr hold => exact h.requests x hold.1 hpending

theorem step_inv {w u : Watched} {a : Action}
    (hstep : step cfg w a = some u) (hguarded : w.Guarded a) (h : w.Inv) : u.Inv := by
  have ⟨t, ht, hu⟩ := map_eq_some_iff.mp hstep
  have houtcome := step_outcome h.rows ht
  have hrows := houtcome.rows h.rows
  cases houtcome with
  | settled hnot hsettles =>
    have hlog : u = ⟨t, w.log⟩ := by
      cases a with
      | observe input => exact absurd rfl (hnot input)
      | _ => exact hu.symm
    exact hlog ▸ h.settles hsettles
  | failed herror =>
    subst hu
    dsimp only
    rw [herror]
    exact h.append_inactive rfl fun e _ k _ r _ _ _ => ⟨rfl, rfl⟩
  | observed hok hfresh hobserved =>
    subst hu
    dsimp only
    rw [hok]
    exact h.observed hguarded hobserved
  | approved hok hfresh happrovable hpin hstore =>
    rw [← hu, hstore]
    exact h.approved (hstore ▸ hrows) happrovable hpin

/-- In a history whose observations stay out of the unguarded branches while their share revision is
below one that was answered active, share revisions never go back. -/
theorem run_forward {cfg : Settings} {as : List Action} {w : Watched}
    (hrun : run (step cfg) empty as = some w) (hguarded : AllSteps (step cfg) Guarded empty as) :
    w.Forward :=
  (run_invariant_of_steps (fun _ _ _ => step_inv) hrun hguarded Inv.empty).forward

/-- Without an edit of the role, the share revision 3 is turned away. -/
theorem run_forward_sample : ∃ w, run (step Store.sampleSettings) empty
        (Store.sampleTrusted Store.sampleAdmin ++ [.observe (Store.sampleObserve 5 120 "r2"),
          .observe (Store.sampleObserve 3 140 "r3")]) = some w ∧
      w.log.map (fun e => (e.shareRevision, e.active, e.stored)) =
        [(some 5, false, true), (some 5, true, true), (some 3, false, false)] ∧ w.Forward := by
  have hsteps : AllSteps (step sampleSettings) Guarded empty
      (sampleTrusted sampleAdmin ++ [.observe (sampleObserve 5 120 "r2"),
        .observe (sampleObserve 3 140 "r3")]) := by
    decide +kernel
  have hlog : (run (step sampleSettings) empty
      (sampleTrusted sampleAdmin ++ [.observe (sampleObserve 5 120 "r2"),
        .observe (sampleObserve 3 140 "r3")])).map
        (fun w => w.log.map fun e => (e.shareRevision, e.active, e.stored)) =
      some [(some 5, false, true), (some 5, true, true), (some 3, false, false)] := by
    decide +kernel
  have ⟨w, hrun, hw⟩ := map_eq_some_iff.mp hlog
  exact ⟨w, hrun, hw, run_forward hrun hsteps⟩

/-- Behind an edit of the role, the share revision 3 stores a request, and its approval is answered
active. -/
theorem shareRevision_goes_back : ∃ w, run (step Store.sampleSettings) empty
        (Store.sampleTrusted Store.sampleAdmin ++ [.observe (Store.sampleObserve 5 120 "r2"),
            .editRole "member" ["tasks:read", "tasks:write"] true 130,
            .observe (Store.sampleObserve 3 140 "r3"),
            .approve (Store.sampleApprove Store.sampleAdmin "r3" 150 "p2"),
            .observe (Store.sampleObserve 3 160 "r4")]) = some w ∧
      w.log.map (fun e => (e.shareRevision, e.active, e.stored)) =
        [(some 5, false, true), (some 5, true, true), (some 3, false, true),
          (some 3, true, true)] ∧ ¬ w.Forward := by
  have hlog : (run (step sampleSettings) empty
      (sampleTrusted sampleAdmin ++ [.observe (sampleObserve 5 120 "r2"),
          .editRole "member" ["tasks:read", "tasks:write"] true 130,
          .observe (sampleObserve 3 140 "r3"),
          .approve (sampleApprove sampleAdmin "r3" 150 "p2"),
          .observe (sampleObserve 3 160 "r4")])).map
        (fun w => (w.log.map fun e => (e.shareRevision, e.active, e.stored), decide w.Forward)) =
      some ([(some 5, false, true), (some 5, true, true), (some 3, false, true),
        (some 3, true, true)], false) := by
    decide +kernel
  have ⟨w, hrun, hw⟩ := map_eq_some_iff.mp hlog
  have ⟨hentries, hback⟩ := Prod.mk.inj hw
  exact ⟨w, hrun, hentries, of_decide_eq_false hback⟩

end Watched

end TaskHandoff.DeviceTrust.Trust
