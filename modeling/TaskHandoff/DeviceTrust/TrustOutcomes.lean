import TaskHandoff.DeviceTrust.TrustRows

/-! # What each operation comes to

An operation that goes well is described by the rows it wrote and by what held of the rows it read.
Most of them settle rows: pins are revoked and requests decided, and nothing becomes active or
pending. What else happens is that an observation refreshes an active pin or a pending request, that
it stores a new request, or that an approval stores a new pin. -/

namespace TaskHandoff.DeviceTrust.Trust

open Machine List Option

namespace Store

/-! ## Settling rows -/

/-- Rows were settled: every active pin and every pending request is one from before. -/
structure Settles (s t : Store) : Prop where
  rows : t.Rows
  pins : ∀ p ∈ t.pins, p.status = .active → p ∈ s.pins
  requests : ∀ r ∈ t.requests, r.status = .pending → r ∈ s.requests
  contexts : ∀ r ∈ s.requests, ∃ q ∈ t.requests, q.context = r.context
  ids : ∀ q ∈ t.requests, ∃ r ∈ s.requests, r.id = q.id

namespace Settles

variable {s t u : Store}

theorem refl (h : s.Rows) : Settles s s where
  rows := h
  pins _ hp _ := hp
  requests _ hr _ := hr
  contexts r hr := ⟨r, hr, rfl⟩
  ids r hr := ⟨r, hr, rfl⟩

theorem trans (hst : Settles s t) (htu : Settles t u) : Settles s u where
  rows := htu.rows
  pins p hp hactive := hst.pins p (htu.pins p hp hactive) hactive
  requests r hr hpending := hst.requests r (htu.requests r hr hpending) hpending
  contexts r hr := by
    have ⟨q, hq, hqr⟩ := hst.contexts r hr
    have ⟨x, hx, hxq⟩ := htu.contexts q hq
    exact ⟨x, hx, hxq.trans hqr⟩
  ids q hq := by
    have ⟨r, hr, hrq⟩ := htu.ids q hq
    have ⟨x, hx, hxr⟩ := hst.ids r hr
    exact ⟨x, hx, hxr.trans hrq⟩

theorem fresh (h : Settles s t) {id : String} (hfresh : ∀ q ∈ s.requests, q.id ≠ id) :
    ∀ q ∈ t.requests, q.id ≠ id := by
  intro q hq heq
  have ⟨r, hr, hrq⟩ := h.ids q hq
  exact hfresh r hr (hrq.trans heq)

theorem revoked (h : s.Rows) {p : Pin} (hp : p ∈ s.pins) (now : Nat) (reason : Option String) :
    Settles s (s.setPin (revokedPin p now reason)) where
  rows := h.setPin hp rfl rfl fun hactive => by cases hactive
  pins q hq hactive := by
    cases mem_setPin hq with
    | inl heq =>
      subst heq
      cases hactive
    | inr hold => exact hold.1
  requests _ hr _ := hr
  contexts r hr := ⟨r, hr, rfl⟩
  ids r hr := ⟨r, hr, rfl⟩

theorem contexts_setRequest {q r : Request} (hid : q.id = r.id) (hcontext : q.context = r.context)
    (hsame : ∀ x ∈ s.requests, x.id = r.id → x = r) :
    ∀ x ∈ s.requests, ∃ y ∈ (s.setRequest q).requests, y.context = x.context := by
  intro x hx
  by_cases heq : x.id = q.id
  · refine ⟨q, mem_map.mpr ⟨x, hx, if_pos heq⟩, ?_⟩
    rw [hsame x hx (heq.trans hid), hcontext]
  · exact ⟨x, mem_map.mpr ⟨x, hx, if_neg heq⟩, rfl⟩

theorem decided (h : s.Rows) {q r : Request} (hr : r ∈ s.requests) (hpending : r.status = .pending)
    (hid : q.id = r.id) (hcontext : q.context = r.context) (hnot : q.status ≠ .pending)
    (hstatus : q.status ≠ .approved) : Settles s (s.setRequest q) where
  rows := h.setRequest hr hpending hid hcontext hstatus
  pins _ hp _ := hp
  requests x hx hxp := by
    cases mem_setRequest hx with
    | inl heq => exact absurd hxp (heq ▸ hnot)
    | inr hold => exact hold.1
  contexts := contexts_setRequest hid hcontext fun x hx hxid => h.request_eq hx hr hxid
  ids x hx := by
    cases mem_setRequest hx with
    | inl heq => exact ⟨r, hr, hid.symm.trans (congrArg Request.id heq).symm⟩
    | inr hold => exact ⟨x, hold.1, rfl⟩

theorem expired (h : s.Rows) {r : Request} (hr : r ∈ s.requests) (hpending : r.status = .pending)
    (now : Nat) : Settles s (s.setRequest (expiredRequest r now)) :=
  decided h hr hpending rfl rfl (by simp [expiredRequest]) (by simp [expiredRequest])

end Settles

/-! ## Revocations -/

variable {s : Store} {now : Nat}

variable {reason roleId : String} {p : Pin} {t : Store}

theorem revokePinForReapproval_ok {a : Store × Pin}
    (h : s.revokePinForReapproval p now reason = .ok a) :
    a.1 = s.setPin (revokedPin p now (some reason)) := by
  have ⟨t, ht, hpure⟩ := bind_ok.mp h
  cases hpure
  exact (writePin_ok ht).2

theorem revokeAll_ok (hrows : s.Rows) {ps : List Pin} {a : Store × List Pin}
    (hps : ∀ p ∈ ps, p ∈ s.pins) (hids : (ps.map Pin.id).Nodup)
    (h : s.revokeAll now reason ps = .ok a) : Settles s a.1 := by
  induction ps generalizing s a with
  | nil =>
    cases h
    exact .refl hrows
  | cons p ps ih =>
    have ⟨first, hfirst, hrest⟩ := bind_ok.mp h
    have ⟨others, hothers, hpure⟩ := bind_ok.mp hrest
    cases hpure
    have hhead := Settles.revoked hrows (hps p mem_cons_self) now (some reason)
    have heq := revokePinForReapproval_ok hfirst
    rw [← heq] at hhead
    have ⟨hne, htail⟩ := nodup_cons.mp hids
    have hmem : ∀ q ∈ ps, q ∈ first.1.pins := by
      intro q hq
      have hdiff : q.id ≠ p.id := fun hid => hne (hid ▸ mem_map_of_mem hq)
      rw [heq]
      exact mem_map.mpr ⟨q, hps q (mem_cons_of_mem _ hq), if_neg hdiff⟩
    have hlater : Settles first.1 others.1 := ih (a := others) hhead.rows hmem htail hothers
    exact hhead.trans hlater

theorem supersededPins_mem {b : String} {c : Context} :
    ∀ p ∈ supersededPins (s.listPins b) c, p ∈ s.pins := by
  intro p hp
  exact (mem_listPins.mp (mem_of_mem_filter hp)).1

theorem supersededPins_ids (h : s.Rows) (b : String) (c : Context) :
    ((supersededPins (s.listPins b) c).map Pin.id).Nodup := by
  have hsub : List.Sublist (supersededPins (s.listPins b) c) (s.listPins b) := filter_sublist
  have hperm := perm_insertionSort (fun p q : Pin => q.approvedAt ≤ p.approvedAt)
    (s.pins.filter fun p => p.context.bindingId = b)
  have hfilter : List.Sublist (s.pins.filter fun p => p.context.bindingId = b) s.pins :=
    filter_sublist
  have hsorted : ((s.listPins b).map Pin.id).Nodup :=
    (hperm.map Pin.id).nodup_iff.mpr ((hfilter.map Pin.id).nodup h.pinIds)
  exact (hsub.map Pin.id).nodup hsorted

/-! ## Requests of an observation -/

theorem touchRequest_id (r : Request) (input : Observe) (reason : Reason) :
    (touchRequest r input reason).id = r.id := by
  simp only [touchRequest]
  split <;> rfl

theorem touchRequest_context (r : Request) (input : Observe) (reason : Reason) :
    (touchRequest r input reason).context = r.context := by
  simp only [touchRequest]
  split <;> rfl

theorem touchRequest_status (r : Request) (input : Observe) (reason : Reason) :
    (touchRequest r input reason).status = r.status := by
  simp only [touchRequest]
  split <;> rfl

theorem touchRequest_shareRevision (r : Request) (input : Observe) (reason : Reason) :
    (touchRequest r input reason).shareRevision = (input.shareRevision <|> r.shareRevision) := by
  simp only [touchRequest]
  split
  next h => exact h.1
  · rfl

variable {r : Request}

theorem putRequest_ok (hfresh : ∀ q ∈ s.requests, q.id ≠ r.id)
    (h : s.putRequest r = .ok t) : r.valid = true ∧ t = s.addRequest r := by
  have hnone : s.getRequest r.id = none := by
    apply find?_eq_none.mpr
    intro q hq
    simpa using hfresh q hq
  rw [putRequest] at h
  split at h
  · cases h
  rename_i hvalid
  split at h
  · cases h
  rw [hnone] at h
  cases h
  exact ⟨by simpa using hvalid, rfl⟩

variable {cfg : Settings} {input : Observe} {a : Store × Request} {reason : Reason}

theorem createRequest_ok (hfresh : ∀ q ∈ s.requests, q.id ≠ input.requestId)
    (h : s.createRequest cfg input reason = .ok a) :
    (newRequest cfg input reason).valid = true ∧ a.2 = newRequest cfg input reason ∧
      a.1 = s.addRequest (newRequest cfg input reason) := by
  have ⟨t, ht, hpure⟩ := bind_ok.mp h
  cases hpure
  have ⟨hvalid, heq⟩ := putRequest_ok (r := newRequest cfg input reason) hfresh ht
  exact ⟨hvalid, rfl, heq⟩

theorem expireRequest_ok (h : s.expireRequest r now = .ok a) :
    a.1 = s.setRequest (expiredRequest r now) ∧ a.2 = expiredRequest r now := by
  have ⟨t, ht, hpure⟩ := bind_ok.mp h
  cases hpure
  exact ⟨(writeRequest_ok ht).2, rfl⟩

/-- The ways in which a device asks for approval: its pending request is refreshed, or a new one is
stored where it has none. -/
inductive Asked (cfg : Settings) (input : Observe) (s : Store) : Store → Request → Prop
  | refreshed {r : Request} (reason : Reason) (hr : r ∈ s.requests)
      (hcontext : r.context = input.context) (hpending : r.status = .pending) :
      Asked cfg input s (s.setRequest (touchRequest r input reason)) (touchRequest r input reason)
  | created {m : Store} (reason : Reason) (hsettles : Settles s m)
      (hfresh : ∀ q ∈ m.requests, q.id ≠ input.requestId)
      (hnone : ∀ q ∈ m.requests, q.context = input.context → q.status = .pending → False)
      (hvalid : (newRequest cfg input reason).valid = true) :
      Asked cfg input s (m.addRequest (newRequest cfg input reason)) (newRequest cfg input reason)

theorem createOrRefreshRequest_ok (hrows : s.Rows)
    (hfresh : ∀ q ∈ s.requests, q.id ≠ input.requestId)
    (h : s.createOrRefreshRequest cfg input reason = .ok a) : Asked cfg input s a.1 a.2 := by
  rw [createOrRefreshRequest] at h
  split at h
  next hnone =>
    have ⟨hvalid, hrequest, hstore⟩ := createRequest_ok hfresh h
    rw [hrequest, hstore]
    exact .created reason (.refl hrows) hfresh (findPendingRequest_none hnone) hvalid
  rename_i existing hfound
  have ⟨hmem, hcontext, hpending⟩ := findPendingRequest_some hfound
  split at h
  · have ⟨t, ht, hpure⟩ := bind_ok.mp h
    cases hpure
    rw [(writeRequest_ok ht).2]
    exact .refreshed reason hmem hcontext hpending
  have ⟨expired, hexpired, hcreate⟩ := bind_ok.mp h
  have ⟨hstore, _⟩ := expireRequest_ok hexpired
  have hsettles := Settles.expired hrows hmem hpending input.now
  rw [← hstore] at hsettles
  have hfresh' := hsettles.fresh hfresh
  have hnone : ∀ q ∈ expired.1.requests, q.context = input.context →
      q.status = .pending → False := by
    -- The last request of the context was the one that is expired now.
    intro q hq hqc hqp
    have hqs := hsettles.requests q hq hqp
    have hlast := hrows.pending q hqs hqp
    rw [hqc, ← hcontext, hrows.pending existing hmem hpending] at hlast
    cases hlast
    rw [hstore] at hq
    cases mem_setRequest hq with
    | inl heq => exact absurd (congrArg Request.status heq) (by simp [expiredRequest, hqp])
    | inr hold => exact hold.2 rfl
  have ⟨hvalid, hrequest, hnew⟩ := createRequest_ok hfresh' hcreate
  rw [hrequest, hnew]
  exact .created reason hsettles hfresh' hnone hvalid

/-! ## Observing a client -/

/-- An active pin answers an observation of its context, and takes the share revision over. -/
structure Answers (p q : Pin) (input : Observe) : Prop where
  id : q.id = p.id
  context : q.context = p.context
  status : q.status = p.status
  roleId : q.roleId = p.roleId
  authorizationRevision : q.authorizationRevision = p.authorizationRevision
  kept : input.shareRevision = none → q.shareRevision = p.shareRevision
  taken : ∀ r, input.shareRevision = some r → p.context.accessMode = .shared →
    q.shareRevision = some r ∧ ∀ known, p.shareRevision = some known → known ≤ r

/-- The branches that store a request for a context that was decided before: the role behind its
pin is gone or was edited, or the client asks again by itself. -/
def reopens (input : Observe) (s : Store) : Bool :=
  match s.findActivePin input.context with
  | some active =>
    match s.resolveRole active.roleId with
    | none => true
    | some role => roleMoved active role
  | none =>
    input.explicitRetry &&
      match s.latestRequest input.context with
      | none => false
      | some latest => !isStaleShareRevision latest input

def Observation.isActive : Observation → Bool
  | .active _ _ => true
  | _ => false

/-- What an observation of a client comes to. -/
inductive Observed (cfg : Settings) (input : Observe) (s : Store) : Store → Observation → Prop
  | unchanged {o : Observation} (ho : o.isActive = false) : Observed cfg input s s o
  | answered {p q : Pin} {role : ResolvedRole} (hp : p ∈ s.pins)
      (hcontext : p.context = input.context) (hactive : p.status = .active)
      (hrole : s.resolveRole p.roleId = some role)
      (hmoved : roleMoved p role = false) (hanswers : Answers p q input) :
      Observed cfg input s (s.setPin q) (.active q role)
  | expired {r : Request} (hlatest : s.latestRequest input.context = some r)
      (hstale : isStaleShareRevision r input = false) (hpending : r.status = .pending) :
      Observed cfg input s (s.setRequest (expiredRequest r input.now))
        (.expired (expiredRequest r input.now))
  | touched {r : Request} (hlatest : s.latestRequest input.context = some r)
      (hstale : isStaleShareRevision r input = false) (hpending : r.status = .pending) :
      Observed cfg input s (s.setRequest (touchRequest r input r.reason))
        (.pending (touchRequest r input r.reason) [])
  | asked {m t : Store} {r : Request} {revoked : List Pin}
      (hreopens : s.latestRequest input.context = none ∨ s.reopens input = true)
      (hsettles : Settles s m)
      (hinactive : ∀ p ∈ m.pins, p.context = input.context → p.status = .active → False)
      (hasked : Asked cfg input m t r) : Observed cfg input s t (.pending r revoked)

theorem touchPin_answers (h : ∀ r, input.shareRevision = some r → p.context.accessMode = .shared →
      p.shareRevision = some r) : Answers p (touchPin p input) input := by
  have hshare : (touchPin p input).shareRevision = p.shareRevision := by
    rw [touchPin]
    split <;> rfl
  refine ⟨?_, ?_, ?_, ?_, ?_, fun _ => hshare, ?_⟩
  any_goals
    rw [touchPin]
    split <;> rfl
  intro r hr hshared
  have hknown := h r hr hshared
  refine ⟨hshare.trans hknown, fun known hk => ?_⟩
  rw [hknown] at hk
  cases hk
  exact Nat.le_refl r

theorem convergedPin_answers {r : Nat} (hr : input.shareRevision = some r)
    (h : ∀ known, p.shareRevision = some known → known ≤ r) :
    Answers p (convergedPin p r input) input where
  id := rfl
  context := rfl
  status := rfl
  roleId := rfl
  authorizationRevision := rfl
  kept hnone := by cases hr.symm.trans hnone
  taken k hk _ := by
    cases hr.symm.trans hk
    exact ⟨rfl, h⟩

section Observing

variable {cfg : Settings} {input : Observe} {s : Store}

variable {role : ResolvedRole} {a : Store × Observation}

variable {p : Pin}

theorem refreshPin_ok (h : s.refreshPin p role input = .ok a) :
    a = (s.setPin (touchPin p input), .active (touchPin p input) role) := by
  have ⟨t, ht, hpure⟩ := bind_ok.mp h
  cases hpure
  rw [(writePin_ok ht).2]

theorem convergePin_ok {r : Nat} (h : s.convergePin p role r input = .ok a) :
    a = (s.setPin (convergedPin p r input), .active (convergedPin p r input) role) := by
  have ⟨t, ht, hpure⟩ := bind_ok.mp h
  cases hpure
  rw [(writePin_ok ht).2]

theorem observeActive_ok (h : s.observeActive p role input = .ok a) : a = (s, .authorizationStale) ∨
      ∃ q, Answers p q input ∧ a = (s.setPin q, .active q role) := by
  rw [observeActive] at h
  split at h
  next incoming hshared hincoming =>
    split at h
    next hnone =>
      refine .inr ⟨_, convergedPin_answers hincoming ?_, convergePin_ok h⟩
      intro known hknown
      cases hnone.symm.trans hknown
    rename_i known hsome
    split at h
    · cases h
      exact .inl rfl
    rename_i hge
    split at h
    next hlt =>
      refine .inr ⟨_, convergedPin_answers hincoming ?_, convergePin_ok h⟩
      intro k hk
      cases hsome.symm.trans hk
      omega
    next hle =>
      refine .inr ⟨_, touchPin_answers ?_, refreshPin_ok h⟩
      intro r hr _
      cases hincoming.symm.trans hr
      rw [hsome]
      congr 1
      omega
  next hother =>
    refine .inr ⟨_, touchPin_answers ?_, refreshPin_ok h⟩
    intro r hr hshared
    exact absurd hr (hother r hshared)

theorem reapproveRole_ok (hrows : s.Rows) {reason : String}
    (hfresh : ∀ q ∈ s.requests, q.id ≠ input.requestId) (hp : p ∈ s.pins)
    (hactive : p.status = .active) (hcontext : p.context = input.context)
    (hreopens : s.reopens input = true) (h : s.reapproveRole cfg p reason input = .ok a) :
    Observed cfg input s a.1 a.2 := by
  have ⟨revoked, hrevoked, hrest⟩ := bind_ok.mp h
  have ⟨request, hrequest, hpure⟩ := bind_ok.mp hrest
  cases hpure
  have hstore := revokePinForReapproval_ok hrevoked
  have hsettles := Settles.revoked hrows hp input.now (some reason)
  rw [← hstore] at hsettles
  have hasked := createOrRefreshRequest_ok hsettles.rows (hsettles.fresh hfresh) hrequest
  refine .asked (.inr hreopens) hsettles ?_ hasked
  intro q hq hqc hqa
  have heq := hrows.active_unique (hsettles.pins q hq hqa) hp hqa hactive (hqc.trans hcontext.symm)
  rw [hstore] at hq
  cases mem_setPin hq with
  | inl hrow => exact absurd (congrArg Pin.status hrow) (by simp [revokedPin, hqa])
  | inr hold => exact hold.2 (heq ▸ rfl)

theorem asked_ok {revoked : Store × List Pin} (hfresh : ∀ q ∈ s.requests, q.id ≠ input.requestId)
    (hnone : s.findActivePin input.context = none)
    (hreopens : s.latestRequest input.context = none ∨ s.reopens input = true)
    (hsettles : Settles s revoked.1) (h : (do
      let request ← revoked.1.createOrRefreshRequest cfg input reason
      pure (request.1, Observation.pending request.2 revoked.2) : Answer (Store × Observation)) =
        .ok a) : Observed cfg input s a.1 a.2 := by
  have ⟨request, hrequest, hpure⟩ := bind_ok.mp h
  cases hpure
  refine .asked hreopens hsettles ?_
    (createOrRefreshRequest_ok hsettles.rows (hsettles.fresh hfresh) hrequest)
  intro p hp hcontext hactive
  exact findActivePin_none hnone p (hsettles.pins p hp hactive) hcontext hactive

variable (hrows : s.Rows)

include hrows

section

variable (hfresh : ∀ q ∈ s.requests, q.id ≠ input.requestId)

include hfresh

theorem requestAccess_ok
    (hnone : s.findActivePin input.context = none)
    (hreopens : s.latestRequest input.context = none ∨ s.reopens input = true)
    (h : s.requestAccess cfg input = .ok a) : Observed cfg input s a.1 a.2 := by
  rw [requestAccess] at h
  split at h
  · have ⟨revoked, hrevoked, hrest⟩ := bind_ok.mp h
    cases hrevoked
    exact asked_ok hfresh hnone hreopens (.refl hrows) hrest
  have ⟨revoked, hrevoked, hrest⟩ := bind_ok.mp h
  have hsettles := revokeAll_ok hrows supersededPins_mem (supersededPins_ids hrows _ _) hrevoked
  exact asked_ok hfresh hnone hreopens hsettles hrest

theorem reopen_ok
    (hnone : s.findActivePin input.context = none)
    (hreopens : s.latestRequest input.context = none ∨ s.reopens input = true)
    (h : s.reopen cfg input = .ok a) : Observed cfg input s a.1 a.2 := by
  simp only [reopen] at h
  split at h
  · split at h
    · exact requestAccess_ok hrows hfresh hnone hreopens h
    · cases h
      exact .unchanged rfl
  · exact requestAccess_ok hrows hfresh hnone hreopens h

end

theorem revokedApproval_isSome {r : Request} (hr : r ∈ s.requests)
    (happroved : r.status = .approved) (hnone : s.findActivePin r.context = none) :
    (s.revokedApproval r).isSome = true := by
  have ⟨p, hp, hpin, hcontext⟩ := hrows.approved r hr happroved
  have hget : s.getPin p.id = some p := by
    cases hfound : s.getPin p.id with
    | none => exact absurd rfl (getPin_none hfound p hp)
    | some q =>
      have ⟨hq, hqid⟩ := getPin_some hfound
      rw [hrows.pin_eq hq hp hqid]
  cases hstatus : p.status with
  | active => exact (findActivePin_none hnone p hp hcontext hstatus).elim
  | revoked => simp [revokedApproval, hpin, hget, hstatus]

variable (hfresh : ∀ q ∈ s.requests, q.id ≠ input.requestId)

include hfresh

theorem observeLatest_ok {latest : Request} (hnone : s.findActivePin input.context = none)
    (hlatest : s.latestRequest input.context = some latest)
    (h : s.observeLatest cfg latest input = .ok a) : Observed cfg input s a.1 a.2 := by
  rw [observeLatest] at h
  split at h
  · cases h
    exact .unchanged rfl
  rename_i hstale
  have hstale : isStaleShareRevision latest input = false := by simpa using hstale
  have hretry : input.explicitRetry = true → s.reopens input = true := by
    intro hexplicit
    simp [reopens, hnone, hlatest, hexplicit, hstale]
  split at h
  next hpending =>
    split at h
    · have ⟨expired, hexpired, hpure⟩ := bind_ok.mp h
      cases hpure
      have ⟨hstore, hrequest⟩ := expireRequest_ok hexpired
      rw [hstore, hrequest]
      exact .expired hlatest hstale hpending
    · have ⟨t, ht, hpure⟩ := bind_ok.mp h
      cases hpure
      rw [(writeRequest_ok ht).2]
      exact .touched hlatest hstale hpending
  · split at h
    next hexplicit => exact reopen_ok hrows hfresh hnone (.inr (hretry hexplicit)) h
    · cases h
      exact .unchanged rfl
  · split at h
    next hexplicit => exact reopen_ok hrows hfresh hnone (.inr (hretry hexplicit)) h
    · cases h
      exact .unchanged rfl
  next happroved =>
    have ⟨hmem, hcontext⟩ := latestRequest_some hlatest
    have hsome := revokedApproval_isSome hrows hmem happroved (hcontext ▸ hnone)
    split at h
    · split at h
      next hexplicit => exact reopen_ok hrows hfresh hnone (.inr (hretry hexplicit)) h
      · cases h
        exact .unchanged rfl
    next hrevoked => simp [hrevoked] at hsome

theorem observeClient_ok
    (h : s.observeClient cfg input = .ok a) : Observed cfg input s a.1 a.2 := by
  rw [observeClient] at h
  split at h
  next active hfound =>
    have ⟨hp, hcontext, hactive⟩ := findActivePin_some hfound
    split at h
    next hrole =>
      have hreopens : s.reopens input = true := by simp [reopens, hfound, hrole]
      exact reapproveRole_ok hrows hfresh hp hactive hcontext hreopens h
    rename_i role hrole
    split at h
    next hmoved =>
      have hreopens : s.reopens input = true := by simp [reopens, hfound, hrole, hmoved]
      exact reapproveRole_ok hrows hfresh hp hactive hcontext hreopens h
    rename_i hstands
    cases observeActive_ok h with
    | inl hstale =>
      cases hstale
      exact .unchanged rfl
    | inr hanswered =>
      have ⟨q, hanswers, ha⟩ := hanswered
      rw [ha]
      exact .answered hp hcontext hactive hrole (by simpa using hstands) hanswers
  next hnone =>
    split at h
    next hlatest => exact reopen_ok hrows hfresh hnone (.inl hlatest) h
    next latest hlatest => exact observeLatest_ok hrows hfresh hnone hlatest h

end Observing

/-! ## Decisions -/

theorem check_ok {b : Bool} {e : TrustError} {u : Unit} (h : check b e = .ok u) : b = true := by
  rw [check] at h
  split at h
  next hb => exact hb
  · cases h

theorem requirePending_ok {id : String} (h : s.requirePending id now = .ok r) :
    s.getRequest id = some r ∧ r.status = .pending ∧ now < r.expiresAt := by
  rw [requirePending] at h
  split at h
  · cases h
  rename_i found hfound
  split at h
  · cases h
  rename_i hpending
  split at h
  · cases h
  next hlate =>
    cases h
    exact ⟨hfound, Decidable.not_not.mp hpending, by omega⟩

variable {role : ResolvedRole}

theorem resolveRole_some (h : s.resolveRole roleId = some role) : role.roleIds = [roleId] := by
  rw [resolveRole] at h
  split at h
  · cases h
  split at h
  · cases h
    rfl
  · cases h

theorem resolveApprovalRole_ok (h : s.resolveApprovalRole roleId = .ok role) :
    s.resolveRole roleId = some role := by
  rw [resolveApprovalRole] at h
  split at h
  · cases h
  next found hfound =>
    split at h
    · cases h
    · cases h
      exact hfound

theorem putPin_ok (hfresh : ∀ q ∈ s.pins, q.id ≠ p.id)
    (h : s.putPin p = .ok t) : t = s.addPin p := by
  have hnone : s.getPin p.id = none := by
    apply find?_eq_none.mpr
    intro q hq
    simpa using hfresh q hq
  rw [putPin] at h
  split at h
  · cases h
  split at h
  · cases h
  rw [hnone] at h
  cases h
  rfl

theorem setPin_addPin {staged p : Pin} (hid : staged.id = p.id) (hfresh : ∀ q ∈ s.pins, q.id ≠ p.id)
    : (s.addPin staged).setPin p = s.addPin p := by
  have hold : s.pins.map (fun q => if q.id = p.id then p else q) = s.pins := by
    conv_rhs => rw [← map_id s.pins]
    apply map_congr_left
    intro q hq
    exact if_neg (hfresh q hq)
  simp [setPin, addPin, hold, hid]

/-- The request as an approval leaves it. -/
def approvedRequest (r : Request) (input : Decide) (roleId : String) : Request :=
  { decidedRequest r input .approved with
    decidedRoleId := some roleId
    approvedPinId := some input.pinId }

/-- What an approval that goes well was allowed for. -/
structure Approvable (cfg : Settings) (input : Decide) (s : Store) (r : Request)
    (role : ResolvedRole) : Prop where
  found : s.getRequest input.requestId = some r
  pending : r.status = .pending
  unexpired : input.now < r.expiresAt
  revision : r.revision = input.expectedRevision
  fingerprint : cfg.fingerprint r.context.devicePublicKey = input.expectedFingerprint
  admin : s.assertAdmin input.actor (some r.context.bindingId) = .ok ()
  foreign : s.assertNotSelfApproval input.actor r = .ok ()
  role : s.resolveRole r.context.cloudAccessRoleId = some role

section

variable (hrows : s.Rows)

include hrows

theorem applyApproval_ok {input : Decide}
    {a : Store × Request × Pin} (hr : r ∈ s.requests) (hpending : r.status = .pending)
    (hfresh : ∀ x ∈ s.pins, x.id ≠ input.pinId) (h : s.applyApproval r input role roleId = .ok a) :
    a.2.2 = approvedPin r input role roleId none ∧
      a.1 = (s.addPin (approvedPin r input role roleId none)).setRequest
        (approvedRequest r input roleId) := by
  have hprevious : s.findActivePin r.context = none := by
    cases hfound : s.findActivePin r.context with
    | none => rfl
    | some p =>
      have ⟨hp, hcontext, hactive⟩ := findActivePin_some hfound
      exact (hrows.not_both hp hr hactive hpending hcontext).elim
  simp only [applyApproval, hprevious] at h
  have ⟨staged, hstaged, hrest⟩ := bind_ok.mp h
  have ⟨claimed, hclaimed, hlast⟩ := bind_ok.mp hrest
  have ⟨same, hsame, hwrite⟩ := bind_ok.mp hlast
  have ⟨final, hfinal, hpure⟩ := bind_ok.mp hwrite
  cases hsame
  cases hpure
  refine ⟨rfl, ?_⟩
  let pin := approvedPin r input role roleId none
  let stagedPin : Pin := { pin with status := .revoked, revokedAt := some input.now }
  have hadded : staged = s.addPin stagedPin := putPin_ok hfresh hstaged
  have hset : (s.addPin stagedPin).setPin pin = s.addPin pin := setPin_addPin rfl hfresh
  have hwritten := (writePin_ok hfinal).2
  rw [(writeRequest_ok hclaimed).2, hadded] at hwritten
  exact hwritten.trans (congrArg (setRequest (approvedRequest r input roleId)) hset)

theorem approve_ok {input : Decide} {a : Store × Request × Pin}
    (hfresh : ∀ x ∈ s.pins, x.id ≠ input.pinId) (h : s.approve cfg input = .ok a) :
    ∃ r role, Approvable cfg input s r role ∧
      a.2.2 = approvedPin r input role r.context.cloudAccessRoleId none ∧
      a.1 = (s.addPin (approvedPin r input role r.context.cloudAccessRoleId none)).setRequest
        (approvedRequest r input r.context.cloudAccessRoleId) := by
  have ⟨_, _, h⟩ := bind_ok.mp h
  have ⟨r, hr, h⟩ := bind_ok.mp h
  have ⟨role, hrole, h⟩ := bind_ok.mp h
  have ⟨_, hadmin, h⟩ := bind_ok.mp h
  have ⟨_, hforeign, h⟩ := bind_ok.mp h
  have ⟨_, hrevision, h⟩ := bind_ok.mp h
  have ⟨_, hfingerprint, h⟩ := bind_ok.mp h
  have ⟨hfound, hpending, hunexpired⟩ := requirePending_ok hr
  have hresolved := resolveApprovalRole_ok hrole
  rw [resolveRole_some hresolved] at h
  have happly := applyApproval_ok hrows (getRequest_some hfound).1 hpending hfresh h
  refine ⟨r, role, ?_, happly⟩
  exact {
    found := hfound
    pending := hpending
    unexpired := hunexpired
    revision := by simpa using check_ok hrevision
    fingerprint := by simpa using check_ok hfingerprint
    admin := hadmin
    foreign := hforeign
    role := hresolved }

theorem reject_ok {input : Decide} (h : s.reject cfg input = .ok a) : Settles s a.1 := by
  have ⟨_, _, h⟩ := bind_ok.mp h
  have ⟨r, hr, h⟩ := bind_ok.mp h
  have ⟨_, _, h⟩ := bind_ok.mp h
  have ⟨_, _, h⟩ := bind_ok.mp h
  have ⟨_, _, h⟩ := bind_ok.mp h
  have ⟨_, _, h⟩ := bind_ok.mp h
  have ⟨t, ht, hpure⟩ := bind_ok.mp h
  cases hpure
  have ⟨hfound, hpending, _⟩ := requirePending_ok hr
  rw [(writeRequest_ok ht).2]
  exact .decided hrows (getRequest_some hfound).1 hpending rfl rfl (by simp [decidedRequest])
    (by simp [decidedRequest])

theorem revokePin_ok {input : Revoke} {a : Store × Pin}
    (h : s.revokePin input = .ok a) : Settles s a.1 := by
  have ⟨_, _, h⟩ := bind_ok.mp h
  split at h
  · cases h
  rename_i p hfound
  have ⟨_, _, h⟩ := bind_ok.mp h
  have ⟨_, _, h⟩ := bind_ok.mp h
  have ⟨_, _, h⟩ := bind_ok.mp h
  have ⟨t, ht, hpure⟩ := bind_ok.mp h
  cases hpure
  rw [(writePin_ok ht).2]
  exact .revoked hrows (getPin_some hfound).1 input.now input.reason

theorem expireAll_ok {rs : List Request}
    (hrs : ∀ r ∈ rs, r ∈ s.requests) (hids : (rs.map Request.id).Nodup)
    (h : s.expireAll now rs = .ok t) : Settles s t := by
  induction rs generalizing s with
  | nil =>
    cases h
    exact .refl hrows
  | cons r rs ih =>
    have ⟨hne, htail⟩ := nodup_cons.mp hids
    have hmem : ∀ q ∈ rs, q ∈ s.requests := fun q hq => hrs q (mem_cons_of_mem _ hq)
    rw [expireAll] at h
    split at h
    next hdue =>
      have ⟨o, ho, hrest⟩ := bind_ok.mp h
      cases putRequestIfStatus_ok ho with
      | inl hnone =>
        subst hnone
        exact ih hrows hmem htail hrest
      | inr hset =>
        rw [hset.2] at hrest
        have hhead := Settles.expired hrows (hrs r mem_cons_self) hdue.1 now
        refine hhead.trans (ih hhead.rows ?_ htail hrest)
        intro q hq
        have hdiff : q.id ≠ r.id := fun hid => hne (hid ▸ mem_map_of_mem hq)
        exact mem_map.mpr ⟨q, hmem q hq, if_neg hdiff⟩
    · exact ih hrows hmem htail h

theorem expire_ok {bindingId : String} (h : s.expire bindingId now = .ok t) : Settles s t := by
  have hperm := perm_insertionSort (fun r q : Request => q.requestedAt ≤ r.requestedAt)
    (s.requests.filter fun r => r.context.bindingId = bindingId)
  have hfilter : List.Sublist (s.requests.filter fun r => r.context.bindingId = bindingId)
      s.requests := filter_sublist
  have hids : ((s.listRequests bindingId).map Request.id).Nodup :=
    (hperm.map Request.id).nodup_iff.mpr ((hfilter.map Request.id).nodup hrows.requestIds)
  exact expireAll_ok hrows (fun r hr => (mem_listRequests.mp hr).1) hids h

theorem editRole_settles (roleId : String) (permissionIds : List String)
    (active : Bool) (now : Nat) : Settles s (s.editRole roleId permissionIds active now) where
  rows := { hrows with }
  pins _ hp _ := hp
  requests _ hr _ := hr
  contexts r hr := ⟨r, hr, rfl⟩
  ids r hr := ⟨r, hr, rfl⟩

/-! ## Steps -/

/-- What a step comes to. -/
inductive Outcome (cfg : Settings) (s : Store) : Action → Store → Prop
  | settled {a : Action} {t : Store} (hnot : ∀ input, a ≠ .observe input) (h : Settles s t) :
      Outcome cfg s a t
  | failed {input : Observe} {e : TrustError} (h : s.observeClient cfg input = .error e) :
      Outcome cfg s (.observe input) s
  | observed {input : Observe} {t : Store} {o : Observation}
      (hok : s.observeClient cfg input = .ok (t, o))
      (hfresh : ∀ q ∈ s.requests, q.id ≠ input.requestId) (h : Observed cfg input s t o) :
      Outcome cfg s (.observe input) t
  | approved {input : Decide} {r : Request} {role : ResolvedRole} {a : Store × Request × Pin}
      (hok : s.approve cfg input = .ok a) (hfresh : ∀ x ∈ s.pins, x.id ≠ input.pinId)
      (h : Approvable cfg input s r role)
      (hpin : a.2.2 = approvedPin r input role r.context.cloudAccessRoleId none)
      (hstore : a.1 = (s.addPin a.2.2).setRequest
        (approvedRequest r input r.context.cloudAccessRoleId)) :
      Outcome cfg s (.approve input) a.1

theorem step_outcome {a : Action} (h : step cfg s a = some t) : Outcome cfg s a t := by
  cases a with
  | observe input =>
    simp only [step] at h
    split at h
    next hfresh =>
      have hfresh := getRequest_none (isNone_iff_eq_none.mp hfresh)
      cases hok : s.observeClient cfg input with
      | error e =>
        rw [hok] at h
        cases h
        exact .failed hok
      | ok a =>
        rw [hok] at h
        cases h
        exact .observed hok hfresh (observeClient_ok hrows hfresh hok)
    · cases h
  | approve input =>
    simp only [step] at h
    split at h
    next hfresh =>
      have hfresh := getPin_none (isNone_iff_eq_none.mp hfresh)
      cases hok : s.approve cfg input with
      | error e =>
        rw [hok] at h
        cases h
        exact .settled (fun _ => nofun) (.refl hrows)
      | ok a =>
        have ⟨r, role, happrovable, hpin, hstore⟩ := approve_ok hrows hfresh hok
        rw [hok] at h
        cases h
        rw [← hpin] at hstore
        exact .approved hok hfresh happrovable hpin hstore
    · cases h
  | reject input =>
    refine .settled (fun _ => nofun) ?_
    simp only [step, some.injEq] at h
    cases hok : s.reject cfg input with
    | error e =>
      rw [hok] at h
      exact h ▸ .refl hrows
    | ok a =>
      rw [hok] at h
      exact h ▸ reject_ok hrows hok
  | revokePin input =>
    refine .settled (fun _ => nofun) ?_
    simp only [step, some.injEq] at h
    cases hok : s.revokePin input with
    | error e =>
      rw [hok] at h
      exact h ▸ .refl hrows
    | ok a =>
      rw [hok] at h
      exact h ▸ revokePin_ok hrows hok
  | expire bindingId now =>
    refine .settled (fun _ => nofun) ?_
    simp only [step, some.injEq] at h
    cases hok : s.expire bindingId now with
    | error e =>
      rw [hok] at h
      exact h ▸ .refl hrows
    | ok a =>
      rw [hok] at h
      exact h ▸ expire_ok hrows hok
  | editRole roleId permissionIds active now =>
    simp only [step, some.injEq] at h
    exact h ▸ .settled (fun _ => nofun) (editRole_settles hrows ..)

/-! ## Rows over runs -/

theorem touched_rows (hr : r ∈ s.requests) (hpending : r.status = .pending)
    (input : Observe) (reason : Reason) : (s.setRequest (touchRequest r input reason)).Rows := by
  apply hrows.setRequest hr hpending (touchRequest_id ..) (touchRequest_context ..)
  rw [touchRequest_status, hpending]
  nofun

theorem Asked.rows
    (hinactive : ∀ p ∈ s.pins, p.context = input.context → p.status = .active → False)
    (h : Asked cfg input s t r) : t.Rows := by
  cases h with
  | refreshed reason hr hcontext hpending => exact touched_rows hrows hr hpending input reason
  | created reason hsettles hfresh hnone hvalid =>
    refine hsettles.rows.addRequest hfresh rfl hnone ?_
    intro p hp hcontext hactive
    exact hinactive p (hsettles.pins p hp hactive) hcontext hactive

theorem Observed.rows {o : Observation} (h : Observed cfg input s t o) : t.Rows := by
  cases h with
  | unchanged => exact hrows
  | answered hp hcontext hactive hrole hmoved hanswers =>
    exact hrows.setPin hp hanswers.id hanswers.context fun _ => hactive
  | expired hlatest hstale hpending =>
    exact (Settles.expired hrows (latestRequest_some hlatest).1 hpending input.now).rows
  | touched hlatest hstale hpending =>
    exact touched_rows hrows (latestRequest_some hlatest).1 hpending input _
  | asked hreopens hsettles hinactive hasked => exact hasked.rows hsettles.rows hinactive

theorem Outcome.rows {a : Action} (h : Outcome cfg s a t) : t.Rows := by
  cases h with
  | settled _ hsettles => exact hsettles.rows
  | failed _ => exact hrows
  | observed _ _ hobserved => exact hobserved.rows hrows
  | approved hok hfresh happrovable hpin hstore =>
    rw [hstore, hpin]
    exact hrows.approve (getRequest_some happrovable.found).1 happrovable.pending rfl rfl rfl rfl
      hfresh rfl

end

theorem run_rows {as : List Action} (h : run (step cfg) Store.empty as = some s) : s.Rows :=
  run_invariant (fun _ _ _ hstep hrows => (step_outcome hrows hstep).rows hrows) h Rows.empty

/-- In every run a context has one active pin at most, or one pending request, and never both. -/
theorem run_exclusive {as : List Action} (h : run (step cfg) Store.empty as = some s) :
    (∀ p ∈ s.pins, ∀ q ∈ s.pins, p.status = .active → q.status = .active →
      p.context = q.context → p = q) ∧
    (∀ r ∈ s.requests, ∀ q ∈ s.requests, r.status = .pending → q.status = .pending →
      r.context = q.context → r = q) ∧
    ∀ p ∈ s.pins, ∀ r ∈ s.requests, p.status = .active → r.status = .pending →
      p.context ≠ r.context := by
  have hrows := run_rows h
  refine ⟨?_, ?_, ?_⟩
  · intro p hp q hq hpactive hqactive heq
    obtain ⟨r, hlast, -, hpin⟩ := hrows.active p hp hpactive
    obtain ⟨r', hlast', -, hpin'⟩ := hrows.active q hq hqactive
    rw [heq, hlast'] at hlast
    cases hlast
    rw [hpin'] at hpin
    exact inj_on_of_nodup_map hrows.pinIds hp hq (some.inj hpin).symm
  · intro r hr q hq hrpending hqpending heq
    have hlast := hrows.pending r hr hrpending
    rw [heq, hrows.pending q hq hqpending] at hlast
    exact (some.inj hlast).symm
  · intro p hp r hr hactive hpending heq
    obtain ⟨q, hlast, happroved, -⟩ := hrows.active p hp hactive
    rw [heq, hrows.pending r hr hpending] at hlast
    cases hlast
    rw [hpending] at happroved
    cases happroved

/-! ## A history -/

def sampleSettings : Settings := ⟨fun key => key, 24 * 60 * 60000⟩

def sampleContext : Context :=
  ⟨"binding", "guest", "host", .shared, some "grant", "member", "key"⟩

def sampleObserve (shareRevision : Nat) (now : Nat) (requestId : String) : Observe :=
  ⟨sampleContext, some shareRevision, ⟨"laptop", "web", "linux", none⟩, false, now, requestId⟩

def sampleAdmin : Actor := ⟨.user, "admin", ["settings:manage"], none⟩

def sampleApprove (actor : Actor) (requestId : String) (now : Nat) (pinId : String) : Decide :=
  ⟨requestId, "key", 1, actor, none, none, now, pinId⟩

/-- A device asks for trust under the share revision 5, and the actor grants it. -/
def sampleTrusted (actor : Actor) : List Action :=
  [.editRole "member" ["tasks:read"] true 10, .observe (sampleObserve 5 100 "r1"),
    .approve (sampleApprove actor "r1" 110 "p1")]

theorem run_exclusive_sample : ∃ s, run (step sampleSettings) empty (sampleTrusted sampleAdmin ++
      [.observe (sampleObserve 6 120 "r2")]) = some s ∧ s.requests.length = 1 ∧
    ∀ p ∈ s.pins, ∀ q ∈ s.pins, p.status = .active → q.status = .active →
      p.context = q.context → p = q := by
  refine ⟨?s, ?run, ?requests, (run_exclusive ?run).1⟩
  case run =>
    refine (some_get ?_).symm
    decide +kernel
  case requests => decide +kernel

end Store

end TaskHandoff.DeviceTrust.Trust
