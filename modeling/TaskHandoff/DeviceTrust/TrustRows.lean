import TaskHandoff.DeviceTrust.Trust

/-! # What the operations do to the rows

Each transaction that goes well comes down to a few writes of rows. They are stated here once, and
with them the invariant of the rows: a context has at most one active pin, at most one pending
request and never both, and its last request accounts for either. -/

namespace TaskHandoff.DeviceTrust.Trust

open Machine List

namespace Store

/-! ## Reads -/

variable {s : Store} {c : Context} {p : Pin}

theorem findActivePin_some (h : s.findActivePin c = some p) :
    p ∈ s.pins ∧ p.context = c ∧ p.status = .active := by
  have hp := find?_some h
  simp only [Bool.and_eq_true, decide_eq_true_eq] at hp
  exact ⟨mem_of_find?_eq_some h, hp⟩

theorem findActivePin_none (h : s.findActivePin c = none) :
    ∀ p ∈ s.pins, p.context = c → p.status = .active → False := by
  intro p hp hcontext hactive
  have hnot := find?_eq_none.mp h p hp
  simp [hcontext, hactive] at hnot

variable {r : Request}

theorem findPendingRequest_some (h : s.findPendingRequest c = some r) :
    r ∈ s.requests ∧ r.context = c ∧ r.status = .pending := by
  have hr := find?_some h
  simp only [Bool.and_eq_true, decide_eq_true_eq] at hr
  exact ⟨mem_of_find?_eq_some h, hr⟩

theorem findPendingRequest_none (h : s.findPendingRequest c = none) :
    ∀ r ∈ s.requests, r.context = c → r.status = .pending → False := by
  intro r hr hcontext hpending
  have hnot := find?_eq_none.mp h r hr
  simp [hcontext, hpending] at hnot

variable {id : String}

theorem getPin_some (h : s.getPin id = some p) : p ∈ s.pins ∧ p.id = id := by
  have hp := find?_some h
  exact ⟨mem_of_find?_eq_some h, by simpa using hp⟩

theorem getPin_none (h : s.getPin id = none) : ∀ p ∈ s.pins, p.id ≠ id := by
  intro p hp heq
  have hnot := find?_eq_none.mp h p hp
  simp [heq] at hnot

theorem getRequest_some (h : s.getRequest id = some r) : r ∈ s.requests ∧ r.id = id := by
  have hr := find?_some h
  exact ⟨mem_of_find?_eq_some h, by simpa using hr⟩

theorem getRequest_none (h : s.getRequest id = none) : ∀ r ∈ s.requests, r.id ≠ id := by
  intro r hr heq
  have hnot := find?_eq_none.mp h r hr
  simp [heq] at hnot

theorem latestRequest_some (h : s.latestRequest c = some r) : r ∈ s.requests ∧ r.context = c := by
  have hmem := (mem_insertionSort _).mp (mem_of_mem_head? h)
  simpa using hmem

theorem latestRequest_none (h : s.latestRequest c = none) : ∀ r ∈ s.requests, r.context ≠ c := by
  intro r hr hcontext
  have hnil := head?_eq_none_iff.mp h
  have hmem : r ∈ s.requests.filter fun r => r.context = c := by simp [hr, hcontext]
  have hsorted := (mem_insertionSort fun r q : Request =>
    q.requestedAt < r.requestedAt ∨ q.requestedAt = r.requestedAt ∧ q.id ≤ r.id).mpr hmem
  rw [hnil] at hsorted
  exact not_mem_nil hsorted

variable {b : String} {t : Store} {e : TrustError} {status : PinStatus}

theorem mem_listRequests : r ∈ s.listRequests b ↔ r ∈ s.requests ∧ r.context.bindingId = b := by
  rw [listRequests]
  simp

theorem mem_listPins : p ∈ s.listPins b ↔ p ∈ s.pins ∧ p.context.bindingId = b := by
  rw [listPins]
  simp

/-! ## Writes -/

theorem mem_setPin {p q : Pin} (h : q ∈ (s.setPin p).pins) : q = p ∨ q ∈ s.pins ∧ q.id ≠ p.id := by
  have ⟨old, hold, heq⟩ := mem_map.mp h
  split at heq
  · exact .inl heq.symm
  next hne => exact .inr (heq ▸ ⟨hold, hne⟩)

theorem mem_setRequest {r q : Request} (h : q ∈ (s.setRequest r).requests) :
    q = r ∨ q ∈ s.requests ∧ q.id ≠ r.id := by
  have ⟨old, hold, heq⟩ := mem_map.mp h
  split at heq
  · exact .inl heq.symm
  next hne => exact .inr (heq ▸ ⟨hold, hne⟩)

theorem map_id_setPin (s : Store) (p : Pin) : (s.setPin p).pins.map Pin.id = s.pins.map Pin.id := by
  simp only [setPin, map_map]
  apply map_congr_left
  intro q _
  simp only [Function.comp]
  split
  next heq => exact heq.symm
  · rfl

theorem map_id_setRequest (s : Store) (r : Request) :
    (s.setRequest r).requests.map Request.id = s.requests.map Request.id := by
  simp only [setRequest, map_map]
  apply map_congr_left
  intro q _
  simp only [Function.comp]
  split
  next heq => exact heq.symm
  · rfl

variable {o : Option Store}

theorem changed_ok : changed e o = .ok t ↔ o = some t := by
  cases o with
  | none => simp [changed, throw, throwThe, MonadExceptOf.throw]
  | some s => simp [changed, pure, Except.pure]

variable {revision : Nat}

theorem putPinIfStatus_ok (h : s.putPinIfStatus p status revision = .ok o) :
    o = none ∨ p.valid = true ∧ o = some (s.setPin p) := by
  rw [putPinIfStatus] at h
  split at h
  · cases h
  rename_i hvalid
  split at h
  · split at h
    · cases h
    · cases h
      exact .inr ⟨by simpa using hvalid, rfl⟩
  · cases h
    exact .inl rfl

theorem putRequestIfStatus_ok {status : RequestStatus}
    (h : s.putRequestIfStatus r status revision = .ok o) :
    o = none ∨ r.valid = true ∧ o = some (s.setRequest r) := by
  rw [putRequestIfStatus] at h
  split at h
  · cases h
  rename_i hvalid
  split at h
  · split at h
    · cases h
    · cases h
      exact .inr ⟨by simpa using hvalid, rfl⟩
  · cases h
    exact .inl rfl

theorem writePin_ok (h : s.writePin e p status revision = .ok t) :
    p.valid = true ∧ t = s.setPin p := by
  have ⟨o, ho, hchanged⟩ := bind_ok.mp h
  have hsome := changed_ok.mp hchanged
  cases putPinIfStatus_ok ho with
  | inl hnone => cases hsome.symm.trans hnone
  | inr hset => exact ⟨hset.1, Option.some.inj (hsome.symm.trans hset.2)⟩

theorem writeRequest_ok {status : RequestStatus} (h : s.writeRequest e r status revision = .ok t) :
    r.valid = true ∧ t = s.setRequest r := by
  have ⟨o, ho, hchanged⟩ := bind_ok.mp h
  have hsome := changed_ok.mp hchanged
  cases putRequestIfStatus_ok ho with
  | inl hnone => cases hsome.symm.trans hnone
  | inr hset => exact ⟨hset.1, Option.some.inj (hsome.symm.trans hset.2)⟩

/-! ## The invariant of the rows -/

/-- The request of a context that was stored last. -/
def lastRequest (c : Context) (s : Store) : Option Request :=
  (s.requests.filter fun r => r.context = c).getLast?

theorem lastRequest_some (h : s.lastRequest c = some r) : r ∈ s.requests ∧ r.context = c := by
  simpa using mem_of_getLast? h

theorem lastRequest_setRequest (h : ∀ q ∈ s.requests, q.id = r.id → q.context = r.context)
    (c : Context) : (s.setRequest r).lastRequest c =
      (s.lastRequest c).map fun q => if q.id = r.id then r else q := by
  have hfilter : (s.requests.filter fun q => (if q.id = r.id then r else q).context = c) =
      s.requests.filter fun q => q.context = c := by
    apply filter_congr
    intro q hq
    split
    next hid => rw [h q hq hid]
    · rfl
  simp only [lastRequest, setRequest, filter_map, Function.comp_def, hfilter, getLast?_map]

theorem lastRequest_addRequest (s : Store) (r : Request) (c : Context) :
    (s.addRequest r).lastRequest c = if r.context = c then some r else s.lastRequest c := by
  simp only [lastRequest, addRequest, filter_append]
  split
  next heq => simp [heq]
  next hne => simp [hne]

/-- Ids are drawn once. The last request of a context is the one a pending request of it or its
active pin belongs to, and an approved request keeps its pin. -/
structure Rows (s : Store) : Prop where
  pinIds : (s.pins.map Pin.id).Nodup
  requestIds : (s.requests.map Request.id).Nodup
  pending : ∀ r ∈ s.requests, r.status = .pending → s.lastRequest r.context = some r
  active : ∀ p ∈ s.pins, p.status = .active → ∃ r, s.lastRequest p.context = some r ∧
    r.status = .approved ∧ r.approvedPinId = some p.id
  approved : ∀ r ∈ s.requests, r.status = .approved → ∃ p ∈ s.pins,
    r.approvedPinId = some p.id ∧ p.context = r.context

namespace Rows

theorem empty : Rows Store.empty := by
  refine ⟨nodup_nil, nodup_nil, ?_, ?_, ?_⟩ <;> intro r hr <;> cases hr

variable {s : Store}

theorem pin_eq (h : s.Rows) {p q : Pin} (hp : p ∈ s.pins) (hq : q ∈ s.pins) (hid : p.id = q.id) :
    p = q :=
  inj_on_of_nodup_map h.pinIds hp hq hid

variable {q : Request}

variable (h : s.Rows)

include h

theorem request_eq (hr : r ∈ s.requests) (hq : q ∈ s.requests) (hid : r.id = q.id) : r = q :=
  inj_on_of_nodup_map h.requestIds hr hq hid

theorem active_unique {p q : Pin} (hp : p ∈ s.pins) (hq : q ∈ s.pins)
    (hpa : p.status = .active) (hqa : q.status = .active) (hcontext : p.context = q.context) :
    p = q := by
  have ⟨r, hr, _, hrp⟩ := h.active p hp hpa
  have ⟨r', hr', _, hrq⟩ := h.active q hq hqa
  rw [hcontext, hr'] at hr
  cases hr
  have hid := hrp.symm.trans hrq
  exact h.pin_eq hp hq (Option.some.inj hid)

theorem not_both (hp : p ∈ s.pins) (hr : r ∈ s.requests)
    (hactive : p.status = .active) (hpending : r.status = .pending)
    (hcontext : p.context = r.context) : False := by
  have ⟨last, hlast, happroved, _⟩ := h.active p hp hactive
  rw [hcontext, h.pending r hr hpending] at hlast
  cases hlast
  cases hpending.symm.trans happroved

theorem setPin {p q : Pin} (hp : p ∈ s.pins) (hid : q.id = p.id)
    (hcontext : q.context = p.context) (hactive : q.status = .active → p.status = .active) :
    (s.setPin q).Rows where
  __ := h
  pinIds := by rw [map_id_setPin]; exact h.pinIds
  active := by
    intro x hx hxa
    cases mem_setPin hx with
    | inl heq =>
      subst heq
      rw [hid, hcontext]
      exact h.active p hp (hactive hxa)
    | inr hold => exact h.active x hold.1 hxa
  approved := by
    intro r hr hstatus
    have ⟨x, hx, hxid, hxc⟩ := h.approved r hr hstatus
    by_cases hsame : x.id = q.id
    · have heq := h.pin_eq hx hp (hsame.trans hid)
      subst heq
      refine ⟨q, mem_map.mpr ⟨x, hx, if_pos hsame⟩, ?_, hcontext.trans hxc⟩
      rw [hid]
      exact hxid
    · exact ⟨x, mem_map.mpr ⟨x, hx, if_neg hsame⟩, hxid, hxc⟩

section

variable (hr : r ∈ s.requests)

include hr

theorem lastRequest_set (hid : q.id = r.id)
    (hcontext : q.context = r.context) (c : Context) : (s.setRequest q).lastRequest c =
      (s.lastRequest c).map fun x => if x.id = q.id then q else x := by
  apply lastRequest_setRequest
  intro x hx hxid
  rw [h.request_eq hx hr (hxid.trans hid), hcontext]

theorem pending_set
    (hpending : r.status = .pending) (hid : q.id = r.id) (hcontext : q.context = r.context) :
    ∀ x ∈ (s.setRequest q).requests, x.status = .pending →
      (s.setRequest q).lastRequest x.context = some x := by
  intro x hx hxp
  rw [h.lastRequest_set hr hid hcontext]
  cases mem_setRequest hx with
  | inl heq =>
    subst heq
    rw [hcontext, h.pending r hr hpending]
    simp [hid]
  | inr hold =>
    rw [h.pending x hold.1 hxp]
    simp [hold.2]

theorem active_set
    (hpending : r.status = .pending) (hid : q.id = r.id) (hcontext : q.context = r.context) :
    ∀ p ∈ s.pins, p.status = .active → ∃ x, (s.setRequest q).lastRequest p.context = some x ∧
      x.status = .approved ∧ x.approvedPinId = some p.id := by
  intro p hp hactive
  have ⟨x, hx, happroved, hpin⟩ := h.active p hp hactive
  have hne : x.id ≠ q.id := by
    intro heq
    have hrx := h.request_eq (lastRequest_some hx).1 hr (heq.trans hid)
    subst hrx
    cases hpending.symm.trans happroved
  refine ⟨x, ?_, happroved, hpin⟩
  rw [h.lastRequest_set hr hid hcontext, hx]
  simp [hne]

theorem setRequest
    (hpending : r.status = .pending) (hid : q.id = r.id) (hcontext : q.context = r.context)
    (hstatus : q.status ≠ .approved) : (s.setRequest q).Rows where
  pinIds := h.pinIds
  requestIds := by rw [map_id_setRequest]; exact h.requestIds
  pending := h.pending_set hr hpending hid hcontext
  active := h.active_set hr hpending hid hcontext
  approved := by
    intro x hx happroved
    cases mem_setRequest hx with
    | inl heq => exact absurd happroved (heq ▸ hstatus)
    | inr hold => exact h.approved x hold.1 happroved

end

theorem addRequest (hfresh : ∀ q ∈ s.requests, q.id ≠ r.id) (hpending : r.status = .pending)
    (hnone : ∀ q ∈ s.requests, q.context = r.context → q.status = .pending → False)
    (hinactive : ∀ p ∈ s.pins, p.context = r.context → p.status = .active → False) :
    (s.addRequest r).Rows where
  pinIds := h.pinIds
  requestIds := by
    simp only [Store.addRequest, map_append, map_cons, map_nil]
    refine nodup_append.mpr ⟨h.requestIds, by simp, ?_⟩
    intro a ha b hb heq
    have ⟨q, hq, hqa⟩ := mem_map.mp ha
    rw [mem_singleton.mp hb] at heq
    exact hfresh q hq (hqa.trans heq)
  pending := by
    intro q hq hqp
    rw [lastRequest_addRequest]
    cases mem_append.mp hq with
    | inl hold =>
      have hne : r.context ≠ q.context := fun heq => hnone q hold heq.symm hqp
      rw [if_neg hne]
      exact h.pending q hold hqp
    | inr hnew =>
      cases mem_singleton.mp hnew
      simp
  active := by
    intro p hp hactive
    have hne : r.context ≠ p.context := fun heq => hinactive p hp heq.symm hactive
    rw [lastRequest_addRequest, if_neg hne]
    exact h.active p hp hactive
  approved := by
    intro q hq happroved
    cases mem_append.mp hq with
    | inl hold => exact h.approved q hold happroved
    | inr hnew =>
      cases mem_singleton.mp hnew
      cases hpending.symm.trans happroved

theorem approve (hr : r ∈ s.requests)
    (hpending : r.status = .pending) (hid : q.id = r.id) (hcontext : q.context = r.context)
    (hstatus : q.status = .approved) (hpin : q.approvedPinId = some p.id)
    (hfresh : ∀ x ∈ s.pins, x.id ≠ p.id) (hp : p.context = r.context) :
    ((s.addPin p).setRequest q).Rows where
  pinIds := by
    simp only [Store.setRequest, addPin, map_append, map_cons, map_nil]
    refine nodup_append.mpr ⟨h.pinIds, by simp, ?_⟩
    intro a ha b hb heq
    have ⟨x, hx, hxa⟩ := mem_map.mp ha
    rw [mem_singleton.mp hb] at heq
    exact hfresh x hx (hxa.trans heq)
  requestIds := by
    have hids := map_id_setRequest s q
    exact hids ▸ h.requestIds
  pending := h.pending_set hr hpending hid hcontext
  active := by
    intro x hx hactive
    cases mem_append.mp hx with
    | inl hold => exact h.active_set hr hpending hid hcontext x hold hactive
    | inr hnew =>
      cases mem_singleton.mp hnew
      refine ⟨q, ?_, hstatus, hpin⟩
      have hlast := h.lastRequest_set hr hid hcontext p.context
      rw [hp, h.pending r hr hpending] at hlast
      rw [hp]
      rw [Option.map_some, if_pos hid.symm] at hlast
      exact hlast
  approved := by
    intro x hx happroved
    cases mem_setRequest hx with
    | inl heq =>
      subst heq
      exact ⟨p, by simp [Store.setRequest, addPin], hpin, hp.trans hcontext.symm⟩
    | inr hold =>
      have ⟨y, hy, hyid, hyc⟩ := h.approved x hold.1 happroved
      exact ⟨y, mem_append.mpr (.inl hy), hyid, hyc⟩

end Rows

end Store

end TaskHandoff.DeviceTrust.Trust
