import TaskHandoff.Persistence.TrustHistory

/-! # The unique indexes of the trust tables

A call that would write a second active pin or a second pending request of an identity is refused
by the database. The calls keep clear of both indexes as long as no identity has a pending request
beside an active pin; such a request is opened by a context with an outdated share revision, and by
the retry of a request whose identity was approved since. -/

namespace TaskHandoff.Persistence

open OrderedMap Option AccessRepository TrustContext Machine

/-- A context as the relay builds it: the share of a shared context is complete, an owner has
none. -/
def TrustContext.wellFormed (c : TrustContext) : Bool :=
  1 ≤ c.bindingRevision &&
    match c.accessMode with
    | .owner => c.shareGrantId.isNone && c.shareRole.isNone && c.shareRevision.isNone
    | .shared =>
      c.shareGrantId.any (· ≠ "") && c.shareRole.any (· ≠ "") && c.shareRevision.any (1 ≤ ·)

/-- Columns without an empty grant or role. -/
def TrustColumns.clean (c : TrustColumns) : Bool :=
  c.shareGrantId ≠ some "" && c.shareRole ≠ some ""

namespace AccessRepository

/-! ## Columns -/

theorem filter_ne_empty (o : Option String) : o.filter (· ≠ "") ≠ some "" := by
  cases o with
  | none => nofun
  | some text =>
    by_cases h : text = ""
    · simp [Option.filter, h]
    · simp [Option.filter, h]

theorem filter_of_ne_empty {o : Option String} (h : o ≠ some "") : o.filter (· ≠ "") = o := by
  cases o with
  | none => rfl
  | some text =>
    have htext : text ≠ "" := fun heq => h (heq ▸ rfl)
    simp [Option.filter, htext]

theorem columns_identity (c : TrustContext) : c.columns.identity = c.identity := by
  simp only [columns, TrustColumns.identity, identity, filter_getD]

theorem columns_clean (c : TrustContext) : c.columns.clean = true := by
  have hgrant := filter_ne_empty c.shareGrantId
  have hrole := filter_ne_empty c.shareRole
  simp only [TrustColumns.clean, columns, hgrant, hrole, ne_eq, not_false_eq_true,
    decide_true, Bool.and_self]

variable {c context : TrustContext} {columns : TrustColumns} {request : TrustRequest}
  {status : RequestStatus} {identity : Identity} {pin : CloudControlPlanePin}
  {observation : Observation} {input : ObserveInput} {now : Nat}
  {controlPlaneFingerprint : String → String} {result : DecisionResult} {a : Action}

theorem wellFormed_iff : c.wellFormed = true ↔ 1 ≤ c.bindingRevision ∧
      ((c.accessMode = .owner ∧ c.shareGrantId = none ∧ c.shareRole = none ∧
          c.shareRevision = none) ∨
        (c.accessMode = .shared ∧ ∃ grant role revision, c.shareGrantId = some grant ∧
          grant ≠ "" ∧ c.shareRole = some role ∧ role ≠ "" ∧ c.shareRevision = some revision ∧
          1 ≤ revision)) := by
  unfold wellFormed
  cases c.accessMode <;> cases c.shareGrantId <;> cases c.shareRole <;>
    cases c.shareRevision <;> simp
  tauto

theorem valid_iff {c : TrustColumns} : c.valid = true ↔ 1 ≤ c.bindingRevision ∧
      ((c.accessMode = .owner ∧ c.shareGrantId = none ∧ c.shareRole = none ∧
          c.shareRevision = none) ∨
        (c.accessMode = .shared ∧ ∃ grant role revision, c.shareGrantId = some grant ∧
          c.shareRole = some role ∧ c.shareRevision = some revision ∧ 1 ≤ revision)) := by
  unfold TrustColumns.valid
  cases c.accessMode <;> cases c.shareGrantId <;> cases c.shareRole <;>
    cases c.shareRevision <;> simp

theorem columns_valid (h : c.wellFormed = true) : c.columns.valid = true := by
  have ⟨hbinding, hshare⟩ := wellFormed_iff.mp h
  refine valid_iff.mpr ⟨hbinding, ?_⟩
  rcases hshare with ⟨hmode, hgrant, hrole, hrevision⟩ |
    ⟨hmode, grant, role, revision, hgrant, hgrant', hrole, hrole', hrevision, hpos⟩
  · left
    simp only [columns, hmode, hgrant, hrole, hrevision]
    trivial
  right
  have hpos' : revision ≠ 0 := by omega
  refine ⟨hmode, grant, role, revision, ?_, ?_, ?_, hpos⟩
  · simp [columns, hgrant, hgrant', Option.filter]
  · simp [columns, hrole, hrole', Option.filter]
  · simp [columns, hrevision, hpos', Option.filter]

theorem seen_valid {revision : Option Nat}
    (hvalid : columns.valid = true) (hc : c.wellFormed = true)
    (hmode : columns.accessMode = c.accessMode)
    (hrevision : revision = c.shareRevision ∨ revision = columns.shareRevision) :
    { columns with bindingRevision := c.bindingRevision, shareRevision := revision }.valid =
      true := by
  have ⟨_, hshare⟩ := valid_iff.mp hvalid
  have ⟨hbinding, hshown⟩ := wellFormed_iff.mp hc
  refine valid_iff.mpr ⟨hbinding, ?_⟩
  rcases hshare with ⟨howner, hgrant, hrole, hnone⟩ |
    ⟨hshared, grant, role, old, hgrant, hrole, hold, hpos⟩
  · rcases hshown with ⟨_, _, _, hnone'⟩ | ⟨hshared, _⟩
    · left
      have hrevision : revision = none := by
        rcases hrevision with rfl | rfl
        · exact hnone'
        · exact hnone
      exact ⟨howner, hgrant, hrole, hrevision⟩
    · rw [← hmode, howner] at hshared
      cases hshared
  · rcases hshown with ⟨howner, _⟩ | ⟨_, _, _, new, _, _, _, _, hnew, hnewpos⟩
    · rw [← hmode, hshared] at howner
      cases howner
    · right
      rcases hrevision with rfl | rfl
      · exact ⟨hshared, grant, role, new, hgrant, hrole, hnew, hnewpos⟩
      · exact ⟨hshared, grant, role, old, hgrant, hrole, hold, hpos⟩

theorem accessMode_of_identity
    (h : columns.identity = c.identity) : columns.accessMode = c.accessMode :=
  congrArg Identity.accessMode h

/-! ## What a call does to the requests -/

def PendingRequest (s : AccessRepository) (id : Nat) (request : TrustRequest) : Prop :=
  s.requests.get? id = some request ∧ request.status = .pending

/-- The row of a request passes the check and has no empty text in its share. -/
def StoredRequest (request : TrustRequest) : Prop :=
  request.columns.valid = true ∧ request.columns.clean = true

/-- Every request goes back to one of the same identity, which is still pending where the request
is; or the call has opened it, as the only pending one of its identity. -/
structure Change (s t : AccessRepository) (opened : Option Identity) : Prop where
  kept : ∀ id request, t.requests.get? id = some request → (∃ old, s.requests.get? id = some old ∧
        request.columns.identity = old.columns.identity ∧
        (request.status = .pending → old.status = .pending) ∧
        (StoredRequest old → StoredRequest request)) ∨
      (opened = some request.columns.identity ∧ id = s.nextId ∧ StoredRequest request)
  alone : ∀ identity, opened = some identity → ∀ id request, t.PendingRequest id request →
    request.columns.identity = identity → id = s.nextId

variable {s t u : AccessRepository}

theorem Change.of_eq (h : t.requests = s.requests) : Change s t none := by
  constructor
  · intro id request hget
    rw [h] at hget
    exact .inl ⟨request, hget, rfl, fun h => h, fun h => h⟩
  · nofun

theorem Change.trans {opened : Option Identity} (hfirst : Change s u none)
    (hnext : u.nextId = s.nextId) (hthen : Change u t opened) : Change s t opened := by
  constructor
  · intro id request hget
    rcases hthen.kept id request hget with ⟨old, hold, hidentity, hpending, hstored⟩ | hnew
    · rcases hfirst.kept id old hold with ⟨older, holder, hidentity', hpending', hstored'⟩ | h
      · exact .inl ⟨older, holder, hidentity.trans hidentity', fun h => hpending' (hpending h),
          fun h => hstored (hstored' h)⟩
      · cases h.1
    · exact .inr (hnext ▸ hnew)
  · intro identity hopened
    rw [← hnext]
    exact hthen.alone identity hopened

theorem Change.of_mapValues {f : TrustRequest → TrustRequest}
    (h : t.requests = s.requests.mapValues f) (hcolumns : ∀ r, (f r).columns = r.columns)
    (hpending : ∀ r, (f r).status = .pending → r.status = .pending) : Change s t none := by
  constructor
  · intro id request hget
    rw [h, get?_mapValues, map_eq_some_iff] at hget
    obtain ⟨old, hold, rfl⟩ := hget
    refine .inl ⟨old, hold, congrArg TrustColumns.identity (hcolumns old), hpending old, ?_⟩
    intro hstored
    unfold StoredRequest
    rw [hcolumns old]
    exact hstored
  · nofun

theorem expire_change (s : AccessRepository) (now : Nat) :
    Change s (s.expireCloudControlPlaneTrustRequests now) none := by
  have hrequests : (s.expireCloudControlPlaneTrustRequests now).requests =
      s.requests.mapValues fun r =>
        if r.status = .pending ∧ r.expiresAt ≤ now then r.expire now none else r := rfl
  refine .of_mapValues hrequests ?_ ?_
  · intro r
    split
    · rfl
    · rfl
  · intro r h
    split at h
    · cases h
    · exact h

theorem withdraw_change (s : AccessRepository) (controlPlaneId reason : String) (now : Nat) :
    Change s (s.withdrawCloudControlPlaneTrustRequests controlPlaneId reason now) none := by
  have hrequests : (s.withdrawCloudControlPlaneTrustRequests controlPlaneId reason now).requests =
      s.requests.mapValues fun r =>
        if r.status = .pending ∧ r.columns.controlPlaneId = controlPlaneId then
          r.expire now (some reason)
        else r := rfl
  refine .of_mapValues hrequests ?_ ?_
  · intro r
    split
    · rfl
    · rfl
  · intro r h
    split at h
    · cases h
    · exact h

theorem updateRequest_ok {id : Nat} (h : s.updateRequest id request = .ok t) :
    request.columns.valid = true ∧ t = { s with requests := s.requests.set id request } := by
  unfold updateRequest at h
  split at h
  next hvalid =>
    cases h
    exact ⟨hvalid, rfl⟩
  · cases h

theorem updateRequest_change {id : Nat} {old request : TrustRequest}
    (h : s.updateRequest id request = .ok t) (hold : s.requests.get? id = some old)
    (hidentity : request.columns.identity = old.columns.identity)
    (hclean : request.columns.clean = old.columns.clean)
    (hpending : request.status = .pending → old.status = .pending) : Change s t none := by
  have ⟨hvalid, ht⟩ := updateRequest_ok h
  subst ht
  constructor
  · intro id' request' hget
    rcases get?_set_eq_some hget with ⟨rfl, rfl⟩ | ⟨_, hkept⟩
    · exact .inl ⟨old, hold, hidentity, hpending, fun hstored => ⟨hvalid, hclean ▸ hstored.2⟩⟩
    · exact .inl ⟨request', hkept, rfl, fun h => h, fun h => h⟩
  · nofun

/-! ## Finding rows -/

theorem firstRow_eq_none {α : Type} {before : α → α → Bool} {rows : List α}
    (h : firstRow before rows = none) : rows = [] := by
  cases rows with
  | nil => rfl
  | cons a rest =>
    rw [firstRow] at h
    split at h
    · cases h
    rename_i b hrest
    split at h <;> cases h

theorem mem_requests {id : Nat} : (id, request) ∈ s.requests.entries.filter (fun entry =>
        entry.2.status = status && entry.2.columns.identity = identity) ↔
      s.requests.get? id = some request ∧ request.status = status ∧
        request.columns.identity = identity := by
  rw [List.mem_filter, ← get?_eq_some]
  simp

theorem findRequest_some {id : Nat}
    (h : s.findCloudControlPlaneTrustRequest identity status = some (id, request)) :
    s.requests.get? id = some request ∧ request.status = status ∧
      request.columns.identity = identity :=
  mem_requests.mp (firstRow_mem h)

theorem findRequest_none (h : s.findCloudControlPlaneTrustRequest identity status = none) (id : Nat)
    (request : TrustRequest) (hget : s.requests.get? id = some request)
    (hstatus : request.status = status) : request.columns.identity ≠ identity := by
  intro hidentity
  have hmem := mem_requests.mpr ⟨hget, hstatus, hidentity⟩
  rw [firstRow_eq_none h] at hmem
  cases hmem

theorem findPin_some {id : Nat} (h : s.findCloudControlPlanePin context = some (id, pin)) :
    s.ActivePin id pin ∧ pin.columns.identity = context.identity := by
  have hmem := List.mem_filter.mp (firstRow_mem h)
  exact ⟨mem_activePins.mp hmem.1, of_decide_eq_true hmem.2⟩

theorem findPin_none (h : s.findCloudControlPlanePin context = none)
    (id : Nat) (pin : CloudControlPlanePin) (hactive : s.ActivePin id pin) :
    pin.columns.identity ≠ context.identity := by
  intro hidentity
  have hmem : (id, pin) ∈ s.activePins.filter fun entry =>
      entry.2.columns.identity = context.identity :=
    List.mem_filter.mpr ⟨mem_activePins.mpr hactive, decide_eq_true hidentity⟩
  rw [firstRow_eq_none h] at hmem
  cases hmem

/-! ## Opening a request -/

theorem insertRequest_ok (h : s.insertRequest request = .ok t) : request.columns.valid = true ∧
      s.findCloudControlPlaneTrustRequest request.columns.identity .pending = none ∧
      t = { s with requests := s.requests.set s.nextId request, nextId := s.nextId + 1 } := by
  unfold insertRequest at h
  split at h
  next hvalid =>
    split at h
    · cases h
    next hnone =>
      cases h
      exact ⟨hvalid, by simpa using hnone, rfl⟩
  · cases h

theorem insertRequest_change (h : s.insertRequest request = .ok t)
    (hclean : request.columns.clean = true) : Change s t (some request.columns.identity) := by
  have ⟨hvalid, hnone, ht⟩ := insertRequest_ok h
  subst ht
  constructor
  · intro id request' hget
    rcases get?_set_eq_some hget with ⟨hid, rfl⟩ | ⟨_, hkept⟩
    · exact .inr ⟨rfl, hid, hvalid, hclean⟩
    · exact .inl ⟨request', hkept, rfl, fun h => h, fun h => h⟩
  · intro identity hopened id request' hpending hidentity
    cases hopened
    rcases get?_set_eq_some hpending.1 with ⟨hid, _⟩ | ⟨_, hkept⟩
    · exact hid
    · exact absurd hidentity (findRequest_none hnone id request' hkept hpending.2)

theorem pendingObservation_change (h : s.pendingObservation input = .ok (t, observation)) :
    Change s t (some input.context.identity) := by
  have ⟨a, hinsert, heq⟩ := map_ok h
  cases heq
  have hchange := insertRequest_change hinsert (columns_clean input.context)
  rw [columns_identity] at hchange
  exact hchange

/-- When a call opens a request of an identity. -/
def Opens (s : AccessRepository) (a : Action) (identity : Identity) : Prop :=
  match a with
  | .observe input =>
    input.context.identity = identity ∧
      ((∃ id pin, s.ActivePin id pin ∧ pin.columns.identity = identity ∧
          staleFor input.context pin = true) ∨
        ∀ id pin, s.ActivePin id pin → pin.columns.identity ≠ identity)
  | .retry input =>
    ∃ request, s.requests.get? input.requestId = some request ∧
      request.columns.identity = identity ∧ request.status ≠ .approved
  | .decide _ _ | .revoke _ _ | .withdraw _ _ _ | .expire _ => False

theorem observe_change (h : s.observeCloudControlPlaneTrust input = .ok (t, observation)) :
    ∃ opened, Change s t opened ∧
      ∀ identity, opened = some identity → s.Opens (.observe input) identity := by
  unfold observeCloudControlPlaneTrust at h
  have hfirst := expire_change s input.now
  have hpins := s.expire_pins input.now
  have hnext : (s.expireCloudControlPlaneTrustRequests input.now).nextId = s.nextId := rfl
  simp only at h
  generalize s.expireCloudControlPlaneTrustRequests input.now = u at h hfirst hpins hnext
  have hactive {id : Nat} {pin : CloudControlPlanePin} : u.ActivePin id pin ↔ s.ActivePin id pin := by
    unfold ActivePin
    rw [hpins]
  split at h
  · have ⟨a, hupdate, heq⟩ := map_ok h
    cases heq
    have ⟨_, ht⟩ := updatePin_ok hupdate
    exact ⟨none, hfirst.trans hnext (.of_eq (ht ▸ rfl)), nofun⟩
  rename_i hnone
  split at h
  next hstale =>
    refine ⟨_, hfirst.trans hnext (pendingObservation_change h), ?_⟩
    intro identity heq
    cases heq
    have ⟨⟨id, pin⟩, hfound, hold⟩ := (any_eq_true _ _).mp hstale
    have ⟨hpin, hidentity⟩ := findPin_some hfound
    exact ⟨rfl, .inl ⟨id, pin, hactive.mp hpin, hidentity, hold⟩⟩
  next hfresh =>
    split at h
    next id request hfound =>
      have ⟨a, hupdate, heq⟩ := map_ok h
      cases heq
      have hold := (findRequest_some hfound).1
      exact ⟨none, hfirst.trans hnext (updateRequest_change hupdate hold rfl rfl fun h => h),
        nofun⟩
    · split at h
      next id request hfound =>
        have ⟨a, hupdate, heq⟩ := map_ok h
        cases heq
        have hold := (findRequest_some hfound).1
        exact ⟨none, hfirst.trans hnext (updateRequest_change hupdate hold rfl rfl fun h => h),
          nofun⟩
      · refine ⟨_, hfirst.trans hnext (pendingObservation_change h), ?_⟩
        intro identity heq
        cases heq
        refine ⟨rfl, .inr fun id pin hpin => ?_⟩
        have hempty : u.findCloudControlPlanePin input.context = none := by
          cases hfind : u.findCloudControlPlanePin input.context with
          | none => rfl
          | some entry =>
            unfold findActiveCloudControlPlanePin at hnone
            rw [hfind] at hnone hfresh
            simp only [Option.filter, any_some] at hnone hfresh
            simp [hfresh] at hnone
        exact findPin_none hempty id pin (hactive.mpr hpin)

theorem retry_change {input : RetryInput}
    (h : s.retryCloudControlPlaneTrustRequest input = .ok (t, request))
    (hstored : ∀ id request, s.requests.get? id = some request → StoredRequest request) :
    ∃ opened, Change s t opened ∧
      ∀ identity, opened = some identity → s.Opens (.retry input) identity := by
  unfold retryCloudControlPlaneTrustRequest at h
  have hfirst := expire_change s input.now
  have hnext : (s.expireCloudControlPlaneTrustRequests input.now).nextId = s.nextId := rfl
  simp only at h
  split at h
  · cases h
  rename_i old hold
  have hstored' : StoredRequest old ∧ (old.status = .rejected ∨ old.status = .expired →
      s.Opens (.retry input) old.columns.identity) := by
    rcases hfirst.kept input.requestId old hold with ⟨older, holder, hidentity, _, hrow⟩ | hnew
    · refine ⟨hrow (hstored _ _ holder), fun hstatus => ⟨older, holder, hidentity.symm, ?_⟩⟩
      intro happroved
      have hget := hold
      unfold expireCloudControlPlaneTrustRequests at hget
      rw [get?_mapValues, holder, map_some, some.injEq] at hget
      rw [if_neg (by rw [happroved]; rintro ⟨⟨⟩, _⟩)] at hget
      rw [← hget, happroved] at hstatus
      rcases hstatus with h | h <;> cases h
    · cases hnew.1
  split at h
  · cases h
    exact ⟨none, hfirst, nofun⟩
  · cases h
  all_goals
    rename_i hstatus
    split at h
    · cases h
      exact ⟨none, hfirst, nofun⟩
    have ⟨a, hinsert, heq⟩ := map_ok h
    cases heq
    have hchange := insertRequest_change hinsert hstored'.1.2
    refine ⟨_, hfirst.trans hnext hchange, ?_⟩
    intro identity heq
    cases heq
    exact hstored'.2 (by simp [hstatus])

theorem approveRequest_requests {input : TrustDecision}
    (h : s.approveRequest input now request = .ok (t, result)) :
    ∃ approved, approved.status = .approved ∧ approved.columns = request.columns ∧
      request.columns.valid = true ∧ t.requests = s.requests.set input.requestId approved := by
  unfold approveRequest at h
  simp only at h
  split at h
  · cases h
  rename_i hinsert
  have ⟨_, hu, _⟩ := insertPin_ok hinsert
  split at h
  · cases h
  next hupdate =>
    have ⟨hvalid, hv⟩ := updateRequest_ok hupdate
    refine ⟨decidedRequest request input now .approved (some s.nextId), rfl, rfl, hvalid, ?_⟩
    split at h <;> cases h <;> simp only [revokeSupersededCloudControlPlanePins, hv, hu]

theorem decide_change {input : TrustDecision}
    (h : s.decideCloudControlPlaneTrust controlPlaneFingerprint input now = .ok (t, result)) :
    Change s t none := by
  have hfirst := expire_change s now
  have hnext : (s.expireCloudControlPlaneTrustRequests now).nextId = s.nextId := rfl
  rcases decide_cases h with rfl | ⟨request, hrequest, hreject | ⟨_, happrove⟩⟩
  · exact hfirst
  · have ⟨a, hupdate, heq⟩ := map_ok hreject
    cases heq
    exact hfirst.trans hnext (updateRequest_change hupdate hrequest rfl rfl nofun)
  have ⟨approved, hstatus, hcolumns, hvalid, hset⟩ := approveRequest_requests happrove
  refine hfirst.trans hnext ⟨?_, nofun⟩
  intro id request' hget
  rw [hset] at hget
  rcases get?_set_eq_some hget with ⟨rfl, rfl⟩ | ⟨_, hkept⟩
  · refine .inl ⟨request, hrequest, congrArg TrustColumns.identity hcolumns, ?_, ?_⟩
    · intro hpending
      rw [hstatus] at hpending
      cases hpending
    · intro hstored
      exact ⟨hcolumns ▸ hstored.1, hcolumns ▸ hstored.2⟩
  · exact .inl ⟨request', hkept, rfl, fun h => h, fun h => h⟩

theorem step_change
    (hstored : ∀ id request, s.requests.get? id = some request → StoredRequest request)
    (hstep : s.step controlPlaneFingerprint a = some t) :
    ∃ opened, Change s t opened ∧ ∀ identity, opened = some identity → s.Opens a identity := by
  cases a with
  | observe input =>
    rcases behind_cases (some.inj hstep) with rfl | ⟨answer, h⟩
    · exact ⟨none, .of_eq rfl, nofun⟩
    · exact observe_change h
  | decide input now =>
    rcases behind_cases (some.inj hstep) with rfl | ⟨answer, h⟩
    · exact ⟨none, .of_eq rfl, nofun⟩
    · exact ⟨none, decide_change h, nofun⟩
  | revoke input now =>
    rcases behind_cases (some.inj hstep) with rfl | ⟨answer, h⟩
    · exact ⟨none, .of_eq rfl, nofun⟩
    · exact ⟨none, .of_eq (revoke_cases h).1, nofun⟩
  | retry input =>
    rcases behind_cases (some.inj hstep) with rfl | ⟨answer, h⟩
    · exact ⟨none, .of_eq rfl, nofun⟩
    · exact retry_change h hstored
  | withdraw controlPlaneId reason now =>
    cases hstep
    exact ⟨none, withdraw_change s controlPlaneId reason now, nofun⟩
  | expire now =>
    cases hstep
    exact ⟨none, expire_change s now, nofun⟩

/-! ## Rows that pass their checks -/

/-- Active pins and requests pass the checks of their tables. -/
structure Checked (s : AccessRepository) : Prop where
  pins : ∀ id pin, s.ActivePin id pin → pin.columns.valid = true
  requests : ∀ id request, s.requests.get? id = some request → StoredRequest request

theorem Checked.step (h : s.Checked)
    (hstep : s.step controlPlaneFingerprint a = some t) : t.Checked := by
  constructor
  · intro id pin hactive
    rcases step_active hstep hactive with ⟨old, hold, _, _, hvalid⟩ | ⟨_, _, _, hvalid⟩
    · exact hvalid (h.pins id old hold)
    · exact hvalid
  · intro id request hget
    have ⟨opened, hchange, _⟩ := step_change h.requests hstep
    rcases hchange.kept id request hget with ⟨old, hold, _, _, hstored⟩ | ⟨_, _, hstored⟩
    · exact hstored (h.requests id old hold)
    · exact hstored

/-! ## Pending requests apart from active pins -/

/-- No identity has two active pins, two pending requests, or one of each. -/
structure Apart (s : AccessRepository) : Prop where
  pins : s.UniquePins
  requests : ∀ id₁ id₂ request₁ request₂, s.PendingRequest id₁ request₁ →
    s.PendingRequest id₂ request₂ → request₁.columns.identity = request₂.columns.identity →
      id₁ = id₂
  apart : ∀ id pin id' request, s.ActivePin id pin → s.PendingRequest id' request →
    pin.columns.identity ≠ request.columns.identity

/-- A call that does not open a request beside an active pin: an observed context is not older
than the active pin of its identity, and a request is not retried once its identity is approved. -/
def Orderly (s : AccessRepository) : Action → Prop
  | .observe input => ∀ id pin, s.ActivePin id pin →
      pin.columns.identity = input.context.identity → staleFor input.context pin = false
  | .retry input => ∀ request, s.requests.get? input.requestId = some request →
      request.status ≠ .approved → ∀ id pin, s.ActivePin id pin →
        pin.columns.identity ≠ request.columns.identity
  | .decide _ _ | .revoke _ _ | .withdraw _ _ _ | .expire _ => True

theorem Orderly.opens (h : s.Orderly a)
    (hopens : s.Opens a identity) (id : Nat) (pin : CloudControlPlanePin)
    (hactive : s.ActivePin id pin) : pin.columns.identity ≠ identity := by
  intro hsame
  cases a with
  | observe input =>
    have ⟨hcontext, hcase⟩ := hopens
    rcases hcase with ⟨id', pin', hactive', hidentity', hstale⟩ | hnone
    · have hfresh := h id' pin' hactive' (hidentity'.trans hcontext.symm)
      rw [hfresh] at hstale
      cases hstale
    · exact hnone id pin hactive hsame
  | retry input =>
    have ⟨request, hget, hidentity, hstatus⟩ := hopens
    exact h request hget hstatus id pin hactive (hsame.trans hidentity.symm)
  | decide input now => exact hopens
  | revoke input now => exact hopens
  | withdraw controlPlaneId reason now => exact hopens
  | expire now => exact hopens

theorem Approves.settled {input : TrustDecision}
    (h : Approves controlPlaneFingerprint s (.decide input now) identity)
    (hstep : s.step controlPlaneFingerprint (.decide input now) = some t)
    (request : TrustRequest) : ¬ t.PendingRequest input.requestId request := by
  intro hpending
  obtain ⟨stored, ⟨u, result⟩, _, hdecided, happrove⟩ := h.request
  have hbehind : s.behind (s.decideCloudControlPlaneTrust controlPlaneFingerprint input now) = t :=
    some.inj hstep
  rw [hdecided] at hbehind
  obtain ⟨approved, happroved, _, _, hset⟩ := approveRequest_requests happrove
  have hnow := hpending.1
  rw [← hbehind] at hnow
  change u.requests.get? input.requestId = some request at hnow
  rw [hset, get?_set_self, some.injEq] at hnow
  have hstill := hpending.2
  rw [← hnow, happroved] at hstill
  cases hstill

theorem Apart.step (h : s.Apart) (hchecked : s.Checked) (horderly : s.Orderly a)
    (hstep : s.step controlPlaneFingerprint a = some t) : t.Apart := by
  have ⟨opened, hchange, hopens⟩ := step_change hchecked.requests hstep
  refine ⟨h.pins.step hstep, ?_, ?_⟩
  · intro id₁ id₂ request₁ request₂ h₁ h₂ hsame
    rcases hchange.kept id₁ request₁ h₁.1 with ⟨old₁, hold₁, hid₁, hpending₁, _⟩ | ⟨hopened, hnew, _⟩
    · rcases hchange.kept id₂ request₂ h₂.1 with
        ⟨old₂, hold₂, hid₂, hpending₂, _⟩ | ⟨hopened, hnew, _⟩
      · exact h.requests id₁ id₂ old₁ old₂ ⟨hold₁, hpending₁ h₁.2⟩ ⟨hold₂, hpending₂ h₂.2⟩
          (by rw [← hid₁, ← hid₂, hsame])
      · rw [hnew]
        exact hchange.alone _ hopened id₁ request₁ h₁ hsame
    · rw [hnew]
      exact (hchange.alone _ hopened id₂ request₂ h₂ hsame.symm).symm
  · intro id pin id' request hactive hpending hsame
    have ⟨hget, hstatus⟩ := hpending
    rcases step_active hstep hactive with ⟨old, hold, hidentity, _⟩ | ⟨_, happroves, _⟩
    · rcases hchange.kept id' request hget with ⟨older, holder, hid, hstill, _⟩ | ⟨hopened, _, _⟩
      · exact h.apart id old id' older hold ⟨holder, hstill hstatus⟩
          (by rw [← hidentity, ← hid, hsame])
      · exact horderly.opens (hopens _ hopened) id old hold (hidentity.symm.trans hsame)
    have ⟨input, now, stored, _, ha, _, hstored, hidentity, hpending', _⟩ := happroves
    subst ha
    rcases hchange.kept id' request hget with ⟨older, holder, hid, hstill, _⟩ | ⟨hopened, _, _⟩
    · have hrequest : id' = input.requestId :=
        h.requests id' input.requestId older stored ⟨holder, hstill hstatus⟩
          ⟨hstored, hpending'⟩ (by rw [← hid, ← hsame, hidentity])
      exact happroves.settled hstep request (hrequest ▸ hpending)
    · exact hopens _ hopened

/-! ## Calls that succeed -/

theorem insertRequest_of_none (hvalid : request.columns.valid = true)
    (hnone : s.findCloudControlPlaneTrustRequest request.columns.identity .pending = none) :
    ∃ t, s.insertRequest request = .ok t := by
  unfold insertRequest
  rw [if_pos hvalid, hnone]
  exact ⟨_, rfl⟩

theorem pendingObservation_of_none (hcontext : input.context.wellFormed = true)
    (hnone : s.findCloudControlPlaneTrustRequest input.context.identity .pending = none) :
    ∃ t observation, s.pendingObservation input = .ok (t, observation) := by
  rw [← columns_identity] at hnone
  unfold pendingObservation
  simp only
  generalize hrequest : (TrustRequest.mk input.context.columns _ _ _ _ _ _ _ _ _ _ _) = request
  have hcolumns : request.columns = input.context.columns := by rw [← hrequest]
  have ⟨t, ht⟩ := insertRequest_of_none (s := s) (hcolumns ▸ columns_valid hcontext)
    (hcolumns ▸ hnone)
  rw [ht]
  exact ⟨_, _, rfl⟩

theorem findRequest_of_pending
    (h : ∀ id request, s.PendingRequest id request → request.columns.identity ≠ identity) :
    s.findCloudControlPlaneTrustRequest identity .pending = none := by
  cases hfind : s.findCloudControlPlaneTrustRequest identity .pending with
  | none => rfl
  | some entry =>
    have ⟨hget, hstatus, hidentity⟩ := findRequest_some hfind
    exact absurd hidentity (h entry.1 entry.2 ⟨hget, hstatus⟩)

theorem observe_answers (hchecked : s.Checked) (hapart : s.Apart)
    (hcontext : input.context.wellFormed = true) :
    ∃ t observation, s.observeCloudControlPlaneTrust input = .ok (t, observation) := by
  unfold observeCloudControlPlaneTrust
  have hchange := expire_change s input.now
  have hpins := s.expire_pins input.now
  simp only
  generalize s.expireCloudControlPlaneTrustRequests input.now = u at hchange hpins
  have hstored (id : Nat) (request : TrustRequest) (hget : u.requests.get? id = some request) :
      StoredRequest request := by
    rcases hchange.kept id request hget with ⟨old, hold, _, _, hrow⟩ | ⟨_, _, hrow⟩
    · exact hrow (hchecked.requests id old hold)
    · exact hrow
  have hupdate (id : Nat) (request updated : TrustRequest) (hvalid : updated.columns.valid = true) :
      ∃ t, u.updateRequest id updated = .ok t := ⟨_, if_pos hvalid⟩
  split
  next id pin hfound =>
    have ⟨hactive, hidentity, _⟩ := findActive_some hfound
    have hrow := hchecked.pins id pin ⟨hpins ▸ hactive.1, hactive.2⟩
    have hvalid : (seenPin input pin).columns.valid = true := by
      refine seen_valid hrow hcontext (accessMode_of_identity hidentity) ?_
      split
      · exact .inl rfl
      · exact .inr rfl
    unfold updatePin
    rw [if_pos hvalid]
    exact ⟨_, _, rfl⟩
  · split
    next hstale =>
      -- The pending request would stand beside the pin that makes the context outdated.
      have ⟨⟨id, pin⟩, hfound, _⟩ := (any_eq_true _ _).mp hstale
      have ⟨hactive, hidentity⟩ := findPin_some hfound
      refine pendingObservation_of_none hcontext (findRequest_of_pending ?_)
      intro id' request hpending hsame
      rcases hchange.kept id' request hpending.1 with ⟨old, hold, hid, hstill, _⟩ | hnew
      · exact hapart.apart id pin id' old ⟨hpins ▸ hactive.1, hactive.2⟩
          ⟨hold, hstill hpending.2⟩ (by rw [hidentity, ← hid, hsame])
      · cases hnew.1
    · split
      next id request hfound =>
        have ⟨hget, _, hidentity⟩ := findRequest_some hfound
        have hvalid : (seenRequest input request).columns.valid = true :=
          seen_valid (hstored id request hget).1 hcontext (accessMode_of_identity hidentity)
            (.inl rfl)
        have ⟨t, ht⟩ := hupdate id request _ hvalid
        rw [ht]
        exact ⟨_, _, rfl⟩
      next hnone =>
        split
        next id request hfound =>
          have ⟨hget, _, _⟩ := findRequest_some hfound
          have ⟨t, ht⟩ := hupdate id request
            { request with lastSeenAt := input.now, updatedAt := input.now } (hstored id request hget).1
          rw [ht]
          exact ⟨_, _, rfl⟩
        · exact pendingObservation_of_none hcontext hnone

theorem approvedPin_columns (h : StoredRequest request) (input : TrustDecision) (now : Nat) :
    (approvedPin request input now).columns = request.columns := by
  have ⟨hvalid, hclean⟩ := h
  have ⟨hgrant, hrole⟩ : request.columns.shareGrantId ≠ some "" ∧
      request.columns.shareRole ≠ some "" := by
    simpa [TrustColumns.clean] using hclean
  have hrevision : request.columns.shareRevision.filter (· ≠ 0) =
      request.columns.shareRevision := by
    rcases (valid_iff.mp hvalid).2 with ⟨_, _, _, hnone⟩ | ⟨_, _, _, revision, _, _, hsome, hpos⟩
    · rw [hnone]
      rfl
    · have hne : revision ≠ 0 := by omega
      simp [hsome, Option.filter, hne]
  unfold approvedPin
  simp only [filter_of_ne_empty hgrant, filter_of_ne_empty hrole, hrevision]

theorem foldl_revoke_get? (revoke : CloudControlPlanePin → CloudControlPlanePin) {id : Nat}
    {rows : List (Nat × CloudControlPlanePin)} (hrows : ∀ row ∈ rows, row.1 ≠ id)
    (pins : OrderedMap Nat CloudControlPlanePin) :
    (rows.foldl (fun pins row => pins.set row.1 (revoke row.2)) pins).get? id = pins.get? id := by
  induction rows generalizing pins with
  | nil => rfl
  | cons row rows ih =>
    have hrow := hrows row List.mem_cons_self
    rw [List.foldl_cons, ih fun row hrow => hrows row (List.mem_cons_of_mem _ hrow)]
    exact pins.get?_set_ne _ (Ne.symm hrow)

theorem approveRequest_succeeds (input : TrustDecision) (now : Nat)
    (hstored : StoredRequest request)
    (hnone : ∀ id pin, s.ActivePin id pin → pin.columns.identity ≠ request.columns.identity) :
    ∃ t result, s.approveRequest input now request = .ok (t, result) ∧
      t.ActivePin s.nextId (approvedPin request input now) := by
  have hcolumns := approvedPin_columns hstored input now
  have hinsert : s.insertPin (approvedPin request input now) = .ok { s with
        pins := s.pins.set s.nextId (approvedPin request input now)
        nextId := s.nextId + 1 } := by
    unfold insertPin
    rw [if_pos (hcolumns ▸ hstored.1), if_neg]
    rw [List.any_eq_true]
    rintro ⟨⟨id, pin⟩, hmem, hsame⟩
    rw [hcolumns] at hsame
    exact hnone id pin (mem_activePins.mp hmem) (of_decide_eq_true hsame)
  have hvalid (pinId : Option Nat) :
      (decidedRequest request input now .approved pinId).columns.valid = true := hstored.1
  unfold approveRequest updateRequest
  simp only [hinsert, hvalid, if_true]
  split
  · exact ⟨_, _, rfl, get?_set_self _ _ _, rfl⟩
  refine ⟨_, _, rfl, ?_, rfl⟩
  unfold revokeSupersededCloudControlPlanePins
  rw [foldl_revoke_get? fun old => old.revoke now (some "superseded-by-key-rotation")]
  · exact get?_set_self _ _ _
  intro row hrow
  have hother := (List.mem_filter.mp hrow).2
  simp only [ne_eq, Bool.and_eq_true, decide_eq_true_eq] at hother
  exact hother.1

theorem approve_succeeds {input : TrustDecision} (hchecked : s.Checked) (hapart : s.Apart)
    (haction : input.action = .approve) (hpending : s.PendingRequest input.requestId request)
    (hnow : now < request.expiresAt) (hfingerprint : input.expectedFingerprint =
      controlPlaneFingerprint request.columns.controlPlanePublicKey)
    (hrevision : input.expectedRevision = request.revision) :
    ∃ t result, s.decideCloudControlPlaneTrust controlPlaneFingerprint input now = .ok (t, result) ∧
      ∃! id, ∃ pin, t.ActivePin id pin ∧ pin.columns.identity = request.columns.identity := by
  have hrequest := (get?_expire.mpr ⟨hpending.1, hpending.2, hnow⟩).1
  have hfirst : ((s.expireCloudControlPlaneTrustRequests now).repeatedDecision input request) =
      none := by
    rw [repeatedDecision, haction]
    simp [hpending.2]
  have hnone (id : Nat) (pin : CloudControlPlanePin)
      (hactive : (s.expireCloudControlPlaneTrustRequests now).ActivePin id pin) :
      pin.columns.identity ≠ request.columns.identity :=
    hapart.apart id pin input.requestId request hactive hpending
  obtain ⟨t, result, happrove, hpin⟩ := approveRequest_succeeds input now
    (hchecked.requests _ _ hpending.1) hnone
  have hdecide : s.decideCloudControlPlaneTrust controlPlaneFingerprint input now =
      .ok (t, result) := by
    unfold decideCloudControlPlaneTrust
    simp only [hrequest, hfirst, hfingerprint, hrevision, hpending.2, haction, ne_eq,
      not_true_eq_false, if_false]
    exact happrove
  have hstep : s.step controlPlaneFingerprint (.decide input now) = some t := by
    show some (s.behind (s.decideCloudControlPlaneTrust controlPlaneFingerprint input now)) = some t
    rw [hdecide]
    rfl
  have hunique : t.UniquePins := hapart.pins.step hstep
  refine ⟨t, result, hdecide, s.nextId, ⟨_, hpin, approvedPin_identity request input now⟩, ?_⟩
  rintro id ⟨pin, hactive, hidentity⟩
  exact hunique id s.nextId pin _ hactive hpin
    (hidentity.trans (approvedPin_identity request input now).symm)

/-! ## Runs -/

theorem Checked.new : new.Checked := ⟨fun _ _ h => (by cases h.1), fun _ _ h => (by cases h)⟩

theorem Apart.new : new.Apart :=
  ⟨fun _ _ _ _ h => (by cases h.1), fun _ _ _ _ h => (by cases h.1),
    fun _ _ _ _ h => (by cases h.1)⟩

/-- In a run of orderly calls no identity has a pending request beside an active pin. -/
theorem run_apart {actions : List Action}
    (hrun : run (step controlPlaneFingerprint) .new actions = some s)
    (horderly : AllSteps (step controlPlaneFingerprint) Orderly .new
      actions) : s.Checked ∧ s.Apart :=
  run_invariant_of_steps (I := fun s => s.Checked ∧ s.Apart)
    (fun _ _ _ hstep ha h => ⟨h.1.step hstep, h.2.step h.1 ha hstep⟩) hrun horderly
    ⟨Checked.new, Apart.new⟩

/-- In every state of a run of orderly calls, an observation with a well-formed context is
answered, and the approval of a pending request that has not expired succeeds and leaves one active
pin of its identity. -/
theorem trust_calls_keep_clear {controlPlaneFingerprint : String → String} {actions : List Action}
    (hrun : run (step controlPlaneFingerprint) .new actions = some s)
    (horderly : AllSteps (step controlPlaneFingerprint) Orderly .new
      actions) : (∀ input : ObserveInput, input.context.wellFormed = true →
      ∃ t observation, s.observeCloudControlPlaneTrust input = .ok (t, observation)) ∧
    ∀ (input : TrustDecision) (now : Nat) (request : TrustRequest), input.action = .approve →
      s.PendingRequest input.requestId request → now < request.expiresAt →
      input.expectedFingerprint = controlPlaneFingerprint request.columns.controlPlanePublicKey →
      input.expectedRevision = request.revision →
      ∃ t result, s.decideCloudControlPlaneTrust controlPlaneFingerprint input now =
          .ok (t, result) ∧
        ∃! id, ∃ pin, t.ActivePin id pin ∧ pin.columns.identity = request.columns.identity := by
  have ⟨hchecked, hapart⟩ := run_apart hrun horderly
  constructor
  · intro input hcontext
    exact observe_answers hchecked hapart hcontext
  · intro input now request haction hpending hnow hfingerprint hrevision
    exact approve_succeeds hchecked hapart haction hpending hnow hfingerprint hrevision

/-- A rejected request is retried and approved; then another account opens a request. -/
def orderlyActions : List Action :=
  [.observe ⟨exampleContext 1, 10, 100⟩,
    .decide ⟨.reject, 0, "key", 1, none, false, ⟨.local, "admin"⟩⟩ 20,
    .retry ⟨0, 30, 100, ⟨.local, "admin"⟩⟩,
    .decide ⟨.approve, 1, "key", 1, none, false, ⟨.local, "admin"⟩⟩ 40,
    .observe ⟨{ exampleContext 1 with accountId := "other" }, 60, 100⟩]

theorem orderlyActions_orderly : AllSteps (step id) Orderly .new orderlyActions := by
  refine ⟨?_, trivial, ?_, trivial, ?_, trivial⟩
  · intro id pin hactive
    cases hactive.1
  · intro request _ _ id pin hactive
    cases hactive.1
  · intro id pin hactive hsame
    cases List.mem_singleton.mp (mem_activePins.mpr hactive)
    exact absurd hsame (by decide)

/-- The owner of the pin is observed at a later share revision, the other request approved. -/
theorem trust_calls_keep_clear_example : ∃ s, ∃ request : TrustRequest,
      run (step id) .new orderlyActions = some s ∧
      (∃ t observation, s.observeCloudControlPlaneTrust ⟨exampleContext 4, 70, 100⟩ =
        .ok (t, observation)) ∧ s.activePins.length = 1 ∧ s.PendingRequest 3 request ∧
      ∃ t result, s.decideCloudControlPlaneTrust id
          ⟨.approve, 3, "key", 1, none, false, ⟨.local, "admin"⟩⟩ 70 = .ok (t, result) ∧
        ∃! id, ∃ pin, t.ActivePin id pin ∧ pin.columns.identity = request.columns.identity := by
  obtain ⟨s, request, hrun, hpins, hpending, hnow, hkey, hrevision⟩ : ∃ s, ∃ request : TrustRequest,
      run (step id) .new orderlyActions = some s ∧ s.activePins.length = 1 ∧
      s.PendingRequest 3 request ∧ 70 < request.expiresAt ∧
      "key" = id request.columns.controlPlanePublicKey ∧ 1 = request.revision :=
    ⟨_, _, rfl, rfl, ⟨rfl, rfl⟩, by decide, rfl, rfl⟩
  have hclear := trust_calls_keep_clear hrun orderlyActions_orderly
  exact ⟨s, request, hrun, hclear.1 ⟨exampleContext 4, 70, 100⟩ (by decide), hpins, hpending,
    hclear.2 _ 70 request rfl hpending hnow hkey hrevision⟩

/-- A shared context is approved at share revision 3 and then observed at share revision 1. -/
def outdatedActions : List Action :=
  [.observe ⟨exampleContext 3, 10, 100⟩,
    .decide ⟨.approve, 0, "key", 1, none, false, ⟨.local, "admin"⟩⟩ 20,
    .observe ⟨exampleContext 1, 30, 100⟩]

/-- A second observation at the outdated revision runs into the index of the pending requests, and
the approval of the pending request into the index of the active pins. -/
theorem outdated_context_refused : ∃ s request, run (step id) .new outdatedActions = some s ∧
      (exampleContext 1).wellFormed = true ∧
      s.observeCloudControlPlaneTrust ⟨exampleContext 1, 40, 100⟩ = .error constraintFailed ∧
      s.PendingRequest 2 request ∧ 40 < request.expiresAt ∧ request.revision = 1 ∧
      id request.columns.controlPlanePublicKey = "key" ∧
      s.decideCloudControlPlaneTrust id
        ⟨.approve, 2, "key", 1, none, false, ⟨.local, "admin"⟩⟩ 40 = .error constraintFailed :=
  ⟨_, _, rfl, rfl, rfl, ⟨rfl, rfl⟩, by decide, rfl, rfl, rfl⟩

end AccessRepository

end TaskHandoff.Persistence
