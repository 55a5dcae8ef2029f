import TaskHandoff.DeviceTrust.Sessions

/-! # Revoked pins have no sessions

An observation holds the revision its pin had while it was active. A revocation closes its pin at
that revision or a higher one, so that an observation from before is refused at the fence whether
it comes to its registration before or behind the closing; the registry's epoch does the same for
all pins. -/

namespace TaskHandoff.DeviceTrust

open Machine List Option State Registry

namespace State

/-! ## Establishments at their place -/

def At (s : State) (session : SessionId) (e : Establishment) : Prop :=
  s.establishments[session]? = some e

variable {s : State} {e x : Establishment}

theorem at_put {session other : SessionId} (h : At (s.put session e) other x) :
    (other = session ∧ x = e) ∨ (other ≠ session ∧ At s other x) := by
  unfold At put at h
  rw [getElem?_set] at h
  split at h
  next heq =>
    split at h
    · exact .inl ⟨heq.symm, (some.inj h).symm⟩
    · cases h
  next hne => exact .inr ⟨fun heq => hne heq.symm, h⟩

theorem at_put_other {session other : SessionId} (hne : other ≠ session) (h : At s other x) :
    At (s.put session e) other x := by
  unfold At put
  rw [getElem?_set_ne (Ne.symm hne)]
  exact h

variable {session : SessionId}

theorem at_put_self (h : At s session x) : At (s.put session e) session e := by
  have hlt : session < s.establishments.length := (List.getElem?_eq_some_iff.mp h).1
  unfold At put
  rw [List.getElem?_set_self hlt]

variable {x : Establishment} {sessions : List SessionId}

theorem at_closeSessions {operation : Nat} (h : At (s.closeSessions operation sessions) session x) :
    ∃ e, At s session e ∧
      x = if session ∈ sessions then { e with stage := .ended, closedBy := some operation }
        else e := by
  unfold At closeSessions at h
  rw [getElem?_mapIdx] at h
  cases he : s.establishments[session]? with
  | none => simp [he] at h
  | some e =>
    rw [he] at h
    exact ⟨e, he, (some.inj h).symm⟩

theorem closeSessions_at {operation : Nat} {e : Establishment}
    (h : At s session e) (hkeep : session ∉ sessions) :
    At (s.closeSessions operation sessions) session e := by
  unfold At closeSessions
  rw [getElem?_mapIdx, h]
  simp [hkeep]

/-! ## Pins -/

def Gone (s : State) (pin : PinId) : Prop :=
  pin < s.pins.length ∧ ∀ row, s.pins[pin]? = some row → row.active = false

theorem isActive_iff {pin : PinId} :
    s.isActive pin = true ↔ ∃ row, s.pins[pin]? = some row ∧ row.active = true := by
  unfold isActive
  cases s.pins[pin]? with
  | none => simp
  | some row => simp

theorem length_revokePins (rows : List PinRow) (pins : List PinId) :
    (pins.foldl revokePin rows).length = rows.length := by
  induction pins generalizing rows with
  | nil => rfl
  | cons pin pins ih =>
    rw [foldl_cons, ih]
    exact length_modify _ _ _

theorem active_revokePins (rows : List PinRow) (pins : List PinId) {pin : PinId} {row : PinRow}
    (h : (pins.foldl revokePin rows)[pin]? = some row) (hactive : row.active = true) :
    pin ∉ pins ∧ rows[pin]? = some row := by
  induction pins generalizing rows with
  | nil => exact ⟨by simp, h⟩
  | cons first pins ih =>
    have hrest := ih (revokePin rows first) h
    have hrow := hrest.2
    unfold revokePin at hrow
    rw [getElem?_modify] at hrow
    split at hrow
    next heq =>
      obtain ⟨old, hold, hoff⟩ := map_eq_some_iff.mp hrow
      rw [← hoff] at hactive
      cases hactive
    next hne =>
      have hsame : rows[pin]? = some row := by simpa using hrow
      refine ⟨?_, hsame⟩
      intro hmem
      cases mem_cons.mp hmem with
      | inl heq => exact hne heq.symm
      | inr hlater => exact hrest.1 hlater

end State

/-! ## The invariant -/

open State

/-- No observation of the pin has a revision over this one. -/
def Below (s : State) (pin : PinId) (revision : Nat) : Prop :=
  ∀ session e read, s.At session e → e.stage = .observed pin read → read ≤ revision

def Unregistered (s : State) (pin : PinId) : Prop :=
  ∀ session e, s.At session e → e.stage ≠ .registered pin

/-- The sessions claimed before a time can no longer be registered. -/
def Swept (s : State) (time : Nat) : Prop :=
  ∀ session e, s.At session e → e.claimedAt < time →
    e.claimEpoch < s.registry.epoch ∧ ∀ pin, e.stage ≠ .registered pin

/-- What an operation closes of a session: any, or one of the pins it revoked. -/
def Operation.Closes (o : Operation) (e : Establishment) : Prop :=
  o.everything = true ∨ ∃ pin ∈ o.revoked, e.pin = some pin

def Closing.rows : Closing → List (PinId × Nat)
  | .pins rows => rows
  | .all => []

structure Sound (s : State) (session : SessionId) (e : Establishment) : Prop where
  listed : ∀ pin, e.stage = .registered pin →
    (pin, session) ∈ s.registry.sessions ∧ e.pin = some pin
  observed : ∀ pin read, e.stage = .observed pin read → e.pin = some pin ∧ pin < s.pins.length ∧
      ∀ row, s.pins[pin]? = some row → row.active = true → read ≤ row.authorizationRevision
  epoch : e.claimEpoch ≤ s.registry.epoch
  closed : ∀ k, e.closedBy = some k → e.stage = .ended ∧ ∃ o, s.operations[k]? = some o ∧ o.Closes e

structure Sealed (s : State) (o : Operation) : Prop where
  revoked : ∀ pin ∈ o.revoked, s.Gone pin ∧
    ((∃ revision, (pin, revision) ∈ o.remaining.rows ∧ Below s pin revision) ∨
      (Below s pin (s.registry.fence pin) ∧ Unregistered s pin))
  rows : ∀ row ∈ o.remaining.rows, row.1 ∈ o.revoked
  everything : o.everything = true → o.remaining = .all ∨ Swept s o.committedAt
  all : o.remaining = .all → o.everything = true
  resolved : o.resolved = true → o.remaining = .pins []
  committedAt : o.committedAt ≤ s.time

structure Inv (s : State) : Prop where
  sessions : ∀ session e, s.At session e → Sound s session e
  held : ∀ pin session, (pin, session) ∈ s.registry.sessions →
    ∃ e, s.At session e ∧ e.stage = .registered pin
  operations : ∀ (k : Nat) (o : Operation), s.operations[k]? = some o → Sealed s o

/-! ## What a step keeps of an operation -/

structure Onward (s t : State) : Prop where
  gone : ∀ pin, s.Gone pin → t.Gone pin
  below : ∀ pin revision, s.Gone pin → Below s pin revision → Below t pin revision
  fence : ∀ pin, s.registry.fence pin ≤ t.registry.fence pin
  unregistered : ∀ pin, Below s pin (s.registry.fence pin) → Unregistered s pin → Unregistered t pin
  swept : ∀ time, time ≤ s.time → Swept s time → Swept t time
  time : s.time ≤ t.time

variable {s : State} {pin : PinId}

theorem Below.mono {a b : Nat} (h : Below s pin a) (hab : a ≤ b) : Below s pin b :=
  fun session e read hat hstage => Nat.le_trans (h session e read hat hstage) hab

variable {o : Operation}

variable {t : State}

theorem Sealed.onward (h : Sealed s o) (hst : Onward s t) : Sealed t o where
  __ := h
  revoked pin hpin := by
    have hold := h.revoked pin hpin
    refine ⟨hst.gone pin hold.1, ?_⟩
    cases hold.2 with
    | inl hwaiting =>
      cases hwaiting with
      | intro revision hwaiting =>
        exact .inl ⟨revision, hwaiting.1, hst.below pin revision hold.1 hwaiting.2⟩
    | inr hsettled =>
      have hbelow := hst.below pin _ hold.1 hsettled.1
      exact .inr ⟨hbelow.mono (hst.fence pin), hst.unregistered pin hsettled.1 hsettled.2⟩
  everything hall := by
    cases h.everything hall with
    | inl hwaiting => exact .inl hwaiting
    | inr hswept => exact .inr (hst.swept o.committedAt h.committedAt hswept)
  committedAt := Nat.le_trans h.committedAt hst.time

/-! ## The steps -/

variable {session : SessionId} {e : Establishment}

section

variable (h : Inv s)

include h

theorem Inv.tick : Inv { s with time := s.time + 1 } where
  sessions session e hat := { h.sessions session e hat with }
  held := h.held
  operations k o hk := (h.operations k o hk).onward
    ⟨fun _ => id, fun _ _ _ => id, fun _ => Nat.le_refl _,
      fun _ _ => id, fun _ _ => id, Nat.le_succ _⟩

theorem Inv.claim : Inv { s with
      establishments := s.establishments ++ [⟨s.registry.epoch, s.time, none, .claimed, none⟩] } := by
  let t : State := { s with
    establishments := s.establishments ++ [⟨s.registry.epoch, s.time, none, .claimed, none⟩] }
  have hat : ∀ session e, t.At session e → s.At session e ∨
      e = ⟨s.registry.epoch, s.time, none, .claimed, none⟩ := by
    intro session e he
    have he' : (s.establishments ++ [(⟨s.registry.epoch, s.time, none, .claimed, none⟩ :
      Establishment)])[session]? = some e := he
    rw [List.getElem?_append] at he'
    split at he'
    · exact .inl he'
    · have hmem := List.mem_of_getElem? he'
      exact .inr (List.mem_singleton.mp hmem)
  have honward : Onward s t := by
    refine ⟨fun _ => id, ?_, fun _ => Nat.le_refl _, ?_, ?_, Nat.le_refl _⟩
    · intro pin revision _ hbelow session e read he hstage
      cases hat session e he with
      | inl hold => exact hbelow session e read hold hstage
      | inr hnew => rw [hnew] at hstage; cases hstage
    · intro pin _ hnone session e he hstage
      cases hat session e he with
      | inl hold => exact hnone session e hold hstage
      | inr hnew => rw [hnew] at hstage; cases hstage
    intro time htime hswept session e he hlt
    cases hat session e he with
    | inl hold => exact hswept session e hold hlt
    | inr hnew =>
      rw [hnew] at hlt
      exact absurd hlt (Nat.not_lt.mpr htime)
  refine ⟨?_, ?_, fun k o hk => (h.operations k o hk).onward honward⟩
  · intro session e he
    cases hat session e he with
    | inl hold => exact { h.sessions session e hold with }
    | inr hnew =>
      rw [hnew]
      exact ⟨fun _ heq => (by cases heq), fun _ _ heq => (by cases heq), Nat.le_refl _,
        fun _ heq => (by cases heq)⟩
  · intro pin session hmem
    have hheld := h.held pin session hmem
    cases hheld with
    | intro e he =>
      have hlt : session < s.establishments.length := (List.getElem?_eq_some_iff.mp he.1).1
      exact ⟨e, (List.getElem?_append_left hlt).trans he.1, he.2⟩

theorem Inv.replace {e e' : Establishment} (registry : Registry) (hat : s.At session e)
    (hclaim : e'.claimEpoch = e.claimEpoch) (htime : e'.claimedAt = e.claimedAt)
    (hepoch : registry.epoch = s.registry.epoch)
    (hfence : ∀ pin, registry.fence pin = s.registry.fence pin)
    (hsound : Sound { s with registry } session e') (hothers : ∀ pin other, other ≠ session →
      ((pin, other) ∈ registry.sessions ↔ (pin, other) ∈ s.registry.sessions))
    (hself : ∀ pin, (pin, session) ∈ registry.sessions → e'.stage = .registered pin)
    (hread : ∀ pin read, e'.stage = .observed pin read → ¬ s.Gone pin)
    (hadmitted : ∀ pin, e'.stage = .registered pin →
      ¬ Below s pin (s.registry.fence pin) ∧ e'.claimEpoch = s.registry.epoch) :
    Inv (({ s with registry } : State).put session e') := by
  let t : State := ({ s with registry } : State).put session e'
  have honward : Onward s t := by
    refine ⟨fun _ => id, ?_, fun pin => Nat.le_of_eq (hfence pin).symm, ?_, ?_, Nat.le_refl _⟩
    · intro pin revision hgone hbelow other x read hx hstage
      cases at_put hx with
      | inl hnew =>
        rw [hnew.2] at hstage
        exact absurd hgone (hread pin read hstage)
      | inr hold => exact hbelow other x read hold.2 hstage
    · intro pin hbelow hnone other x hx hstage
      cases at_put hx with
      | inl hnew =>
        rw [hnew.2] at hstage
        exact (hadmitted pin hstage).1 hbelow
      | inr hold => exact hnone other x hold.2 hstage
    · intro time _ hswept other x hx hlt
      have hsame : t.registry.epoch = s.registry.epoch := hepoch
      rw [hsame]
      cases at_put hx with
      | inl hnew =>
        rw [hnew.2] at hlt ⊢
        rw [htime] at hlt
        have hlow := (hswept session e hat hlt).1
        refine ⟨by rw [hclaim]; exact hlow, ?_⟩
        intro pin hstage
        have hcurrent := (hadmitted pin hstage).2
        omega
      | inr hold => exact hswept other x hold.2 hlt
  refine ⟨?_, ?_, fun k o hk => (h.operations k o hk).onward honward⟩
  · intro other x hx
    cases at_put hx with
    | inl hnew =>
      rw [hnew.1, hnew.2]
      exact { hsound with }
    | inr hold =>
      have hbefore := h.sessions other x hold.2
      refine ⟨?_, hbefore.observed, Nat.le_trans hbefore.epoch (Nat.le_of_eq hepoch.symm),
        hbefore.closed⟩
      intro pin hstage
      have hlisted := hbefore.listed pin hstage
      exact ⟨(hothers pin other hold.1).mpr hlisted.1, hlisted.2⟩
  · intro pin other hmem
    by_cases heq : other = session
    · rw [heq] at hmem ⊢
      exact ⟨e', at_put_self hat, hself pin hmem⟩
    have hheld := h.held pin other ((hothers pin other heq).mp hmem)
    cases hheld with
    | intro x hx => exact ⟨x, at_put_other heq hx.1, hx.2⟩

section

variable (hat : s.At session e)

include hat

theorem Inv.refuse (hstage : ∀ pin, e.stage ≠ .registered pin)
    (hopen : e.stage ≠ .ended) : Inv (s.put session { e with stage := .ended }) := by
  have hsound := h.sessions session e hat
  refine h.replace s.registry hat rfl rfl rfl (fun _ => rfl) ?_
    (fun _ _ _ => Iff.rfl) ?_ (fun _ _ heq => by cases heq) (fun _ heq => by cases heq)
  · exact ⟨fun _ heq => (by cases heq), fun _ _ heq => (by cases heq), hsound.epoch,
      fun k hk => absurd (hsound.closed k hk).1 hopen⟩
  intro pin hmem
  have hheld := h.held pin session hmem
  cases hheld with
  | intro x hx =>
    have hsame : x = e := some.inj (hx.1.symm.trans hat)
    exact absurd (hsame ▸ hx.2) (hstage pin)

theorem Inv.observe {row : PinRow} (hstage : e.stage = .claimed)
    (hpin : s.pins[pin]? = some row) (hactive : row.active = true) : Inv (s.put session
      { e with
        pin := some pin
        stage := .observed pin row.authorizationRevision }) := by
  have hsound := h.sessions session e hat
  refine h.replace s.registry hat rfl rfl rfl (fun _ => rfl) ?_ (fun _ _ _ => Iff.rfl) ?_ ?_
    (fun _ heq => by cases heq)
  · refine ⟨fun _ heq => (by cases heq), ?_, hsound.epoch, ?_⟩
    · intro pin' read heq
      cases heq
      refine ⟨rfl, (List.getElem?_eq_some_iff.mp hpin).1, ?_⟩
      intro row' hrow' _
      have hsame : row = row' := some.inj (hpin.symm.trans hrow')
      exact Nat.le_of_eq (congrArg PinRow.authorizationRevision hsame)
    · intro k hk
      have hended := (hsound.closed k hk).1
      rw [hstage] at hended
      cases hended
  · intro pin' hmem
    have hheld := h.held pin' session hmem
    cases hheld with
    | intro x hx =>
      have hsame : x = e := some.inj (hx.1.symm.trans hat)
      rw [hsame, hstage] at hx
      cases hx.2
  · intro pin' read heq hgone
    cases heq
    have hoff := hgone.2 row hpin
    rw [hactive] at hoff
    cases hoff

theorem Inv.register {read : Nat} {registry : Registry} (hstage : e.stage = .observed pin read)
    (hregister : s.registry.register pin read e.claimEpoch session = some registry) :
    Inv (({ s with registry } : State).put session { e with stage := .registered pin }) := by
  have hsound := h.sessions session e hat
  have hcases := register_cases hregister
  have hregistry := hcases.2.2
  have hnone : ∀ pin', (pin', session) ∉ s.registry.sessions := by
    intro pin' hmem
    cases h.held pin' session hmem with
    | intro x hx =>
      have hsame : x = e := some.inj (hx.1.symm.trans hat)
      rw [hsame, hstage] at hx
      cases hx.2
  refine h.replace registry hat rfl rfl (by rw [hregistry]) (fun _ => by rw [hregistry]; rfl) ?_
    ?_ ?_ (fun _ _ heq => by cases heq) ?_
  · refine ⟨?_, fun _ _ heq => (by cases heq), by rw [hregistry]; exact hsound.epoch, ?_⟩
    · intro pin' heq
      cases heq
      have hpin := (hsound.observed pin read hstage).1
      rw [hregistry]
      exact ⟨mem_cons_self, hpin⟩
    · intro k hk
      have hended := (hsound.closed k hk).1
      rw [hstage] at hended
      cases hended
  · intro pin' other hne
    rw [hregistry]
    constructor
    · intro hmem
      cases mem_cons.mp hmem with
      | inl heq => exact absurd (congrArg Prod.snd heq) hne
      | inr hold => exact hold
    · intro hold
      exact mem_cons_of_mem _ hold
  · intro pin' hmem
    rw [hregistry] at hmem
    cases mem_cons.mp hmem with
    | inl heq => exact congrArg Stage.registered (congrArg Prod.fst heq).symm
    | inr hold => exact absurd hold (hnone pin')
  · intro pin' heq
    cases heq
    refine ⟨?_, hcases.1⟩
    intro hbelow
    have hle := hbelow session e read hat hstage
    omega

theorem Inv.finish (hopen : e.stage ≠ .ended) :
    Inv (({ s with registry := s.registry.unregister session } : State).put session
      { e with stage := .ended }) := by
  have hsound := h.sessions session e hat
  refine h.replace (s.registry.unregister session) hat rfl rfl rfl (fun _ => rfl) ?_ ?_ ?_
    (fun _ _ heq => by cases heq) (fun _ heq => by cases heq)
  · exact ⟨fun _ heq => (by cases heq), fun _ _ heq => (by cases heq), hsound.epoch,
      fun k hk => absurd (hsound.closed k hk).1 hopen⟩
  · intro pin other hne
    unfold unregister
    simp [hne]
  · intro pin hmem
    have hkept := (mem_filter.mp hmem).2
    simp at hkept

end

/-- A transaction changes the pins and starts operations; no pin comes back. -/
theorem Inv.commit (os : List Operation)
    (hestablishments : t.establishments = s.establishments) (hregistry : t.registry = s.registry)
    (htime : t.time = s.time) (hoperations : t.operations = s.operations ++ os)
    (hlength : s.pins.length ≤ t.pins.length)
    (hpins : ∀ pin row, pin < s.pins.length → t.pins[pin]? = some row → row.active = true →
      s.pins[pin]? = some row) (hsealed : ∀ o ∈ os, Sealed t o) : Inv t := by
  have hat : ∀ session e, t.At session e → s.At session e := by
    intro session e he
    unfold At at he
    rw [hestablishments] at he
    exact he
  have honward : Onward s t := by
    refine ⟨?_, ?_, fun _ => Nat.le_of_eq (by rw [hregistry]), ?_, ?_, Nat.le_of_eq htime.symm⟩
    · intro pin hgone
      refine ⟨Nat.lt_of_lt_of_le hgone.1 hlength, ?_⟩
      intro row hrow
      by_contra hactive
      have hon : row.active = true := by simpa using hactive
      have hold := hgone.2 row (hpins pin row hgone.1 hrow hon)
      exact hactive hold
    · intro pin revision _ hbelow session e read he hstage
      exact hbelow session e read (hat session e he) hstage
    · intro pin _ hnone session e he
      exact hnone session e (hat session e he)
    · intro time _ hswept session e he hlt
      rw [hregistry]
      exact hswept session e (hat session e he) hlt
  refine ⟨?_, ?_, ?_⟩
  · intro session e he
    have hsound := h.sessions session e (hat session e he)
    refine ⟨hregistry ▸ hsound.listed, ?_, hregistry ▸ hsound.epoch, ?_⟩
    · intro pin read hstage
      have hobserved := hsound.observed pin read hstage
      refine ⟨hobserved.1, Nat.lt_of_lt_of_le hobserved.2.1 hlength, ?_⟩
      intro row hrow hactive
      exact hobserved.2.2 row (hpins pin row hobserved.2.1 hrow hactive) hactive
    intro k hk
    have hclosed := hsound.closed k hk
    refine ⟨hclosed.1, ?_⟩
    cases hclosed.2 with
    | intro o ho =>
      have hlt : k < s.operations.length := (List.getElem?_eq_some_iff.mp ho.1).1
      refine ⟨o, ?_, ho.2⟩
      rw [hoperations]
      exact (List.getElem?_append_left hlt).trans ho.1
  · intro pin session hmem
    rw [hregistry] at hmem
    cases h.held pin session hmem with
    | intro e he =>
      refine ⟨e, ?_, he.2⟩
      unfold At
      rw [hestablishments]
      exact he.1
  · intro k o hk
    rw [hoperations, List.getElem?_append] at hk
    split at hk
    · exact (h.operations k o hk).onward honward
    · exact hsealed o (List.mem_of_getElem? hk)

theorem Inv.below_closingRevision (superseded : Bool) (hactive : s.isActive pin = true)
    : Below s pin (s.closingRevision superseded pin) := by
  intro session e read hat hstage
  have hobserved := (h.sessions session e hat).observed pin read hstage
  cases isActive_iff.mp hactive with
  | intro row hrow =>
    have hle := hobserved.2.2 row hrow.1 hrow.2
    unfold closingRevision
    rw [hrow.1]
    dsimp only [map_some, getD_some]
    split
    · exact hle
    · omega

theorem Inv.revoke (superseded : Bool) {pins : List PinId}
    (hactive : ∀ pin ∈ pins, s.isActive pin = true) : Inv (s.revoke superseded pins) := by
  have hlength : (s.revoke superseded pins).pins.length = s.pins.length :=
    length_revokePins s.pins pins
  refine h.commit [_] rfl rfl rfl rfl (Nat.le_of_eq hlength.symm) ?_ ?_
  · intro pin row _ hrow hon
    exact (active_revokePins s.pins pins hrow hon).2
  intro o ho
  rw [List.mem_singleton.mp ho]
  refine ⟨?_, ?_, fun heq => (by cases heq), fun heq => (by cases heq),
    fun heq => (by cases heq), Nat.le_refl _⟩
  · intro pin hpin
    have hbelow := h.below_closingRevision superseded (hactive pin hpin)
    refine ⟨⟨?_, ?_⟩, .inl ⟨s.closingRevision superseded pin, ?_, hbelow⟩⟩
    · rw [hlength]
      cases isActive_iff.mp (hactive pin hpin) with
      | intro row hrow => exact (List.getElem?_eq_some_iff.mp hrow.1).1
    · intro row hrow
      by_contra hne
      have hon : row.active = true := by simpa using hne
      exact (active_revokePins s.pins pins hrow hon).1 hpin
    · exact List.mem_map.mpr ⟨pin, hpin, rfl⟩
  · intro row hrow
    cases List.mem_map.mp hrow with
    | intro pin hpin => exact hpin.2 ▸ hpin.1

theorem Inv.addPin (authorizationRevision : Nat) : Inv (s.addPin authorizationRevision) := by
  refine h.commit [] rfl rfl rfl (append_nil _).symm ?_ ?_ nofun
  · unfold State.addPin
    simp
  intro pin row hlt hrow _
  unfold State.addPin at hrow
  rw [getElem?_append_left hlt] at hrow
  exact hrow

theorem Inv.callCloseAll :
    Inv { s with operations := s.operations ++ [⟨[], true, s.time, .all, false⟩] } := by
  refine h.commit [_] rfl rfl rfl rfl (Nat.le_refl _) (fun _ _ _ hrow _ => hrow) ?_
  intro o ho
  rw [mem_singleton.mp ho]
  exact ⟨nofun, nofun, fun _ => .inl rfl, fun _ => rfl, fun heq => (by cases heq), Nat.le_refl _⟩

end

variable {operation : Nat}

theorem Inv.close (h : Inv s) (o' : Operation) (sessions : List SessionId)
    (hop : s.operations[operation]? = some o) (hrevoked : o'.revoked = o.revoked)
    (heverything : o'.everything = o.everything)
    (hafter : ∀ session x, t.At session x → ∃ e, s.At session e ∧
      x = if session ∈ sessions then { e with stage := .ended, closedBy := some operation } else e)
    (hkept : ∀ session e, s.At session e → session ∉ sessions → t.At session e)
    (hpins : t.pins = s.pins) (htime : t.time = s.time)
    (hoperations : t.operations = s.operations.set operation o')
    (hfence : ∀ pin, s.registry.fence pin ≤ t.registry.fence pin)
    (hepoch : s.registry.epoch ≤ t.registry.epoch)
    (hsessions : ∀ pin session, (pin, session) ∈ t.registry.sessions ↔
      (pin, session) ∈ s.registry.sessions ∧ session ∉ sessions)
    (hcloses : ∀ session ∈ sessions, ∀ e, s.At session e → o.Closes e)
    (hsealed : Onward s t → Sealed t o') : Inv t := by
  have hstages : ∀ session x, t.At session x → x.stage ≠ .ended →
      s.At session x ∧ session ∉ sessions := by
    intro session x hx hopen
    cases hafter session x hx with
    | intro e he =>
      have hshape := he.2
      split at hshape
      · exact absurd (congrArg Establishment.stage hshape) hopen
      next hnot => exact ⟨hshape ▸ he.1, hnot⟩
  have honward : Onward s t := by
    refine ⟨?_, ?_, hfence, ?_, ?_, Nat.le_of_eq htime.symm⟩
    · intro pin hgone
      unfold Gone
      rw [hpins]
      exact hgone
    · intro pin revision _ hbelow session x read hx hstage
      have hold := hstages session x hx (by rw [hstage]; nofun)
      exact hbelow session x read hold.1 hstage
    · intro pin _ hnone session x hx hstage
      have hold := hstages session x hx (by rw [hstage]; nofun)
      exact hnone session x hold.1 hstage
    · intro time _ hswept session x hx hlt
      cases hafter session x hx with
      | intro e he =>
        have hshape := he.2
        split at hshape
        · rw [hshape] at hlt ⊢
          have hlow := (hswept session e he.1 hlt).1
          exact ⟨Nat.lt_of_lt_of_le hlow hepoch, fun _ heq => by cases heq⟩
        rw [hshape] at hlt ⊢
        have hlow := hswept session e he.1 hlt
        exact ⟨Nat.lt_of_lt_of_le hlow.1 hepoch, hlow.2⟩
  have hlookup : ∀ (k : Nat) (o₁ : Operation), s.operations[k]? = some o₁ →
      ∃ o₂ : Operation, t.operations[k]? = some o₂ ∧ o₂.revoked = o₁.revoked ∧
        o₂.everything = o₁.everything := by
    intro k o₁ hk
    rw [hoperations]
    by_cases heq : operation = k
    · subst heq
      have hlt : operation < s.operations.length := (List.getElem?_eq_some_iff.mp hk).1
      have hsame : o₁ = o := some.inj (hk.symm.trans hop)
      rw [List.getElem?_set_self hlt, hsame]
      exact ⟨o', rfl, hrevoked, heverything⟩
    · rw [List.getElem?_set_ne heq]
      exact ⟨o₁, hk, rfl, rfl⟩
  refine ⟨?_, ?_, ?_⟩
  · intro session x hx
    cases hafter session x hx with
    | intro e he =>
      have hsound := h.sessions session e he.1
      have hshape := he.2
      split at hshape
      next hmem =>
        rw [hshape]
        refine ⟨fun _ heq => (by cases heq), fun _ _ heq => (by cases heq),
          Nat.le_trans hsound.epoch hepoch, ?_⟩
        intro k hk
        have hk' : operation = k := some.inj hk
        subst hk'
        refine ⟨rfl, ?_⟩
        cases hlookup operation o hop with
        | intro o₂ ho₂ =>
          refine ⟨o₂, ho₂.1, ?_⟩
          have hcloses' := hcloses session hmem e he.1
          unfold Operation.Closes at hcloses' ⊢
          rw [ho₂.2.1, ho₂.2.2]
          exact hcloses'
      next hnot =>
        rw [hshape]
        refine ⟨?_, hpins ▸ hsound.observed, Nat.le_trans hsound.epoch hepoch, ?_⟩
        · intro pin hstage
          have hlisted := hsound.listed pin hstage
          exact ⟨(hsessions pin session).mpr ⟨hlisted.1, hnot⟩, hlisted.2⟩
        intro k hk
        have hclosed := hsound.closed k hk
        refine ⟨hclosed.1, ?_⟩
        cases hclosed.2 with
        | intro o₁ ho₁ =>
          cases hlookup k o₁ ho₁.1 with
          | intro o₂ ho₂ =>
            refine ⟨o₂, ho₂.1, ?_⟩
            have hcloses' := ho₁.2
            unfold Operation.Closes at hcloses' ⊢
            rw [ho₂.2.1, ho₂.2.2]
            exact hcloses'
  · intro pin session hmem
    have hold := (hsessions pin session).mp hmem
    cases h.held pin session hold.1 with
    | intro e he => exact ⟨e, hkept session e he.1 hold.2, he.2⟩
  · intro k o₁ hk
    rw [hoperations] at hk
    by_cases heq : operation = k
    · subst heq
      have hlt : operation < s.operations.length := (List.getElem?_eq_some_iff.mp hop).1
      rw [List.getElem?_set_self hlt] at hk
      exact some.inj hk ▸ hsealed honward
    · rw [List.getElem?_set_ne heq] at hk
      exact (h.operations k o₁ hk).onward honward

theorem Inv.one_pin (h : Inv s) {first second : PinId}
    (hfirst : (first, session) ∈ s.registry.sessions)
    (hsecond : (second, session) ∈ s.registry.sessions) : first = second := by
  cases h.held first session hfirst with
  | intro e he =>
    cases h.held second session hsecond with
    | intro x hx =>
      have hsame : e = x := some.inj (he.1.symm.trans hx.1)
      have hstage : Stage.registered first = .registered second := by rw [← he.2, hsame, hx.2]
      cases hstage
      rfl

theorem Registry.mem_ofPin {r : Registry} : session ∈ r.ofPin pin ↔ (pin, session) ∈ r.sessions :=
    by
  unfold ofPin
  rw [List.mem_map]
  constructor
  · intro h
    cases h with
    | intro row hrow =>
      have hfilter := mem_filter.mp hrow.1
      have hpin : row.1 = pin := by simpa using hfilter.2
      have hsame : row = (pin, session) := Prod.ext hpin hrow.2
      exact hsame ▸ hfilter.1
  · intro h
    exact ⟨(pin, session), mem_filter.mpr ⟨h, by simp⟩, rfl⟩

theorem Inv.proceed_pin (h : Inv s) {revision : Nat} {rest : List (PinId × Nat)}
    (hop : s.operations[operation]? = some o)
    (hremaining : o.remaining = .pins ((pin, revision) :: rest)) : Inv (s.proceed operation o) := by
  have hsealed := h.operations operation o hop
  simp only [proceed, hremaining]
  refine h.close { o with remaining := .pins rest } (s.registry.ofPin pin) hop rfl rfl
    (fun _ _ hx => at_closeSessions hx) (fun _ _ he hnot => closeSessions_at he hnot) rfl rfl rfl
    (fun other => fence_le_closePin s.registry pin other revision) (Nat.le_refl _)
    ?_ ?_ ?_
  · intro other session
    have hclosed : (other, session) ∈ (s.registry.closePin pin revision).sessions ↔
        (other, session) ∈ s.registry.sessions ∧ other ≠ pin := by
      unfold closePin
      simp
    refine hclosed.trans (and_congr_right ?_)
    intro hmem
    rw [mem_ofPin]
    constructor
    · intro hne hpin
      exact hne (h.one_pin hmem hpin)
    · intro hnot heq
      exact hnot (heq ▸ hmem)
  · intro session hmem e he
    refine .inr ⟨pin, hsealed.rows (pin, revision) (hremaining ▸ mem_cons_self), ?_⟩
    cases h.held pin session (mem_ofPin.mp hmem) with
    | intro x hx =>
      have hsame : x = e := some.inj (hx.1.symm.trans he)
      exact hsame ▸ ((h.sessions session x hx.1).listed pin hx.2).2
  · intro honward
    have hkept := hsealed.onward honward
    refine ⟨?_, ?_, ?_, fun heq => (by cases heq), ?_, hkept.committedAt⟩
    · intro other hother
      have hrevoked := hkept.revoked other hother
      refine ⟨hrevoked.1, ?_⟩
      cases hrevoked.2 with
      | inr hsettled => exact .inr hsettled
      | inl hwaiting =>
        cases hwaiting with
        | intro revision' hwaiting =>
          rw [hremaining] at hwaiting
          cases mem_cons.mp hwaiting.1 with
          | inr hrest => exact .inl ⟨revision', hrest, hwaiting.2⟩
          | inl heq =>
            cases heq
            refine .inr ⟨hwaiting.2.mono ?_, ?_⟩
            · have hfence := fence_closePin s.registry pin pin revision
              rw [if_pos rfl] at hfence
              exact Nat.le_trans (Nat.le_max_right _ _) (Nat.le_of_eq hfence.symm)
            intro session x hx hstage
            cases at_closeSessions hx with
            | intro e he =>
              have hshape := he.2
              split at hshape
              · rw [hshape] at hstage
                cases hstage
              next hnot =>
                rw [hshape] at hstage
                have hlisted := (h.sessions session e he.1).listed pin hstage
                exact hnot (mem_ofPin.mpr hlisted.1)
    · intro row hrow
      exact hsealed.rows row (hremaining ▸ mem_cons_of_mem _ hrow)
    · intro hall
      cases hkept.everything hall with
      | inl heq =>
        rw [hremaining] at heq
        cases heq
      | inr hswept => exact .inr hswept
    · intro hresolved
      have hnil := hsealed.resolved hresolved
      rw [hremaining] at hnil
      cases hnil

theorem Inv.proceed_resolved (h : Inv s) (hop : s.operations[operation]? = some o)
    (hremaining : o.remaining = .pins []) : Inv (s.proceed operation o) := by
  have hsealed := h.operations operation o hop
  simp only [proceed, hremaining]
  refine h.close { o with resolved := true } [] hop rfl rfl
    (fun _ x hx => ⟨x, hx, (if_neg not_mem_nil).symm⟩) (fun _ _ he _ => he) rfl rfl
    (by simp only [hremaining]) (fun _ => Nat.le_refl _) (Nat.le_refl _) (by simp)
    nofun ?_
  intro honward
  have hkept := hsealed.onward honward
  exact ⟨hkept.revoked, hkept.rows, hkept.everything, hkept.all, fun _ => hremaining,
    hkept.committedAt⟩

/-- `closeAll` moves the epoch past every claim. -/
theorem Inv.proceed_all (h : Inv s) (hop : s.operations[operation]? = some o)
    (hremaining : o.remaining = .all) : Inv (s.proceed operation o) := by
  have hsealed := h.operations operation o hop
  simp only [proceed, hremaining]
  refine h.close { o with remaining := .pins [] } (s.registry.sessions.map (·.2)) hop rfl rfl
    (fun _ _ hx => at_closeSessions hx) (fun _ _ he hnot => closeSessions_at he hnot)
    rfl rfl rfl (fun _ => Nat.le_refl _) (Nat.le_succ _) ?_
    (fun _ _ _ _ => .inl (hsealed.all hremaining)) ?_
  · intro pin session
    constructor
    · intro hmem
      cases hmem
    · intro hboth
      exact absurd (mem_map.mpr ⟨(pin, session), hboth.1, rfl⟩) hboth.2
  · intro honward
    have hkept := hsealed.onward honward
    refine ⟨?_, nofun, ?_, fun heq => (by cases heq), fun _ => rfl, hkept.committedAt⟩
    · intro pin hpin
      have hrevoked := hkept.revoked pin hpin
      refine ⟨hrevoked.1, ?_⟩
      cases hrevoked.2 with
      | inr hsettled => exact .inr hsettled
      | inl hwaiting =>
        rw [hremaining] at hwaiting
        cases hwaiting with
        | intro revision hwaiting => cases hwaiting.1
    · intro _
      refine .inr ?_
      intro session x hx _
      cases at_closeSessions hx with
      | intro e he =>
        have hshape := he.2
        have hepoch := (h.sessions session e he.1).epoch
        split at hshape
        · rw [hshape]
          exact ⟨Nat.lt_succ_of_le hepoch, fun _ heq => by cases heq⟩
        rename_i hnot
        rw [hshape]
        refine ⟨Nat.lt_succ_of_le hepoch, ?_⟩
        intro pin hstage
        have hlisted := (h.sessions session e he.1).listed pin hstage
        exact hnot (mem_map.mpr ⟨(pin, session), hlisted.1, rfl⟩)

/-! ## Runs -/

theorem Inv.initial : Inv .initial where
  sessions _ _ hat := by cases hat
  held _ _ hmem := by cases hmem
  operations _ _ hk := by cases hk

variable {a : Action}

theorem Inv.act (h : Inv s) (hact : s.act a = some t) : Inv t := by
  cases a with
  | claim =>
    cases hact
    exact h.claim
  | observe session pin =>
    simp only [act] at hact
    split at hact
    next e row hat hpin =>
      split at hact
      next hopen =>
        cases hact
        exact h.observe hat hopen.1 hpin hopen.2
      · cases hact
    · cases hact
  | reapprove session pins =>
    simp only [act] at hact
    split at hact
    next e hat =>
      split at hact
      next hopen =>
        cases hact
        have hrevoked := h.revoke false (all_eq_true.mp hopen.2.2)
        refine hrevoked.refuse hat ?_ ?_
        · rw [hopen.1]
          nofun
        · rw [hopen.1]
          nofun
      · cases hact
    · cases hact
  | revokePin pin =>
    simp only [act] at hact
    split at hact
    next hactive =>
      cases hact
      exact h.revoke false (by simpa using hactive)
    · cases hact
  | approve previous authorizationRevision =>
    simp only [act] at hact
    split at hact
    next hactive =>
      cases hact
      have hrevoked : Inv (s.revoke true previous.toList) := by
        refine h.revoke true ?_
        intro pin hpin
        cases previous with
        | none => cases hpin
        | some other =>
          rw [mem_singleton.mp hpin]
          exact hactive
      exact hrevoked.addPin authorizationRevision
    · cases hact
  | closeAll =>
    cases hact
    exact h.callCloseAll
  | register session =>
    simp only [act] at hact
    split at hact
    next e hat =>
      split at hact
      next pin revision hstage =>
        split at hact
        next registry hregister =>
          cases hact
          exact h.register hat hstage hregister
        · cases hact
          refine h.refuse hat ?_ ?_
          · rw [hstage]
            nofun
          · rw [hstage]
            nofun
      · cases hact
    · cases hact
  | finish session =>
    simp only [act] at hact
    split at hact
    next e hat =>
      split at hact
      · cases hact
      next hopen =>
        cases hact
        exact h.finish hat hopen
    · cases hact
  | proceed operation =>
    simp only [act] at hact
    split at hact
    next o hop =>
      split at hact
      · cases hact
      cases hact
      cases hremaining : o.remaining with
      | all => exact h.proceed_all hop hremaining
      | pins rows =>
        cases rows with
        | nil => exact h.proceed_resolved hop hremaining
        | cons row rest => exact h.proceed_pin hop hremaining
    · cases hact

theorem Inv.step (h : Inv s) (hstep : s.step a = some t) : Inv t := by
  unfold State.step at hstep
  obtain ⟨u, hact, rfl⟩ := map_eq_some_iff.mp hstep
  exact (h.act hact).tick

theorem step_resolved {k : Nat} (hstep : s.step a = some t)
    (hresolved : o.resolved = true) (hop : s.operations[k]? = some o) :
    t.operations[k]? = some o := by
  unfold State.step at hstep
  obtain ⟨u, hact, rfl⟩ := map_eq_some_iff.mp hstep
  have happend : ∀ os : List Operation, (s.operations ++ os)[k]? = some o := by
    intro os
    exact (List.getElem?_append_left (List.getElem?_eq_some_iff.mp hop).1).trans hop
  cases a with
  | claim => cases hact; exact hop
  | observe session pin =>
    simp only [act] at hact
    split at hact
    · split at hact
      · cases hact; exact hop
      · cases hact
    · cases hact
  | reapprove session pins =>
    simp only [act] at hact
    split at hact
    · split at hact
      · cases hact; exact happend _
      · cases hact
    · cases hact
  | revokePin pin =>
    obtain ⟨-, hact⟩ := ite_none_right_eq_some.1 hact
    cases hact; exact happend _
  | approve previous authorizationRevision =>
    obtain ⟨-, hact⟩ := ite_none_right_eq_some.1 hact
    cases hact; exact happend _
  | closeAll => cases hact; exact happend _
  | register session =>
    simp only [act] at hact
    split at hact
    · split at hact
      · split at hact
        · cases hact; exact hop
        · cases hact; exact hop
      · cases hact
    · cases hact
  | finish session =>
    simp only [act] at hact
    split at hact
    · split at hact
      · cases hact
      · cases hact; exact hop
    · cases hact
  | proceed operation =>
    simp only [act] at hact
    split at hact
    swap
    · cases hact
    rename_i o₁ hop₁
    split at hact
    · cases hact
    rename_i hopen
    cases hact
    have hne : operation ≠ k := by
      intro heq
      rw [heq] at hop₁
      have hsame : o₁ = o := some.inj (hop₁.symm.trans hop)
      exact hopen (hsame ▸ hresolved)
    have hset : ∀ o' : Operation, (s.operations.set operation o')[k]? = some o :=
      fun o' => (List.getElem?_set_ne hne).trans hop
    simp only [proceed]
    split
    · exact hset _
    · exact hset _
    · exact hset _

/-- Behind a resolved operation, and for ever, no session of a pin it revoked is registered and, if
it closed all, none that was claimed before. No operation closes a session of another pin. -/
theorem no_session_survives {actions later : List Action} {s t : State} {k : Nat}
    {o : Operation} (hrun : run State.step .initial actions = some s)
    (hop : s.operations[k]? = some o) (hresolved : o.resolved = true)
    (hlater : run State.step s later = some t) : (∀ pin session e, t.At session e →
      e.stage = .registered pin ∨ (pin, session) ∈ t.registry.sessions →
        pin ∉ o.revoked ∧ (o.everything = true → ¬ e.claimedAt < o.committedAt)) ∧
    ∀ (k' : Nat) (o' : Operation) session e, t.operations[k']? = some o' → t.At session e →
      e.closedBy = some k' → o'.everything = true ∨ ∃ pin ∈ o'.revoked, e.pin = some pin := by
  have hstep : ∀ s a t, step s a = some t → Inv s → Inv t := fun _ _ _ hstep h => h.step hstep
  have hinv : Inv t := run_invariant hstep hlater (run_invariant hstep hrun .initial)
  have hkept : t.operations[k]? = some o := by
    refine run_invariant (I := fun u => u.operations[k]? = some o) ?_ hlater hop
    exact fun _ _ _ hstep hop => step_resolved hstep hresolved hop
  have hsealed := hinv.operations k o hkept
  have hnil := hsealed.resolved hresolved
  refine ⟨?_, ?_⟩
  · intro pin session e hat hregistered
    have hstage : e.stage = .registered pin := by
      cases hregistered with
      | inl hstage => exact hstage
      | inr hmem =>
        cases hinv.held pin session hmem with
        | intro x hx =>
          have hsame : x = e := some.inj (hx.1.symm.trans hat)
          exact hsame ▸ hx.2
    refine ⟨?_, ?_⟩
    · intro hpin
      cases (hsealed.revoked pin hpin).2 with
      | inl hwaiting =>
        rw [hnil] at hwaiting
        cases hwaiting with
        | intro revision hwaiting => cases hwaiting.1
      | inr hsettled => exact hsettled.2 session e hat hstage
    · intro hall hlt
      cases hsealed.everything hall with
      | inl hwaiting =>
        rw [hnil] at hwaiting
        cases hwaiting
      | inr hswept => exact (hswept session e hat hlt).2 pin hstage
  · intro k' o' session e hk hat hclosed
    have hcloses := ((hinv.sessions session e hat).closed k' hclosed).2
    cases hcloses with
    | intro o₁ ho₁ =>
      have hsame : o₁ = o' := some.inj (ho₁.1.symm.trans hk)
      exact hsame ▸ ho₁.2

/-- A pin is read, revoked and closed before the registration, which is then refused. -/
theorem no_session_survives_example : ∃ (s t : State) (o : Operation), run State.step .initial
        [.approve none 5, .claim, .observe 0 0, .revokePin 0, .proceed 1, .proceed 1] = some s ∧
      s.operations[1]? = some o ∧ o.revoked = [0] ∧
      run State.step s [.register 0] = some t ∧ t.At 0 ⟨0, 1, some 0, .ended, none⟩ ∧
      ∀ pin session e, t.At session e →
        e.stage = .registered pin ∨ (pin, session) ∈ t.registry.sessions → pin ∉ o.revoked := by
  let s : State :=
    ⟨[⟨6, false⟩], ⟨[], [(0, 6)], 0⟩, [⟨0, 1, some 0, .observed 0 5, none⟩],
      [⟨[], false, 0, .pins [], false⟩, ⟨[0], false, 3, .pins [], true⟩], 6⟩
  have hrun : run step .initial
      [.approve none 5, .claim, .observe 0 0, .revokePin 0, .proceed 1, .proceed 1] = some s := by
    decide
  let t : State := { s with establishments := [⟨0, 1, some 0, .ended, none⟩], time := 7 }
  have hlater : run step s [.register 0] = some t := by decide
  refine ⟨s, t, ⟨[0], false, 3, .pins [], true⟩, hrun, rfl, rfl, hlater, rfl, ?_⟩
  intro pin session e hat hregistered
  have hnone := no_session_survives hrun (k := 1) rfl rfl hlater
  exact (hnone.1 pin session e hat hregistered).1

/-- In every run the registry lists exactly the registered sessions, what an operation closed has
ended, and no observation is ahead of a pin that is still active. -/
theorem registry_agrees {actions : List Action} {s : State}
    (hrun : run State.step .initial actions = some s) :
    (∀ pin session, (pin, session) ∈ s.registry.sessions ↔
      ∃ e, s.At session e ∧ e.stage = .registered pin) ∧
    ∀ session e, s.At session e → (∀ k, e.closedBy = some k → e.stage = .ended) ∧
      ∀ pin read row, e.stage = .observed pin read → s.pins[pin]? = some row →
        row.active = true → read ≤ row.authorizationRevision := by
  have hinv : Inv s := run_invariant (fun _ _ _ hstep h => h.step hstep) hrun .initial
  refine ⟨?_, ?_⟩
  · intro pin session
    refine ⟨hinv.held pin session, ?_⟩
    rintro ⟨e, hat, hstage⟩
    exact ((hinv.sessions session e hat).listed pin hstage).1
  · intro session e hat
    have hsound := hinv.sessions session e hat
    exact ⟨fun k hk => (hsound.closed k hk).1, fun pin read row hstage =>
      (hsound.observed pin read hstage).2.2 row⟩

/-- Two sessions are registered under different pins and a third has observed the first pin, when
that pin is revoked; the third then comes to its registration. -/
def revokedRun : List Action :=
  [.approve none 5, .approve none 7, .claim, .claim, .claim, .observe 0 0, .observe 1 1,
    .observe 2 0, .register 0, .register 1, .revokePin 0, .proceed 2, .proceed 2, .register 2]

theorem registry_agrees_example : ∃ s : State, run State.step .initial revokedRun = some s ∧
    s.registry.sessions = [(1, 1)] ∧ (∃ e, s.At 1 e ∧ e.stage = .registered 1) ∧
      ∃ e, s.At 0 e ∧ e.closedBy = some 2 ∧ e.stage = .ended := by
  obtain ⟨s, hrun, hlisted, e, hat, hclosed⟩ : ∃ s, run State.step .initial revokedRun = some s ∧
      s.registry.sessions = [(1, 1)] ∧ ∃ e, s.At 0 e ∧ e.closedBy = some 2 :=
    ⟨_, rfl, rfl, _, rfl, rfl⟩
  have hagrees := registry_agrees hrun
  exact ⟨s, hrun, hlisted, (hagrees.1 1 1).1 (by rw [hlisted]; exact mem_singleton_self _), e, hat,
    hclosed, (hagrees.2 0 e hat).1 2 hclosed⟩

end TaskHandoff.DeviceTrust
