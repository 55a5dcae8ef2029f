import TaskHandoff.Browser.Settlement
import TaskHandoff.RelaySession.BodyRuns
import TaskHandoff.RelaySession.ResponseRuns
import TaskHandoff.RelaySession.Session

/-! # A closed session is inert

What closing the session releases, and that nothing is obtained any more behind the close event of
the socket. Between the two the peer's frames are still dispatched, so the runs here are those whose
frames then ask for nothing. -/

namespace TaskHandoff.RelaySession

open Machine OrderedMap List Option EncryptedControlPlaneRelaySession Transfers
open Browser (Multiplexer Wire)

namespace Bodies

/-- What the bodies do by themselves, and a cancel, keeps the link and registers nothing. -/
theorem step_frame {s t : State} {a : State.Action} (hstep : s.step a = some t)
    (hown : ownBody a = true ∨ ∃ r, a = .cancel r) :
    t.link = s.link ∧ ∀ b i, t.bodies.get? b = some i → s.bodies.get? b = some i := by
  have hwithin := step_within hstep
  cases a with
  | drain i fails =>
    have ⟨a, _, ht⟩ := hwithin
    rw [ht]
    unfold State.drain
    dsimp only
    split <;> exact ⟨rfl, fun _ _ => id⟩
  | request | socketClosing | close | closeEvent => simp [ownBody] at hown
  | _ => exact ⟨hwithin.link, hwithin.bodies⟩

variable {s : State}

theorem Inv.abortAll_empty (h : Inv s) (b i : Nat) : s.abortAll.bodies.get? b ≠ some i := by
  have hloop : ∀ (l : List Nat) (s : State), Inv s → (∀ b i, s.bodies.get? b = some i → i ∈ l) →
      ∀ b i, (l.foldl State.abortBody s).bodies.get? b ≠ some i := by
    intro l
    induction l with
    | nil => exact fun s _ hall b i hb => not_mem_nil (hall b i hb)
    | cons j l ih =>
      intro s hinv hall
      refine ih _ (hinv.abortBody j) ?_
      intro b i hb
      have hbefore := ((Within.refl s).abortBody j).bodies b i hb
      cases mem_cons.mp (hall b i hbefore) with
      | inr hin => exact hin
      | inl heq =>
        cases hinv.registered b i hbefore with
        | intro a ha =>
          rw [heq] at ha hb
          exact absurd hb (hinv.unregistered_abortBody ha.1 b)
  exact hloop s.bodies.values s h (fun b i hb => mem_values.mpr ⟨b, hb⟩) b i

end Bodies

namespace EncryptedControlPlaneRelaySession

open Bodies (Inv)

theorem transfers_link {s t : Transfers.State} {a : Transfers.Action}
    (hstep : Transfers.step s a = some t)
    (hown : ownTransfer a = true ∨ ∃ r fails, a = .cancel r fails) : t.link = s.link := by
  cases a with
  | ready requestId details data fails =>
    cases hstep
    rfl
  | ack responseId offset fails =>
    obtain ⟨-, hstep⟩ := ite_none_left_eq_some.1 hstep
    cases hstep
    rfl
  | cancel requestId fails =>
    obtain ⟨-, hstep⟩ := ite_none_left_eq_some.1 hstep
    cases hstep
    rfl
  | stall responseId fails =>
    have ⟨tables, _, ht⟩ := Option.map_eq_some_iff.mp hstep
    rw [← ht]
  | socketClosing => simp [ownTransfer] at hown
  | close => simp [ownTransfer] at hown
  | closeEvent => simp [ownTransfer] at hown

/-! ## The invariant -/

/-- The terminals: an open one is in the table, and a closing session has none. -/
structure Terminals (s : EncryptedControlPlaneRelaySession) : Prop where
  opened : ∀ (k : Nat) (t : Terminal), s.terminals[k]? = some t → t.phase = .opened →
    s.ttys.get? t.streamId = some k
  none_left : s.link.closing = true → ∀ streamId, s.ttys.get? streamId = none

/-- The subscriptions: an open one is the current one, and none is left behind the close event. -/
structure Subscriptions (s : EncryptedControlPlaneRelaySession) : Prop where
  current : ∀ k : Nat, s.subscriptions[k]? = some true → s.subscription = some k
  none_left : s.link.closed = true → ∀ k : Nat, s.subscriptions[k]? ≠ some true

/-- The components: their invariants, one link, and empty tables behind the close event. -/
structure Components (s : EncryptedControlPlaneRelaySession) : Prop where
  bodies : Inv s.bodies
  unregistered : s.link.closed = true → ∀ b i, s.bodies.bodies.get? b ≠ some i
  linked : s.transfers.link = s.link
  transfers : Responses.Held s.transfers.link s.transfers.tables ∧ Emptied s.transfers
  counted : s.browser.Counted
  emptied : s.browser.ClosedEmpty
  browser : s.link.closing = true → s.browser.closed = true
  flags : s.link.closed = true → s.link.closing = true

structure Kept (s : EncryptedControlPlaneRelaySession) : Prop where
  terminals : Terminals s
  subscriptions : Subscriptions s
  components : Components s
  handed : ∀ call ∈ s.handed, call.2 = false

/-! ## The parts of a step -/

variable {s : EncryptedControlPlaneRelaySession}

theorem unsubscribe_none (h : Subscriptions s) (k : Nat) :
    s.unsubscribe.subscriptions[k]? ≠ some true := by
  intro hopen
  unfold unsubscribe at hopen
  cases hcurrent : s.subscription with
  | none =>
    rw [hcurrent] at hopen
    have hsome := h.current k hopen
    rw [hcurrent] at hsome
    cases hsome
  | some j =>
    rw [hcurrent] at hopen
    rw [getElem?_set] at hopen
    split at hopen
    · split at hopen
      · cases hopen
      · cases hopen
    next hne =>
      have hsome := h.current k hopen
      rw [hcurrent] at hsome
      exact hne (some.inj hsome)

theorem closeTtys_none (h : Terminals s) (k : Nat) (t : Terminal)
    (ht : s.closeTtys.terminals[k]? = some t) : t.phase ≠ .opened := by
  unfold closeTtys at ht
  rw [getElem?_mapIdx] at ht
  obtain ⟨u, hold, hshape⟩ := map_eq_some_iff.mp ht
  intro hopened
  split at hshape
  · rw [← hshape] at hopened
    cases hopened
  next hout =>
    rw [← hshape] at hopened
    exact hout (mem_values.mpr ⟨u.streamId, h.opened k u hold hopened⟩)

theorem Terminals.settle (h : Terminals s) (k : Nat) {phase : TerminalPhase}
    (hphase : phase ≠ .opened) : Terminals (s.setPhase k phase) := by
  refine ⟨?_, h.none_left⟩
  intro j t ht hopened
  unfold setPhase at ht
  rw [getElem?_modify] at ht
  obtain ⟨u, hold, hshape⟩ := map_eq_some_iff.mp ht
  split at hshape
  · rw [← hshape] at hopened
    exact absurd hopened hphase
  · exact h.opened j t (hshape ▸ hold) hopened

variable {t : EncryptedControlPlaneRelaySession} {transfers : Transfers.State}
  {bodies : Bodies.State}

theorem Terminals.congr (h : Terminals s)
    (hterminals : t.terminals = s.terminals) (httys : t.ttys = s.ttys)
    (hclosing : t.link.closing = s.link.closing) : Terminals t := by
  refine ⟨?_, ?_⟩
  · rw [hterminals, httys]
    exact h.opened
  · rw [hclosing, httys]
    exact h.none_left

theorem Subscriptions.congr (h : Subscriptions s)
    (hsubscriptions : t.subscriptions = s.subscriptions)
    (hcurrent : t.subscription = s.subscription) (hclosed : t.link.closed = s.link.closed) :
    Subscriptions t := by
  refine ⟨?_, ?_⟩
  · rw [hsubscriptions, hcurrent]
    exact h.current
  · rw [hclosed, hsubscriptions]
    exact h.none_left

theorem Components.congr (h : Components s)
    (hbodies : t.bodies = s.bodies) (htransfers : t.transfers = s.transfers)
    (hbrowser : t.browser = s.browser) : Components t := by
  have hlink : t.link = s.link := congrArg Bodies.State.link hbodies
  refine ⟨?_, ?_, ?_, ?_, ?_, ?_, ?_, ?_⟩
  · rw [hbodies]
    exact h.bodies
  · rw [hlink, hbodies]
    exact h.unregistered
  · rw [hlink, htransfers]
    exact h.linked
  · rw [htransfers]
    exact h.transfers
  · rw [hbrowser]
    exact h.counted
  · rw [hbrowser]
    exact h.emptied
  · rw [hlink, hbrowser]
    exact h.browser
  · rw [hlink]
    exact h.flags

section

variable (h : Kept s)

include h

theorem Kept.hand (call : BridgeCall) (hopen : s.link.closing = false) : Kept (s.hand call) := by
  refine ⟨{ h.terminals with }, { h.subscriptions with },
    { h.components with }, ?_⟩
  intro c hc
  cases mem_append.mp hc with
  | inl hold => exact h.handed c hold
  | inr hnew =>
    rw [mem_singleton.mp hnew]
    exact hopen

theorem Kept.openBody (requestId : String) {bodyId : Nat} (size : Nat)
    (hopen : s.link.closed = false) (hfresh : s.bodies.bodies.get? bodyId = none) :
    Kept { s with bodies := s.bodies.openBody requestId bodyId size } := by
  have hclosed : ∀ {p : Prop}, s.link.closed = true → p := by
    intro p heq
    rw [hopen] at heq
    cases heq
  exact ⟨{ h.terminals with }, { h.subscriptions with },
    ⟨h.components.bodies.openBody requestId size hfresh, hclosed, h.components.linked,
      h.components.transfers, h.components.counted, h.components.emptied, h.components.browser,
      hclosed⟩, h.handed⟩

theorem Kept.subscribe (granted : Bool) (hopen : s.link.closing = false) :
    Kept (s.subscribe granted) := by
  have hclosed : s.link.closed = false := by
    by_contra hne
    have hflag := h.components.flags (by simpa using hne)
    rw [hopen] at hflag
    cases hflag
  have hframe : s.unsubscribe.bodies = s.bodies ∧ s.unsubscribe.transfers = s.transfers ∧
      s.unsubscribe.browser = s.browser ∧ s.unsubscribe.terminals = s.terminals ∧
      s.unsubscribe.ttys = s.ttys ∧ s.unsubscribe.handed = s.handed := by
    unfold unsubscribe
    split
    · exact ⟨rfl, rfl, rfl, rfl, rfl, rfl⟩
    · exact ⟨rfl, rfl, rfl, rfl, rfl, rfl⟩
  have hlink : s.unsubscribe.link = s.link := congrArg Bodies.State.link hframe.1
  have hnone := unsubscribe_none h.subscriptions
  have hhanded : ∀ call ∈ (s.unsubscribe.hand .subscribe).handed, call.2 = false := by
    intro c hc
    cases List.mem_append.mp hc with
    | inl hold => exact h.handed c (hframe.2.2.2.2.2 ▸ hold)
    | inr hnew =>
      rw [List.mem_singleton.mp hnew]
      exact (congrArg Link.closing hlink).trans hopen
  unfold EncryptedControlPlaneRelaySession.subscribe
  split
  swap
  · refine ⟨h.terminals.congr hframe.2.2.2.1 hframe.2.2.2.2.1 (congrArg Link.closing hlink), ?_,
      h.components.congr hframe.1 hframe.2.1 hframe.2.2.1, hhanded⟩
    exact ⟨fun k hk => absurd hk (hnone k), fun _ k => hnone k⟩
  refine ⟨h.terminals.congr hframe.2.2.2.1 hframe.2.2.2.2.1 (congrArg Link.closing hlink), ?_,
    h.components.congr hframe.1 hframe.2.1 hframe.2.2.1, hhanded⟩
  refine ⟨?_, ?_⟩
  · intro k hk
    rw [List.getElem?_append] at hk
    split at hk
    · exact absurd hk (hnone k)
    have hlt := (List.getElem?_eq_some_iff.mp hk).1
    have hk' : k = s.unsubscribe.subscriptions.length := by
      have hle : k - (s.unsubscribe.hand .subscribe).subscriptions.length < 1 := hlt
      have hsame : (s.unsubscribe.hand .subscribe).subscriptions.length =
        s.unsubscribe.subscriptions.length := rfl
      omega
    rw [hk']
    rfl
  · intro heq
    have hcontra := (congrArg Link.closed hlink).symm.trans heq
    rw [hclosed] at hcontra
    cases hcontra

theorem Kept.ttyOpen (streamId : String) (hopen : s.link.closing = false) :
    Kept (s.ttyOpen streamId) := by
  have hopening : Kept { s with terminals := s.terminals ++ [(⟨streamId, .opening⟩ : Terminal)] } := by
    refine ⟨⟨?_, h.terminals.none_left⟩, { h.subscriptions with },
      { h.components with }, h.handed⟩
    intro k t ht hopened
    rw [getElem?_append] at ht
    split at ht
    · exact h.terminals.opened k t ht hopened
    have hnew := mem_singleton.mp (mem_of_getElem? ht)
    rw [hnew] at hopened
    cases hopened
  exact hopening.hand (.openTty streamId) hopen

theorem Kept.ttyAnswered {k : Nat} {t : Terminal} (ht : s.terminals[k]? = some t) (granted : Bool)
    (hfree : granted = true → s.link.closing = true ∨ s.ttys.get? t.streamId = none) :
    Kept (s.ttyAnswered k t granted) := by
  have hsettled : ∀ phase : TerminalPhase, phase ≠ .opened → Kept (s.setPhase k phase) :=
    fun phase hphase => ⟨h.terminals.settle k hphase, { h.subscriptions with },
      { h.components with }, h.handed⟩
  unfold EncryptedControlPlaneRelaySession.ttyAnswered
  split
  swap
  · exact hsettled .failed nofun
  rename_i hgranted
  split
  · exact hsettled .closed nofun
  rename_i hopen
  have hnone : s.ttys.get? t.streamId = none := by
    cases hfree hgranted with
    | inl hclosing => exact absurd hclosing hopen
    | inr hnone => exact hnone
  refine ⟨⟨?_, fun hclosing => absurd hclosing hopen⟩, { h.subscriptions with },
    { h.components with }, h.handed⟩
  intro j x hx hopened
  unfold setPhase at hx
  rw [getElem?_modify] at hx
  obtain ⟨u, hold, hshape⟩ := map_eq_some_iff.mp hx
  rw [get?_set]
  split at hshape
  next heq =>
    have hsame : u = t := by
      rw [← heq, ht] at hold
      exact (some.inj hold).symm
    rw [← hshape, hsame, if_pos rfl, heq]
  rename_i hne
  have hu : u = x := hshape
  have hin := h.terminals.opened j x (hu ▸ hold) hopened
  have hother : x.streamId ≠ t.streamId := by
    intro heq
    rw [heq, hnone] at hin
    cases hin
  rw [if_neg hother]
  exact hin

theorem Kept.ttyClose (streamId : String) : Kept (s.ttyClose streamId) := by
  unfold EncryptedControlPlaneRelaySession.ttyClose
  cases hfind : s.ttys.get? streamId with
  | none => exact h
  | some k =>
    have hsettled : Terminals (s.setPhase k .closed) := h.terminals.settle k nofun
    refine ⟨⟨?_, ?_⟩, { h.subscriptions with }, { h.components with }, h.handed⟩
    · intro j x hx hopened
      have hin : s.ttys.get? x.streamId = some j := hsettled.opened j x hx hopened
      have hother : x.streamId ≠ streamId := by
        intro heq
        rw [heq, hfind] at hin
        have hj : k = j := some.inj hin
        rw [← hj] at hx
        unfold setPhase at hx
        rw [getElem?_modify_eq] at hx
        obtain ⟨u, hold, hshape⟩ := map_eq_some_iff.mp hx
        rw [← hshape] at hopened
        cases hopened
      exact (get?_erase_ne s.ttys hother).trans hin
    · intro hclosing id
      rw [get?_erase]
      split
      · rfl
      · exact h.terminals.none_left hclosing id

theorem Kept.under_link
    (hlink : t.link = s.link) (hparts : t.terminals = s.terminals ∧ t.ttys = s.ttys ∧
      t.subscriptions = s.subscriptions ∧ t.subscription = s.subscription ∧ t.handed = s.handed)
    (hcomponents : Components t) : Kept t :=
  ⟨h.terminals.congr hparts.1 hparts.2.1 (congrArg Link.closing hlink),
    h.subscriptions.congr hparts.2.2.1 hparts.2.2.2.1 (congrArg Link.closed hlink), hcomponents,
    hparts.2.2.2.2 ▸ h.handed⟩

/-- What closing leaves: the link is closing, and each component is behind its own close. -/
theorem Kept.shut (link : Link)
    (hclosing : link.closing = true) (hbodies : bodies = { s.bodies.abortAll with link := link })
    (hlinked : transfers.link = link)
    (htransfers : Responses.Held transfers.link transfers.tables ∧ Emptied transfers) :
    Kept { s.release with bodies, transfers } := by
  have hframe : s.unsubscribe.bodies = s.bodies ∧ s.unsubscribe.browser = s.browser ∧
      s.unsubscribe.terminals = s.terminals ∧ s.unsubscribe.ttys = s.ttys ∧
      s.unsubscribe.handed = s.handed := by
    unfold unsubscribe
    split
    · exact ⟨rfl, rfl, rfl, rfl, rfl⟩
    · exact ⟨rfl, rfl, rfl, rfl, rfl⟩
  have hterminals : Terminals s.unsubscribe :=
    h.terminals.congr hframe.2.2.1 hframe.2.2.2.1 (congrArg (fun b => b.link.closing) hframe.1)
  have hnone := unsubscribe_none h.subscriptions
  have hempty := h.components.bodies.abortAll_empty
  refine ⟨⟨?_, fun _ _ => rfl⟩, ⟨fun k hk => absurd hk (hnone k), fun _ k => hnone k⟩, ?_, ?_⟩
  · intro k t ht hopened
    exact absurd hopened (closeTtys_none hterminals k t ht)
  · refine ⟨?_, ?_, ?_, htransfers, ?_, ?_, fun _ => ?_, fun _ => ?_⟩
    · rw [hbodies]
      exact h.components.bodies.abortAll.relink link
    · intro _ b i
      rw [hbodies]
      exact hempty b i
    · show transfers.link = bodies.link
      rw [hlinked, hbodies]
    · have hcounted : s.unsubscribe.browser.Counted := hframe.2.1 ▸ h.components.counted
      exact hcounted.close _ _
    · intro _
      exact Multiplexer.close_channels _ _ _
    · exact Multiplexer.close_closed _ _ _
    · rw [hbodies]
      exact hclosing
  · intro c hc
    exact h.handed c (hframe.2.2.2.2 ▸ hc)

end

/-! ## Runs -/

/-- Frames ask for nothing of a closing session, body ids and stream ids in use are not taken
again, and no response with bytes is ready behind the socket's close event. -/
def Quiet (s : EncryptedControlPlaneRelaySession) : Action → Prop
  | .request _ body => s.link.closing = false ∧ ∀ b ∈ body, s.bodies.bodies.get? b.1 = none
  | .subscribe _ => s.link.closing = false
  | .ttyOpen _ => s.link.closing = false
  | .ttyAnswered terminal granted =>
    ∀ t ∈ s.terminals[terminal]?, granted = true →
      s.link.closing = true ∨ s.ttys.get? t.streamId = none
  | .transfer a => InTime s.transfers a
  | _ => True

instance (s : EncryptedControlPlaneRelaySession) (a : Action) : Decidable (Quiet s a) := by
  cases a <;> unfold Quiet <;> infer_instance

theorem frame_some {s t u : EncryptedControlPlaneRelaySession} (h : s.frame t = some u) :
    s.link.closed = false ∧ u = t := by
  unfold frame at h
  split at h
  · cases h
  next hopen => exact ⟨by simpa using hopen, (some.inj h).symm⟩

theorem both_some {a : Bodies.State.Action} {b : Transfers.Action} (h : s.both a b = some t) :
    ∃ bodies transfers, s.bodies.step a = some bodies ∧
      Transfers.step s.transfers b = some transfers ∧ t = { s with bodies, transfers } := by
  unfold both at h
  split at h
  next bodies transfers hbodies htransfers =>
    exact ⟨bodies, transfers, hbodies, htransfers, (some.inj h).symm⟩
  · cases h

theorem release_frame (s : EncryptedControlPlaneRelaySession) :
    s.release.bodies = s.bodies ∧ s.release.transfers = s.transfers := by
  unfold release unsubscribe
  split
  · exact ⟨rfl, rfl⟩
  · exact ⟨rfl, rfl⟩

/-- The bodies take a step of their own, and the transfers one that leaves the same link. -/
theorem Components.moved (hc : Components s) (hframe : bodies.link = s.bodies.link ∧
      ∀ b i, bodies.bodies.get? b = some i → s.bodies.bodies.get? b = some i)
    (hbodies : Bodies.Inv bodies) (hlink : transfers.link = s.transfers.link)
    (htransfers : Responses.Held transfers.link transfers.tables ∧ Emptied transfers) :
    Components { s with bodies, transfers } := by
  have hclosing : bodies.link.closing = s.bodies.link.closing := congrArg Link.closing hframe.1
  have hclosed : bodies.link.closed = s.bodies.link.closed := congrArg Link.closed hframe.1
  refine ⟨hbodies, ?_, hlink.trans (hc.linked.trans hframe.1.symm), htransfers, hc.counted,
    hc.emptied, ?_, ?_⟩
  · intro h b i hb
    exact hc.unregistered (hclosed.symm.trans h) b i (hframe.2 b i hb)
  · exact fun h => hc.browser (hclosing.symm.trans h)
  · exact fun h => hclosing.trans (hc.flags (hclosed.symm.trans h))

theorem step_kept {a : Action} (hstep : s.step a = some t)
    (hquiet : Quiet s a) (h : Kept s) : Kept t := by
  have hc := h.components
  cases a with
  | request requestId body =>
    have hframe := frame_some hstep
    rw [hframe.2]
    cases body with
    | none => exact h.hand (.request requestId) hquiet.1
    | some b =>
      have hopened := h.openBody requestId b.2 hframe.1 (hquiet.2 b rfl)
      exact hopened.hand (.request requestId) hquiet.1
  | subscribe granted =>
    rw [(frame_some hstep).2]
    exact h.subscribe granted hquiet
  | ttyOpen streamId =>
    rw [(frame_some hstep).2]
    exact h.ttyOpen streamId hquiet
  | ttyAnswered terminal granted =>
    simp only [step] at hstep
    split at hstep
    · cases hstep
    next t ht =>
      split at hstep
      · cases hstep
        exact h.ttyAnswered ht granted (hquiet t ht)
      · cases hstep
  | ttyInput streamId =>
    rw [(frame_some hstep).2]
    unfold ttyInput
    split
    · exact h
    rename_i terminal hfind
    refine h.hand (.ttyInput terminal) ?_
    by_contra hclosing
    have hnone := h.terminals.none_left (by simpa using hclosing) streamId
    rw [hfind] at hnone
    cases hnone
  | ttyClose streamId =>
    rw [(frame_some hstep).2]
    exact h.ttyClose streamId
  | cancel requestId fails =>
    have ⟨bodies, transfers, hbodies, htransfers, ht⟩ := both_some hstep
    rw [ht]
    have hframe := Bodies.step_frame hbodies (.inr ⟨requestId, rfl⟩)
    have hlink := transfers_link htransfers (.inr ⟨requestId, fails, rfl⟩)
    exact h.under_link hframe.1 ⟨rfl, rfl, rfl, rfl, rfl⟩ (hc.moved hframe
      (Bodies.step_inv hbodies trivial hc.bodies) hlink
      (Transfers.step_emptied htransfers trivial hc.transfers))
  | body a =>
    simp only [step] at hstep
    split at hstep
    next hown =>
      obtain ⟨bodies, hbody, rfl⟩ := map_eq_some_iff.mp hstep
      have hframe := Bodies.step_frame hbody (.inl hown)
      have hfresh : Bodies.Fresh s.bodies a := by
        cases a with
        | request requestId bodyId size => cases hown
        | _ => trivial
      exact h.under_link hframe.1 ⟨rfl, rfl, rfl, rfl, rfl⟩ (hc.moved hframe
        (Bodies.step_inv hbody hfresh hc.bodies) rfl hc.transfers)
    · cases hstep
  | transfer a =>
    simp only [step] at hstep
    split at hstep
    next hown =>
      obtain ⟨transfers, htransfer, rfl⟩ := map_eq_some_iff.mp hstep
      have hlink := transfers_link htransfer (.inl hown)
      refine h.under_link rfl ⟨rfl, rfl, rfl, rfl, rfl⟩ ?_
      exact ⟨hc.bodies, hc.unregistered, hlink.trans hc.linked,
        Transfers.step_emptied htransfer hquiet hc.transfers, hc.counted, hc.emptied,
        hc.browser, hc.flags⟩
    · cases hstep
  | browser a wire =>
    simp only [step] at hstep
    split at hstep
    next hown =>
      obtain ⟨browser, hbrowser, rfl⟩ := map_eq_some_iff.mp hstep
      have hfree : s.browser.DrawsFreeId (a, wire) := by
        cases a with
        | openChannel instanceId aborted => cases hown
        | _ => trivial
      refine h.under_link rfl ⟨rfl, rfl, rfl, rfl, rfl⟩ ?_
      refine ⟨hc.bodies, hc.unregistered, hc.linked, hc.transfers,
        hc.counted.step hbrowser hfree, hc.emptied.step hbrowser, ?_, hc.flags⟩
      intro hclosing
      have hclosed := hc.browser hclosing
      exact (Multiplexer.step_of_closed hclosed (hc.emptied hclosed) hbrowser).1
    · cases hstep
  | socketClosing =>
    have hboth : s.both .socketClosing .socketClosing = some t := hstep
    have ⟨bodies, transfers, hbodies, hstop, ht⟩ := both_some hboth
    have htransfers := Transfers.step_emptied hstop trivial hc.transfers
    cases hbodies
    cases hstop
    rw [ht]
    refine ⟨{ h.terminals with }, { h.subscriptions with }, ?_, h.handed⟩
    refine ⟨hc.bodies.relink _, hc.unregistered, ?_, htransfers, hc.counted, hc.emptied,
      hc.browser, hc.flags⟩
    exact congrArg (fun link => ({ link with socketOpen := false } : Link)) hc.linked
  | close =>
    have hboth : s.release.both .close .close = some t := hstep
    have ⟨bodies, transfers, hbodies, htransfers, ht⟩ := both_some hboth
    rw [(release_frame s).1] at hbodies
    rw [(release_frame s).2] at htransfers
    have hlast := Transfers.step_emptied htransfers trivial hc.transfers
    rw [ht]
    refine h.shut s.link.close rfl (some.inj hbodies).symm ?_ hlast
    cases htransfers
    exact congrArg Link.close hc.linked
  | closeEvent =>
    have hboth : s.release.both .closeEvent .closeEvent = some t := hstep
    have ⟨bodies, transfers, hbodies, htransfers, ht⟩ := both_some hboth
    rw [(release_frame s).1] at hbodies
    rw [(release_frame s).2] at htransfers
    have hlast := Transfers.step_emptied htransfers trivial hc.transfers
    rw [ht]
    obtain ⟨-, hbodies⟩ := ite_none_left_eq_some.1 hbodies
    simp only [Transfers.step] at htransfers
    split at htransfers
    · cases htransfers
    refine h.shut .closeEvent rfl (some.inj hbodies).symm ?_ hlast
    cases htransfers
    rfl

theorem Kept.initial : Kept .initial where
  terminals := ⟨nofun, fun heq => by cases heq⟩
  subscriptions := ⟨nofun, fun heq => by cases heq⟩
  components := ⟨.initial, fun heq => (by cases heq), rfl,
    ⟨held_initial, fun heq => (by cases heq)⟩, Multiplexer.init_counted true,
    fun heq => (by cases heq), fun heq => (by cases heq), fun heq => (by cases heq)⟩
  handed := nofun

/-- What a closed session has left: no call on the bridge since the close, and nothing open that
it obtained. -/
structure Inert (s : EncryptedControlPlaneRelaySession) : Prop where
  handed : ∀ call ∈ s.handed, call.2 = false
  subscriptions : s.link.closed = true → ∀ isOpen ∈ s.subscriptions, isOpen = false
  terminals : s.link.closed = true → ∀ t ∈ s.terminals, t.phase ≠ .opened
  channels : s.link.closed = true → ∀ peer ∈ s.browser.peers, s.browser.peersClosed.count peer = 1
  bodies : s.link.closed = true → ∀ (i : Nat) (a : Assembly), s.bodies.assemblies[i]? = some a →
    (∀ b, s.bodies.bodies.get? b ≠ some i) ∧ a.timer = false ∧ a.destroyed = true
  responses : s.link.closed = true → s.transfers.tables.responses = []

theorem Kept.inert (h : Kept s) : Inert s where
  handed := h.handed
  subscriptions hclosed isOpen hmem := by
    cases getElem?_of_mem hmem with
    | intro k hk =>
      by_contra hopen
      have hopen : isOpen = true := by simpa using hopen
      exact h.subscriptions.none_left hclosed k (hopen ▸ hk)
  terminals hclosed t hmem hopened := by
    cases getElem?_of_mem hmem with
    | intro k hk =>
      have hin := h.terminals.opened k t hk hopened
      rw [h.terminals.none_left (h.components.flags hclosed)] at hin
      cases hin
  channels hclosed peer hpeer := by
    have hbrowser := h.components.browser (h.components.flags hclosed)
    have hchannels := h.components.emptied hbrowser
    have hcount := h.components.counted.peers peer
    have hone := count_eq_one_of_mem (nodup_append.mp h.components.counted.refs).2.1 hpeer
    have hheld : s.browser.held = [] := by
      simp [Multiplexer.held, hchannels, OrderedMap.values, OrderedMap.empty]
    rw [hheld, hone] at hcount
    exact hcount
  bodies hclosed i a hat := by
    refine ⟨fun b => h.components.unregistered hclosed b i, ?_⟩
    cases h.components.bodies.disposed i a hat with
    | inl hin => exact absurd hin (h.components.unregistered hclosed _ i)
    | inr hdisposed => exact hdisposed
  responses hclosed := by
    have hlinked := congrArg Link.closed h.components.linked
    exact (h.components.transfers.2 (hlinked.trans hclosed)).2

/-- In a run of quiet steps a closed session is inert. -/
theorem closed_session_inert {actions : List Action} {s : EncryptedControlPlaneRelaySession}
    (hrun : run step .initial actions = some s) (hsteps : AllSteps step Quiet .initial actions) :
    Inert s :=
  (run_invariant_of_steps (fun _ _ _ hstep hquiet h => step_kept hstep hquiet h) hrun hsteps
    .initial).inert

theorem closed_session_inert_example : ∃ s, run step .initial
        [.subscribe true, .ttyOpen "t", .ttyAnswered 0 true, .ttyInput "t", .ttyOpen "u",
          .request "r" (some (5, 3)), .transfer (.ready "q" true [1] []), .close,
          .ttyAnswered 1 true, .closeEvent] = some s ∧ s.link.closed = true ∧
      (∀ t ∈ s.terminals, t.phase ≠ .opened) ∧ s.handed.length = 5 := by
  have hsteps : AllSteps step Quiet .initial
      [.subscribe true, .ttyOpen "t", .ttyAnswered 0 true, .ttyInput "t", .ttyOpen "u",
        .request "r" (some (5, 3)), .transfer (.ready "q" true [1] []), .close,
        .ttyAnswered 1 true, .closeEvent] := by decide
  exact ⟨_, rfl, rfl, (closed_session_inert rfl hsteps).terminals rfl, rfl⟩

/-- A request frame behind the close is handed to the bridge; a stream id opened twice leaves the
first terminal open. -/
theorem closed_session_acts : (∃ s, run step .initial [.close, .request "r" none] = some s ∧
      (BridgeCall.request "r", true) ∈ s.handed) ∧
    ∃ s, run step .initial
        [.ttyOpen "t", .ttyAnswered 0 true, .ttyOpen "t", .ttyAnswered 1 true, .closeEvent] =
          some s ∧
      s.link.closed = true ∧ s.terminals[0]? = some ⟨"t", .opened⟩ := by
  exact ⟨⟨_, rfl, by decide⟩, _, rfl, rfl, rfl⟩

end EncryptedControlPlaneRelaySession

end TaskHandoff.RelaySession
