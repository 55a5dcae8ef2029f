import TaskHandoff.Relay.ChannelEnd

/-! # The names of open sockets

At both ends of an open channel an auxiliary socket that is open is the one its
channel id leads to. All operations but the opening of a socket only take names
away, and none from a socket that stays open.
-/

namespace TaskHandoff.Relay

open OrderedMap NodeRelayChannelSocket

namespace NodeChannel

/-! ## Operations that open no socket -/

/-- From `w` to `w'` no socket was opened or registered, and an open socket did
not lose its name. -/
structure Shrinks (w w' : NodeChannel) : Prop where
  nextSocket : w'.nextSocket = w.nextSocket
  closed : w'.closed = false → w.closed = false
  channelId : ∀ s, (w'.sockets s).channelId = (w.sockets s).channelId
  live : ∀ s, (w'.sockets s).readyState = .OPEN → (w.sockets s).readyState = .OPEN
  aux : w'.closed = false → ∀ c s, w'.aux.get? c = some s → w.aux.get? c = some s
  kept : w'.closed = false → ∀ s, (w'.sockets s).readyState = .OPEN →
    w.aux.get? (w.sockets s).channelId = some s → w'.aux.get? (w.sockets s).channelId = some s

namespace Shrinks

theorem refl (w : NodeChannel) : Shrinks w w where
  nextSocket := rfl
  closed h := h
  channelId _ := rfl
  live _ h := h
  aux _ _ _ h := h
  kept _ _ _ h := h

variable {w w' w'' : NodeChannel}

theorem trans (h : Shrinks w w') (h' : Shrinks w' w'') : Shrinks w w'' where
  nextSocket := h'.nextSocket.trans h.nextSocket
  closed hopen := h.closed (h'.closed hopen)
  channelId s := (h'.channelId s).trans (h.channelId s)
  live s hopen := h.live s (h'.live s hopen)
  aux hopen c s hs := h.aux (h'.closed hopen) c s (h'.aux hopen c s hs)
  kept hopen s hlive hs := by
    have hbetween := h.kept (h'.closed hopen) s (h'.live s hlive) hs
    have hlast := h'.kept hopen s hlive
    rw [h.channelId s] at hlast
    exact hlast hbetween

theorem of_aux (hname : ∀ s, (w'.sockets s).channelId = (w.sockets s).channelId)
    (hlive : ∀ s, (w'.sockets s).readyState = .OPEN → (w.sockets s).readyState = .OPEN)
    (haux : w'.aux = w.aux) (hnext : w'.nextSocket = w.nextSocket)
    (hclosed : w'.closed = w.closed) : Shrinks w w' where
  nextSocket := hnext
  closed hopen := hclosed.symm.trans hopen
  channelId := hname
  live := hlive
  aux _ c s hs := by rwa [haux] at hs
  kept _ s _ hs := by rwa [haux]

theorem of_same (hsame : (w'.sockets, w'.aux, w'.nextSocket, w'.closed) =
    (w.sockets, w.aux, w.nextSocket, w.closed)) : Shrinks w w' := by
  simp only [Prod.mk.injEq] at hsame
  obtain ⟨hsockets, haux, hnext, hclosed⟩ := hsame
  refine of_aux (fun s => by rw [hsockets]) (fun s => ?_) haux hnext hclosed
  rw [hsockets]
  exact id

theorem of_closed (hnext : w'.nextSocket = w.nextSocket) (hclosed : w'.closed = true)
    (hname : ∀ s, (w'.sockets s).channelId = (w.sockets s).channelId)
    (hlive : ∀ s, (w'.sockets s).readyState = .OPEN → (w.sockets s).readyState = .OPEN) :
    Shrinks w w' := by
  have hnot : w'.closed ≠ false := by simp [hclosed]
  exact
    { nextSocket := hnext
      closed := fun hopen => (hnot hopen).elim
      channelId := hname
      live := hlive
      aux := fun hopen => (hnot hopen).elim
      kept := fun hopen => (hnot hopen).elim }

theorem leave {c : String} {t : Nat} (ht : w.aux.get? c = some t)
    (hrest : Shrinks w' w'') (hshut : (w''.sockets t).readyState ≠ .OPEN)
    (hsockets : w'.sockets = w.sockets) (hnext : w'.nextSocket = w.nextSocket)
    (hclosed : w'.closed = w.closed) (haux : w'.aux = w.aux.erase c) : Shrinks w w'' where
  nextSocket := hrest.nextSocket.trans hnext
  closed hopen := hclosed.symm.trans (hrest.closed hopen)
  channelId s := by rw [hrest.channelId s, hsockets]
  live s hs := by
    have hbefore := hrest.live s hs
    rwa [hsockets] at hbefore
  aux hopen c' s hs := by
    have hbetween := hrest.aux hopen c' s hs
    rw [haux, get?_erase] at hbetween
    split at hbetween
    · cases hbetween
    · exact hbetween
  kept hopen s hlive hs := by
    have hlast := hrest.kept hopen s hlive
    rw [hsockets] at hlast
    refine hlast ?_
    have hne : (w.sockets s).channelId ≠ c := by
      intro heq
      rw [heq, ht] at hs
      cases hs
      exact hshut hlive
    rw [haux, get?_erase_ne _ hne]
    exact hs

theorem update (w : NodeChannel) (s : Nat) {f : NodeRelayChannelSocket → NodeRelayChannelSocket}
    (hf : ∀ socket, (f socket).channelId = socket.channelId ∧
      ((f socket).readyState = .OPEN → socket.readyState = .OPEN)) :
    Shrinks w (w.updateSocket s f) := by
  have hsocket : ∀ t, ((w.updateSocket s f).sockets t).channelId = (w.sockets t).channelId ∧
      (((w.updateSocket s f).sockets t).readyState = .OPEN → (w.sockets t).readyState = .OPEN) := by
    intro t
    by_cases ht : t = s
    · rw [ht, updateSocket_self]
      exact hf (w.sockets s)
    · rw [updateSocket_ne w ht]
      exact ⟨rfl, id⟩
  exact of_aux (fun t => (hsocket t).1) (fun t => (hsocket t).2) rfl rfl rfl

end Shrinks

theorem EndedSocket.names {held : List Nat} {t : Nat} {before after : NodeRelayChannelSocket}
    (h : EndedSocket held t before after) : after.channelId = before.channelId ∧
      (after.readyState = .OPEN → before.readyState = .OPEN) := by
  rcases h with rfl | ⟨hopen, hclosed⟩
  · exact ⟨rfl, id⟩
  · refine ⟨?_, fun _ => hopen⟩
    rcases hclosed with rfl | ⟨-, rfl⟩ <;> rfl

theorem remoteClosed_not_open (w : NodeChannel) (s : Nat) (cause : CloseCause) :
    ((w.remoteClosed s cause).sockets s).readyState ≠ .OPEN := by
  cases hopen : w.isOpen s with
  | false =>
    rw [remoteClosed_of_closed hopen]
    obtain ⟨state, hstate⟩ := not_isOpen_iff.mp hopen
    simp [hstate]
  | true =>
    rw [remoteClosed_self hopen]
    simp [drop]

theorem remoteClosed_shrinks (w : NodeChannel) (s : Nat) (cause : CloseCause) :
    Shrinks w (w.remoteClosed s cause) := by
  cases hopen : w.isOpen s with
  | false =>
    rw [remoteClosed_of_closed hopen]
    exact Shrinks.refl w
  | true =>
    rw [remoteClosed_of_open hopen]
    have hdropped := Shrinks.update w s (f := fun socket => socket.drop cause)
      fun socket => ⟨rfl, by simp [drop]⟩
    exact hdropped.trans (.of_same rfl)

theorem finishSession_shrinks (w : NodeChannel) : Shrinks w w.finishSession := by
  unfold finishSession
  split
  · exact Shrinks.refl w
  · exact .of_same rfl

theorem close_shrinks (w : NodeChannel) : Shrinks w w.close := by
  cases hclosed : w.closed with
  | true =>
    rw [close_of_closed hclosed]
    exact Shrinks.refl w
  | false =>
    obtain ⟨v, hends, hclose⟩ := close_spec hclosed
    rw [hclose]
    have hclosedV : v.closed = true ∧ v.nextSocket = w.nextSocket := by
      obtain ⟨_, _, _, _, _, hv⟩ := hends.frame
      rw [hv]
      exact ⟨rfl, rfl⟩
    have hended : Shrinks w v := Shrinks.of_closed hclosedV.2 hclosedV.1
      (fun s => (hends.socket s).names.1) fun s => (hends.socket s).names.2
    exact hended.trans (finishSession_shrinks v)

theorem sessionEnd_shrinks (w : NodeChannel) : Shrinks w w.sessionEnd := by
  unfold sessionEnd
  split
  · exact Shrinks.refl w
  · exact (finishSession_shrinks w).trans (close_shrinks _)

theorem handOver_shrinks (w : NodeChannel) (item : Option Item) :
    Shrinks w (w.handOver item).1 := by
  have hanswered : ∀ answers outboundData,
      Shrinks w { w with answers := answers, outboundData := outboundData } := fun _ _ =>
    .of_same rfl
  rcases w.handOver_cases item with
    ⟨hsame, -⟩ | ⟨-, answers, -, ⟨hsent, -⟩ | ⟨hrefused, -⟩ | hended⟩
  · rw [hsame]
    exact Shrinks.refl w
  · rw [hsent]
    exact hanswered _ _
  · rw [hrefused]
    exact hanswered answers w.outboundData
  · rw [hended]
    exact (hanswered answers w.outboundData).trans (sessionEnd_shrinks _)

theorem sendClose_shrinks (w : NodeChannel) (code : Nat) (reason : String) (s : Nat) (c : String) :
    Shrinks w (sendClose code reason s c w) := by
  have hsent := w.handOver_shrinks (some (.channelClose s c code (reason.take 512).toString))
  unfold sendClose
  split
  · exact Shrinks.refl w
  generalize w.handOver _ = result at hsent
  obtain ⟨sent, returned⟩ := result
  cases returned with
  | true => exact hsent
  | false => exact hsent.trans (.of_same rfl)

section Close

variable {endChannel : NodeChannel → NodeChannel}
    {sendClose : Nat → String → NodeChannel → NodeChannel}
    (hend : ∀ w, Shrinks w (endChannel w)) (hsend : ∀ s c w, Shrinks w (sendClose s c w))

include hend hsend

theorem emitChannelCloseWith_shrinks (cause : CloseCause) (w : NodeChannel) (c : String) :
    Shrinks w (emitChannelCloseWith endChannel sendClose cause w c) := by
  unfold emitChannelCloseWith
  split
  · exact hend w
  simp only
  split
  · exact .of_same rfl
  next t ht =>
  have hannounced := hsend t c
    (unregister { w with pendingOpens := w.pendingOpens.erase c } c t)
  exact Shrinks.leave ht (hannounced.trans (remoteClosed_shrinks _ t cause))
    (remoteClosed_not_open _ t cause) rfl rfl rfl rfl

theorem closeSocketWith_shrinks (cause : CloseCause) (w : NodeChannel) (s : Nat) :
    Shrinks w (closeSocketWith endChannel sendClose cause w s) ∧
      ((closeSocketWith endChannel sendClose cause w s).sockets s).readyState ≠ .OPEN := by
  unfold closeSocketWith
  by_cases hopen : w.isOpen s = true
  · rw [if_pos hopen]
    have hmarked := Shrinks.update w s
      (f := fun socket => { socket with readyState := .CLOSED cause }) fun socket => ⟨rfl, by simp⟩
    have hemitted := emitChannelCloseWith_shrinks hend hsend cause
      (w.updateSocket s fun socket => { socket with readyState := .CLOSED cause })
      (w.sockets s).channelId
    refine ⟨hmarked.trans hemitted, fun hlive => ?_⟩
    have hbefore := hemitted.live s hlive
    rw [updateSocket_self] at hbefore
    cases hbefore
  · rw [if_neg hopen]
    exact ⟨Shrinks.refl w, fun hlive => hopen (isOpen_iff.mpr hlive)⟩

end Close

theorem closeSocket_shrinks (w : NodeChannel) (s code : Nat) (reason : String) :
    Shrinks w (w.closeSocket s code reason) ∧
      ((w.closeSocket s code reason).sockets s).readyState ≠ .OPEN := by
  unfold closeSocket
  split
  · exact closeSocketWith_shrinks Shrinks.refl (fun _ _ w => Shrinks.refl w) _ w s
  · exact closeSocketWith_shrinks close_shrinks
      (fun s c w => sendClose_shrinks w code reason s c) _ w s

/-- From `w` to `w'` open sockets are left alone, and only closes are queued. -/
structure Spares (w w' : NodeChannel) : Prop where
  socket : ∀ t, (w'.sockets t).readyState = .OPEN → w'.sockets t = w.sockets t
  outboundData : ∀ item ∈ w'.outboundData,
    item ∈ w.outboundData ∨ (w'.sockets item.socket).readyState ≠ .OPEN
  capacityWaiters : ∀ t ∈ w'.capacityWaiters, t ∈ w.capacityWaiters

theorem Spares.trans {w w' w'' : NodeChannel} (h : Spares w w') (h' : Spares w' w'')
    (hlive : ∀ t, (w''.sockets t).readyState = .OPEN → (w'.sockets t).readyState = .OPEN) :
    Spares w w'' where
  socket t hopen := (h'.socket t hopen).trans (h.socket t (hlive t hopen))
  outboundData item hitem := by
    rcases h'.outboundData item hitem with hbetween | hclosed
    · rcases h.outboundData item hbetween with hold | hclosed
      · exact Or.inl hold
      · exact Or.inr fun hopen => hclosed (hlive _ hopen)
    · exact Or.inr hclosed
  capacityWaiters t ht := h.capacityWaiters t (h'.capacityWaiters t ht)

theorem Spares.of_ended {w w' v : NodeChannel} (hended : Ended v w')
    (hsession : v.sessionClosed = false)
    (hv : ∀ t, (v.sockets t).readyState = .OPEN → v.sockets t = w.sockets t) : Spares w w' where
  socket t hlive := by
    obtain ⟨held, hsockets⟩ := hended.sockets
    have hsame := (hsockets t).of_open hlive
    rw [hsame] at hlive ⊢
    exact hv t hlive
  outboundData item hitem := by
    rw [hended.outboundData] at hitem
    cases hitem
  capacityWaiters t ht := by
    rw [hended.capacityWaiters hsession] at ht
    cases ht

theorem closeSocket_spares (w : NodeChannel) (hover : w.sessionClosed = w.closed) (s code : Nat)
    (reason : String) : Spares w (w.closeSocket s code reason) := by
  have hmarked : ∀ (v : NodeChannel) (u : Nat), v.sockets = (w.marked s).sockets →
      v.capacityWaiters = w.capacityWaiters →
      (∀ item ∈ v.outboundData, item ∈ w.outboundData ∨ item.socket = u) →
        Spares w (v.remoteClosed u .localClose) := by
    intro v u hv hcapacity hqueue
    have honly := v.remoteClosed_only u .localClose
    refine ⟨fun t hlive => ?_, fun item hitem => ?_, fun t ht => ?_⟩
    · have hne : t ≠ u := by
        rintro rfl
        exact remoteClosed_not_open v t .localClose hlive
      rw [remoteClosed_ne v hne, hv] at hlive ⊢
      exact marked_of_open hlive
    · rw [honly.outboundData] at hitem
      rcases hqueue item hitem with hold | hnew
      · exact Or.inl hold
      · rw [hnew]
        exact Or.inr (remoteClosed_not_open v u .localClose)
    · rw [honly.capacityWaiters, hcapacity] at ht
      exact ht
  rcases w.closeSocket_cases s code reason with
    ⟨-, hsame⟩ | ⟨-, ⟨-, hend⟩ | ⟨hclosed, ⟨-, hmain⟩ | ⟨-, ⟨-, hnone⟩ | ⟨u, -, hleft⟩⟩⟩⟩
  · rw [hsame]
    exact ⟨fun _ _ => rfl, fun _ hitem => Or.inl hitem, fun _ => id⟩
  · have hends := closeSocketAtEnd_ends (List.mem_singleton_self s) w
    obtain ⟨_, _, _, _, _, hframe⟩ := hends.frame
    rw [hend]
    refine ⟨fun t hlive => (hends.socket t).of_open hlive, fun item hitem => ?_, fun t ht => ?_⟩
    · rw [hframe] at hitem
      exact Or.inl hitem
    · rw [hframe] at ht
      exact ht
  · rw [hmain]
    have hsession : (w.marked s).sessionClosed = false := hover.trans hclosed
    exact Spares.of_ended (close_ended hclosed hsession) hsession fun t => marked_of_open
  · rw [hnone]
    exact ⟨fun _ => marked_of_open, fun _ hitem => Or.inl hitem, fun _ => id⟩
  · rw [hleft]
    rcases sendClose_cases (w := w.leaving s u) hclosed code reason u (w.sockets s).channelId with
      ⟨answers, hqueued⟩ | ⟨answers, hgivenUp⟩ | ⟨answers, refusedCloses, hsession, hended⟩
    · rw [hqueued]
      refine hmarked _ u rfl rfl fun item hitem => ?_
      rcases mem_concat.mp hitem with hold | rfl
      · exact Or.inl hold
      · exact Or.inr rfl
    · rw [hgivenUp]
      exact hmarked _ u rfl rfl fun item hitem => Or.inl hitem
    rw [hended]
    have hfinished := sessionEnd_ended (w := { w.leaving s u with answers := answers }) hclosed
      hsession
    have hspares : Spares w ({ w.leaving s u with answers := answers } : NodeChannel).sessionEnd :=
      Spares.of_ended hfinished hsession fun t => marked_of_open
    generalize ({ w.leaving s u with answers := answers } : NodeChannel).sessionEnd = v at hspares
    have honly := ({ v with refusedCloses := refusedCloses } : NodeChannel).remoteClosed_only u
      .localClose
    refine hspares.trans ⟨fun t hlive => ?_, fun item hitem => ?_, fun t ht => ?_⟩
      (remoteClosed_shrinks { v with refusedCloses := refusedCloses } u .localClose).live
    · have hne : t ≠ u := by
        rintro rfl
        exact remoteClosed_not_open _ t .localClose hlive
      exact remoteClosed_ne { v with refusedCloses := refusedCloses } hne .localClose
    · rw [honly.outboundData] at hitem
      exact Or.inl hitem
    · rw [honly.capacityWaiters] at ht
      exact ht

theorem waitForOutboundCapacity_shrinks (w : NodeChannel) (s : Nat) :
    Shrinks w (w.waitForOutboundCapacity s) := by
  unfold waitForOutboundCapacity
  split
  · exact Shrinks.refl w
  · exact .of_same rfl

theorem giveUp_shrinks (w : NodeChannel) (c : String) (s : Nat) (cause : CloseCause) :
    Shrinks w ((w.unlisted c s).remoteClosed s cause) := by
  by_cases hs : w.aux.get? c = some s
  · exact Shrinks.leave hs (remoteClosed_shrinks _ s cause) (remoteClosed_not_open _ s cause)
      rfl rfl rfl (if_pos hs)
  have hremoved : Shrinks w (w.unlisted c s) :=
    .of_aux (fun _ => rfl) (fun _ => id) (if_neg hs) rfl rfl
  exact hremoved.trans (remoteClosed_shrinks _ s cause)

/-! ## The invariant -/

/-- Open sockets exist, and an auxiliary one has its channel id to itself. -/
structure Named (w : NodeChannel) : Prop where
  positive : 0 < w.nextSocket
  main : (w.sockets 0).channelId = NODE_RELAY_MAIN_CHANNEL_ID
  born : ∀ s, (w.sockets s).readyState = .OPEN → s < w.nextSocket
  byId : w.closed = false → ∀ c s, w.aux.get? c = some s →
    0 < s ∧ s < w.nextSocket ∧ (w.sockets s).channelId = c
  registered : w.closed = false → ∀ s, 0 < s → (w.sockets s).readyState = .OPEN →
    w.aux.get? (w.sockets s).channelId = some s

variable {w w' : NodeChannel}

theorem Named.shrinks (h : w.Named) (hw : Shrinks w w') : w'.Named where
  positive := by
    rw [hw.nextSocket]
    exact h.positive
  main := by
    rw [hw.channelId]
    exact h.main
  born s hlive := by
    rw [hw.nextSocket]
    exact h.born s (hw.live s hlive)
  byId hopen c s hs := by
    rw [hw.nextSocket, hw.channelId]
    exact h.byId (hw.closed hopen) c s (hw.aux hopen c s hs)
  registered hopen s hpos hlive := by
    rw [hw.channelId]
    exact hw.kept hopen s hlive (h.registered (hw.closed hopen) s hpos (hw.live s hlive))

theorem Named.register (h : w.Named) {c : String} (hfree : w.aux.get? c = none)
    (n : Nat) : (w.register c n).Named := by
  have hpos := h.positive
  have hself : (w.register c n).sockets w.nextSocket = .create c n := Function.update_self ..
  have hother : ∀ s, s ≠ w.nextSocket → (w.register c n).sockets s = w.sockets s :=
    fun s hs => Function.update_of_ne hs ..
  have hget : ∀ c', (w.register c n).aux.get? c' =
      if c' = c then some w.nextSocket else w.aux.get? c' :=
    fun c' => get?_set w.aux c c' w.nextSocket
  exact
    { positive := Nat.succ_pos _
      main := by
        have hne : (0 : Nat) ≠ w.nextSocket := by omega
        rw [hother 0 hne]
        exact h.main
      born := by
        intro s hlive
        show s < w.nextSocket + 1
        by_cases hs : s = w.nextSocket
        · omega
        rw [hother s hs] at hlive
        have hborn := h.born s hlive
        omega
      byId := by
        intro hopen c' s hs
        show 0 < s ∧ s < w.nextSocket + 1 ∧ _
        rw [hget] at hs
        split at hs
        · next hc =>
            cases hs
            rw [hself]
            exact ⟨hpos, by omega, hc.symm⟩
        · obtain ⟨hposS, hltS, hname⟩ := h.byId hopen c' s hs
          have hne : s ≠ w.nextSocket := by omega
          rw [hother s hne]
          exact ⟨hposS, by omega, hname⟩
      registered := by
        intro hopen s hposS hlive
        by_cases hs : s = w.nextSocket
        · rw [hs, hself, hget]
          exact if_pos rfl
        rw [hother s hs] at hlive ⊢
        have hregistered := h.registered hopen s hposS hlive
        have hne : (w.sockets s).channelId ≠ c := by
          intro heq
          rw [heq, hfree] at hregistered
          cases hregistered
        rw [hget, if_neg hne]
        exact hregistered }

theorem refused_shrinks (w : NodeChannel) (c : String) (n code : Nat) (reason : String) :
    Shrinks ((w.register c n).closeSocket w.nextSocket code reason)
      { (w.register c n).closeSocket w.nextSocket code reason with
        aux := ((w.register c n).closeSocket w.nextSocket code reason).aux.erase c
        auxByStreamId :=
          ((w.register c n).closeSocket w.nextSocket code reason).auxByStreamId.erase n } := by
  obtain ⟨hshut, hstate⟩ := closeSocket_shrinks (w.register c n) w.nextSocket code reason
  have hself : (w.register c n).aux.get? c = some w.nextSocket := get?_set_self w.aux c w.nextSocket
  generalize (w.register c n).closeSocket w.nextSocket code reason = refused at hshut hstate ⊢
  have haux : ∀ c' s, (refused.aux.erase c).get? c' = some s → refused.aux.get? c' = some s := by
    intro c' s hs
    rw [get?_erase] at hs
    split at hs
    · cases hs
    · exact hs
  have hkept : refused.closed = false → ∀ s, (refused.sockets s).readyState = .OPEN →
      refused.aux.get? (refused.sockets s).channelId = some s →
        (refused.aux.erase c).get? (refused.sockets s).channelId = some s := by
    intro hopen s hlive hs
    have hne : (refused.sockets s).channelId ≠ c := by
      intro heq
      rw [heq] at hs
      have hbefore := hshut.aux hopen c s hs
      rw [hself] at hbefore
      rw [← Option.some.inj hbefore] at hlive
      exact hstate hlive
    rw [get?_erase_ne _ hne]
    exact hs
  exact { Shrinks.refl refused with aux := fun _ => haux, kept := hkept }

/-! ## Steps -/

theorem start_named (channelEnd : ChannelEnd) : (start channelEnd).Named where
  positive := Nat.one_pos
  main := rfl
  born s hlive := by
    show s < 1
    by_contra hs
    have hunborn : (start channelEnd).sockets s =
        (create "" 0).drop .channelEnded := if_neg (by omega)
    rw [hunborn] at hlive
    cases hlive
  byId _ c s hs := by cases hs
  registered _ s hpos hlive := by
    have hunborn : (start channelEnd).sockets s =
        (create "" 0).drop .channelEnded := if_neg (by omega)
    rw [hunborn] at hlive
    cases hlive

end NodeChannel

end TaskHandoff.Relay
