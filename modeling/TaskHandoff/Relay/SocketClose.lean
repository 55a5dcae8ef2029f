import TaskHandoff.Relay.SocketQueues

/-! # What a socket accepted before its close

While no socket closes over a queue of its own, and no deferred write is
refused, a `channel-close` goes out behind everything its socket accepted.
-/

namespace TaskHandoff.Relay

open Machine List Option

namespace NodeChannel

/-! ## When a close keeps what was accepted -/

/-- A close of the socket now would lose nothing: its queue is empty, and for a
main socket, which takes the session along, the queue of the session too. -/
def KeepsQueue (w : NodeChannel) (s : Nat) : Prop :=
  w.closed = false → (w.sockets s).readyState = .OPEN → (w.sockets s).outbound = [] ∧
      ((w.sockets s).channelId = NODE_RELAY_MAIN_CHANNEL_ID →
        ∀ item ∈ w.outboundData, item.socket ≠ s)

instance (w : NodeChannel) (s : Nat) : Decidable (w.KeepsQueue s) :=
  inferInstanceAs (Decidable (_ → _ → _ ∧ (_ → ∀ item ∈ w.outboundData, item.socket ≠ s)))

/-- The step closes no socket over its queue and has no deferred write refused. -/
def KeepsAccepted (w : NodeChannel) (action : Action) : Prop :=
  (∀ s ∈ (w.ready action).closedBy action.command, (w.ready action).KeepsQueue s) ∧
    ∀ s ∈ (w.ready action).resumedBy action.command, w.closed = false →
      FlushTaken action.answers (w.sockets s).outbound.length

instance (w : NodeChannel) (action : Action) : Decidable (w.KeepsAccepted action) :=
  inferInstanceAs (Decidable (_ ∧ ∀ s ∈ (w.ready action).resumedBy action.command, _ → _))

/-! ## The close of a socket -/

variable {w : NodeChannel} {s : Nat}

theorem Delivery.announce (h : w.Delivery) (hstate : (w.sockets s).readyState = .CLOSED .localClose)
    (hsession : w.sessionClosed = false) (hborn : s < w.nextSocket) (answers : List Answer)
    (c : String) (code : Nat) (reason : String) :
    (w.handed answers (.channelClose s c code reason)).Delivery := by
  have hshut : (w.sockets s).readyState ≠ .OPEN := by simp [hstate]
  have hother : ∀ t, t ≠ s →
      (w.handed answers (.channelClose s c code reason)).sockets t = w.sockets t ∧
      (w.handed answers (.channelClose s c code reason)).itemsOf t = w.itemsOf t ∧
      (w.handed answers (.channelClose s c code reason)).acceptedOf t = w.acceptedOf t :=
    fun t ht => ⟨rfl, itemsOf_handed_ne w answers ht.symm, rfl⟩
  have hqueues := h.toQueues.one (h.named.shrinks (handed_shrinks w answers _)) ?_ hother
    (fun hs => by omega) rfl rfl ?_ rfl
  · refine h.one hqueues hother rfl (fun hlive => (hshut hlive).elim) fun hname _ => ?_
    obtain ⟨hover, -⟩ := h.mainKept s hname hstate
    rw [hsession] at hover
    cases hover
  · rw [itemsOf_handed_self w s answers rfl]
    have hall := (h.delivered s).closed hsession (Or.inl hstate)
    exact (h.delivered s).announce hshut hall rfl
  · intro hclosed
    have hclosed' : w.sessionClosed = true := hclosed
    rw [hsession] at hclosed'
    cases hclosed'

theorem sendClose_delivery (h : w.Delivery) (hborn : s < w.nextSocket)
    (hstate : w.closed = false → (w.sockets s).readyState = .CLOSED .localClose) (code : Nat)
    (reason : String) (c : String) : (sendClose code reason s c w).Delivery := by
  cases hclosed : w.closed with
  | true =>
    unfold sendClose
    rw [if_pos hclosed]
    exact h
  | false =>
    have hanswered : ∀ answers refusedCloses,
        Delivery { w with answers := answers, refusedCloses := refusedCloses } := fun _ _ =>
      h.same (fun _ => rfl) id rfl
    rcases sendClose_cases hclosed code reason s c with
      ⟨answers, hqueued⟩ | ⟨answers, hgivenUp⟩ | ⟨answers, refusedCloses, -, hended⟩
    · rw [hqueued]
      exact h.announce (hstate hclosed) (h.sessionOver.trans hclosed) hborn answers c code _
    · rw [hgivenUp]
      exact hanswered answers _
    · rw [hended]
      have hsent := (hanswered answers w.refusedCloses).sessionEnd
      exact hsent.same (fun _ => rfl) id rfl

theorem Queues.marked {w w' : NodeChannel} (h : w.Queues) (hopen : (w.sockets s).readyState = .OPEN)
    (hempty : (w.sockets s).outbound = []) (hshrinks : Shrinks w w')
    (hsockets : w'.sockets = (w.marked s).sockets) (hwire : w'.wire = w.wire)
    (hdata : w'.outboundData = w.outboundData) (haccepted : w'.accepted = w.accepted)
    (hclosed : w'.closed = w.closed) (hsession : w'.sessionClosed = w.sessionClosed) :
    w'.Queues := by
  have hself : w'.sockets s = { w.sockets s with readyState := .CLOSED .localClose } := by
    rw [hsockets, marked_self]
  refine h.one (h.named.shrinks hshrinks) (s := s) ?_ ?_ ?_ hclosed hsession (fun _ => hdata)
    hshrinks.nextSocket
  · rw [hself, itemsOf_congr hwire hdata, acceptedOf_congr haccepted, hsession]
    refine (h.delivered s).shut (by simp) fun hsession' _ => ?_
    rw [(h.delivered s).kept hsession' hopen, hempty, append_nil]
  · intro t ht
    rw [hsockets, marked_ne w ht, itemsOf_congr hwire hdata, acceptedOf_congr haccepted]
    exact ⟨rfl, rfl, rfl⟩
  · rw [itemsOf_congr hwire hdata, acceptedOf_congr haccepted]
    exact h.fresh s

theorem marked_shrinks (w : NodeChannel) (s : Nat) : Shrinks w (w.marked s) :=
  Shrinks.update w s fun socket => ⟨rfl, by simp⟩

section

variable (h : w.Delivery)

include h

theorem marked_flushed (s t : Nat) : (w.marked s).Flushed t := by
  by_cases ht : t = s
  · intro hlive
    rw [ht, marked_self] at hlive
    cases hlive
  unfold Flushed
  rw [marked_ne w ht]
  exact h.flushed t

theorem closeMain_delivery (hclosed : w.closed = false)
    (hopen : (w.sockets s).readyState = .OPEN) (hempty : (w.sockets s).outbound = [])
    (hqueue : ∀ item ∈ w.outboundData, item.socket ≠ s) : (w.marked s).close.Delivery := by
  have hqueues := h.toQueues.marked hopen hempty (marked_shrinks w s) rfl rfl rfl rfl rfl rfl
  have hended : Ended (w.marked s) (w.marked s).close :=
    close_ended hclosed (h.sessionOver.trans hclosed)
  exact
    { toQueues := hqueues.ended hended (close_shrinks _) rfl rfl rfl
      flushed := fun t => hended.flushed (marked_flushed h s t)
      mainKept := hended.mainKept fun t hname hstate => by
        by_cases ht : t = s
        · subst ht
          refine ⟨?_, hqueue⟩
          have hkept := (h.delivered t).kept (h.sessionOver.trans hclosed) hopen
          rw [hempty, append_nil] at hkept
          exact hkept
        · rw [marked_ne w ht] at hname hstate
          obtain ⟨hsession, -⟩ := h.mainKept t hname hstate
          rw [h.sessionOver, hclosed] at hsession
          cases hsession }

theorem Delivery.leaving
    (hmain : (w.sockets s).channelId ≠ NODE_RELAY_MAIN_CHANNEL_ID)
    (haux : w.aux.get? (w.sockets s).channelId = some s) (hopen : (w.sockets s).readyState = .OPEN)
    (hempty : (w.sockets s).outbound = []) : (w.leaving s s).Delivery := by
  have hself : (w.leaving s s).sockets s = { w.sockets s with readyState := .CLOSED .localClose } :=
    marked_self w s
  have hshut : ((w.leaving s s).sockets s).readyState ≠ .OPEN := by
    rw [hself]
    simp
  have haux' : (w.marked s).aux.get? (w.sockets s).channelId = some s := haux
  have hshrinks : Shrinks w (w.leaving s s) :=
    (marked_shrinks w s).trans
      (Shrinks.leave haux' (Shrinks.refl (w.leaving s s)) hshut rfl rfl rfl rfl)
  have hqueues := h.toQueues.marked hopen hempty hshrinks rfl rfl rfl rfl rfl rfl
  refine h.one hqueues (s := s) (fun t ht => ⟨marked_ne w ht, rfl, rfl⟩) rfl
    (fun hlive => (hshut hlive).elim) fun hname => ?_
  rw [hself] at hname
  exact (hmain hname).elim

theorem closeSocketAtEnd_delivery (hclosed : w.closed = true) (s : Nat) :
    (w.closeSocketAtEnd s).Delivery := by
  have hsession : w.sessionClosed = true := h.sessionOver.trans hclosed
  have hends := closeSocketAtEnd_ends (mem_singleton_self s) w
  obtain ⟨sockets, released, pendingOpens, aux, auxByStreamId, hframe⟩ := hends.frame
  have hended : Ended w (w.closeSocketAtEnd s) :=
    { sockets := ⟨[s], hends.socket⟩
      held := by rw [hframe]; rfl
      closed := by rw [hframe]; exact hclosed
      sessionClosed := by rw [hframe]; exact hsession
      outboundData := by rw [hframe]; exact h.drained hsession
      capacityWaiters := fun hopen => by
        rw [hsession] at hopen
        cases hopen
      wire := by rw [hframe]
      accepted := by rw [hframe] }
  exact h.ended hended (closeSocketWith_shrinks Shrinks.refl (fun _ _ w => Shrinks.refl w) _ w s).1

theorem closeSocket_delivery (hkeeps : w.KeepsQueue s) (code : Nat)
    (reason : String) : (w.closeSocket s code reason).Delivery := by
  rcases w.closeSocket_cases s code reason with
    ⟨-, hsame⟩ | ⟨hopen, ⟨hclosed, hend⟩ | ⟨hclosed, ⟨hname, hmain⟩ |
      ⟨hname, ⟨haux, -⟩ | ⟨t, haux, hleft⟩⟩⟩⟩
  · rw [hsame]
    exact h
  · rw [hend]
    exact closeSocketAtEnd_delivery h hclosed s
  · rw [hmain]
    have hstate := isOpen_iff.mp hopen
    obtain ⟨hempty, hqueue⟩ := hkeeps hclosed hstate
    exact closeMain_delivery h hclosed hstate hempty (hqueue hname)
  all_goals
    have hstate := isOpen_iff.mp hopen
    have hpos : 0 < s := by
      rcases Nat.eq_zero_or_pos s with rfl | hpos
      · exact (hname h.named.main).elim
      · exact hpos
    have hregistered := h.named.registered hclosed s hpos hstate
    rw [haux] at hregistered
  · cases hregistered
  cases hregistered
  have hborn := h.named.born s hstate
  have hleaving := h.leaving hname haux hstate (hkeeps hclosed hstate).1
  have hself : ((w.leaving s s).sockets s).readyState = .CLOSED .localClose := by
    show ((w.marked s).sockets s).readyState = _
    rw [marked_self]
  have hsent := sendClose_delivery hleaving (s := s) hborn (fun _ => hself) code reason
    (w.sockets s).channelId
  have hshrinks := sendClose_shrinks (w.leaving s s) code reason s (w.sockets s).channelId
  rw [hleft]
  generalize sendClose code reason s _ _ = sent at hsent hshrinks
  have hshut : sent.isOpen s = false := by
    rw [← Bool.not_eq_true, isOpen_iff]
    intro hlive
    rw [hshrinks.live s hlive] at hself
    cases hself
  rw [remoteClosed_of_closed hshut]
  exact hsent

end

theorem closeSocket_keeps (h : w.KeepsQueue s) (hover : w.sessionClosed = w.closed) (t code : Nat)
    (reason : String) : (w.closeSocket t code reason).KeepsQueue s := by
  have hspares := w.closeSocket_spares hover t code reason
  have hshrinks := (closeSocket_shrinks w t code reason).1
  intro hopen hlive
  have hsame := hspares.socket s hlive
  obtain ⟨hempty, hqueue⟩ := h (hshrinks.closed hopen) (hshrinks.live s hlive)
  rw [hsame]
  refine ⟨hempty, fun hname item hitem => ?_⟩
  rcases hspares.outboundData item hitem with hold | hclosed
  · exact hqueue hname item hold
  · rintro rfl
    exact hclosed hlive

theorem closeSockets_delivery (ss : List Nat) (h : w.Delivery) (hkeeps : ∀ s ∈ ss, w.KeepsQueue s) :
    (ss.foldl (fun w s => w.closeSocket s 1001 "closed") w).Delivery := by
  induction ss generalizing w with
  | nil => exact h
  | cons s ss ih =>
    refine ih (closeSocket_delivery h (hkeeps s mem_cons_self) 1001 "closed") fun t ht => ?_
    exact closeSocket_keeps (hkeeps t (mem_cons_of_mem _ ht)) h.sessionOver s 1001 "closed"

/-! ## Commands and messages -/

section

variable (h : w.Delivery)

include h

theorem openTimeout_delivery (c : String)
    (hkeeps : ∀ s ∈ w.closedBy (.openTimeout c), w.KeepsQueue s) : (w.openTimeout c).Delivery := by
  unfold openTimeout
  split
  · exact h
  next pending hpending =>
  have hsettled : Delivery { w with pendingOpens := w.pendingOpens.erase c } :=
    h.same (fun _ => rfl) id rfl
  have hkeep : w.KeepsQueue pending.socket := by
    refine hkeeps _ ?_
    simp [closedBy, hpending]
  exact closeSocket_delivery (w := { w with pendingOpens := w.pendingOpens.erase c }) hsettled
    hkeep 1011 "Node relay channel open timed out."

theorem handleChannelClose_delivery (c : String) (attached : Bool)
    (hkeeps : ∀ s ∈ w.closedBy (.receive (.channelClose c) attached), w.KeepsQueue s) :
    (w.handleChannelClose c).Delivery := by
  unfold handleChannelClose
  by_cases hc : c = NODE_RELAY_MAIN_CHANNEL_ID
  · rw [if_pos hc]
    have honly := w.remoteClosed_only 0 .peerClosed
    have hdropped : (w.remoteClosed 0 .peerClosed).Delivery :=
      h.dropped (remoteClosed_shrinks w 0 _) (by simp) (by simp) rfl honly.wire honly.outboundData
        honly.accepted honly.closed honly.sessionClosed
    refine Delivery.close (closeSockets_delivery _ hdropped fun s hs => ?_)
    rw [honly.tunnelStreams] at hs
    intro hopen hlive
    have hne : s ≠ 0 := by
      rintro rfl
      exact remoteClosed_not_open w 0 .peerClosed hlive
    have hkeep : w.KeepsQueue s := by
      refine hkeeps s ?_
      simp [closedBy, hc, hs, hne]
    rw [honly.closed] at hopen
    rw [honly.outboundData]
    rw [remoteClosed_ne w hne] at hlive ⊢
    exact hkeep hopen hlive
  · rw [if_neg hc]
    split
    · exact h
    next s hs =>
    have honly := (w.unregister c s).remoteClosed_only s .peerClosed
    have hshrinks : Shrinks w ((w.unregister c s).remoteClosed s .peerClosed) :=
      Shrinks.leave hs (remoteClosed_shrinks _ s _) (remoteClosed_not_open _ s _) rfl rfl rfl rfl
    have hsockets : ((w.unregister c s).remoteClosed s .peerClosed).sockets =
        (w.remoteClosed s .peerClosed).sockets :=
      remoteClosed_sockets_congr w (w.unregister c s) rfl s .peerClosed
    exact h.dropped hshrinks (by simp) (by simp) hsockets honly.wire honly.outboundData
      honly.accepted honly.closed honly.sessionClosed

theorem Delivery.register {c : String} (hfree : w.aux.get? c = none) (n : Nat) :
    (w.register c n).Delivery := by
  have hself : (w.register c n).sockets w.nextSocket = .create c n := Function.update_self ..
  have hother : ∀ s, s ≠ w.nextSocket → (w.register c n).sockets s = w.sockets s :=
    fun s hs => Function.update_of_ne hs ..
  exact
    { h with
      named := h.named.register hfree n
      delivered := by
        intro s
        by_cases hs : s = w.nextSocket
        · obtain ⟨hitems, haccepted⟩ := h.fresh w.nextSocket (Nat.le_refl _)
          rw [hs, hself]
          show Delivered _ (w.itemsOf w.nextSocket) (w.acceptedOf w.nextSocket) _
          rw [hitems, haccepted]
          exact Delivered.of_open (by simp) (fun _ => rfl) rfl
        · rw [hother s hs]
          exact h.delivered s
      fresh := by
        intro s hs
        have hle : w.nextSocket ≤ s := Nat.le_of_succ_le hs
        exact h.fresh s hle
      flushed := by
        intro s
        by_cases hs : s = w.nextSocket
        · intro _ _
          rw [hs, hself]
          rfl
        unfold Flushed
        rw [hother s hs]
        exact h.flushed s
      mainKept := by
        intro s hname hstate
        by_cases hs : s = w.nextSocket
        · rw [hs, hself] at hstate
          cases hstate
        · rw [hother s hs] at hname hstate
          exact h.mainKept s hname hstate }

theorem giveUp_delivery (c : String) (s : Nat) {cause : CloseCause}
    (hlocal : cause ≠ .localClose) (hflush : cause ≠ .flushFailed) :
    ((w.unlisted c s).remoteClosed s cause).Delivery := by
  have honly := (w.unlisted c s).remoteClosed_only s cause
  exact h.dropped (giveUp_shrinks w c s cause) hlocal hflush
    (remoteClosed_sockets_congr w (w.unlisted c s) rfl s cause)
    honly.wire honly.outboundData honly.accepted honly.closed honly.sessionClosed

theorem openAuxChannel_delivery (c : String) : (w.openAuxChannel c).Delivery := by
  rcases w.openAuxChannel_cases c with hsame | ⟨-, hfree, hopens⟩
  · rw [hsame]
    exact h
  have hregistered : (w.dialed c).Delivery :=
    (h.register hfree w.nextAuxStreamId).same (fun _ => rfl) id rfl
  have hsent := delivery_ignoresInbound.control hregistered
  rcases hopens with hopens | hopens
  · rw [hopens]
    exact hsent
  · rw [hopens]
    exact giveUp_delivery hsent c w.nextSocket (by simp) (by simp)

theorem handleChannelOpen_delivery (c : String) (n : Nat) (attached : Bool) :
    (w.handleChannelOpen c n attached).Delivery := by
  unfold handleChannelOpen
  split
  · exact delivery_ignoresInbound.reply h
  rename_i hguard
  simp only [OrderedMap.contains, not_or, Bool.not_eq_true, isSome_eq_false_iff,
    isNone_iff_eq_none] at hguard
  obtain ⟨hmain, hfree, -⟩ := hguard
  have hregistered := h.register hfree n
  split
  · exact delivery_ignoresInbound.reply hregistered
  have hself : (w.register c n).sockets w.nextSocket = .create c n := Function.update_self ..
  have hkeeps : (w.register c n).KeepsQueue w.nextSocket := by
    intro _ _
    rw [hself]
    exact ⟨rfl, fun hname => (hmain hname).elim⟩
  have hopen : (w.register c n).isOpen w.nextSocket = true := by
    rw [isOpen_iff, hself]
    rfl
  have hrefused := closeSocket_delivery hregistered hkeeps 1008
    "Unknown reverse tunnel channel."
  have hstate := closeSocket_state hopen 1008 "Unknown reverse tunnel channel."
  have hshrinks := refused_shrinks w c n 1008 "Unknown reverse tunnel channel."
  have hnext := (closeSocket_shrinks (w.register c n) w.nextSocket 1008
    "Unknown reverse tunnel channel.").1.nextSocket
  have herased := hrefused.congr (hrefused.named.shrinks hshrinks)
    (fun _ => ⟨rfl, rfl, rfl, id⟩) (fun _ => rfl) rfl rfl rfl id rfl
  refine sendClose_delivery herased ?_ hstate 1008 _ c
  rw [hnext]
  exact Nat.lt_succ_self _

theorem handleMessage_delivery (message : SessionMessage) (attached : Bool)
    (hkeeps : ∀ s ∈ w.closedBy (.receive message attached), w.KeepsQueue s)
    (htaken : ∀ s ∈ w.resumedBy (.receive message attached), w.closed = false →
      FlushTaken w.answers (w.sockets s).outbound.length) :
    (w.handleMessage message attached).Delivery := by
  unfold handleMessage
  split
  · exact h
  split
  · exact delivery_ignoresInbound.reply h
  · exact h
  · exact delivery_ignoresInbound.reply h
  · exact handleChannelOpen_delivery h _ _ attached
  · unfold handleChannelAccept
    split
    · exact h
    split
    · exact h.sessionEnd
    · exact h.same (fun _ => rfl) id rfl
  · unfold handleChannelReject
    split
    · exact h
    · exact giveUp_delivery h _ _ (by simp) (by simp)
  · exact h.sessionEnd
  · exact h.sessionEnd
  · exact handleChannelClose_delivery h _ attached hkeeps
  · split
    · exact h
    · next s _ => exact h.update s fun socket => ⟨rfl, rfl, rfl, by simp⟩
  · next n _ _ =>
    split
    · exact h
    next s hs =>
    refine remoteResume_delivery h s fun hopen hpaused => htaken s ?_ hopen
    simp [resumedBy, hs, hpaused]

theorem handleData_delivery (n : Nat) (message : Message)
    (hkeeps : ∀ s ∈ w.closedBy (.receiveData n message), w.KeepsQueue s) :
    (w.handleData n message).Delivery := by
  unfold handleData
  split
  · exact h
  split
  · exact h
  next s hs =>
  refine delivery_ignoresInbound.deliver h s message fun _ hwaits hlimit => ?_
  exact closeSocket_delivery h (hkeeps s (mem_closedBy_deliver hs hwaits hlimit)) 1013 _

/-! ## Steps -/

theorem perform_delivery (command : Command) (hkeeps : ∀ s ∈ w.closedBy command, w.KeepsQueue s)
    (htaken : ∀ s ∈ w.resumedBy command, w.closed = false →
      FlushTaken w.answers (w.sockets s).outbound.length) : (w.perform command).Delivery := by
  have hwait : ∀ (v : NodeChannel) (s : Nat), v.Delivery →
      (v.waitForOutboundCapacity s).Delivery := by
    intro v s hv
    unfold waitForOutboundCapacity
    split
    · exact hv
    · exact hv.same (fun _ => rfl) id rfl
  cases command with
  | openAux c => exact openAuxChannel_delivery h c
  | openTimeout c => exact openTimeout_delivery h c hkeeps
  | send s message =>
    refine send_delivery h s message fun hpaused hlimit => closeSocket_delivery h (hkeeps s ?_) _ _
    simp [closedBy, hpaused, hlimit]
  | closeSocket s code reason => exact closeSocket_delivery h (hkeeps s mem_cons_self) code reason
  | ping s =>
    show (if w.isOpen s then w.sendControl else w).Delivery
    split
    · exact delivery_ignoresInbound.sendControl h
    · exact h
  | listen s taken => exact delivery_ignoresInbound.listen h s taken
  | unlisten s => exact delivery_ignoresInbound.unlisten h s
  | pause s => exact delivery_ignoresInbound.pause h s
  | resume s taken => exact delivery_ignoresInbound.resume h s taken
  | waitForWritable s =>
    show (w.waitForWritable s).Delivery
    unfold waitForWritable
    split
    · exact h.update s fun socket => ⟨rfl, rfl, rfl, id⟩
    · exact hwait w s h
  | continueWait s =>
    refine hwait { w with released := w.released.erase s } s ?_
    exact h.same (fun _ => rfl) id rfl
  | closeChannel => exact h.close
  | receive message attached => exact handleMessage_delivery h message attached hkeeps htaken
  | receiveData n message => exact handleData_delivery h n message hkeeps
  | flush count =>
    refine h.same (fun s => ?_) (fun hempty => ?_) rfl
    · show ((w.wire ++ w.outboundData.take count) ++ w.outboundData.drop count).filter _ = _
      rw [append_assoc, take_append_drop]
      rfl
    · show w.outboundData.drop count = []
      rw [hempty, drop_nil]
  | backlog above => exact h.same (fun _ => rfl) id rfl
  | sessionEnd => exact h.sessionEnd

end

theorem step_delivery {w w' : NodeChannel} {action : Action} (hstep : step w action = some w')
    (hkeeps : w.KeepsAccepted action) (h : w.Delivery) : w'.Delivery := by
  obtain ⟨-, hstep⟩ := ite_none_right_eq_some.mp hstep
  cases hstep
  have hready : (w.ready action).Delivery := h.same (fun _ => rfl) id rfl
  exact perform_delivery hready action.command hkeeps.1 hkeeps.2

theorem start_delivery (channelEnd : ChannelEnd) : (start channelEnd).Delivery where
  named := start_named channelEnd
  sessionOver := rfl
  drained _ := rfl
  delivered s := by
    refine Delivered.of_no_close (by simp [itemsOf, start]) (fun _ _ => ?_) fun _ _ => rfl
    show [] = [] ++ (if s = 0 then _ else _ : NodeRelayChannelSocket).outbound
    split <;> rfl
  fresh _ _ := ⟨rfl, rfl⟩
  flushed s := by
    intro _ _
    show (if s = 0 then _ else _ : NodeRelayChannelSocket).outbound = []
    split <;> rfl
  mainKept s := by
    intro _ hstate
    have hnot : ((start channelEnd).sockets s).readyState ≠ .CLOSED .localClose := by
      show (if s = 0 then _ else _ : NodeRelayChannelSocket).readyState ≠ _
      split <;> simp [NodeRelayChannelSocket.create, NodeRelayChannelSocket.drop]
    exact (hnot hstate).elim

/-! ## Every run -/

/-- The messages of a socket among items of the session. -/
def dataOf (s : Nat) (items : List Item) : List Message :=
  (items.filter fun item => item.socket = s).filterMap Item.message?

/-- In a run whose steps all keep what was accepted: ahead of a `channel-close` the
session has exactly the messages its socket accepted; while the channel is open a
socket that closed itself has none that the session did not take; and those of a
main socket that closed itself were all transmitted. -/
theorem accepted_before_close {channelEnd : ChannelEnd} {actions : List Action} {w : NodeChannel}
    (hrun : Machine.run step (start channelEnd) actions = some w)
    (hkeeps : AllSteps step KeepsAccepted (start channelEnd) actions) : (∀ s pre c code reason post,
      w.wire ++ w.outboundData = pre ++ .channelClose s c code reason :: post →
        dataOf s pre = w.acceptedOf s) ∧
    (w.closed = false → ∀ s, (w.sockets s).readyState = .CLOSED .localClose ∨
      (w.sockets s).readyState = .CLOSED .flushFailed →
        dataOf s (w.wire ++ w.outboundData) = w.acceptedOf s) ∧
    ∀ s, (w.sockets s).channelId = NODE_RELAY_MAIN_CHANNEL_ID →
      (w.sockets s).readyState = .CLOSED .localClose → dataOf s w.wire = w.acceptedOf s := by
  have h : w.Delivery := run_invariant_of_steps
    (fun _ _ _ hstep hkeep h => step_delivery hstep hkeep h) hrun hkeeps (start_delivery channelEnd)
  refine ⟨fun s pre c code reason post hsplit => ?_, fun hopen s hstate => ?_,
    fun s hname hstate => ?_⟩
  · have hitems : w.itemsOf s = (pre.filter fun item => item.socket = s) ++
        .channelClose s c code reason :: post.filter fun item => item.socket = s := by
      unfold itemsOf
      rw [hsplit, filter_append, filter_cons_of_pos (by simp [Item.socket])]
    exact (h.delivered s).last _ _ _ hitems rfl
  · exact ((h.delivered s).closed (h.sessionOver.trans hopen) hstate).symm
  obtain ⟨hsession, hall⟩ := h.mainKept s hname hstate
  have hitems : w.itemsOf s = w.wire.filter fun item => item.socket = s := by
    unfold itemsOf
    rw [h.drained hsession, append_nil]
  rw [hitems] at hall
  exact hall.symm

def exampleMessage : Message := ⟨[104, 105], true⟩

/-- The peer pauses the stream of a dialed socket, a message is sent, the peer resumes. -/
def exampleResumed : List Action :=
  [⟨.openAux "http_1", [], []⟩, ⟨.receive (.streamPause 1) true, [], []⟩,
    ⟨.send 1 exampleMessage, [], []⟩, ⟨.receive (.streamResume 1) true, [], []⟩,
    ⟨.closeSocket 1 1000 "normal", [], []⟩, ⟨.flush 2, [], []⟩]

theorem accepted_before_close_resumed :
    ∃ w, Machine.run step (start .node) exampleResumed = some w ∧
      w.wire = [.data 1 1 exampleMessage,
        .channelClose 1 "http_1" 1000 ("normal".take 512).toString] ∧
      dataOf 1 [.data 1 1 exampleMessage] = w.acceptedOf 1 := by
  have hkept := @accepted_before_close .node exampleResumed _ rfl (by decide)
  exact ⟨_, rfl, rfl, hkept.1 1 [.data 1 1 exampleMessage] "http_1" 1000 _ [] rfl⟩

/-- A message that waits for the peer to resume is lost when its socket closes, at
both ends: the `channel-close` goes out without it. -/
theorem accepted_lost_at_close : (∃ w, Machine.run step (start .node)
        [⟨.openAux "http_1", [], []⟩, ⟨.receive (.streamPause 1) true, [], []⟩,
          ⟨.send 1 exampleMessage, [], []⟩, ⟨.closeSocket 1 1000 "normal", [], []⟩,
          ⟨.receive (.streamResume 1) true, [], []⟩, ⟨.flush 2, [], []⟩] = some w ∧
      w.closed = false ∧ w.acceptedOf 1 = [exampleMessage] ∧ w.outboundData = [] ∧
      w.wire = [.channelClose 1 "http_1" 1000 ("normal".take 512).toString]) ∧
    ∃ w, Machine.run step (start .controlPlane) [⟨.receive (.channelOpen "http_1" 1) true, [], []⟩,
          ⟨.receive (.streamPause 1) true, [], []⟩, ⟨.send 1 exampleMessage, [], []⟩,
          ⟨.closeSocket 1 1000 "normal", [], []⟩,
          ⟨.receive (.streamResume 1) true, [], []⟩, ⟨.flush 2, [], []⟩] = some w ∧
      w.closed = false ∧ w.acceptedOf 1 = [exampleMessage] ∧ w.outboundData = [] ∧
      w.wire = [.channelClose 1 "http_1" 1000 ("normal".take 512).toString] :=
  ⟨⟨_, rfl, rfl, rfl, rfl, rfl⟩, _, rfl, rfl, rfl, rfl, rfl⟩

end NodeChannel

end TaskHandoff.Relay
