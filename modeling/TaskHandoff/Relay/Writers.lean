import TaskHandoff.Relay.Names

/-! # The writers that wait

A writer waits in its socket while the peer has paused the stream, and in the
session while the queue is long. A socket that is closed has neither, as long
as no socket closes itself over its own writers, none is closed while its
writers wait in the session, and no writer starts to wait on a closed one.
-/

namespace TaskHandoff.Relay

open Machine List Option Or

namespace NodeChannel

/-! ## The invariant -/

/-- A closed socket has no writers; those of `late` may still wait in the session. -/
structure Writers (w : NodeChannel) (late : List Nat) : Prop where
  named : w.Named
  sessionOver : w.sessionClosed = w.closed
  drained : w.sessionClosed = true → w.capacityWaiters = []
  settled : ∀ s, (w.sockets s).readyState ≠ .OPEN →
    (w.sockets s).writableWaiters = 0 ∧ (s ∈ late ∨ s ∉ w.capacityWaiters)

/-- During a step also: the sockets that the tunnel would close have no writers. -/
structure Writing (w : NodeChannel) (late : List Nat) : Prop extends Writers w late where
  held : ∀ s ∈ w.held, (w.sockets s).readyState = .OPEN → (w.sockets s).writableWaiters = 0

variable {late : List Nat}

theorem Writing.of_sockets {w w' : NodeChannel} (h : w.Writing late) (hnamed : w'.Named)
    (hclosed : w'.closed = w.closed) (hsession : w'.sessionClosed = w.sessionClosed)
    (hcapacity : w'.capacityWaiters = w.capacityWaiters) (hheld : w'.held = w.held)
    (hsockets : ∀ s, ((w'.sockets s).readyState = .OPEN → (w.sockets s).readyState = .OPEN) ∧
      (w'.sockets s).writableWaiters ≤ (w.sockets s).writableWaiters ∧
      ((w.sockets s).readyState = .OPEN → (w'.sockets s).readyState ≠ .OPEN →
        (w'.sockets s).writableWaiters = 0 ∧ (s ∈ late ∨ s ∉ w.capacityWaiters))) :
    w'.Writing late where
  named := hnamed
  sessionOver := by rw [hclosed, hsession, h.sessionOver]
  drained hclosed' := by
    rw [hcapacity]
    exact h.drained (hsession.symm.trans hclosed')
  settled s hshut := by
    obtain ⟨-, hfewer, hnew⟩ := hsockets s
    rw [hcapacity]
    by_cases hopen : (w.sockets s).readyState = .OPEN
    · exact hnew hopen hshut
    · obtain ⟨hnone, hcap⟩ := h.settled s hopen
      exact ⟨by omega, hcap⟩
  held s hs hlive := by
    rw [hheld] at hs
    obtain ⟨hbefore, hfewer, -⟩ := hsockets s
    have hnone := h.held s hs (hbefore hlive)
    omega

variable {w : NodeChannel}

theorem Writing.update (h : w.Writing late) (s : Nat)
    {f : NodeRelayChannelSocket → NodeRelayChannelSocket}
    (hf : ∀ socket, (f socket).channelId = socket.channelId ∧
      (f socket).readyState = socket.readyState ∧
      (f socket).writableWaiters ≤ socket.writableWaiters) : (w.updateSocket s f).Writing late := by
  have hshrinks : Shrinks w (w.updateSocket s f) := by
    refine Shrinks.update w s fun socket => ⟨(hf socket).1, ?_⟩
    rw [(hf socket).2.1]
    exact id
  refine h.of_sockets (h.named.shrinks hshrinks) rfl rfl rfl rfl fun t => ?_
  by_cases ht : t = s
  · rw [ht, updateSocket_self, (hf (w.sockets s)).2.1]
    exact ⟨id, (hf (w.sockets s)).2.2, fun hopen hshut => (hshut hopen).elim⟩
  · rw [updateSocket_ne w ht]
    exact ⟨id, Nat.le_refl _, fun hopen hshut => (hshut hopen).elim⟩

variable {w' : NodeChannel}

theorem Writing.congr (h : w.Writing late) (hnamed : w'.Named)
    (hsockets : w'.sockets = w.sockets) (hclosed : w'.closed = w.closed)
    (hsession : w'.sessionClosed = w.sessionClosed)
    (hcapacity : w'.capacityWaiters = w.capacityWaiters) (hheld : w'.held = w.held) :
    w'.Writing late := by
  refine h.of_sockets hnamed hclosed hsession hcapacity hheld fun s => ?_
  rw [hsockets]
  exact ⟨id, Nat.le_refl _, fun hopen hshut => (hshut hopen).elim⟩

theorem Writing.same (h : w.Writing late)
    (hsame : (w'.sockets, w'.nextSocket, w'.aux, w'.closed, w'.sessionClosed, w'.capacityWaiters,
      w'.held) = (w.sockets, w.nextSocket, w.aux, w.closed, w.sessionClosed, w.capacityWaiters,
      w.held)) : w'.Writing late := by
  simp only [Prod.mk.injEq] at hsame
  obtain ⟨hsockets, hnext, haux, hclosed, hsession, hcapacity, hheld⟩ := hsame
  have hshrinks : Shrinks w w' := .of_same (by rw [hsockets, haux, hnext, hclosed])
  exact h.congr (h.named.shrinks hshrinks) hsockets hclosed hsession hcapacity hheld

/-! ## The end of the channel -/

/-- The writers of the session are all released, those of a socket that the tunnel
closes are not. -/
theorem Writing.of_ended (hended : Ended w w') (hnamed : w'.Named)
    (hsession : w.sessionClosed = false)
    (hsockets : ∀ s, EndedSocket w.held s (w.sockets s) (w'.sockets s))
    (hparked : ∀ s, (w.sockets s).readyState ≠ .OPEN → (w.sockets s).writableWaiters = 0)
    (hheld : ∀ s ∈ w.held, (w.sockets s).readyState = .OPEN →
      (w.sockets s).writableWaiters = 0) : w'.Writing late where
  named := hnamed
  sessionOver := hended.sessionClosed.trans hended.closed.symm
  drained _ := hended.capacityWaiters hsession
  settled s hshut := by
    rw [hended.capacityWaiters hsession]
    refine ⟨?_, inr not_mem_nil⟩
    rcases hsockets s with hsame | ⟨hopen, hdropped | ⟨hs, hclosed⟩⟩
    · rw [hsame] at hshut ⊢
      exact hparked s hshut
    · rw [hdropped]
      rfl
    · rw [hclosed]
      exact hheld s hs hopen
  held s hs hlive := by
    rw [hended.held] at hs
    have hsame := (hsockets s).of_open hlive
    rw [hsame] at hlive ⊢
    exact hheld s hs hlive

theorem Writing.close (h : w.Writing late) : w.close.Writing late := by
  cases hclosed : w.closed with
  | true =>
    rw [close_of_closed hclosed]
    exact h
  | false =>
    have hsession : w.sessionClosed = false := h.sessionOver.trans hclosed
    exact Writing.of_ended (close_ended hclosed hsession) (h.named.shrinks (close_shrinks w))
      hsession (close_sockets hclosed) (fun s hshut => (h.settled s hshut).1) h.held

theorem Writing.sessionEnd (h : w.Writing late) : w.sessionEnd.Writing late := by
  cases hsession : w.sessionClosed with
  | true =>
    rw [sessionEnd_of_closed hsession]
    exact h
  | false =>
    have hclosed : w.closed = false := h.sessionOver.symm.trans hsession
    exact Writing.of_ended (sessionEnd_ended hclosed hsession)
      (h.named.shrinks (sessionEnd_shrinks w)) hsession (sessionEnd_sockets hclosed hsession)
      (fun s hshut => (h.settled s hshut).1) h.held

theorem writing_ignoresInbound : IgnoresInbound (Writing · late) where
  inbound _ s _ hf h := h.update s fun socket =>
    ⟨hf.channelId socket, hf.readyState socket, Nat.le_of_eq (hf.writableWaiters socket)⟩
  answered _ _ h := h.same rfl
  sessionEnd _ h := h.sessionEnd

theorem handOver_writing (h : w.Writing late) (item : Option Item) :
    (w.handOver item).1.Writing late := by
  rcases w.handOver_cases item with
    ⟨hsame, -⟩ | ⟨-, answers, -, ⟨hsent, -⟩ | ⟨hrefused, -⟩ | hended⟩
  · rw [hsame]
    exact h
  · rw [hsent]
    exact h.same rfl
  · rw [hrefused]
    exact h.same rfl
  · rw [hended]
    exact Writing.sessionEnd (h.same rfl)

theorem handOver_capacity (h : w.Writing late) (item : Option Item) :
    ∀ s ∈ (w.handOver item).1.capacityWaiters, s ∈ w.capacityWaiters := by
  intro s hs
  rcases w.handOver_cases item with
    ⟨hsame, -⟩ | ⟨hsession, answers, -, ⟨hsent, -⟩ | ⟨hrefused, -⟩ | hended⟩
  · rwa [hsame] at hs
  · rwa [hsent] at hs
  · rwa [hrefused] at hs
  · have hended' := sessionEnd_ended (w := { w with answers := answers })
      (h.sessionOver.symm.trans hsession) hsession
    rw [hended, hended'.capacityWaiters hsession] at hs
    cases hs

theorem sendClose_writing (h : w.Writing late) (code : Nat) (reason : String) (s : Nat) (c : String)
    : (sendClose code reason s c w).Writing late := by
  have hsent := handOver_writing h (some (.channelClose s c code (reason.take 512).toString))
  unfold sendClose
  split
  · exact h
  generalize w.handOver _ = result at hsent
  obtain ⟨sent, returned⟩ := result
  cases returned with
  | true => exact hsent
  | false => exact hsent.same rfl

/-! ## A socket closed from underneath -/

variable {s : Nat}

section

variable (h : w.Writing late)

include h

/-- Its own writers are released; those that wait in the session must not be there. -/
theorem Writing.dropped (hshrinks : Shrinks w w')
    {cause : CloseCause} (hsockets : w'.sockets = (w.remoteClosed s cause).sockets)
    (hcap : (w.sockets s).readyState = .OPEN → s ∈ late ∨ s ∉ w.capacityWaiters)
    (hclosed : w'.closed = w.closed) (hsession : w'.sessionClosed = w.sessionClosed)
    (hcapacity : w'.capacityWaiters = w.capacityWaiters) (hheld : w'.held = w.held) :
    w'.Writing late := by
  refine h.of_sockets (h.named.shrinks hshrinks) hclosed hsession hcapacity hheld fun t => ?_
  rw [hsockets]
  by_cases ht : t = s
  · subst ht
    cases hopen : w.isOpen t with
    | false =>
      rw [remoteClosed_of_closed hopen]
      exact ⟨id, Nat.le_refl _, fun hlive hshut => (hshut hlive).elim⟩
    | true =>
      rw [remoteClosed_self hopen]
      exact ⟨fun _ => isOpen_iff.mp hopen, Nat.zero_le _, fun hlive _ => ⟨rfl, hcap hlive⟩⟩
  · rw [remoteClosed_ne w ht]
    exact ⟨id, Nat.le_refl _, fun hlive hshut => (hshut hlive).elim⟩

theorem remoteClosed_writing (cause : CloseCause)
    (hcap : (w.sockets s).readyState = .OPEN → s ∈ late ∨ s ∉ w.capacityWaiters) :
    (w.remoteClosed s cause).Writing late := by
  obtain ⟨_, _, hframe⟩ := w.remoteClosed_frame s cause
  have honly := w.remoteClosed_only s cause
  exact h.dropped (remoteClosed_shrinks w s cause) rfl hcap honly.closed honly.sessionClosed
    honly.capacityWaiters (by rw [hframe]; rfl)

/-! ## The close of a socket -/

/-- A close of the socket now would strand no writer: none waits in the socket, and
none in the session unless the session ends with it. -/
def Quiet (w : NodeChannel) (s : Nat) : Prop :=
  (w.sockets s).readyState = .OPEN → (w.sockets s).writableWaiters = 0 ∧
      ((w.sockets s).channelId = NODE_RELAY_MAIN_CHANNEL_ID ∨ s ∉ w.capacityWaiters)

instance (w : NodeChannel) (s : Nat) : Decidable (w.Quiet s) :=
  inferInstanceAs (Decidable (_ → _ ∧ (_ ∨ s ∉ w.capacityWaiters)))

theorem closeSocketAtEnd_writing (hclosed : w.closed = true)
    (hquiet : w.Quiet s) : (w.closeSocketAtEnd s).Writing late := by
  have hnone : w.capacityWaiters = [] := h.drained (h.sessionOver.trans hclosed)
  have hends := closeSocketAtEnd_ends (mem_singleton_self s) w
  obtain ⟨_, _, _, _, _, hframe⟩ := hends.frame
  have hnamed := h.named.shrinks
    (closeSocketWith_shrinks Shrinks.refl (fun _ _ w => Shrinks.refl w) .channelEnded w s).1
  refine h.of_sockets hnamed (by rw [hframe]) (by rw [hframe]) (by rw [hframe])
    (by rw [hframe]; rfl) fun t => ?_
  rw [hnone]
  rcases hends.socket t with hsame | ⟨hopen, hdropped | ⟨ht, hshut⟩⟩
  · rw [hsame]
    exact ⟨id, Nat.le_refl _, fun hlive hshut => (hshut hlive).elim⟩
  · rw [hdropped]
    exact ⟨fun _ => hopen, Nat.zero_le _, fun _ _ => ⟨rfl, inr not_mem_nil⟩⟩
  · rw [hshut]
    rw [mem_singleton.mp ht] at hopen ⊢
    exact ⟨fun _ => hopen, Nat.le_refl _, fun _ _ => ⟨(hquiet hopen).1, inr not_mem_nil⟩⟩

theorem closeMain_writing (hclosed : w.closed = false)
    (hquiet : (w.sockets s).writableWaiters = 0) : (w.marked s).close.Writing late := by
  have hsession : (w.marked s).sessionClosed = false := h.sessionOver.trans hclosed
  have hnamed := (h.named.shrinks (Shrinks.update w s
    (f := fun socket => { socket with readyState := .CLOSED .localClose })
    fun socket => ⟨rfl, by simp⟩)).shrinks (close_shrinks (w.marked s))
  refine Writing.of_ended (close_ended hclosed hsession) hnamed hsession (close_sockets hclosed)
    (fun t hshut => ?_) fun t ht hlive => ?_
  · by_cases hts : t = s
    · rw [hts, marked_self]
      exact hquiet
    · rw [marked_ne w hts] at hshut ⊢
      exact (h.settled t hshut).1
  · have hsame := marked_of_open hlive
    rw [hsame] at hlive ⊢
    exact h.held t ht hlive

theorem closeSocket_writing (hquiet : w.Quiet s) (code : Nat) (reason : String)
    : (w.closeSocket s code reason).Writing late := by
  rcases w.closeSocket_cases s code reason with
    ⟨-, hsame⟩ | ⟨hopen, ⟨hclosed, hend⟩ | ⟨hclosed, ⟨-, hmain⟩ |
      ⟨hname, ⟨haux, -⟩ | ⟨t, haux, hleft⟩⟩⟩⟩
  · rw [hsame]
    exact h
  · rw [hend]
    exact closeSocketAtEnd_writing h hclosed hquiet
  · rw [hmain]
    exact closeMain_writing h hclosed (hquiet (isOpen_iff.mp hopen)).1
  all_goals
    have hstate := isOpen_iff.mp hopen
    have hpos : 0 < s := by
      rcases Nat.eq_zero_or_pos s with rfl | hpos
      · exact (hname h.named.main).elim
      · exact hpos
    have hregistered := h.named.registered hclosed s hpos hstate
    rw [haux] at hregistered
  · cases hregistered
  cases hregistered
  obtain ⟨hnone, hcap⟩ := hquiet hstate
  have hself : (w.leaving s s).sockets s =
      { w.sockets s with readyState := .CLOSED .localClose } := marked_self w s
  have haux' : (w.marked s).aux.get? (w.sockets s).channelId = some s := haux
  have hshut : ((w.leaving s s).sockets s).readyState ≠ .OPEN := by
    rw [hself]
    simp
  have hmarked : Shrinks w (w.marked s) := Shrinks.update w s fun socket => ⟨rfl, by simp⟩
  have hshrinks : Shrinks w (w.leaving s s) :=
    hmarked.trans (Shrinks.leave haux' (Shrinks.refl (w.leaving s s)) hshut rfl rfl rfl rfl)
  have hleaving : (w.leaving s s).Writing late := by
    refine h.of_sockets (h.named.shrinks hshrinks) rfl rfl rfl rfl fun t => ?_
    by_cases ht : t = s
    · rw [ht, hself]
      exact ⟨fun _ => hstate, Nat.le_refl _, fun _ _ => ⟨hnone, inr (hcap.resolve_left hname)⟩⟩
    have hother : (w.leaving s s).sockets t = w.sockets t := marked_ne w ht
    rw [hother]
    exact ⟨id, Nat.le_refl _, fun hlive hshut => (hshut hlive).elim⟩
  have hsent := sendClose_writing hleaving code reason s (w.sockets s).channelId
  have hlive := (sendClose_shrinks (w.leaving s s) code reason s (w.sockets s).channelId).live s
  rw [hleft]
  exact remoteClosed_writing hsent .localClose fun hopen' => (hshut (hlive hopen')).elim

end

theorem closeSockets_writing (ss : List Nat) (h : w.Writing late) (hquiet : ∀ s ∈ ss, w.Quiet s) :
    (ss.foldl (fun w s => w.closeSocket s 1001 "closed") w).Writing late := by
  induction ss generalizing w with
  | nil => exact h
  | cons s ss ih =>
    refine ih (closeSocket_writing h (hquiet s mem_cons_self) 1001 "closed") fun t ht => ?_
    have hspares := w.closeSocket_spares h.sessionOver s 1001 "closed"
    intro hlive
    have hsame := hspares.socket t hlive
    rw [hsame] at hlive ⊢
    obtain ⟨hnone, hcap⟩ := hquiet t (mem_cons_of_mem _ ht) hlive
    exact ⟨hnone, hcap.imp_right fun hout hin => hout (hspares.capacityWaiters t hin)⟩

/-! ## Deferred writes -/

theorem flushOutbound_writing (s : Nat) (items : List Message) (h : w.Writing late)
    (hcap : FlushTaken w.answers items.length ∨ s ∈ late ∨ s ∉ w.capacityWaiters) :
    (flushOutbound s items w).Writing late := by
  induction items generalizing w with
  | nil => exact h
  | cons item rest ih =>
    unfold flushOutbound
    split
    · exact h
    have hshifted := h.update s (f := fun socket =>
      { socket with outbound := rest, outboundBytes := socket.outboundBytes - item.bytes })
      fun socket => ⟨rfl, rfl, Nat.le_refl _⟩
    simp only
    have hcases := handOver_cases (w.updateSocket s fun socket =>
      { socket with outbound := rest, outboundBytes := socket.outboundBytes - item.bytes })
      (some (.data s (w.sockets s).streamId item))
    have hsent := handOver_writing hshifted (some (.data s (w.sockets s).streamId item))
    generalize (w.updateSocket s _).handOver _ = result at hcases hsent ⊢
    obtain ⟨sent, returned⟩ := result
    have hdone : sent.capacityWaiters = [] → _ := fun hnone =>
      (inr (inr (by rw [hnone]; exact not_mem_nil)) :
        FlushTaken sent.answers rest.length ∨ s ∈ late ∨ s ∉ sent.capacityWaiters)
    rcases hcases with ⟨hsame, hrefused, hsession⟩ | ⟨hsession, answers, htail,
      ⟨hgone, htaken, haccept⟩ | ⟨hsame, hrefused, hhead⟩ | hended⟩
    · have hnone : w.capacityWaiters = [] := h.drained hsession
      simp only at hsame hrefused
      rw [hrefused]
      refine remoteClosed_writing hsent .flushFailed fun _ => inr ?_
      rw [hsame]
      show s ∉ w.capacityWaiters
      rw [hnone]
      exact not_mem_nil
    · simp only at hgone htaken
      rw [htaken]
      refine ih hsent ?_
      rw [hgone]
      refine hcap.imp_left fun hflush => ?_
      rw [htail]
      exact hflush.tail haccept
    · simp only at hsame hrefused
      rw [hrefused]
      refine remoteClosed_writing hsent .flushFailed fun _ => ?_
      rw [hsame]
      exact hcap.resolve_left fun hflush => hflush.head hhead
    · simp only at hended
      have hclosed : w.closed = false := h.sessionOver.symm.trans hsession
      have hnone : sent.capacityWaiters = [] := by
        rw [hended]
        exact (sessionEnd_ended (w := { w.updateSocket s _ with answers := answers }) hclosed
          hsession).capacityWaiters hsession
      cases returned with
      | true => exact ih hsent (hdone hnone)
      | false =>
        refine remoteClosed_writing hsent .flushFailed fun _ => inr ?_
        rw [hnone]
        exact not_mem_nil

theorem remoteResume_writing (h : w.Writing late) (s : Nat)
    (hcap : (w.sockets s).remotePaused = true →
      FlushTaken w.answers (w.sockets s).outbound.length ∨ s ∈ late ∨ s ∉ w.capacityWaiters) :
    (w.remoteResume s).Writing late := by
  unfold remoteResume
  by_cases hpaused : (w.sockets s).remotePaused = true
  · rw [if_pos hpaused]
    have hresumed := h.update s (f := fun socket => { socket with remotePaused := false })
      fun socket => ⟨rfl, rfl, Nat.le_refl _⟩
    have hflushed := flushOutbound_writing s (w.sockets s).outbound hresumed (hcap hpaused)
    have hreleased := hflushed.update s (f := fun socket => { socket with writableWaiters := 0 })
      fun socket => ⟨rfl, rfl, Nat.zero_le _⟩
    exact hreleased.same rfl
  · rw [if_neg hpaused]
    exact h

/-! ## When a step strands no writer -/

/-- The sockets that a command closes from underneath, if they are open. -/
def droppedBy (w : NodeChannel) : Command → List Nat
  | .receive (.channelClose channelId) _ =>
    if channelId = NODE_RELAY_MAIN_CHANNEL_ID then [] else (w.aux.get? channelId).toList
  | .receive (.channelReject channelId) _ =>
    (w.pendingOpens.get? channelId).toList.map PendingOpen.socket
  | .receive (.streamResume streamId) _ =>
    (w.streamSocket streamId).toList.filter fun s =>
      (w.sockets s).remotePaused &&
        !decide (FlushTaken w.answers (w.sockets s).outbound.length)
  | _ => []

/-- A wait on a closed socket would settle at once. -/
def mayWait (w : NodeChannel) : Command → Bool
  | .waitForWritable s =>
    w.isOpen s || (!(w.sockets s).remotePaused && (w.sockets s).outbound.isEmpty &&
      (w.sessionClosed || !w.aboveHighWater))
  | .continueWait s => w.isOpen s || w.sessionClosed || !w.aboveHighWater
  | _ => true

/-- The step closes no socket over its writers and starts no wait on a closed one. -/
def KeepsWriters (w : NodeChannel) (action : Action) : Prop :=
  (∀ s ∈ (w.ready action).closedBy action.command, (w.ready action).Quiet s) ∧
  (∀ s ∈ (w.ready action).droppedBy action.command, (w.sockets s).readyState = .OPEN →
    s ∉ w.capacityWaiters) ∧
  (∀ s ∈ (w.ready action).held, (w.sockets s).readyState = .OPEN →
    (w.sockets s).writableWaiters = 0) ∧
  w.mayWait action.command = true

instance (w : NodeChannel) (action : Action) : Decidable (w.KeepsWriters action) :=
  inferInstanceAs (Decidable (_ ∧ (∀ s ∈ (w.ready action).droppedBy action.command, _ → _) ∧
    (∀ s ∈ (w.ready action).held, _ → _) ∧ _))

/-! ## Commands and messages -/

theorem send_writing (h : w.Writing late) (s : Nat) (message : Message)
    (hquiet : ∀ t ∈ w.closedBy (.send s message), w.Quiet t) : (w.send s message).Writing late := by
  unfold send
  split
  · exact h
  by_cases hpaused : (w.sockets s).remotePaused = true
  · rw [if_pos hpaused]
    split
    · next hlimit =>
      refine closeSocket_writing h (hquiet s ?_) _ _
      simp [closedBy, hpaused, hlimit]
    have hqueued := h.update s (f := fun socket =>
      { socket with
        outbound := socket.outbound ++ [message]
        outboundBytes := socket.outboundBytes + message.bytes })
      fun socket => ⟨rfl, rfl, Nat.le_refl _⟩
    exact hqueued.same rfl
  · rw [if_neg hpaused]
    have hsent := handOver_writing h (some (.data s (w.sockets s).streamId message))
    generalize w.handOver _ = result at hsent
    obtain ⟨sent, returned⟩ := result
    cases returned with
    | true => exact hsent.same rfl
    | false => exact hsent

theorem openTimeout_writing (h : w.Writing late) (c : String)
    (hquiet : ∀ t ∈ w.closedBy (.openTimeout c), w.Quiet t) : (w.openTimeout c).Writing late := by
  unfold openTimeout
  split
  · exact h
  next pending hpending =>
  have hsettled : Writing { w with pendingOpens := w.pendingOpens.erase c } late :=
    h.same rfl
  have hpendingQuiet : w.Quiet pending.socket := by
    refine hquiet _ ?_
    simp [closedBy, hpending]
  exact closeSocket_writing hsettled hpendingQuiet 1011 "Node relay channel open timed out."

/-- The end of the main socket ends the session, and with it the waits in there. -/
theorem handleChannelClose_writing (h : w.Writing []) (c : String) (attached : Bool)
    (hquiet : ∀ t ∈ w.closedBy (.receive (.channelClose c) attached), w.Quiet t)
    (hdropped : ∀ t ∈ w.droppedBy (.receive (.channelClose c) attached),
      (w.sockets t).readyState = .OPEN → t ∉ w.capacityWaiters) :
    (w.handleChannelClose c).Writing [] := by
  unfold handleChannelClose
  by_cases hc : c = NODE_RELAY_MAIN_CHANNEL_ID
  · rw [if_pos hc]
    have hlate : w.Writing [0] :=
      { h with settled := fun s hshut => ⟨(h.settled s hshut).1, inr
          ((h.settled s hshut).2.resolve_left not_mem_nil)⟩ }
    have honly := w.remoteClosed_only 0 .peerClosed
    have hmain : (w.remoteClosed 0 .peerClosed).Writing [0] :=
      remoteClosed_writing hlate .peerClosed fun _ => inl mem_cons_self
    have hstreams : (w.remoteClosed 0 .peerClosed).closeTunnelStreams.Writing [0] := by
      refine closeSockets_writing _ hmain fun s hs hlive => ?_
      rw [honly.tunnelStreams] at hs
      have hne : s ≠ 0 := by
        rintro rfl
        exact remoteClosed_not_open w 0 .peerClosed hlive
      have hsquiet : w.Quiet s := by
        refine hquiet s ?_
        simp [closedBy, hc, hs, hne]
      rw [remoteClosed_ne w hne] at hlive ⊢
      rw [honly.capacityWaiters]
      exact hsquiet hlive
    have hclosed := hstreams.close
    have hnone := hclosed.drained (hclosed.sessionOver.trans (close_closed _))
    refine { hclosed with settled := fun s hshut => ⟨(hclosed.settled s hshut).1, inr ?_⟩ }
    rw [hnone]
    exact not_mem_nil
  · rw [if_neg hc]
    split
    · exact h
    next s hs =>
    obtain ⟨_, _, hframe⟩ := (w.unregister c s).remoteClosed_frame s .peerClosed
    have honly := (w.unregister c s).remoteClosed_only s .peerClosed
    have hshrinks : Shrinks w ((w.unregister c s).remoteClosed s .peerClosed) :=
      Shrinks.leave hs (remoteClosed_shrinks _ s _) (remoteClosed_not_open _ s _) rfl rfl rfl rfl
    have hsockets := remoteClosed_sockets_congr w (w.unregister c s) rfl s .peerClosed
    have hcap : (w.sockets s).readyState = .OPEN → s ∈ [] ∨ s ∉ w.capacityWaiters := by
      intro hlive
      refine inr (hdropped s ?_ hlive)
      simp [droppedBy, hc, hs]
    exact h.dropped hshrinks hsockets hcap honly.closed honly.sessionClosed
      honly.capacityWaiters (by rw [hframe]; rfl)

theorem Writing.register (h : w.Writing late) {c : String} (hfree : w.aux.get? c = none) (n : Nat) :
    (w.register c n).Writing late := by
  have hself : (w.register c n).sockets w.nextSocket = .create c n := Function.update_self ..
  have hother : ∀ s, s ≠ w.nextSocket → (w.register c n).sockets s = w.sockets s :=
    fun s hs => Function.update_of_ne hs ..
  exact
    { h with
      named := h.named.register hfree n
      settled := by
        intro s hshut
        by_cases hs : s = w.nextSocket
        · rw [hs, hself] at hshut
          exact (hshut rfl).elim
        · rw [hother s hs] at hshut ⊢
          exact h.settled s hshut
      held := by
        intro s hheld hlive
        by_cases hs : s = w.nextSocket
        · rw [hs, hself]
          rfl
        · rw [hother s hs] at hlive ⊢
          exact h.held s hheld hlive }

theorem giveUp_writing (h : w.Writing late) (c : String) (cause : CloseCause)
    (hcap : (w.sockets s).readyState = .OPEN → s ∈ late ∨ s ∉ w.capacityWaiters) :
    ((w.unlisted c s).remoteClosed s cause).Writing late := by
  obtain ⟨_, _, hframe⟩ := (w.unlisted c s).remoteClosed_frame s cause
  have honly := (w.unlisted c s).remoteClosed_only s cause
  exact h.dropped (giveUp_shrinks w c s cause)
    (remoteClosed_sockets_congr w (w.unlisted c s) rfl s cause)
    hcap honly.closed honly.sessionClosed honly.capacityWaiters (by rw [hframe]; rfl)

section

variable (h : w.Writing [])

include h

theorem Writing.unborn : w.nextSocket ∉ w.capacityWaiters := by
  have hshut : (w.sockets w.nextSocket).readyState ≠ .OPEN := by
    intro hlive
    have hborn := h.named.born w.nextSocket hlive
    omega
  exact (h.settled w.nextSocket hshut).2.resolve_left not_mem_nil

theorem openAuxChannel_writing (c : String) : (w.openAuxChannel c).Writing [] := by
  rcases w.openAuxChannel_cases c with hsame | ⟨-, hfree, hopens⟩
  · rw [hsame]
    exact h
  have hregistered : (w.dialed c).Writing [] :=
    (h.register hfree w.nextAuxStreamId).same rfl
  rcases hopens with hopens | hopens
  · rw [hopens]
    exact handOver_writing hregistered none
  rw [hopens]
  refine giveUp_writing (handOver_writing hregistered none) c .openFailed fun _ => inr ?_
  exact fun hin => h.unborn (handOver_capacity hregistered none _ hin)

theorem handleChannelOpen_writing (c : String) (n : Nat) (attached : Bool) :
    (w.handleChannelOpen c n attached).Writing [] := by
  have hunborn := h.unborn
  unfold handleChannelOpen
  split
  · exact writing_ignoresInbound.reply h
  rename_i hguard
  simp only [OrderedMap.contains, not_or, Bool.not_eq_true, isSome_eq_false_iff,
    isNone_iff_eq_none] at hguard
  obtain ⟨-, hfree, -⟩ := hguard
  have hregistered := h.register hfree n
  split
  · exact writing_ignoresInbound.reply hregistered
  have hquiet : (w.register c n).Quiet w.nextSocket := by
    intro _
    have hself : (w.register c n).sockets w.nextSocket = .create c n :=
      Function.update_self ..
    rw [hself]
    exact ⟨rfl, inr hunborn⟩
  have hrefused := closeSocket_writing hregistered hquiet 1008
    "Unknown reverse tunnel channel."
  have hshrinks := refused_shrinks w c n 1008 "Unknown reverse tunnel channel."
  exact sendClose_writing
    (hrefused.congr (hrefused.named.shrinks hshrinks) rfl rfl rfl rfl rfl) _ _ _ _

theorem handleMessage_writing (message : SessionMessage) (attached : Bool)
    (hquiet : ∀ s ∈ w.closedBy (.receive message attached), w.Quiet s)
    (hdropped : ∀ s ∈ w.droppedBy (.receive message attached),
      (w.sockets s).readyState = .OPEN → s ∉ w.capacityWaiters) :
    (w.handleMessage message attached).Writing [] := by
  unfold handleMessage
  split
  · exact h
  split
  · exact writing_ignoresInbound.reply h
  · exact h
  · exact writing_ignoresInbound.reply h
  · exact handleChannelOpen_writing h _ _ attached
  · unfold handleChannelAccept
    split
    · exact h
    split
    · exact h.sessionEnd
    · exact h.same rfl
  · unfold handleChannelReject
    split
    · exact h
    next p hp =>
    refine giveUp_writing h _ .rejected fun hlive => inr (hdropped _ ?_ hlive)
    simp [droppedBy, hp]
  · exact h.sessionEnd
  · exact h.sessionEnd
  · exact handleChannelClose_writing h _ attached hquiet hdropped
  · split
    · exact h
    · exact h.update _ fun socket => ⟨rfl, rfl, Nat.le_refl _⟩
  · split
    · exact h
    · next s hs =>
      refine remoteResume_writing h s fun hpaused => ?_
      by_cases hflush : FlushTaken w.answers (w.sockets s).outbound.length
      · exact inl hflush
      by_cases hlive : (w.sockets s).readyState = .OPEN
      · refine inr (inr (hdropped s ?_ hlive))
        simp [droppedBy, hs, hpaused, hflush]
      · exact inr ((h.settled s hlive).2)

end

theorem handleData_writing (h : w.Writing late) (n : Nat) (message : Message)
    (hquiet : ∀ s ∈ w.closedBy (.receiveData n message), w.Quiet s) :
    (w.handleData n message).Writing late := by
  unfold handleData
  split
  · exact h
  split
  · exact h
  next s hs =>
  refine writing_ignoresInbound.deliver h s message fun _ hwaits hlimit => ?_
  refine closeSocket_writing h (hquiet s ?_) 1013 _
  exact mem_closedBy_deliver hs hwaits hlimit

/-! ## Steps -/

/-- A wait parks only where the socket is open or the wait is over at once. -/
theorem Writers.waitForOutboundCapacity (h : w.Writers late)
    (hmay : w.isOpen s = true ∨ w.sessionClosed = true ∨ w.aboveHighWater = false) :
    (w.waitForOutboundCapacity s).Writers late := by
  have hnamed := h.named.shrinks (waitForOutboundCapacity_shrinks w s)
  unfold NodeChannel.waitForOutboundCapacity at hnamed ⊢
  split
  · exact h
  next hpark =>
  rw [if_neg hpark] at hnamed
  simp only [Bool.or_eq_true, not_or, Bool.not_eq_true, Bool.not_eq_eq_eq_not, Bool.not_true,
    Bool.not_eq_false] at hpark
  have hopen : (w.sockets s).readyState = .OPEN := by
    rcases hmay with hopen | hclosed | hlow
    · exact isOpen_iff.mp hopen
    · rw [hpark.1] at hclosed
      cases hclosed
    · rw [hpark.2] at hlow
      cases hlow
  exact
    { named := hnamed
      sessionOver := h.sessionOver
      drained := fun hclosed => by
        rw [show w.sessionClosed = true from hclosed] at hpark
        cases hpark.1
      settled := fun t hshut => by
        obtain ⟨hnone, hcap⟩ := h.settled t hshut
        refine ⟨hnone, hcap.imp_right fun hout hin => ?_⟩
        rcases mem_concat.mp hin with hold | rfl
        · exact hout hold
        · exact hshut hopen }

theorem waitForWritable_writers (h : w.Writers late) (hmay : w.mayWait (.waitForWritable s) = true)
    : (w.waitForWritable s).Writers late := by
  simp only [mayWait, Bool.or_eq_true, Bool.and_eq_true, Bool.not_eq_eq_eq_not, Bool.not_true]
    at hmay
  unfold waitForWritable
  by_cases hpark : ((w.sockets s).remotePaused || !(w.sockets s).outbound.isEmpty) = true
  · rw [if_pos hpark]
    have hopen : (w.sockets s).readyState = .OPEN := by
      rcases hmay with hopen | ⟨⟨hwriting, hempty⟩, -⟩
      · exact isOpen_iff.mp hopen
      · rw [hwriting, hempty] at hpark
        cases hpark
    have hother : ∀ t, (w.sockets t).readyState ≠ .OPEN → (w.updateSocket s fun socket =>
        { socket with writableWaiters := socket.writableWaiters + 1 }).sockets t = w.sockets t := by
      intro t hshut
      refine updateSocket_ne w ?_ _
      rintro rfl
      exact hshut hopen
    have hstate : ∀ t, ((w.updateSocket s fun socket =>
        { socket with writableWaiters := socket.writableWaiters + 1 }).sockets t).readyState =
          (w.sockets t).readyState := by
      intro t
      by_cases ht : t = s
      · rw [ht, updateSocket_self]
      · rw [updateSocket_ne w ht]
    exact
      { h with
        named := h.named.shrinks (Shrinks.update w s fun socket => ⟨rfl, id⟩)
        settled := by
          intro t hshut
          rw [hstate t] at hshut
          rw [hother t hshut]
          exact h.settled t hshut }
  · rw [if_neg hpark]
    refine h.waitForOutboundCapacity ?_
    rcases hmay with hopen | ⟨-, hlow⟩
    · exact inl hopen
    · exact inr hlow

theorem perform_writers (h : w.Writing []) (command : Command)
    (hquiet : ∀ s ∈ w.closedBy command, w.Quiet s)
    (hdropped : ∀ s ∈ w.droppedBy command, (w.sockets s).readyState = .OPEN → s ∉ w.capacityWaiters)
    (hmay : w.mayWait command = true) : (w.perform command).Writers [] := by
  cases command with
  | openAux c => exact (openAuxChannel_writing h c).toWriters
  | openTimeout c => exact (openTimeout_writing h c hquiet).toWriters
  | send s message => exact (send_writing h s message hquiet).toWriters
  | closeSocket s code reason =>
    exact (closeSocket_writing h (hquiet s mem_cons_self) code reason).toWriters
  | ping s =>
    show (if w.isOpen s then w.sendControl else w).Writers []
    split
    · exact (writing_ignoresInbound.sendControl h).toWriters
    · exact h.toWriters
  | listen s taken => exact (writing_ignoresInbound.listen h s taken).toWriters
  | unlisten s => exact (writing_ignoresInbound.unlisten h s).toWriters
  | pause s => exact (writing_ignoresInbound.pause h s).toWriters
  | resume s taken => exact (writing_ignoresInbound.resume h s taken).toWriters
  | waitForWritable s => exact waitForWritable_writers h.toWriters hmay
  | continueWait s =>
    have hreleased : Writing { w with released := w.released.erase s } [] :=
      h.same rfl
    refine hreleased.toWriters.waitForOutboundCapacity ?_
    simp only [mayWait, Bool.or_eq_true, Bool.not_eq_eq_eq_not, Bool.not_true] at hmay
    exact or_assoc.mp hmay
  | closeChannel => exact h.close.toWriters
  | receive message attached =>
    exact (handleMessage_writing h message attached hquiet hdropped).toWriters
  | receiveData n message => exact (handleData_writing h n message hquiet).toWriters
  | flush count =>
    have hflushed : (w.perform (.flush count)).Writing [] := h.same rfl
    exact hflushed.toWriters
  | backlog above =>
    have hnamed : (w.perform (.backlog above)).Named :=
      h.named.shrinks (.of_same rfl)
    have hfewer : ∀ s ∈ (w.perform (.backlog above)).capacityWaiters, s ∈ w.capacityWaiters := by
      intro s hs
      cases above with
      | true => exact hs
      | false => cases hs
    exact
      { named := hnamed
        sessionOver := h.sessionOver
        drained := fun hclosed => eq_nil_iff_forall_not_mem.mpr fun s hs => by
          have hin := hfewer s hs
          rw [h.drained hclosed] at hin
          cases hin
        settled := fun s hshut => by
          obtain ⟨hnone, hcap⟩ := h.settled s hshut
          exact ⟨hnone, hcap.imp_right fun hout hin => hout (hfewer s hin)⟩ }
  | sessionEnd => exact h.sessionEnd.toWriters

theorem step_writers {action : Action} (hstep : step w action = some w')
    (hkeeps : w.KeepsWriters action) (h : w.Writers []) : w'.Writers [] := by
  obtain ⟨-, hstep⟩ := ite_none_right_eq_some.mp hstep
  cases hstep
  obtain ⟨hquiet, hdropped, hheld, hmay⟩ := hkeeps
  have hnamed : (w.ready action).Named :=
    h.named.shrinks (.of_same rfl)
  have hready : (w.ready action).Writing [] :=
    { h with
      named := hnamed
      held := hheld }
  exact perform_writers hready action.command hquiet hdropped hmay

theorem start_writers (channelEnd : ChannelEnd) : (start channelEnd).Writers [] where
  named := start_named channelEnd
  sessionOver := rfl
  drained _ := rfl
  settled s _ := by
    refine ⟨?_, inr not_mem_nil⟩
    show (if s = 0 then _ else _ : NodeRelayChannelSocket).writableWaiters = 0
    split <;> rfl

/-! ## Every run -/

/-- In a run whose steps all keep their writers, a closed socket has no writer that
waits, neither in the socket nor in the session. -/
theorem no_writer_stranded {channelEnd : ChannelEnd} {actions : List Action} {w : NodeChannel}
    (hrun : Machine.run step (start channelEnd) actions = some w)
    (hkeeps : AllSteps step KeepsWriters (start channelEnd) actions) :
    ∀ s, (w.sockets s).readyState ≠ .OPEN →
      (w.sockets s).writableWaiters = 0 ∧ s ∉ w.capacityWaiters := by
  have h : w.Writers [] := run_invariant_of_steps
    (fun _ _ _ hstep hkeep h => step_writers hstep hkeep h) hrun hkeeps (start_writers channelEnd)
  intro s hshut
  obtain ⟨hnone, hcap⟩ := h.settled s hshut
  exact ⟨hnone, hcap.resolve_left not_mem_nil⟩

/-- A writer waits for the peer to resume; the peer closes the channel instead. -/
def exampleWaiting : List Action :=
  [⟨.openAux "http_1", [], []⟩, ⟨.receive (.streamPause 1) true, [], []⟩,
    ⟨.waitForWritable 1, [], []⟩, ⟨.receive (.channelClose "http_1") true, [], []⟩,
    ⟨.continueWait 1, [], []⟩]

theorem no_writer_stranded_closed :
    ∃ w, Machine.run step (start .node) exampleWaiting = some w ∧ w.released = [] ∧
      (w.sockets 1).readyState = .CLOSED .peerClosed ∧ (w.sockets 1).writableWaiters = 0 ∧
      1 ∉ w.capacityWaiters := by
  have hkept := @no_writer_stranded .node exampleWaiting _ rfl (by decide)
  exact ⟨_, rfl, rfl, rfl, hkept 1 (by decide)⟩

/-- A writer that waits for the peer to resume is left behind when its socket closes
itself, and a resume of the peer does not reach it; a wait that starts after the
close does not settle either. -/
theorem writer_stranded_at_close : (∃ w, Machine.run step (start .node)
        [⟨.openAux "http_1", [], []⟩, ⟨.receive (.streamPause 1) true, [], []⟩,
          ⟨.waitForWritable 1, [], []⟩, ⟨.closeSocket 1 1000 "normal", [], []⟩,
          ⟨.receive (.streamResume 1) true, [], []⟩] = some w ∧
      (w.sockets 1).readyState = .CLOSED .localClose ∧ (w.sockets 1).writableWaiters = 1) ∧
    ∃ w, Machine.run step (start .controlPlane) [⟨.receive (.channelOpen "http_1" 1) true, [], []⟩,
          ⟨.receive (.streamPause 1) true, [], []⟩, ⟨.closeSocket 1 1000 "normal", [], []⟩,
          ⟨.waitForWritable 1, [], []⟩, ⟨.receive (.streamResume 1) true, [], []⟩] = some w ∧
      (w.sockets 1).readyState = .CLOSED .localClose ∧ (w.sockets 1).writableWaiters = 1 :=
  ⟨⟨_, rfl, rfl, rfl⟩, _, rfl, rfl, rfl⟩

end NodeChannel

end TaskHandoff.Relay
