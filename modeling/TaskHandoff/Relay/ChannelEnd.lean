import TaskHandoff.Relay.NodeChannel

/-! # How a relay channel ends

Whatever ends a channel, every socket it touches was open, and is closed with
the channel as its cause; the session drops its queue and keeps what it sent.
The facts here are what the invariants of the next modules need to know of the
teardown.
-/

namespace TaskHandoff.Relay

open Or

namespace Item

def socket : Item → Nat
  | .data s _ _ => s
  | .channelClose s _ _ _ => s

/-- The message of a data item; a close has none. -/
def message? : Item → Option Message
  | .data _ _ message => some message
  | .channelClose _ _ _ _ => none

end Item

namespace NodeChannel

/-! ## Sockets and their updates -/

variable {w : NodeChannel} {s : Nat}

theorem isOpen_iff : w.isOpen s = true ↔ (w.sockets s).readyState = .OPEN := by simp [isOpen]

theorem not_isOpen_iff :
    w.isOpen s = false ↔ ∃ cause, (w.sockets s).readyState = .CLOSED cause := by
  unfold isOpen
  cases h : (w.sockets s).readyState with
  | OPEN => simp
  | CLOSED cause => simp

@[simp] theorem updateSocket_self (w : NodeChannel) (s : Nat)
    (f : NodeRelayChannelSocket → NodeRelayChannelSocket) :
    (w.updateSocket s f).sockets s = f (w.sockets s) :=
  Function.update_self ..

variable {t count : Nat} {before after : NodeRelayChannelSocket} {answers : List Answer}

theorem updateSocket_ne (w : NodeChannel) (h : t ≠ s)
    (f : NodeRelayChannelSocket → NodeRelayChannelSocket) :
    (w.updateSocket s f).sockets t = w.sockets t :=
  Function.update_of_ne h ..

theorem remoteClosed_of_closed (h : w.isOpen s = false) (cause : CloseCause) :
    w.remoteClosed s cause = w := by
  unfold remoteClosed
  rw [h]
  rfl

theorem remoteClosed_of_open (h : w.isOpen s = true) (cause : CloseCause) :
    w.remoteClosed s cause = (w.updateSocket s fun socket => socket.drop cause).resolve s
      (w.sockets s).writableWaiters :=
  if_pos h

theorem remoteClosed_self (h : w.isOpen s = true) (cause : CloseCause) :
    (w.remoteClosed s cause).sockets s = (w.sockets s).drop cause := by
  rw [remoteClosed_of_open h]
  exact updateSocket_self w s fun socket => socket.drop cause

theorem remoteClosed_ne (w : NodeChannel) (h : t ≠ s) (cause : CloseCause) :
    (w.remoteClosed s cause).sockets t = w.sockets t := by
  cases hopen : w.isOpen s with
  | false => rw [remoteClosed_of_closed hopen]
  | true =>
    rw [remoteClosed_of_open hopen]
    exact updateSocket_ne w h fun socket => socket.drop cause

theorem remoteClosed_sockets_congr (w w' : NodeChannel) (h : w'.sockets = w.sockets) (s : Nat)
    (cause : CloseCause) : (w'.remoteClosed s cause).sockets = (w.remoteClosed s cause).sockets := by
  unfold remoteClosed isOpen updateSocket resolve
  rw [h]
  split
  · rfl
  · exact h

theorem remoteClosed_frame (w : NodeChannel) (s : Nat) (cause : CloseCause) :
    ∃ sockets released, w.remoteClosed s cause =
      { w with sockets := sockets, released := released } := by
  cases hopen : w.isOpen s with
  | false => exact ⟨w.sockets, w.released, remoteClosed_of_closed hopen cause⟩
  | true => exact ⟨_, _, remoteClosed_of_open hopen cause⟩

/-- The two differ in their sockets and released writers at most. -/
structure SocketsOnly (w w' : NodeChannel) : Prop where
  channelEnd : w'.channelEnd = w.channelEnd
  nextSocket : w'.nextSocket = w.nextSocket
  aux : w'.aux = w.aux
  auxByStreamId : w'.auxByStreamId = w.auxByStreamId
  pendingOpens : w'.pendingOpens = w.pendingOpens
  nextAuxStreamId : w'.nextAuxStreamId = w.nextAuxStreamId
  closed : w'.closed = w.closed
  sessionClosed : w'.sessionClosed = w.sessionClosed
  outboundData : w'.outboundData = w.outboundData
  wire : w'.wire = w.wire
  capacityWaiters : w'.capacityWaiters = w.capacityWaiters
  tunnelStreams : w'.tunnelStreams = w.tunnelStreams
  accepted : w'.accepted = w.accepted
  refusedCloses : w'.refusedCloses = w.refusedCloses

theorem remoteClosed_only (w : NodeChannel) (s : Nat) (cause : CloseCause) :
    SocketsOnly w (w.remoteClosed s cause) := by
  obtain ⟨_, _, hframe⟩ := w.remoteClosed_frame s cause
  rw [hframe]
  constructor <;> rfl

/-! ## Teardown -/

/-- A socket that the end of the channel touched: it was open and is closed now,
emptied unless the tunnel closed it while it still held it. -/
def EndedSocket (held : List Nat) (t : Nat) (before after : NodeRelayChannelSocket) : Prop :=
  after = before ∨ before.readyState = .OPEN ∧ (after = before.drop .channelEnded ∨
        t ∈ held ∧ after = { before with readyState := .CLOSED .channelEnded })

theorem EndedSocket.of_open {held : List Nat}
    (h : EndedSocket held t before after) (hopen : after.readyState = .OPEN) : after = before := by
  rcases h with hsame | ⟨-, rfl | ⟨-, rfl⟩⟩
  · exact hsame
  · cases hopen
  · cases hopen

theorem EndedSocket.trans {held : List Nat}
    {before between after : NodeRelayChannelSocket} (h : EndedSocket held t before between)
    (h' : EndedSocket held t between after) : EndedSocket held t before after := by
  rcases h with rfl | ⟨hopen, hclosed⟩
  · exact h'
  rcases h' with rfl | ⟨hopen', -⟩
  · exact inr ⟨hopen, hclosed⟩
  have hnot : between.readyState = .CLOSED .channelEnded := by
    rcases hclosed with rfl | ⟨-, rfl⟩ <;> rfl
  rw [hnot] at hopen'
  cases hopen'

/-- The channel on the way to its end: the registry and the sockets change. -/
structure Ends (held : List Nat) (w w' : NodeChannel) : Prop where
  frame : ∃ sockets released pendingOpens aux auxByStreamId,
    w' = { w with
      sockets := sockets
      released := released
      pendingOpens := pendingOpens
      aux := aux
      auxByStreamId := auxByStreamId }
  socket : ∀ t, EndedSocket held t (w.sockets t) (w'.sockets t)

theorem Ends.refl (held : List Nat) (w : NodeChannel) : Ends held w w :=
  ⟨⟨_, _, _, _, _, rfl⟩, fun _ => inl rfl⟩

theorem Ends.trans {held : List Nat} {w w' w'' : NodeChannel} (h : Ends held w w')
    (h' : Ends held w' w'') : Ends held w w'' := by
  obtain ⟨sockets, released, pendingOpens, aux, auxByStreamId, hw'⟩ := h.frame
  obtain ⟨sockets', released', pendingOpens', aux', auxByStreamId', hw''⟩ := h'.frame
  have hframe : w'' = { w with
      sockets := sockets'
      released := released'
      pendingOpens := pendingOpens'
      aux := aux'
      auxByStreamId := auxByStreamId' } := by rw [hw'', hw']
  exact ⟨⟨_, _, _, _, _, hframe⟩, fun t => (h.socket t).trans (h'.socket t)⟩

theorem Ends.foldl {held ss : List Nat} {f : NodeChannel → Nat → NodeChannel}
    (hf : ∀ w s, s ∈ ss → Ends held w (f w s)) (w : NodeChannel) : Ends held w (ss.foldl f w) := by
  induction ss generalizing w with
  | nil => exact Ends.refl held w
  | cons s ss ih =>
    have hfirst := hf w s List.mem_cons_self
    have hrest := ih (fun w' s' hs' => hf w' s' (List.mem_cons_of_mem _ hs')) (f w s)
    exact hfirst.trans hrest

theorem remoteClosed_ends (held : List Nat) (w : NodeChannel) (s : Nat) :
    Ends held w (w.remoteClosed s .channelEnded) := by
  obtain ⟨sockets, released, hframe⟩ := w.remoteClosed_frame s .channelEnded
  refine ⟨⟨sockets, released, _, _, _, hframe⟩, fun t => ?_⟩
  by_cases ht : t = s
  · subst ht
    cases hopen : w.isOpen t with
    | false =>
      rw [remoteClosed_of_closed hopen]
      exact inl rfl
    | true => exact inr ⟨isOpen_iff.mp hopen, inl (remoteClosed_self hopen _)⟩
  · rw [remoteClosed_ne w ht]
    exact inl rfl

theorem closeSocketAtEnd_ends {held : List Nat} (hheld : s ∈ held) (w : NodeChannel) :
    Ends held w (w.closeSocketAtEnd s) := by
  unfold closeSocketAtEnd closeSocketWith
  cases hopen : w.isOpen s with
  | false => exact Ends.refl held w
  | true =>
    have hclosed : Ends held w (w.updateSocket s fun socket =>
        { socket with readyState := .CLOSED .channelEnded }) := by
      refine ⟨⟨_, _, _, _, _, rfl⟩, fun t => ?_⟩
      by_cases ht : t = s
      · subst ht
        exact inr ⟨isOpen_iff.mp hopen, inr ⟨hheld, updateSocket_self ..⟩⟩
      · rw [updateSocket_ne w ht]
        exact inl rfl
    rw [if_pos rfl]
    refine hclosed.trans ?_
    generalize w.updateSocket s _ = v
    unfold emitChannelCloseWith
    split_ifs with hmain
    · exact Ends.refl held v
    cases haux : v.aux.get? (w.sockets s).channelId with
    | none =>
      simp only [haux]
      exact ⟨⟨_, _, _, _, _, rfl⟩, fun t => inl rfl⟩
    | some t =>
      simp only [haux]
      have hunregister : Ends held v (unregister
          { v with pendingOpens := v.pendingOpens.erase (w.sockets s).channelId }
          (w.sockets s).channelId t) :=
        ⟨⟨_, _, _, _, _, rfl⟩, fun t => inl rfl⟩
      exact hunregister.trans (remoteClosed_ends held _ t)

theorem close_of_closed (h : w.closed = true) : w.close = w := by
  unfold close
  rw [if_pos h]

/-- The sockets that the tunnel closes when the channel ends. -/
def held (w : NodeChannel) : List Nat :=
  match w.channelEnd with
  | .node => w.tunnelStreams
  | .controlPlane => []

theorem disposeTunnel_ends (w : NodeChannel) : Ends w.held w w.disposeTunnel := by
  unfold disposeTunnel held
  cases w.channelEnd with
  | node => exact Ends.foldl (fun w' s hs => closeSocketAtEnd_ends hs w') w
  | controlPlane => exact Ends.refl _ w

theorem close_spec (h : w.closed = false) :
    ∃ v, Ends w.held { w with closed := true } v ∧ w.close = v.finishSession := by
  have hdisposed : Ends w.held { w with closed := true } { w with closed := true }.disposeTunnel :=
    disposeTunnel_ends { w with closed := true }
  unfold close
  rw [h]
  generalize { w with closed := true }.disposeTunnel = disposed at hdisposed ⊢
  have hcleared : Ends w.held disposed disposed.clearRegistry :=
    ⟨⟨_, _, _, _, _, rfl⟩, fun t => inl rfl⟩
  have haux : Ends w.held disposed.clearRegistry
      (disposed.aux.values.foldl (fun w s => w.remoteClosed s .channelEnded)
        disposed.clearRegistry) :=
    Ends.foldl (fun w' s _ => remoteClosed_ends _ w' s) _
  have hsockets := (hdisposed.trans hcleared).trans haux
  exact ⟨_, hsockets.trans (remoteClosed_ends _ _ 0), rfl⟩

theorem finishSession_sockets (w : NodeChannel) : w.finishSession.sockets = w.sockets := by
  unfold finishSession
  split <;> rfl

theorem close_closed (w : NodeChannel) : w.close.closed = true := by
  cases h : w.closed with
  | true => rw [close_of_closed h, h]
  | false =>
    obtain ⟨v, hends, hclose⟩ := close_spec h
    obtain ⟨_, _, _, _, _, hv⟩ := hends.frame
    rw [hclose, hv]
    unfold finishSession
    split <;> rfl

theorem sessionEnd_of_closed (h : w.sessionClosed = true) : w.sessionEnd = w := by
  unfold sessionEnd
  rw [if_pos h]

theorem sessionEnd_closed (h : w.sessionClosed = false) : w.sessionEnd.closed = true := by
  unfold sessionEnd
  rw [h]
  exact close_closed _

/-- The channel and its session ended together. -/
structure Ended (w w' : NodeChannel) : Prop where
  sockets : ∃ held, ∀ s, EndedSocket held s (w.sockets s) (w'.sockets s)
  held : w'.held = w.held
  closed : w'.closed = true
  sessionClosed : w'.sessionClosed = true
  outboundData : w'.outboundData = []
  capacityWaiters : w.sessionClosed = false → w'.capacityWaiters = []
  wire : w'.wire = w.wire
  accepted : w'.accepted = w.accepted

section

variable (h : w.closed = false)

include h

theorem close_ended (hsession : w.sessionClosed = false) : Ended w w.close := by
  obtain ⟨v, hends, hclose⟩ := close_spec h
  obtain ⟨sockets, released, pendingOpens, aux, auxByStreamId, hv⟩ := hends.frame
  have hopen : v.sessionClosed = false := by rw [hv]; exact hsession
  have hfinished : w.close =
      { v with sessionClosed := true, outboundData := [], capacityWaiters := [] } := by
    rw [hclose]
    unfold finishSession
    rw [if_neg (by simp [hopen])]
  rw [hfinished]
  exact
    { sockets := ⟨w.held, hends.socket⟩
      held := by rw [hv]; rfl
      closed := by rw [hv]
      sessionClosed := rfl
      outboundData := rfl
      capacityWaiters := fun _ => rfl
      wire := by rw [hv]
      accepted := by rw [hv] }

theorem sessionEnd_ended (hsession : w.sessionClosed = false) : Ended w w.sessionEnd := by
  have hfinished : w.finishSession =
      { w with sessionClosed := true, outboundData := [], capacityWaiters := [] } := by
    unfold finishSession
    rw [if_neg (by simp [hsession])]
  unfold sessionEnd
  rw [if_neg (by simp [hsession]), hfinished]
  obtain ⟨v, hends, hclose⟩ := close_spec
    (w := { w with sessionClosed := true, outboundData := [], capacityWaiters := [] }) h
  obtain ⟨sockets, released, pendingOpens, aux, auxByStreamId, hv⟩ := hends.frame
  have hsame : v.finishSession = v := by
    rw [hv]
    rfl
  rw [hclose, hsame]
  exact
    { sockets := ⟨w.held, hends.socket⟩
      held := by rw [hv]; rfl
      closed := by rw [hv]
      sessionClosed := by rw [hv]
      outboundData := by rw [hv]
      capacityWaiters := fun _ => by rw [hv]
      wire := by rw [hv]
      accepted := by rw [hv] }

theorem close_sockets (s : Nat) : EndedSocket w.held s (w.sockets s) (w.close.sockets s) := by
  obtain ⟨v, hends, hclose⟩ := close_spec h
  rw [hclose, finishSession_sockets]
  exact hends.socket s

theorem sessionEnd_sockets (hsession : w.sessionClosed = false) (s : Nat) :
    EndedSocket w.held s (w.sockets s) (w.sessionEnd.sockets s) := by
  have hfinished : w.finishSession =
      { w with sessionClosed := true, outboundData := [], capacityWaiters := [] } := by
    unfold finishSession
    rw [if_neg (by simp [hsession])]
  unfold sessionEnd
  rw [if_neg (by simp [hsession]), hfinished]
  exact close_sockets
    (w := { w with sessionClosed := true, outboundData := [], capacityWaiters := [] }) h s

end

/-! ## Writes -/

theorem handOver_cases (w : NodeChannel) (item : Option Item) :
    (w.handOver item).1 = w ∧ (w.handOver item).2 = false ∧ w.sessionClosed = true ∨
    w.sessionClosed = false ∧ ∃ answers, answers = w.answers.tail ∧ ((w.handOver item).1 = { w with
          answers := answers
          outboundData := w.outboundData ++ item.toList } ∧ (w.handOver item).2 = true ∧
          (∀ answer ∈ w.answers.head?, answer = .accept) ∨
        (w.handOver item).1 = { w with answers := answers } ∧ (w.handOver item).2 = false ∧
          w.answers.head? = some .refuse ∨
        (w.handOver item).1 = { w with answers := answers }.sessionEnd) := by
  unfold handOver
  by_cases hclosed : w.sessionClosed = true
  · rw [if_pos hclosed]
    exact inl ⟨rfl, rfl, hclosed⟩
  rw [if_neg hclosed]
  refine inr ⟨by simpa using hclosed, ?_⟩
  split
  case h_1 hanswers =>
    exact ⟨w.answers, by rw [hanswers]; rfl, inl ⟨rfl, rfl, by simp [hanswers]⟩⟩
  case h_2 rest hanswers =>
    exact ⟨rest, by rw [hanswers]; rfl, inl ⟨rfl, rfl, by simp [hanswers]⟩⟩
  case h_3 rest hanswers =>
    exact ⟨rest, by rw [hanswers]; rfl, inr (inl ⟨rfl, rfl, by rw [hanswers]; rfl⟩)⟩
  case h_4 throws rest hanswers =>
    exact ⟨rest, by rw [hanswers]; rfl, inr (inr rfl)⟩

/-- `w` with the pending open of the channel and its socket's registration taken out. -/
def unlisted (w : NodeChannel) (c : String) (s : Nat) : NodeChannel :=
  { w with pendingOpens := w.pendingOpens.erase c }.removeAux c s

/-- `w` with a new socket registered and its open pending. -/
def dialed (w : NodeChannel) (c : String) : NodeChannel :=
  { w.register c w.nextAuxStreamId with
    nextAuxStreamId := w.nextAuxStreamId + 1
    pendingOpens := w.pendingOpens.set c ⟨w.nextAuxStreamId, w.nextSocket⟩ }

theorem openAuxChannel_cases (w : NodeChannel) (c : String) : w.openAuxChannel c = w ∨
    w.closed = false ∧ w.aux.get? c = none ∧ (w.openAuxChannel c = ((w.dialed c).handOver none).1 ∨
        w.openAuxChannel c = (((w.dialed c).handOver none).1.unlisted c w.nextSocket).remoteClosed
          w.nextSocket .openFailed) := by
  by_cases hguard : (w.closed || w.pendingOpens.contains c || w.aux.contains c ||
      decide (0xffffffff < w.nextAuxStreamId)) = true
  · exact inl (if_pos hguard)
  have hopens := hguard
  simp only [OrderedMap.contains, Bool.or_eq_true, decide_eq_true_eq, not_or,
    Bool.not_eq_true, Option.isSome_eq_false_iff, Option.isNone_iff_eq_none] at hguard
  refine inr ⟨hguard.1.1.1, hguard.1.2, ?_⟩
  rw [openAuxChannel, if_neg hopens]
  dsimp only
  split
  next sent heq =>
    have hsent : (w.dialed c).handOver none = (sent, true) := heq
    exact inl (by rw [hsent])
  next sent heq =>
    have hsent : (w.dialed c).handOver none = (sent, false) := heq
    exact inr (by rw [hsent]; rfl)

theorem sendClose_cases (h : w.closed = false) (code : Nat) (reason : String) (s : Nat)
    (c : String) : (∃ answers, sendClose code reason s c w = { w with
      answers := answers
      outboundData := w.outboundData ++ [.channelClose s c code (reason.take 512).toString] }) ∨
    (∃ answers, sendClose code reason s c w = { w with
      answers := answers
      refusedCloses := w.refusedCloses ++ [s] }) ∨
    ∃ answers refusedCloses, w.sessionClosed = false ∧ sendClose code reason s c w =
      { { w with answers := answers }.sessionEnd with refusedCloses := refusedCloses } := by
  have hcases := w.handOver_cases (some (.channelClose s c code (reason.take 512).toString))
  unfold sendClose
  rw [if_neg (by simp [h])]
  generalize w.handOver (some (.channelClose s c code (reason.take 512).toString)) = result at hcases
  obtain ⟨sent, returned⟩ := result
  rcases hcases with ⟨hsame, hrefused, -⟩ | ⟨hsession, answers, -,
    ⟨hsent, htaken, -⟩ | ⟨hsame, hrefused, -⟩ | hended⟩
  · simp only at hsame hrefused
    rw [hsame, hrefused]
    exact inr (inl ⟨w.answers, rfl⟩)
  · simp only at hsent htaken
    rw [hsent, htaken]
    exact inl ⟨answers, rfl⟩
  · simp only at hsame hrefused
    rw [hsame, hrefused]
    exact inr (inl ⟨answers, rfl⟩)
  · simp only at hended
    rw [hended]
    cases returned with
    | true => exact inr (inr ⟨answers, _, hsession, rfl⟩)
    | false => exact inr (inr ⟨answers, _, hsession, rfl⟩)

/-! ## The close of a socket -/

/-- The socket after the first lines of its `close`. -/
def marked (w : NodeChannel) (s : Nat) : NodeChannel :=
  w.updateSocket s fun socket => { socket with readyState := .CLOSED .localClose }

theorem marked_self (w : NodeChannel) (s : Nat) :
    (w.marked s).sockets s = { w.sockets s with readyState := .CLOSED .localClose } :=
  updateSocket_self ..

theorem marked_ne (w : NodeChannel) (h : t ≠ s) : (w.marked s).sockets t = w.sockets t :=
  updateSocket_ne w h fun socket => { socket with readyState := .CLOSED .localClose }

theorem marked_of_open (hopen : ((w.marked s).sockets t).readyState = .OPEN) :
    (w.marked s).sockets t = w.sockets t := by
  refine marked_ne w ?_
  rintro rfl
  rw [marked_self] at hopen
  cases hopen

/-- `s` closed itself, and the registered socket `t` of its channel id left the maps. -/
def leaving (w : NodeChannel) (s t : Nat) : NodeChannel :=
  { w with
    sockets := (w.marked s).sockets
    pendingOpens := w.pendingOpens.erase (w.sockets s).channelId
    aux := w.aux.erase (w.sockets s).channelId
    auxByStreamId := w.auxByStreamId.erase ((w.marked s).sockets t).streamId }

theorem closeSocket_cases (w : NodeChannel) (s code : Nat) (reason : String) :
    w.isOpen s = false ∧ w.closeSocket s code reason = w ∨
    w.isOpen s = true ∧ (w.closed = true ∧ w.closeSocket s code reason = w.closeSocketAtEnd s ∨
      w.closed = false ∧ ((w.sockets s).channelId = NODE_RELAY_MAIN_CHANNEL_ID ∧
            w.closeSocket s code reason = (w.marked s).close ∨
          (w.sockets s).channelId ≠ NODE_RELAY_MAIN_CHANNEL_ID ∧
            (w.aux.get? (w.sockets s).channelId = none ∧
                w.closeSocket s code reason = { w.marked s with
                  pendingOpens := w.pendingOpens.erase (w.sockets s).channelId } ∨
              ∃ t, w.aux.get? (w.sockets s).channelId = some t ∧
                w.closeSocket s code reason = (sendClose code reason t (w.sockets s).channelId
                  (w.leaving s t)).remoteClosed t .localClose))) := by
  cases hopen : w.isOpen s with
  | false =>
    have hsame : w.closeSocket s code reason = w := by
      unfold closeSocket closeSocketAtEnd closeSocketWith
      simp [hopen]
    exact inl ⟨rfl, hsame⟩
  | true =>
    refine inr ⟨rfl, ?_⟩
    unfold closeSocket
    by_cases hclosed : w.closed = true
    · exact inl ⟨hclosed, if_pos hclosed⟩
    rw [if_neg hclosed]
    refine inr ⟨by simpa using hclosed, ?_⟩
    unfold closeSocketWith
    rw [if_pos hopen]
    show _ ∧ emitChannelCloseWith _ _ _ (w.marked s) _ = _ ∨
      _ ∧ (_ ∧ emitChannelCloseWith _ _ _ (w.marked s) _ = _ ∨
        ∃ t, _ ∧ emitChannelCloseWith _ _ _ (w.marked s) _ = _)
    unfold emitChannelCloseWith
    by_cases hmain : (w.sockets s).channelId = NODE_RELAY_MAIN_CHANNEL_ID
    · rw [if_pos hmain]
      exact inl ⟨hmain, rfl⟩
    rw [if_neg hmain]
    refine inr ⟨hmain, ?_⟩
    cases haux : w.aux.get? (w.sockets s).channelId with
    | none =>
      have hsettled : (w.marked s).aux.get? (w.sockets s).channelId = none := haux
      simp only [hsettled]
      exact inl ⟨trivial, rfl⟩
    | some t =>
      have hsettled : (w.marked s).aux.get? (w.sockets s).channelId = some t := haux
      simp only [hsettled]
      exact inr ⟨t, rfl, rfl⟩

theorem closeSocket_state (hopen : w.isOpen s = true) (code : Nat) (reason : String)
    (hclosed : (w.closeSocket s code reason).closed = false) :
    ((w.closeSocket s code reason).sockets s).readyState = .CLOSED .localClose := by
  have hmarked : ∀ (v : NodeChannel) (t : Nat), v.sockets = (w.marked s).sockets →
      ((v.remoteClosed t .localClose).sockets s).readyState = .CLOSED .localClose := by
    intro v t hv
    have hself : (v.sockets s).readyState = .CLOSED .localClose := by rw [hv, marked_self]
    by_cases ht : s = t
    · have hshut : v.isOpen t = false := not_isOpen_iff.mpr ⟨_, ht ▸ hself⟩
      rw [remoteClosed_of_closed hshut]
      exact hself
    · rw [remoteClosed_ne v ht]
      exact hself
  rcases w.closeSocket_cases s code reason with
    ⟨hshut, -⟩ | ⟨-, ⟨hover, hend⟩ | ⟨hover, ⟨-, hmain⟩ | ⟨-, ⟨-, hnone⟩ | ⟨t, -, hleft⟩⟩⟩⟩
  · rw [hopen] at hshut
    cases hshut
  · obtain ⟨_, _, _, _, _, hframe⟩ := (closeSocketAtEnd_ends (List.mem_singleton_self s) w).frame
    rw [hend, hframe] at hclosed
    rw [show w.closed = false from hclosed] at hover
    cases hover
  · rw [hmain, close_closed] at hclosed
    cases hclosed
  · rw [hnone]
    rw [marked_self]
  · rw [hleft] at hclosed ⊢
    rcases sendClose_cases (w := w.leaving s t) hover code reason t (w.sockets s).channelId with
      ⟨answers, hqueued⟩ | ⟨answers, hgivenUp⟩ | ⟨answers, refusedCloses, hsession, hended⟩
    · rw [hqueued]
      exact hmarked _ t rfl
    · rw [hgivenUp]
      exact hmarked _ t rfl
    · rw [hended, (remoteClosed_only _ t .localClose).closed] at hclosed
      have hend := sessionEnd_closed (w := { w.leaving s t with answers := answers }) hsession
      rw [show ({ w.leaving s t with answers := answers } : NodeChannel).sessionEnd.closed = false
        from hclosed] at hend
      cases hend

/-! ## What a step closes -/

/-- The sockets that a command closes from this side, if they are open. -/
def closedBy (w : NodeChannel) : Command → List Nat
  | .closeSocket s _ _ => [s]
  | .send s message =>
    if (w.sockets s).remotePaused ∧
        NODE_RELAY_STREAM_MAX_QUEUED_BYTES < (w.sockets s).outboundBytes + message.bytes
    then [s] else []
  | .openTimeout channelId => (w.pendingOpens.get? channelId).toList.map PendingOpen.socket
  | .receive (.channelClose channelId) _ =>
    if channelId = NODE_RELAY_MAIN_CHANNEL_ID then w.tunnelStreams.filter fun s => s ≠ 0 else []
  | .receiveData streamId message =>
    (w.streamSocket streamId).toList.filter fun s =>
      ((w.sockets s).paused || !(w.sockets s).listening) &&
        decide (NODE_RELAY_STREAM_MAX_QUEUED_BYTES < (w.sockets s).queuedBytes + message.bytes)
  | _ => []

theorem mem_closedBy_deliver {n s : Nat} {message : Message} (hs : w.streamSocket n = some s)
    (hwaits : (!(w.sockets s).paused && (w.sockets s).listening) = false)
    (hlimit : NODE_RELAY_STREAM_MAX_QUEUED_BYTES < (w.sockets s).queuedBytes + message.bytes) :
    s ∈ w.closedBy (.receiveData n message) := by
  have hwaits' : ((w.sockets s).paused || !(w.sockets s).listening) = true := by
    cases hpaused : (w.sockets s).paused with
    | true => rfl
    | false =>
      rw [hpaused] at hwaits
      simpa using hwaits
  simp [closedBy, hs, hwaits', hlimit]

/-- The socket whose deferred writes a command lets go. -/
def resumedBy (w : NodeChannel) : Command → List Nat
  | .receive (.streamResume streamId) _ =>
    (w.streamSocket streamId).toList.filter fun s => (w.sockets s).remotePaused
  | _ => []

/-- The world a step performs its command in. -/
def ready (w : NodeChannel) (action : Action) : NodeChannel :=
  { w with answers := action.answers, tunnelStreams := action.tunnelStreams }

/-- The answers to the writes of a flush have no refusal, or the session fails first. -/
def FlushTaken (answers : List Answer) (count : Nat) : Prop :=
  (answers.take count).find? (fun answer => answer ≠ .accept) ≠ some .refuse

instance (answers : List Answer) (count : Nat) : Decidable (FlushTaken answers count) :=
  inferInstanceAs (Decidable (_ ≠ _))

theorem FlushTaken.head (h : FlushTaken answers (count + 1)) : answers.head? ≠ some .refuse := by
  cases answers with
  | nil => simp
  | cons answer rest =>
    intro hrefuse
    cases hrefuse
    exact h rfl

theorem FlushTaken.tail
    (h : FlushTaken answers (count + 1)) (haccept : ∀ answer ∈ answers.head?, answer = .accept) :
    FlushTaken answers.tail count := by
  cases answers with
  | nil => simp [FlushTaken]
  | cons answer rest =>
    have hanswer : answer = .accept := haccept answer rfl
    subst hanswer
    simpa [FlushTaken] using h

/-! ## Properties that do not look at the reading side -/

/-- An update of what a socket has to read, and of nothing else. -/
structure Inbound (f : NodeRelayChannelSocket → NodeRelayChannelSocket) : Prop where
  channelId : ∀ socket, (f socket).channelId = socket.channelId
  streamId : ∀ socket, (f socket).streamId = socket.streamId
  readyState : ∀ socket, (f socket).readyState = socket.readyState
  outbound : ∀ socket, (f socket).outbound = socket.outbound
  writableWaiters : ∀ socket, (f socket).writableWaiters = socket.writableWaiters
  remotePaused : ∀ socket, (f socket).remotePaused = socket.remotePaused

/-- A property of channels that inbound updates and control messages keep. -/
structure IgnoresInbound (I : NodeChannel → Prop) : Prop where
  inbound : ∀ w s f, Inbound f → I w → I (w.updateSocket s f)
  answered : ∀ w answers, I w → I { w with answers := answers }
  sessionEnd : ∀ w, I w → I w.sessionEnd

namespace IgnoresInbound

variable {I : NodeChannel → Prop} (hI : IgnoresInbound I)

include hI

variable {w : NodeChannel}

variable (h : I w)

include h

theorem control : I (w.handOver none).1 := by
  rcases w.handOver_cases none with
    ⟨hsame, -⟩ | ⟨-, answers, -, ⟨hsent, -⟩ | ⟨hrefused, -⟩ | hended⟩
  · rw [hsame]
    exact h
  · have hsent' : (w.handOver none).1 = { w with answers := answers } := by
      rw [hsent]
      simp
    rw [hsent']
    exact hI.answered w answers h
  · rw [hrefused]
    exact hI.answered w answers h
  · rw [hended]
    exact hI.sessionEnd _ (hI.answered w answers h)

theorem sendControl : I w.sendControl := by
  unfold NodeChannel.sendControl
  split
  · exact h
  · exact hI.control h

theorem reply : I w.reply := by
  have hsent := hI.control h
  unfold NodeChannel.reply
  generalize w.handOver none = result at hsent
  obtain ⟨sent, returned⟩ := result
  cases returned with
  | true => exact hsent
  | false => exact hI.sessionEnd _ hsent

theorem pause (s : Nat) : I (w.pause s) := by
  unfold NodeChannel.pause
  split
  · exact h
  · have hf : Inbound fun socket => { socket with paused := true } := by constructor <;> simp
    exact hI.sendControl (hI.inbound w s _ hf h)

theorem flushInbound (s taken : Nat) : I (w.flushInbound s taken) := by
  unfold NodeChannel.flushInbound
  simp only
  split
  · exact h
  generalize (if w.isOpen s then (w.sockets s).queued.drop taken else []) = rest
  have hf : Inbound fun socket =>
      { socket with queued := rest, queuedBytes := (rest.map Message.bytes).sum } := by
    constructor <;> simp
  have hread := hI.inbound w s _ hf h
  split
  · exact hread
  · exact hI.pause hread s

theorem resume (s taken : Nat) : I (w.resume s taken) := by
  unfold NodeChannel.resume
  split
  · exact h
  have hf : Inbound fun socket => { socket with paused := false } := by constructor <;> simp
  have hread := hI.flushInbound (hI.inbound w s _ hf h) s taken
  simp only
  split
  · exact hread
  · exact hI.sendControl hread

theorem listen (s taken : Nat) : I (w.listen s taken) := by
  have hf : Inbound fun socket => { socket with listening := true } := by constructor <;> simp
  have hlistening := hI.inbound w s _ hf h
  unfold NodeChannel.listen
  split
  · exact hI.resume hlistening s taken
  · exact hI.flushInbound hlistening s taken

theorem unlisten (s : Nat) : I (w.unlisten s) := by
  have hf : Inbound fun socket => { socket with listening := false } := by constructor <;> simp
  exact hI.inbound w s _ hf h

/-- A delivery either closes a slow reader or changes only what is to be read. -/
theorem deliver (s : Nat) (message : Message)
    (hclose : w.isOpen s = true → (!(w.sockets s).paused && (w.sockets s).listening) = false →
      NODE_RELAY_STREAM_MAX_QUEUED_BYTES < (w.sockets s).queuedBytes + message.bytes →
      I (w.closeSocket s 1013 "Node relay stream consumer is too slow.")) :
    I (w.deliver s message) := by
  unfold NodeChannel.deliver
  by_cases hopen : w.isOpen s = true
  swap
  · rw [if_pos (by simp [hopen])]
    exact h
  rw [if_neg (by simp [hopen])]
  split
  · exact h
  next hwaits =>
  by_cases hlimit : NODE_RELAY_STREAM_MAX_QUEUED_BYTES <
      (w.sockets s).queuedBytes + message.bytes
  · rw [if_pos hlimit]
    exact hclose hopen (by simpa using hwaits) hlimit
  rw [if_neg hlimit]
  have hf : Inbound fun socket =>
      { socket with
        queued := socket.queued ++ [message]
        queuedBytes := socket.queuedBytes + message.bytes } := by
    constructor <;> simp
  have hqueued := hI.inbound w s _ hf h
  split
  · exact hI.pause hqueued s
  · exact hqueued

end IgnoresInbound

end NodeChannel

end TaskHandoff.Relay
