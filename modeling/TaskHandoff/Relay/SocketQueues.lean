import TaskHandoff.Relay.Names

/-! # The queues of a socket

A message whose `send` returned is in the queue of its socket or was handed to
the session, in order. This is what writes, deferred flushes and the end of the
channel do to it.
-/

namespace TaskHandoff.Relay

open List Item

/-! ## One socket and its share of the session -/

/-- A socket, what the session took from it and what it accepted. -/
structure Delivered (socket : NodeRelayChannelSocket) (items : List Item)
    (accepted : List Message) (sessionClosed : Bool) : Prop where
  last : ∀ pre item post, items = pre ++ item :: post → item.message? = none →
    pre.filterMap message? = accepted
  announced : ∀ item ∈ items, item.message? = none → socket.readyState ≠ .OPEN
  kept : sessionClosed = false → socket.readyState = .OPEN →
    accepted = items.filterMap message? ++ socket.outbound
  closed : sessionClosed = false → socket.readyState = .CLOSED .localClose ∨
    socket.readyState = .CLOSED .flushFailed → accepted = items.filterMap message?

namespace Delivered

variable {socket socket' : NodeRelayChannelSocket} {items : List Item} {accepted : List Message}
  {sessionClosed : Bool}

theorem congr (h : Delivered socket items accepted sessionClosed)
    (hstate : socket'.readyState = socket.readyState) (hout : socket'.outbound = socket.outbound) :
    Delivered socket' items accepted sessionClosed where
  last := h.last
  announced item hitem hclose := by
    rw [hstate]
    exact h.announced item hitem hclose
  kept hsession hopen := by
    rw [hout]
    exact h.kept hsession (hstate.symm.trans hopen)
  closed hsession hclosed := by
    rw [hstate] at hclosed
    exact h.closed hsession hclosed

section

variable (hno : ∀ item ∈ items, item.message? ≠ none)

include hno

theorem of_no_close
    (hkept : sessionClosed = false → socket.readyState = .OPEN →
      accepted = items.filterMap message? ++ socket.outbound)
    (hclosed : sessionClosed = false → socket.readyState = .CLOSED .localClose ∨
      socket.readyState = .CLOSED .flushFailed → accepted = items.filterMap message?) :
    Delivered socket items accepted sessionClosed where
  last pre item post hitems hclose := by
    have hmem : item ∈ items := by
      rw [hitems]
      simp
    exact (hno item hmem hclose).elim
  announced item hitem hclose := (hno item hitem hclose).elim
  kept := hkept
  closed := hclosed

theorem of_open
    (hkept : sessionClosed = false → accepted = items.filterMap message? ++ socket.outbound)
    (hopen : socket.readyState = .OPEN) : Delivered socket items accepted sessionClosed := by
  refine of_no_close hno (fun hsession _ => hkept hsession) fun _ hclosed => ?_
  rw [hopen] at hclosed
  simp at hclosed

end

theorem ended (h : Delivered socket items accepted sessionClosed) {items' : List Item}
    (hfront : items' <+: items) (hlive : socket'.readyState = .OPEN → socket.readyState = .OPEN) :
    Delivered socket' items' accepted true where
  last pre item post hitems hclose := by
    obtain ⟨rest, hrest⟩ := hfront
    have hsplit : items = pre ++ item :: (post ++ rest) := by
      rw [← hrest, hitems, append_assoc, cons_append]
    exact h.last pre item _ hsplit hclose
  announced item hitem hclose hopen := h.announced item (hfront.subset hitem) hclose (hlive hopen)
  kept hsession := by cases hsession
  closed hsession := by cases hsession

variable {message : Message} {item : Item}

variable (h : Delivered socket items accepted sessionClosed)

include h

theorem queued
    (hopen : socket.readyState = .OPEN) (hstate : socket'.readyState = .OPEN)
    (hout : socket'.outbound = socket.outbound ++ [message]) :
    Delivered socket' items (accepted ++ [message]) sessionClosed := by
  refine of_open (fun item hitem hclose => h.announced item hitem hclose hopen) ?_ hstate
  intro hsession
  rw [h.kept hsession hopen, hout, append_assoc]

theorem taken
    (hopen : socket.readyState = .OPEN)
    (hmessage : item.message? = some message) {accepted' : List Message}
    (hkept : sessionClosed = false →
      accepted' = items.filterMap message? ++ message :: socket'.outbound)
    (hstate : socket'.readyState = .OPEN) :
    Delivered socket' (items ++ [item]) accepted' sessionClosed := by
  refine of_open ?_ ?_ hstate
  · intro item' hitem'
    rcases mem_concat.mp hitem' with hold | rfl
    · exact fun hclose => h.announced item' hold hclose hopen
    · rw [hmessage]
      simp
  · intro hsession
    rw [hkept hsession]
    simp [hmessage]

theorem shut
    (hstate : socket'.readyState ≠ .OPEN)
    (hclosed : sessionClosed = false → socket'.readyState = .CLOSED .localClose ∨
      socket'.readyState = .CLOSED .flushFailed → accepted = items.filterMap message?) :
    Delivered socket' items accepted sessionClosed where
  last := h.last
  announced _ _ _ := hstate
  kept _ hopen := (hstate hopen).elim
  closed := hclosed

theorem announce
    (hstate : socket.readyState ≠ .OPEN) (hall : accepted = items.filterMap message?)
    (hclose : item.message? = none) :
    Delivered socket (items ++ [item]) accepted sessionClosed where
  last pre item' post hitems hclose' := by
    rcases post.eq_nil_or_concat with rfl | ⟨post', last, rfl⟩
    · obtain ⟨hpre, -⟩ := append_inj' hitems rfl
      rw [← hpre, ← hall]
    rw [concat_eq_append, ← cons_append, ← append_assoc] at hitems
    obtain ⟨hbefore, -⟩ := append_inj' hitems rfl
    exact h.last pre item' post' hbefore hclose'
  announced _ _ _ := hstate
  kept _ hopen := (hstate hopen).elim
  closed _ _ := by
    rw [filterMap_append, ← hall]
    simp [hclose]

end Delivered

namespace NodeChannel

variable (w : NodeChannel)

/-- What the session took from a socket, in order. -/
def itemsOf (s : Nat) : List Item :=
  (w.wire ++ w.outboundData).filter fun item => item.socket = s

def acceptedOf (s : Nat) : List Message :=
  w.accepted.filterMap fun entry => if entry.1 = s then some entry.2 else none

/-! ## The invariant -/

/-- Nothing waits in an open socket that may write. -/
def Flushed (s : Nat) : Prop :=
  (w.sockets s).readyState = .OPEN → (w.sockets s).remotePaused = false →
    (w.sockets s).outbound = []

/-- A main socket that closed itself ended the session, with everything sent before. -/
def MainKept : Prop :=
  ∀ s, (w.sockets s).channelId = NODE_RELAY_MAIN_CHANNEL_ID →
    (w.sockets s).readyState = .CLOSED .localClose →
      w.sessionClosed = true ∧ w.acceptedOf s = (w.itemsOf s).filterMap message?

structure Queues (w : NodeChannel) : Prop where
  named : w.Named
  sessionOver : w.sessionClosed = w.closed
  drained : w.sessionClosed = true → w.outboundData = []
  delivered : ∀ s, Delivered (w.sockets s) (w.itemsOf s) (w.acceptedOf s) w.sessionClosed
  fresh : ∀ s, w.nextSocket ≤ s → w.itemsOf s = [] ∧ w.acceptedOf s = []

structure Delivery (w : NodeChannel) : Prop extends Queues w where
  flushed : ∀ s, w.Flushed s
  mainKept : w.MainKept

theorem itemsOf_congr {w w' : NodeChannel} (hwire : w'.wire = w.wire)
    (hdata : w'.outboundData = w.outboundData) (s : Nat) : w'.itemsOf s = w.itemsOf s := by
  unfold itemsOf
  rw [hwire, hdata]

theorem acceptedOf_congr {w w' : NodeChannel} (h : w'.accepted = w.accepted) (s : Nat) :
    w'.acceptedOf s = w.acceptedOf s := by
  unfold acceptedOf
  rw [h]

theorem acceptedOf_recordAccepted_self (s : Nat) (message : Message) :
    (w.recordAccepted s message).acceptedOf s = w.acceptedOf s ++ [message] := by
  simp [acceptedOf, recordAccepted, filterMap_append]

theorem acceptedOf_recordAccepted_ne {s t : Nat} (h : t ≠ s)
    (message : Message) : (w.recordAccepted s message).acceptedOf t = w.acceptedOf t := by
  simp [acceptedOf, recordAccepted, filterMap_append, h.symm]

/-- The session took an item. -/
def handed (answers : List Answer) (item : Item) : NodeChannel :=
  { w with answers := answers, outboundData := w.outboundData ++ [item] }

theorem handed_shrinks (answers : List Answer) (item : Item) : Shrinks w (w.handed answers item) :=
  .of_same rfl

theorem itemsOf_handed (answers : List Answer) (item : Item) (s : Nat) :
    (w.handed answers item).itemsOf s = w.itemsOf s ++ if item.socket = s then [item] else [] := by
  show (w.wire ++ (w.outboundData ++ [item])).filter _ = _
  by_cases h : item.socket = s
  · simp [itemsOf, h]
  · simp [itemsOf, h]

variable {item : Item} {w' : NodeChannel} {cause : CloseCause} {items : List Message}

theorem itemsOf_handed_self (w : NodeChannel) (s : Nat) (answers : List Answer)
    (h : item.socket = s) : (w.handed answers item).itemsOf s = w.itemsOf s ++ [item] := by
  rw [itemsOf_handed, if_pos h]

variable {s : Nat}

theorem itemsOf_handed_ne (w : NodeChannel) (answers : List Answer)
    (h : item.socket ≠ s) : (w.handed answers item).itemsOf s = w.itemsOf s := by
  rw [itemsOf_handed, if_neg h, append_nil]

theorem Queues.one {w w' : NodeChannel} (h : w.Queues) (hnamed : w'.Named)
    (hself : Delivered (w'.sockets s) (w'.itemsOf s) (w'.acceptedOf s) w'.sessionClosed)
    (hother : ∀ t, t ≠ s → w'.sockets t = w.sockets t ∧ w'.itemsOf t = w.itemsOf t ∧
      w'.acceptedOf t = w.acceptedOf t)
    (hfresh : w.nextSocket ≤ s → w'.itemsOf s = [] ∧ w'.acceptedOf s = [])
    (hclosed : w'.closed = w.closed) (hsession : w'.sessionClosed = w.sessionClosed)
    (hdrained : w'.sessionClosed = true → w'.outboundData = w.outboundData)
    (hnext : w'.nextSocket = w.nextSocket) : w'.Queues where
  named := hnamed
  sessionOver := by rw [hclosed, hsession, h.sessionOver]
  drained hclosed' := by
    rw [hdrained hclosed']
    exact h.drained (hsession.symm.trans hclosed')
  delivered t := by
    by_cases ht : t = s
    · rw [ht]
      exact hself
    obtain ⟨hsocket, hitems, haccepted⟩ := hother t ht
    rw [hsocket, hitems, haccepted, hsession]
    exact h.delivered t
  fresh t ht := by
    rw [hnext] at ht
    by_cases hts : t = s
    · rw [hts] at ht ⊢
      exact hfresh ht
    obtain ⟨-, hitems, haccepted⟩ := hother t hts
    rw [hitems, haccepted]
    exact h.fresh t ht

theorem Delivery.one {w w' : NodeChannel} (h : w.Delivery) (hqueues : w'.Queues)
    (hother : ∀ t, t ≠ s → w'.sockets t = w.sockets t ∧ w'.itemsOf t = w.itemsOf t ∧
      w'.acceptedOf t = w.acceptedOf t) (hsession : w'.sessionClosed = w.sessionClosed)
    (hflushed : w'.Flushed s) (hmain : (w'.sockets s).channelId = NODE_RELAY_MAIN_CHANNEL_ID →
      (w'.sockets s).readyState ≠ .CLOSED .localClose) : w'.Delivery where
  toQueues := hqueues
  flushed t := by
    by_cases ht : t = s
    · rw [ht]
      exact hflushed
    unfold Flushed
    rw [(hother t ht).1]
    exact h.flushed t
  mainKept t := by
    by_cases ht : t = s
    · rw [ht]
      exact fun hname hstate => (hmain hname hstate).elim
    obtain ⟨hsocket, hitems, haccepted⟩ := hother t ht
    rw [hsocket, hitems, haccepted, hsession]
    exact h.mainKept t

theorem Delivery.congr {w w' : NodeChannel} (h : w.Delivery) (hnamed : w'.Named)
    (hsockets : ∀ s, (w'.sockets s).channelId = (w.sockets s).channelId ∧
      (w'.sockets s).readyState = (w.sockets s).readyState ∧
      (w'.sockets s).outbound = (w.sockets s).outbound ∧
      ((w'.sockets s).remotePaused = false → (w.sockets s).remotePaused = false))
    (hitems : ∀ s, w'.itemsOf s = w.itemsOf s) (haccepted : w'.accepted = w.accepted)
    (hclosed : w'.closed = w.closed) (hsession : w'.sessionClosed = w.sessionClosed)
    (hdrained : w.outboundData = [] → w'.outboundData = [])
    (hnext : w'.nextSocket = w.nextSocket) : w'.Delivery where
  named := hnamed
  sessionOver := by rw [hclosed, hsession, h.sessionOver]
  drained hclosed' := hdrained (h.drained (hsession.symm.trans hclosed'))
  delivered s := by
    obtain ⟨-, hstate, hout, -⟩ := hsockets s
    rw [hitems, acceptedOf_congr haccepted, hsession]
    exact (h.delivered s).congr hstate hout
  fresh s hs := by
    rw [hitems, acceptedOf_congr haccepted]
    rw [hnext] at hs
    exact h.fresh s hs
  flushed s := by
    obtain ⟨-, hstate, hout, hpaused⟩ := hsockets s
    unfold Flushed
    rw [hstate, hout]
    exact fun hlive hwriting => h.flushed s hlive (hpaused hwriting)
  mainKept s := by
    obtain ⟨hname, hstate, -, -⟩ := hsockets s
    rw [hname, hstate, hitems, acceptedOf_congr haccepted, hsession]
    exact h.mainKept s

variable {w : NodeChannel}

theorem Delivery.same {w w' : NodeChannel} (h : w.Delivery)
    (hitems : ∀ s, w'.itemsOf s = w.itemsOf s) (hdrained : w.outboundData = [] → w'.outboundData = [])
    (hsame : (w'.sockets, w'.nextSocket, w'.aux, w'.accepted, w'.closed, w'.sessionClosed) =
      (w.sockets, w.nextSocket, w.aux, w.accepted, w.closed, w.sessionClosed)) : w'.Delivery := by
  simp only [Prod.mk.injEq] at hsame
  obtain ⟨hsockets, hnext, haux, haccepted, hclosed, hsession⟩ := hsame
  have hshrinks : Shrinks w w' := .of_same (by rw [hsockets, haux, hnext, hclosed])
  refine h.congr (h.named.shrinks hshrinks) (fun s => ?_) hitems haccepted hclosed hsession hdrained
    hnext
  rw [hsockets]
  exact ⟨rfl, rfl, rfl, id⟩

theorem Delivery.update (h : w.Delivery) (s : Nat)
    {f : NodeRelayChannelSocket → NodeRelayChannelSocket}
    (hf : ∀ socket, (f socket).channelId = socket.channelId ∧
      (f socket).readyState = socket.readyState ∧ (f socket).outbound = socket.outbound ∧
      ((f socket).remotePaused = false → socket.remotePaused = false)) :
    (w.updateSocket s f).Delivery := by
  have hnamed := h.named.shrinks (Shrinks.update w s fun socket => ⟨(hf socket).1, by
    rw [(hf socket).2.1]
    exact id⟩)
  refine h.congr hnamed (fun t => ?_) (fun _ => rfl) rfl rfl rfl id rfl
  by_cases ht : t = s
  · rw [ht, updateSocket_self]
    exact hf _
  · rw [updateSocket_ne w ht]
    exact ⟨rfl, rfl, rfl, id⟩

theorem Delivery.releaseWriters (h : w.Delivery) (s : Nat) : (w.releaseWriters s).Delivery := by
  have hupdated := h.update s (f := fun socket => { socket with writableWaiters := 0 })
    fun socket => ⟨rfl, rfl, rfl, id⟩
  exact hupdated.same (fun _ => rfl) id rfl

/-! ## The end of the channel -/

theorem Ended.items_front (h : Ended w w') (s : Nat) : w'.itemsOf s <+: w.itemsOf s := by
  have hcut : w.itemsOf s = w'.itemsOf s ++ w.outboundData.filter fun item => item.socket = s := by
    unfold itemsOf
    rw [h.wire, h.outboundData, append_nil, filter_append]
  exact ⟨_, hcut.symm⟩

theorem Ended.items_eq (h : Ended w w')
    (hqueue : ∀ item ∈ w.outboundData, item.socket ≠ s) : w'.itemsOf s = w.itemsOf s := by
  have hnone : (w.outboundData.filter fun item => item.socket = s) = [] := by
    rw [filter_eq_nil_iff]
    intro item hitem
    simpa using hqueue item hitem
  unfold itemsOf
  rw [h.wire, h.outboundData, append_nil, filter_append, hnone, append_nil]

theorem Queues.ended {w v w' : NodeChannel} (h : w.Queues) (hended : Ended v w')
    (hshrinks : Shrinks w w') (hwire : v.wire = w.wire) (hdata : v.outboundData = w.outboundData)
    (haccepted : v.accepted = w.accepted) : w'.Queues := by
  have hfront : ∀ s, w'.itemsOf s <+: w.itemsOf s := by
    intro s
    rw [← itemsOf_congr hwire hdata]
    exact hended.items_front s
  have haccepted' := hended.accepted.trans haccepted
  exact
    { named := h.named.shrinks hshrinks
      sessionOver := hended.sessionClosed.trans hended.closed.symm
      drained := fun _ => hended.outboundData
      delivered := by
        intro s
        rw [hended.sessionClosed, acceptedOf_congr haccepted']
        exact (h.delivered s).ended (hfront s) (hshrinks.live s)
      fresh := by
        intro s hs
        rw [hshrinks.nextSocket] at hs
        obtain ⟨hitems, hnone⟩ := h.fresh s hs
        have hempty := hfront s
        rw [hitems] at hempty
        rw [acceptedOf_congr haccepted']
        exact ⟨prefix_nil.mp hempty, hnone⟩ }

theorem Ended.flushed (hended : Ended w w') (h : w.Flushed s) : w'.Flushed s := by
  obtain ⟨held, hsockets⟩ := hended.sockets
  rcases hsockets s with hsame | ⟨-, hclosed⟩
  · unfold Flushed
    rw [hsame]
    exact h
  intro hopen
  rcases hclosed with hdropped | ⟨-, hclosed⟩
  · rw [hdropped] at hopen
    cases hopen
  · rw [hclosed] at hopen
    cases hopen

theorem Ended.not_localClose (hended : Ended w w') (hopen : (w.sockets s).readyState = .OPEN) :
    (w'.sockets s).readyState ≠ .CLOSED .localClose := by
  obtain ⟨held, hsockets⟩ := hended.sockets
  rcases hsockets s with hsame | ⟨-, hdropped | ⟨-, hclosed⟩⟩
  · rw [hsame, hopen]
    simp
  · rw [hdropped]
    simp [NodeRelayChannelSocket.drop]
  · rw [hclosed]
    simp

theorem Ended.mainKept (hended : Ended w w')
    (h : ∀ s, (w.sockets s).channelId = NODE_RELAY_MAIN_CHANNEL_ID →
      (w.sockets s).readyState = .CLOSED .localClose →
        w.acceptedOf s = (w.itemsOf s).filterMap message? ∧
          ∀ item ∈ w.outboundData, item.socket ≠ s) : w'.MainKept := by
  obtain ⟨held, hsockets⟩ := hended.sockets
  intro s hname hstate
  refine ⟨hended.sessionClosed, ?_⟩
  -- A socket the end of the channel touches gets the channel as its cause.
  have hsame : w'.sockets s = w.sockets s := by
    rcases hsockets s with hsame | ⟨-, hclosed⟩
    · exact hsame
    rcases hclosed with hdropped | ⟨-, hclosed⟩
    · rw [hdropped] at hstate
      cases hstate
    · rw [hclosed] at hstate
      cases hstate
  rw [hsame] at hname hstate
  obtain ⟨hall, hqueue⟩ := h s hname hstate
  rw [acceptedOf_congr hended.accepted, hended.items_eq hqueue]
  exact hall

theorem Queues.mainKept_ended (h : w.Queues) (hmain : w.MainKept)
    (hended : Ended w w') : w'.MainKept := by
  refine hended.mainKept fun s hname hstate => ?_
  obtain ⟨hsession, hall⟩ := hmain s hname hstate
  refine ⟨hall, fun item hitem => ?_⟩
  rw [h.drained hsession] at hitem
  cases hitem

theorem Delivery.ended (h : w.Delivery) (hended : Ended w w')
    (hshrinks : Shrinks w w') : w'.Delivery where
  toQueues := h.toQueues.ended hended hshrinks rfl rfl rfl
  flushed s := hended.flushed (h.flushed s)
  mainKept := h.toQueues.mainKept_ended h.mainKept hended

theorem Queues.sessionEnd_cases (h : w.Queues) : w.sessionEnd = w ∨ Ended w w.sessionEnd := by
  cases hsession : w.sessionClosed with
  | true => exact Or.inl (sessionEnd_of_closed hsession)
  | false => exact Or.inr (sessionEnd_ended (h.sessionOver.symm.trans hsession) hsession)

theorem Delivery.sessionEnd (h : w.Delivery) : w.sessionEnd.Delivery := by
  rcases h.toQueues.sessionEnd_cases with hsame | hended
  · rw [hsame]
    exact h
  · exact h.ended hended (sessionEnd_shrinks w)

theorem Delivery.close (h : w.Delivery) : w.close.Delivery := by
  cases hclosed : w.closed with
  | true =>
    rw [close_of_closed hclosed]
    exact h
  | false => exact h.ended (close_ended hclosed (h.sessionOver.trans hclosed)) (close_shrinks w)

theorem delivery_ignoresInbound : IgnoresInbound Delivery where
  inbound w s f hf h := h.update s fun socket =>
    ⟨hf.channelId socket, hf.readyState socket, hf.outbound socket, by
      rw [hf.remotePaused socket]
      exact id⟩
  answered w answers h := h.same (fun _ => rfl) id rfl
  sessionEnd _ h := h.sessionEnd

/-! ## A socket closed from underneath -/

theorem Queues.dropped (h : w.Queues) (hshrinks : Shrinks w w') (hlocal : cause ≠ .localClose)
    (hflush : w.sessionClosed = false → cause ≠ .flushFailed) (hopen : w.isOpen s = true)
    (hsockets : w'.sockets = (w.remoteClosed s cause).sockets) (hwire : w'.wire = w.wire)
    (hdata : w'.outboundData = w.outboundData) (haccepted : w'.accepted = w.accepted)
    (hclosed : w'.closed = w.closed) (hsession : w'.sessionClosed = w.sessionClosed) :
    w'.Queues := by
  have hself : w'.sockets s = (w.sockets s).drop cause := by rw [hsockets, remoteClosed_self hopen]
  refine h.one (h.named.shrinks hshrinks) (s := s) ?_ ?_ ?_ hclosed hsession (fun _ => hdata)
    hshrinks.nextSocket
  · rw [hself, itemsOf_congr hwire hdata, acceptedOf_congr haccepted, hsession]
    refine (h.delivered s).shut (by simp [NodeRelayChannelSocket.drop]) fun hsession' hstate => ?_
    rcases hstate with hstate | hstate
    · exact (hlocal (ReadyState.CLOSED.inj hstate)).elim
    · exact (hflush hsession' (ReadyState.CLOSED.inj hstate)).elim
  · intro t ht
    rw [hsockets, remoteClosed_ne w ht, itemsOf_congr hwire hdata, acceptedOf_congr haccepted]
    exact ⟨rfl, rfl, rfl⟩
  · rw [itemsOf_congr hwire hdata, acceptedOf_congr haccepted]
    exact h.fresh s

theorem Delivery.dropped (h : w.Delivery) (hshrinks : Shrinks w w') (hlocal : cause ≠ .localClose)
    (hflush : cause ≠ .flushFailed)
    (hsockets : w'.sockets = (w.remoteClosed s cause).sockets) (hwire : w'.wire = w.wire)
    (hdata : w'.outboundData = w.outboundData) (haccepted : w'.accepted = w.accepted)
    (hclosed : w'.closed = w.closed) (hsession : w'.sessionClosed = w.sessionClosed) :
    w'.Delivery := by
  cases hopen : w.isOpen s with
  | false =>
    rw [remoteClosed_of_closed hopen] at hsockets
    refine h.congr (h.named.shrinks hshrinks) (fun t => ?_) (itemsOf_congr hwire hdata) haccepted
      hclosed hsession hdata.trans hshrinks.nextSocket
    rw [hsockets]
    exact ⟨rfl, rfl, rfl, id⟩
  | true =>
    have hself : w'.sockets s = (w.sockets s).drop cause := by
      rw [hsockets, remoteClosed_self hopen]
    have hqueues := h.toQueues.dropped hshrinks hlocal (fun _ => hflush) hopen hsockets hwire
      hdata haccepted hclosed hsession
    refine h.one hqueues (s := s) (fun t ht => ?_) hsession ?_ ?_
    · rw [hsockets, remoteClosed_ne w ht, itemsOf_congr hwire hdata, acceptedOf_congr haccepted]
      exact ⟨rfl, rfl, rfl⟩
    · intro hlive
      rw [hself] at hlive
      cases hlive
    · rw [hself]
      intro _ hstate
      exact hlocal (ReadyState.CLOSED.inj hstate)

/-! ## The deferred flush -/

/-- The socket may write again, and `items` are what is left in its queue. -/
structure Flushing (w : NodeChannel) (s : Nat) (items : List Message) : Prop extends Queues w where
  others : ∀ t, t ≠ s → w.Flushed t
  mainKept : w.MainKept
  queue : (w.sockets s).readyState = .OPEN → (w.sockets s).outbound = items

theorem Flushing.of_not_writing (h : w.Flushing s items) (hs : w.Flushed s) : w.Delivery where
  __ := h
  flushed t := by
    by_cases ht : t = s
    · rw [ht]
      exact hs
    · exact h.others t ht

theorem Flushing.failed (h : w.Flushing s items) (hsession : w.sessionClosed = true) :
    (w.remoteClosed s .flushFailed).Delivery := by
  cases hopen : w.isOpen s with
  | false =>
    rw [remoteClosed_of_closed hopen]
    refine h.of_not_writing fun hlive => ?_
    rw [isOpen_iff.mpr hlive] at hopen
    cases hopen
  | true =>
    have honly := w.remoteClosed_only s .flushFailed
    have hqueues := h.toQueues.dropped (remoteClosed_shrinks w s .flushFailed) (by simp)
      (by simp [hsession]) hopen rfl honly.wire honly.outboundData honly.accepted honly.closed
      honly.sessionClosed
    have hself := remoteClosed_self hopen .flushFailed
    exact
      { toQueues := hqueues
        flushed := by
          intro t
          by_cases ht : t = s
          · intro hlive
            rw [ht, hself] at hlive
            cases hlive
          unfold Flushed
          rw [remoteClosed_ne w ht]
          exact h.others t ht
        mainKept := by
          intro t
          rw [honly.sessionClosed, acceptedOf_congr honly.accepted,
            itemsOf_congr honly.wire honly.outboundData]
          by_cases ht : t = s
          · intro _ hstate
            rw [ht, hself] at hstate
            cases hstate
          · rw [remoteClosed_ne w ht]
            exact h.mainKept t }

/-- An update that leaves `rest` in the queue of a socket. -/
structure Leaves (rest : List Message) (f : NodeRelayChannelSocket → NodeRelayChannelSocket) :
    Prop where
  channelId : ∀ socket, (f socket).channelId = socket.channelId
  readyState : ∀ socket, (f socket).readyState = socket.readyState
  outbound : ∀ socket, (f socket).outbound = rest

section Shift

variable {w : NodeChannel} {s : Nat} {message : Message} {rest : List Message}
  {f : NodeRelayChannelSocket → NodeRelayChannelSocket} (hf : Leaves rest f)

include hf

theorem shifted_shrinks : Shrinks w (w.updateSocket s f) :=
  Shrinks.update w s fun socket => ⟨hf.channelId socket, by
    rw [hf.readyState socket]
    exact id⟩

theorem shifted_names (t : Nat) :
    ((w.updateSocket s f).sockets t).channelId = (w.sockets t).channelId ∧
      ((w.updateSocket s f).sockets t).readyState = (w.sockets t).readyState := by
  by_cases ht : t = s
  · rw [ht, updateSocket_self]
    exact ⟨hf.channelId _, hf.readyState _⟩
  · rw [updateSocket_ne w ht]
    exact ⟨rfl, rfl⟩

variable (h : w.Flushing s (message :: rest))

include h

theorem Flushing.lost {w' : NodeChannel}
    {answers : List Answer} (hended : Ended { w.updateSocket s f with answers := answers } w')
    (hshrinks : Shrinks { w.updateSocket s f with answers := answers } w') :
    w'.Flushing s rest := by
  have hshifted : Shrinks w { w.updateSocket s f with answers := answers } :=
    (shifted_shrinks hf).trans (.of_same rfl)
  refine
    { toQueues := h.toQueues.ended hended (hshifted.trans hshrinks) rfl rfl rfl
      others := fun t ht => hended.flushed ?_
      mainKept := hended.mainKept fun t hname hstate => ?_
      queue := fun hlive => ?_ }
  · unfold Flushed
    rw [updateSocket_ne w ht]
    exact h.others t ht
  · obtain ⟨hname', hstate'⟩ := shifted_names (w := w) (s := s) hf t
    obtain ⟨hsession, hall⟩ := h.mainKept t (hname'.symm.trans hname) (hstate'.symm.trans hstate)
    refine ⟨hall, fun item hitem => ?_⟩
    have hempty : w.outboundData = [] := h.drained hsession
    have hitem' : item ∈ w.outboundData := hitem
    rw [hempty] at hitem'
    cases hitem'
  · obtain ⟨held, hsockets⟩ := hended.sockets
    rcases hsockets s with hsame | ⟨-, hclosed⟩
    · rw [hsame]
      rw [updateSocket_self]
      exact hf.outbound _
    rcases hclosed with hdropped | ⟨-, hclosed⟩
    · rw [hdropped] at hlive
      cases hlive
    · rw [hclosed] at hlive
      cases hlive

theorem Flushing.taken
    (hopen : (w.sockets s).readyState = .OPEN) (hsession : w.sessionClosed = false)
    (answers : List Answer) (n : Nat) :
    ((w.updateSocket s f).handed answers (.data s n message)).Flushing s rest := by
  have hnamed := (h.named.shrinks (shifted_shrinks hf)).shrinks
    (handed_shrinks (w.updateSocket s f) answers (.data s n message))
  have hself : ((w.updateSocket s f).handed answers (.data s n message)).sockets s =
      f (w.sockets s) := updateSocket_self w s f
  have hborn := h.named.born s hopen
  have hother : ∀ t, t ≠ s →
      ((w.updateSocket s f).handed answers (.data s n message)).sockets t = w.sockets t ∧
      ((w.updateSocket s f).handed answers (.data s n message)).itemsOf t = w.itemsOf t ∧
      ((w.updateSocket s f).handed answers (.data s n message)).acceptedOf t = w.acceptedOf t := by
    intro t ht
    exact ⟨updateSocket_ne w ht f, itemsOf_handed_ne (w.updateSocket s f) _ ht.symm, rfl⟩
  have hqueues := h.toQueues.one hnamed (s := s) ?_ hother (fun hs => by omega) rfl rfl ?_ rfl
  · refine
      { toQueues := hqueues
        others := fun t ht => ?_
        mainKept := fun t hname hstate => ?_
        queue := fun _ => ?_ }
    · unfold Flushed
      rw [(hother t ht).1]
      exact h.others t ht
    · by_cases ht : t = s
      · rw [ht, hself, hf.readyState, hopen] at hstate
        cases hstate
      · obtain ⟨hsocket, hitems, haccepted⟩ := hother t ht
        rw [hsocket] at hname hstate
        rw [hitems]
        exact h.mainKept t hname hstate
    · rw [hself]
      exact hf.outbound _
  · have hstate : (f (w.sockets s)).readyState = .OPEN := (hf.readyState _).trans hopen
    rw [hself, itemsOf_handed_self (w.updateSocket s f) s answers rfl]
    have hmessage : (data s n message).message? = some message := rfl
    refine (h.delivered s).taken hopen hmessage (fun hsession' => ?_) hstate
    have hkept := (h.delivered s).kept hsession' hopen
    rw [h.queue hopen] at hkept
    rw [hf.outbound]
    exact hkept
  · intro hclosed
    rw [show ((w.updateSocket s f).handed answers (.data s n message)).sessionClosed =
      w.sessionClosed from rfl, hsession] at hclosed
    cases hclosed

theorem Flushing.skipped (hsession : w.sessionClosed = true) :
    (w.updateSocket s f).Flushing s rest := by
  have hother : ∀ t, t ≠ s → (w.updateSocket s f).sockets t = w.sockets t ∧
      (w.updateSocket s f).itemsOf t = w.itemsOf t ∧
      (w.updateSocket s f).acceptedOf t = w.acceptedOf t := fun t ht =>
    ⟨updateSocket_ne w ht f, rfl, rfl⟩
  have hqueues := h.toQueues.one (h.named.shrinks (shifted_shrinks hf)) ?_ hother (h.fresh s) rfl rfl
    (fun _ => rfl) rfl
  · exact
      { toQueues := hqueues
        others := by
          intro t ht
          unfold Flushed
          rw [(hother t ht).1]
          exact h.others t ht
        mainKept := by
          intro t hname hstate
          obtain ⟨hname', hstate'⟩ := shifted_names (w := w) (s := s) hf t
          exact h.mainKept t (hname'.symm.trans hname) (hstate'.symm.trans hstate)
        queue := by
          intro _
          rw [updateSocket_self]
          exact hf.outbound _ }
  · rw [updateSocket_self]
    show Delivered _ (w.itemsOf s) (w.acceptedOf s) w.sessionClosed
    rw [hsession]
    refine (h.delivered s).ended prefix_rfl fun hlive => ?_
    rw [← hf.readyState (w.sockets s)]
    exact hlive

end Shift

theorem flushOutbound_delivery (s : Nat) (items : List Message) (h : w.Flushing s items)
    (hanswers : w.sessionClosed = false → FlushTaken w.answers items.length) :
    (flushOutbound s items w).Delivery := by
  induction items generalizing w with
  | nil => exact h.of_not_writing fun hlive _ => h.queue hlive
  | cons item rest ih =>
    unfold flushOutbound
    by_cases hguard : ((w.sockets s).remotePaused || !w.isOpen s) = true
    · rw [if_pos hguard]
      refine h.of_not_writing fun hlive hpaused => ?_
      rw [hpaused, isOpen_iff.mpr hlive] at hguard
      cases hguard
    rw [if_neg hguard]
    simp only [Bool.or_eq_true, not_or, Bool.not_eq_true, Bool.not_eq_eq_eq_not,
      Bool.not_true] at hguard
    have hopen : (w.sockets s).readyState = .OPEN := isOpen_iff.mp (by simpa using hguard.2)
    simp only
    generalize hfun : (fun socket : NodeRelayChannelSocket =>
      { socket with
        outbound := rest
        outboundBytes := socket.outboundBytes - item.bytes }) = f
    have hf : Leaves rest f := by
      rw [← hfun]
      constructor <;> intro socket <;> rfl
    have hcases := handOver_cases (w.updateSocket s f)
      (some (.data s (w.sockets s).streamId item))
    have hshrinks := handOver_shrinks (w.updateSocket s f)
      (some (.data s (w.sockets s).streamId item))
    generalize (w.updateSocket s f).handOver _ = result at hcases hshrinks ⊢
    obtain ⟨sent, returned⟩ := result
    rcases hcases with ⟨hsame, hrefused, hsession⟩ | ⟨hsession, answers, htail,
      ⟨hsent, htaken, haccept⟩ | ⟨-, -, hrefused⟩ | hended⟩
    · simp only at hsame hrefused
      rw [hsame, hrefused]
      exact (h.skipped hf hsession).failed hsession
    · simp only at hsent htaken
      rw [hsent, htaken]
      refine ih (h.taken hf hopen hsession answers _) fun _ => ?_
      rw [htail]
      exact (hanswers hsession).tail haccept
    · exact ((hanswers hsession).head hrefused).elim
    · simp only at hended hshrinks
      have hclosed : w.closed = false := h.sessionOver.symm.trans hsession
      have hlost : sent.Flushing s rest := by
        rw [hended]
        exact h.lost hf (sessionEnd_ended hclosed hsession) (sessionEnd_shrinks _)
      have hsession' : sent.sessionClosed = true := by
        rw [hended]
        exact (sessionEnd_ended (w := { w.updateSocket s f with answers := answers }) hclosed
          hsession).sessionClosed
      cases returned with
      | true =>
        refine ih hlost fun hopen' => ?_
        rw [hsession'] at hopen'
        cases hopen'
      | false => exact hlost.failed hsession'

variable (h : w.Delivery)

include h

theorem remoteResume_delivery (s : Nat)
    (hanswers : w.closed = false → (w.sockets s).remotePaused = true →
      FlushTaken w.answers (w.sockets s).outbound.length) : (w.remoteResume s).Delivery := by
  unfold remoteResume
  by_cases hpaused : (w.sockets s).remotePaused = true
  swap
  · rw [if_neg hpaused]
    exact h
  rw [if_pos hpaused]
  have hsocket : ∀ t, ((w.updateSocket s fun socket =>
        { socket with remotePaused := false }).sockets t).channelId = (w.sockets t).channelId ∧
      ((w.updateSocket s fun socket =>
        { socket with remotePaused := false }).sockets t).readyState = (w.sockets t).readyState ∧
      ((w.updateSocket s fun socket =>
        { socket with remotePaused := false }).sockets t).outbound = (w.sockets t).outbound := by
    intro t
    by_cases ht : t = s
    · rw [ht, updateSocket_self]
      exact ⟨rfl, rfl, rfl⟩
    · rw [updateSocket_ne w ht]
      exact ⟨rfl, rfl, rfl⟩
  have hnamed := h.named.shrinks (Shrinks.update w s
    (f := fun socket => { socket with remotePaused := false }) fun socket => ⟨rfl, id⟩)
  have hresumed : (w.updateSocket s fun socket =>
      { socket with remotePaused := false }).Flushing s (w.sockets s).outbound :=
    { h with
      named := hnamed
      delivered := fun t => (h.delivered t).congr (hsocket t).2.1 (hsocket t).2.2
      others := by
        intro t ht
        unfold Flushed
        rw [updateSocket_ne w ht]
        exact h.flushed t
      mainKept := by
        intro t
        rw [(hsocket t).1, (hsocket t).2.1]
        exact h.mainKept t
      queue := fun _ => (hsocket s).2.2 }
  have hflushed := flushOutbound_delivery s _ hresumed fun hsession =>
    hanswers (h.sessionOver.symm.trans hsession) hpaused
  exact hflushed.releaseWriters s

/-! ## Writing -/

theorem Delivery.queued (hopen : (w.sockets s).readyState = .OPEN)
    (hpaused : (w.sockets s).remotePaused = true) (message : Message) :
    ((w.updateSocket s fun socket =>
      { socket with
        outbound := socket.outbound ++ [message]
        outboundBytes := socket.outboundBytes + message.bytes }).recordAccepted s
          message).Delivery := by
  generalize hfun : (fun socket : NodeRelayChannelSocket =>
    { socket with
      outbound := socket.outbound ++ [message]
      outboundBytes := socket.outboundBytes + message.bytes }) = f
  have hf : ∀ socket, (f socket).channelId = socket.channelId ∧
      (f socket).readyState = socket.readyState ∧ (f socket).remotePaused = socket.remotePaused ∧
      (f socket).outbound = socket.outbound ++ [message] := by
    intro socket
    rw [← hfun]
    exact ⟨rfl, rfl, rfl, rfl⟩
  have hself : ((w.updateSocket s f).recordAccepted s message).sockets s = f (w.sockets s) :=
    updateSocket_self w s f
  have hnamed : ((w.updateSocket s f).recordAccepted s message).Named := by
    refine (h.named.shrinks (Shrinks.update w s fun socket => ⟨(hf socket).1, ?_⟩)).shrinks
      (.of_same rfl)
    rw [(hf socket).2.1]
    exact id
  have hother : ∀ t, t ≠ s →
      ((w.updateSocket s f).recordAccepted s message).sockets t = w.sockets t ∧
      ((w.updateSocket s f).recordAccepted s message).itemsOf t = w.itemsOf t ∧
      ((w.updateSocket s f).recordAccepted s message).acceptedOf t = w.acceptedOf t :=
    fun t ht => ⟨updateSocket_ne w ht f, rfl, acceptedOf_recordAccepted_ne _ ht message⟩
  have hborn := h.named.born s hopen
  have hstate : (f (w.sockets s)).readyState = .OPEN := (hf _).2.1.trans hopen
  have hqueues := h.toQueues.one hnamed ?_ hother (fun hs => by omega) rfl rfl (fun _ => rfl) rfl
  · refine h.one hqueues hother rfl ?_ ?_
    · intro _ hwriting
      rw [hself, (hf _).2.2.1, hpaused] at hwriting
      cases hwriting
    · rw [hself, hstate]
      simp
  · rw [hself, acceptedOf_recordAccepted_self]
    exact (h.delivered s).queued hopen hstate (hf _).2.2.2

theorem Delivery.sent (hopen : (w.sockets s).readyState = .OPEN)
    (hpaused : (w.sockets s).remotePaused = false) (hsession : w.sessionClosed = false)
    (answers : List Answer) (n : Nat) (message : Message) :
    ((w.handed answers (.data s n message)).recordAccepted s message).Delivery := by
  have hnamed : ((w.handed answers (.data s n message)).recordAccepted s message).Named :=
    (h.named.shrinks (handed_shrinks w answers (.data s n message))).shrinks
      (.of_same rfl)
  have hother : ∀ t, t ≠ s →
      ((w.handed answers (.data s n message)).recordAccepted s message).sockets t = w.sockets t ∧
      ((w.handed answers (.data s n message)).recordAccepted s message).itemsOf t = w.itemsOf t ∧
      ((w.handed answers (.data s n message)).recordAccepted s message).acceptedOf t =
        w.acceptedOf t :=
    fun t ht => ⟨rfl, itemsOf_handed_ne w answers ht.symm, acceptedOf_recordAccepted_ne _ ht message⟩
  have hborn := h.named.born s hopen
  have hempty := h.flushed s hopen hpaused
  have hqueues := h.toQueues.one hnamed ?_ hother (fun hs => by omega) rfl rfl ?_ rfl
  · refine h.one hqueues hother rfl (fun _ _ => hempty) ?_
    show _ → (w.sockets s).readyState ≠ _
    rw [hopen]
    simp
  · have hitems : ((w.handed answers (.data s n message)).recordAccepted s message).itemsOf s =
        w.itemsOf s ++ [.data s n message] := itemsOf_handed_self w s answers rfl
    rw [hitems, acceptedOf_recordAccepted_self]
    refine (h.delivered s).taken hopen rfl (fun hsession' => ?_) hopen
    show w.acceptedOf s ++ [message] = _
    rw [(h.delivered s).kept hsession' hopen]
    show _ = _ ++ message :: (w.sockets s).outbound
    rw [hempty, append_nil]
  · intro hclosed
    have hclosed' : w.sessionClosed = true := hclosed
    rw [hsession] at hclosed'
    cases hclosed'

/-- A `send` may return although the session ended under it. -/
theorem Delivery.sent_late (hsession : w.sessionClosed = true)
    (hborn : s < w.nextSocket) (hno : ∀ item ∈ w.itemsOf s, item.message? ≠ none)
    (hstate : (w.sockets s).readyState ≠ .CLOSED .localClose) (message : Message) :
    (w.recordAccepted s message).Delivery := by
  have hother : ∀ t, t ≠ s → (w.recordAccepted s message).sockets t = w.sockets t ∧
      (w.recordAccepted s message).itemsOf t = w.itemsOf t ∧
      (w.recordAccepted s message).acceptedOf t = w.acceptedOf t :=
    fun t ht => ⟨rfl, rfl, acceptedOf_recordAccepted_ne w ht message⟩
  have hnamed : (w.recordAccepted s message).Named :=
    h.named.shrinks (.of_same rfl)
  have hqueues := h.toQueues.one hnamed ?_ hother (fun hs => by omega) rfl rfl (fun _ => rfl) rfl
  · exact h.one hqueues hother rfl (h.flushed s) fun _ => hstate
  refine Delivered.of_no_close hno (fun hopen => ?_) fun hopen => ?_
  all_goals
    have hopen' : w.sessionClosed = false := hopen
    rw [hsession] at hopen'
    cases hopen'

theorem send_delivery (s : Nat) (message : Message)
    (hclose : (w.sockets s).remotePaused = true → NODE_RELAY_STREAM_MAX_QUEUED_BYTES <
        (w.sockets s).outboundBytes + message.bytes →
      (w.closeSocket s 1013 "Node relay stream writer is too slow.").Delivery) :
    (w.send s message).Delivery := by
  unfold send
  by_cases hopen : w.isOpen s = true
  swap
  · rw [if_pos (by simp [hopen])]
    exact h
  rw [if_neg (by simp [hopen])]
  have hstate := isOpen_iff.mp hopen
  by_cases hpaused : (w.sockets s).remotePaused = true
  · rw [if_pos hpaused]
    split
    · next hlimit => exact hclose hpaused hlimit
    · exact h.queued hstate hpaused message
  rw [if_neg hpaused]
  have hcases := w.handOver_cases (some (.data s (w.sockets s).streamId message))
  have hshrinks := w.handOver_shrinks (some (.data s (w.sockets s).streamId message))
  generalize w.handOver _ = result at hcases hshrinks
  obtain ⟨sent, returned⟩ := result
  rcases hcases with ⟨hsame, hrefused, -⟩ | ⟨hsession, answers, -,
    ⟨hsent, htaken, -⟩ | ⟨hsame, hrefused, -⟩ | hended⟩
  · simp only at hsame hrefused
    rw [hsame, hrefused]
    exact h
  · simp only at hsent htaken
    rw [hsent, htaken]
    exact h.sent hstate (by simpa using hpaused) hsession answers _ message
  · simp only at hsame hrefused
    rw [hsame, hrefused]
    exact delivery_ignoresInbound.answered w answers h
  · simp only at hended hshrinks
    have hanswered := delivery_ignoresInbound.answered w answers h
    have hfinished : Ended { w with answers := answers } sent := by
      rw [hended]
      exact sessionEnd_ended (h.sessionOver.symm.trans hsession) hsession
    have hsent : sent.Delivery := by
      rw [hended]
      exact hanswered.sessionEnd
    cases returned with
    | false => exact hsent
    | true =>
      have hborn := h.named.born s hstate
      refine hsent.sent_late hfinished.sessionClosed ?_ (fun item hitem hclose' => ?_) ?_ message
      · rw [hshrinks.nextSocket]
        exact hborn
      · have hbefore := (hfinished.items_front s).subset hitem
        exact (h.delivered s).announced item hbefore hclose' hstate
      · exact hfinished.not_localClose hstate

end NodeChannel

end TaskHandoff.Relay
