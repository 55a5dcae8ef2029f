import TaskHandoff.Relay.ChannelEnd

/-! # The registry of auxiliary sockets

At the node end of an open channel the two maps are inverse to each other,
whatever the order of local calls, messages of the peer and failing writes. A
socket that closes itself leaves both maps with one close announced to the
peer.
-/

namespace TaskHandoff.Relay

open Machine OrderedMap List Option Or

namespace NodeChannel

/-! ## The invariant -/

/-- The socket was closed from this side's writes or by the peer, and may still
be held by an open that waits for an answer. -/
def LateClosed (state : ReadyState) : Prop :=
  state = .CLOSED .peerClosed ∨ state = .CLOSED .flushFailed

def isCloseOf (s : Nat) : Item → Bool
  | .data _ _ _ => false
  | .channelClose t _ _ _ => decide (t = s)

/-- How often a `channel-close` of the socket was queued or given up. -/
def closesOf (w : NodeChannel) (s : Nat) : Nat :=
  (w.wire ++ w.outboundData).countP (isCloseOf s) + w.refusedCloses.count s

structure Registry (w : NodeChannel) : Prop where
  node : w.channelEnd = .node
  positive : 0 < w.nextSocket
  main : (w.sockets 0).channelId = NODE_RELAY_MAIN_CHANNEL_ID
  byId : ∀ c s, w.aux.get? c = some s → 0 < s ∧ s < w.nextSocket ∧ (w.sockets s).channelId = c ∧
      (w.sockets s).streamId < w.nextAuxStreamId ∧
      w.auxByStreamId.get? (w.sockets s).streamId = some s
  byStream : ∀ n s, w.auxByStreamId.get? n = some s →
    (w.sockets s).streamId = n ∧ w.aux.get? (w.sockets s).channelId = some s
  live : ∀ c s, w.aux.get? c = some s →
    (w.sockets s).readyState = .OPEN ∨ (w.sockets s).readyState = .CLOSED .flushFailed
  registered : ∀ s, 0 < s → (w.sockets s).readyState = .OPEN →
    w.aux.get? (w.sockets s).channelId = some s
  unborn : ∀ s, w.nextSocket ≤ s → (w.sockets s).readyState = .CLOSED .channelEnded
  pending : ∀ c p, w.pendingOpens.get? c = some p →
    0 < p.socket ∧ p.socket < w.nextSocket ∧ (w.sockets p.socket).channelId = c ∧
      (w.sockets p.socket).streamId = p.streamId ∧
      (w.aux.get? c = some p.socket ∨ LateClosed (w.sockets p.socket).readyState)
  closes : ∀ s, w.closesOf s = if (w.sockets s).readyState = .CLOSED .localClose then 1 else 0

/-- The registry is right as long as the channel is open. -/
def RegistryOpen (w : NodeChannel) : Prop :=
  w.closed = false → w.Registry

variable {w : NodeChannel}

theorem RegistryOpen.of_closed (h : w.closed = true) : w.RegistryOpen := by
  intro hopen
  rw [h] at hopen
  cases hopen

variable {w' : NodeChannel} {s : Nat} {p : PendingOpen}

theorem SocketsOnly.closesOf (h : SocketsOnly w w') (s : Nat) : w'.closesOf s = w.closesOf s := by
  unfold NodeChannel.closesOf
  rw [h.wire, h.outboundData, h.refusedCloses]

theorem Registry.congr (h : w.Registry)
    (hcloses : ∀ s, w'.closesOf s = w.closesOf s)
    (hsockets : ∀ s, (w'.sockets s).channelId = (w.sockets s).channelId ∧
      (w'.sockets s).streamId = (w.sockets s).streamId ∧
      (w'.sockets s).readyState = (w.sockets s).readyState) (haux : w'.aux = w.aux)
    (hby : w'.auxByStreamId = w.auxByStreamId) (hend : w'.channelEnd = w.channelEnd)
    (hnext : w'.nextSocket = w.nextSocket) (hstream : w'.nextAuxStreamId = w.nextAuxStreamId)
    (hpending : w'.pendingOpens = w.pendingOpens) : w'.Registry where
  node := hend.trans h.node
  positive := by rw [hnext]; exact h.positive
  main := by rw [(hsockets 0).1]; exact h.main
  byId c s hs := by
    rw [haux] at hs
    rw [hnext, hstream, hby, (hsockets s).1, (hsockets s).2.1]
    exact h.byId c s hs
  byStream n s hs := by
    rw [hby] at hs
    rw [haux, (hsockets s).1, (hsockets s).2.1]
    exact h.byStream n s hs
  live c s hs := by
    rw [haux] at hs
    rw [(hsockets s).2.2]
    exact h.live c s hs
  registered s hpos hopen := by
    rw [(hsockets s).2.2] at hopen
    rw [haux, (hsockets s).1]
    exact h.registered s hpos hopen
  unborn s hs := by
    rw [hnext] at hs
    rw [(hsockets s).2.2]
    exact h.unborn s hs
  pending c p hp := by
    rw [hpending] at hp
    rw [hnext, haux, (hsockets p.socket).1, (hsockets p.socket).2.1, (hsockets p.socket).2.2]
    exact h.pending c p hp
  closes s := by
    rw [hcloses, (hsockets s).2.2]
    exact h.closes s

theorem Registry.same (h : w.Registry) (hcloses : ∀ s, w'.closesOf s = w.closesOf s)
    (hsame : (w'.sockets, w'.aux, w'.auxByStreamId, w'.channelEnd, w'.nextSocket,
      w'.nextAuxStreamId, w'.pendingOpens) = (w.sockets, w.aux, w.auxByStreamId, w.channelEnd,
      w.nextSocket, w.nextAuxStreamId, w.pendingOpens)) : w'.Registry := by
  simp only [Prod.mk.injEq] at hsame
  obtain ⟨hsockets, haux, hby, hend, hnext, hstream, hpending⟩ := hsame
  refine h.congr hcloses (fun s => ?_) haux hby hend hnext hstream hpending
  rw [hsockets]
  exact ⟨rfl, rfl, rfl⟩

theorem Registry.stream_inj (h : w.Registry) {c c' : String} {s t : Nat}
    (hs : w.aux.get? c = some s) (ht : w.aux.get? c' = some t)
    (hstream : (w.sockets s).streamId = (w.sockets t).streamId) : s = t := by
  have hbyS := (h.byId c s hs).2.2.2.2
  have hbyT := (h.byId c' t ht).2.2.2.2
  rw [hstream, hbyT] at hbyS
  exact (some.inj hbyS).symm

/-! ## A socket leaves the maps -/

variable {c : String}

theorem Registry.leave {state : CloseCause} (h : w.Registry) (hs : w.aux.get? c = some s)
    (hself : (w'.sockets s).channelId = c ∧ (w'.sockets s).streamId = (w.sockets s).streamId ∧
      (w'.sockets s).readyState = .CLOSED state) (hother : ∀ t, t ≠ s → w'.sockets t = w.sockets t)
    (hend : w'.channelEnd = w.channelEnd) (hnext : w'.nextSocket = w.nextSocket)
    (hstream : w'.nextAuxStreamId = w.nextAuxStreamId) (haux : w'.aux = w.aux.erase c)
    (hby : w'.auxByStreamId = w.auxByStreamId.erase (w.sockets s).streamId)
    (hpending : ∀ c' p, w'.pendingOpens.get? c' = some p → w.pendingOpens.get? c' = some p ∧
      (p.socket = s → LateClosed (.CLOSED state)))
    (hcloses : w'.closesOf s = if state = .localClose then 1 else 0)
    (hcloses' : ∀ t, t ≠ s → w'.closesOf t = w.closesOf t) : w'.Registry := by
  obtain ⟨hpos, hlt, hname, -, hbyS⟩ := h.byId c s hs
  -- What the maps still hold, they held before, and it is another socket.
  have hget : ∀ c' t, w'.aux.get? c' = some t → t ≠ s ∧ w.aux.get? c' = some t := by
    intro c' t ht
    rw [haux, get?_erase] at ht
    split at ht
    · cases ht
    next hne =>
      have hts : t ≠ s := by
        rintro rfl
        exact hne ((h.byId c' t ht).2.2.1.symm.trans hname)
      exact ⟨hts, ht⟩
  have hkeep : ∀ c' t, t ≠ s → w.aux.get? c' = some t → w'.aux.get? c' = some t := by
    intro c' t hts ht
    have hne : c' ≠ c := by
      rintro rfl
      rw [hs] at ht
      exact hts (some.inj ht).symm
    rw [haux, get?_erase_ne _ hne]
    exact ht
  have hgetStream : ∀ n t, w'.auxByStreamId.get? n = some t →
      t ≠ s ∧ w.auxByStreamId.get? n = some t := by
    intro n t ht
    rw [hby, get?_erase] at ht
    split at ht
    · cases ht
    next hne =>
      have hts : t ≠ s := by
        rintro rfl
        exact hne (h.byStream n t ht).1.symm
      exact ⟨hts, ht⟩
  exact
    { node := hend.trans h.node
      positive := by rw [hnext]; exact h.positive
      main := by
        have hmain : (0 : Nat) ≠ s := by omega
        rw [hother 0 hmain]
        exact h.main
      byId := by
        intro c' t ht
        obtain ⟨hts, ht⟩ := hget c' t ht
        obtain ⟨hpos', hlt', hname', hstream', hbyT⟩ := h.byId c' t ht
        rw [hother t hts, hnext, hstream]
        have hne : (w.sockets t).streamId ≠ (w.sockets s).streamId :=
          fun heq => hts (h.stream_inj ht hs heq)
        have hbyT' : w'.auxByStreamId.get? (w.sockets t).streamId = some t := by
          rw [hby, get?_erase_ne _ hne]
          exact hbyT
        exact ⟨hpos', hlt', hname', hstream', hbyT'⟩
      byStream := by
        intro n t ht
        obtain ⟨hts, ht⟩ := hgetStream n t ht
        obtain ⟨hstreamT, hnameT⟩ := h.byStream n t ht
        rw [hother t hts]
        exact ⟨hstreamT, hkeep _ t hts hnameT⟩
      live := by
        intro c' t ht
        obtain ⟨hts, ht⟩ := hget c' t ht
        rw [hother t hts]
        exact h.live c' t ht
      registered := by
        intro t hposT hopen
        have hts : t ≠ s := by
          rintro rfl
          rw [hself.2.2] at hopen
          cases hopen
        rw [hother t hts] at hopen ⊢
        exact hkeep _ t hts (h.registered t hposT hopen)
      unborn := by
        intro t ht
        rw [hnext] at ht
        have hts : t ≠ s := by omega
        rw [hother t hts]
        exact h.unborn t ht
      pending := by
        intro c' p hp
        obtain ⟨hp, hlate⟩ := hpending c' p hp
        obtain ⟨hposP, hltP, hnameP, hstreamP, hregistered⟩ := h.pending c' p hp
        rw [hnext]
        by_cases hps : p.socket = s
        · have hlate' := hlate hps
          rw [hps, hself.1, hself.2.1, hself.2.2]
          rw [hps] at hnameP hstreamP
          exact ⟨hpos, hlt, hname.symm.trans hnameP, hstreamP, inr hlate'⟩
        · rw [hother _ hps]
          refine ⟨hposP, hltP, hnameP, hstreamP, ?_⟩
          rcases hregistered with hregistered | hlate'
          · exact inl (hkeep _ _ hps hregistered)
          · exact inr hlate'
      closes := by
        intro t
        by_cases hts : t = s
        · rw [hts, hcloses, hself.2.2]
          simp
        · rw [hcloses' t hts, hother t hts]
          exact h.closes t }

/-! ## A socket enters the maps -/

theorem Registry.enter (h : w.Registry) (hfree : w.aux.get? c = none)
    (hself : w'.sockets w.nextSocket = .create c w.nextAuxStreamId)
    (hother : ∀ t, t ≠ w.nextSocket → w'.sockets t = w.sockets t)
    (hend : w'.channelEnd = w.channelEnd) (hnext : w'.nextSocket = w.nextSocket + 1)
    (hstream : w'.nextAuxStreamId = w.nextAuxStreamId + 1)
    (haux : w'.aux = w.aux.set c w.nextSocket)
    (hby : w'.auxByStreamId = w.auxByStreamId.set w.nextAuxStreamId w.nextSocket)
    (hpending : w'.pendingOpens = w.pendingOpens.set c ⟨w.nextAuxStreamId, w.nextSocket⟩)
    (hcloses : ∀ s, w'.closesOf s = w.closesOf s) : w'.Registry := by
  have hpos := h.positive
  have hold : ∀ c' t, w.aux.get? c' = some t → t ≠ w.nextSocket := by
    intro c' t ht
    have hlt := (h.byId c' t ht).2.1
    omega
  have hget : ∀ c', w'.aux.get? c' = if c' = c then some w.nextSocket else w.aux.get? c' := by
    intro c'
    rw [haux, get?_set]
  have hgetStream : ∀ n, w'.auxByStreamId.get? n =
      if n = w.nextAuxStreamId then some w.nextSocket else w.auxByStreamId.get? n := by
    intro n
    rw [hby, get?_set]
  -- The channel id and the stream id were both free.
  have hkeep : ∀ c' t, w.aux.get? c' = some t → w'.aux.get? c' = some t := by
    intro c' t ht
    have hne : c' ≠ c := by
      rintro rfl
      rw [hfree] at ht
      cases ht
    rw [hget, if_neg hne]
    exact ht
  have hkeepStream : ∀ c' t, w.aux.get? c' = some t →
      w'.auxByStreamId.get? (w.sockets t).streamId = some t := by
    intro c' t ht
    obtain ⟨-, -, -, hlt, hbyT⟩ := h.byId c' t ht
    have hne : (w.sockets t).streamId ≠ w.nextAuxStreamId := by omega
    rw [hgetStream, if_neg hne]
    exact hbyT
  exact
    { node := hend.trans h.node
      positive := by rw [hnext]; omega
      main := by
        have hne : (0 : Nat) ≠ w.nextSocket := by omega
        rw [hother 0 hne]
        exact h.main
      byId := by
        intro c' t ht
        rw [hget] at ht
        split at ht
        · next hc =>
            cases ht
            have hcreated : w'.auxByStreamId.get? w.nextAuxStreamId = some w.nextSocket := by
              rw [hgetStream, if_pos rfl]
            rw [hself, hnext, hstream, hc]
            exact ⟨hpos, by omega, rfl, by simp [NodeRelayChannelSocket.create], hcreated⟩
        · have hts := hold c' t ht
          obtain ⟨hposT, hltT, hnameT, hstreamT, -⟩ := h.byId c' t ht
          rw [hother t hts, hnext]
          exact ⟨hposT, by omega, hnameT, by omega, hkeepStream c' t ht⟩
      byStream := by
        intro n t ht
        rw [hgetStream] at ht
        split at ht
        · next hn =>
            cases ht
            have hcreated : w'.aux.get? c = some w.nextSocket := by rw [hget, if_pos rfl]
            rw [hself]
            exact ⟨hn.symm, hcreated⟩
        · obtain ⟨hstreamT, hnameT⟩ := h.byStream n t ht
          rw [hother t (hold _ t hnameT)]
          exact ⟨hstreamT, hkeep _ t hnameT⟩
      live := by
        intro c' t ht
        rw [hget] at ht
        split at ht
        · cases ht
          rw [hself]
          exact inl rfl
        · rw [hother t (hold c' t ht)]
          exact h.live c' t ht
      registered := by
        intro t hposT hopen
        by_cases hts : t = w.nextSocket
        · rw [hts, hself, hget]
          simp [NodeRelayChannelSocket.create]
        · rw [hother t hts] at hopen ⊢
          exact hkeep _ t (h.registered t hposT hopen)
      unborn := by
        intro t ht
        have hts : t ≠ w.nextSocket := by omega
        rw [hother t hts]
        exact h.unborn t (by omega)
      pending := by
        intro c' p hp
        rw [hpending, get?_set] at hp
        split at hp
        · next hc =>
            cases hp
            have hcreated : w'.aux.get? c' = some w.nextSocket := by rw [hget, if_pos hc]
            show 0 < w.nextSocket ∧ w.nextSocket < w'.nextSocket ∧ _
            rw [hself]
            exact ⟨hpos, by omega, hc.symm, rfl, inl hcreated⟩
        · obtain ⟨hposP, hltP, hnameP, hstreamP, hregistered⟩ := h.pending c' p hp
          have hts : p.socket ≠ w.nextSocket := by omega
          rw [hother _ hts]
          refine ⟨hposP, by omega, hnameP, hstreamP, ?_⟩
          rcases hregistered with hregistered | hlate
          · exact inl (hkeep _ _ hregistered)
          · exact inr hlate
      closes := by
        intro t
        rw [hcloses]
        by_cases hts : t = w.nextSocket
        · have hbefore := h.closes t
          rw [h.unborn t (by omega)] at hbefore
          rw [hbefore, hts, hself]
          rfl
        · rw [hother t hts]
          exact h.closes t }

theorem Registry.settle (h : w.Registry) (c : String) :
    { w with pendingOpens := w.pendingOpens.erase c }.Registry where
  __ := h
  pending := by
    intro c' p hp
    have hp' : (w.pendingOpens.erase c).get? c' = some p := hp
    rw [get?_erase] at hp'
    split at hp'
    · cases hp'
    · exact h.pending c' p hp'

/-! ## What the methods do to the registry -/

theorem RegistryOpen.update (h : w.RegistryOpen) (s : Nat)
    {f : NodeRelayChannelSocket → NodeRelayChannelSocket}
    (hf : ∀ socket, (f socket).channelId = socket.channelId ∧
      (f socket).streamId = socket.streamId ∧ (f socket).readyState = socket.readyState) :
    (w.updateSocket s f).RegistryOpen := by
  intro hopen
  have hsockets : ∀ t, ((w.updateSocket s f).sockets t).channelId = (w.sockets t).channelId ∧
      ((w.updateSocket s f).sockets t).streamId = (w.sockets t).streamId ∧
      ((w.updateSocket s f).sockets t).readyState = (w.sockets t).readyState := by
    intro t
    by_cases ht : t = s
    · rw [ht, updateSocket_self]
      exact hf (w.sockets s)
    · rw [updateSocket_ne w ht]
      exact ⟨rfl, rfl, rfl⟩
  exact (h hopen).congr (fun _ => rfl) hsockets rfl rfl rfl rfl rfl rfl

theorem sessionEnd_registry (h : w.RegistryOpen) : w.sessionEnd.RegistryOpen := by
  cases hclosed : w.sessionClosed with
  | true =>
    rw [sessionEnd_of_closed hclosed]
    exact h
  | false => exact RegistryOpen.of_closed (sessionEnd_closed hclosed)

theorem registry_ignoresInbound : IgnoresInbound RegistryOpen where
  inbound _ s _ hf h :=
    h.update s fun socket => ⟨hf.channelId socket, hf.streamId socket, hf.readyState socket⟩
  answered _ _ h := fun hopen =>
    (h hopen).same (fun _ => rfl) rfl
  sessionEnd _ h := sessionEnd_registry h

theorem handOver_maps (w : NodeChannel) (item : Option Item) :
    (w.handOver item).1.closed = true ∨ ∃ answers outboundData,
      (outboundData = w.outboundData ∨ outboundData = w.outboundData ++ item.toList) ∧
      (w.handOver item).1 = { w with answers := answers, outboundData := outboundData } := by
  rcases w.handOver_cases item with
    ⟨hsame, -⟩ | ⟨hsession, answers, -, ⟨hsent, -⟩ | ⟨hrefused, -⟩ | hended⟩
  · exact inr ⟨w.answers, w.outboundData, inl rfl, hsame⟩
  · exact inr ⟨answers, _, inr rfl, hsent⟩
  · exact inr ⟨answers, w.outboundData, inl rfl, hrefused⟩
  · rw [hended]
    exact inl (sessionEnd_closed hsession)

theorem handOver_registry (h : w.RegistryOpen) (item : Option Item)
    (hitem : ∀ s, item.toList.countP (isCloseOf s) = 0) : (w.handOver item).1.RegistryOpen := by
  rcases w.handOver_maps item with hclosed | ⟨answers, outboundData, hqueue, hsame⟩
  · exact RegistryOpen.of_closed hclosed
  rw [hsame]
  intro hopen
  refine (h hopen).same (fun s => ?_) rfl
  show (w.wire ++ outboundData).countP (isCloseOf s) + w.refusedCloses.count s = w.closesOf s
  rcases hqueue with rfl | rfl
  · rfl
  · rw [← append_assoc, countP_append, hitem s]
    rfl

theorem Registry.flushFailed (h : w.Registry) (hopen : w.isOpen s = true) :
    (w.remoteClosed s .flushFailed).Registry := by
  have hstate := isOpen_iff.mp hopen
  have hself := remoteClosed_self hopen .flushFailed
  have hother : ∀ t, t ≠ s → (w.remoteClosed s .flushFailed).sockets t = w.sockets t :=
    fun t ht => remoteClosed_ne w ht _
  have hnames : ∀ t, ((w.remoteClosed s .flushFailed).sockets t).channelId =
        (w.sockets t).channelId ∧
      ((w.remoteClosed s .flushFailed).sockets t).streamId = (w.sockets t).streamId := by
    intro t
    by_cases ht : t = s
    · rw [ht, hself]
      exact ⟨rfl, rfl⟩
    · rw [hother t ht]
      exact ⟨rfl, rfl⟩
  have honly := w.remoteClosed_only s .flushFailed
  exact
    { node := honly.channelEnd.trans h.node
      positive := by rw [honly.nextSocket]; exact h.positive
      main := by rw [(hnames 0).1]; exact h.main
      byId := by
        intro c t ht
        rw [honly.aux] at ht
        rw [honly.nextSocket, honly.nextAuxStreamId, honly.auxByStreamId, (hnames t).1,
          (hnames t).2]
        exact h.byId c t ht
      byStream := by
        intro n t ht
        rw [honly.auxByStreamId] at ht
        rw [honly.aux, (hnames t).1, (hnames t).2]
        exact h.byStream n t ht
      live := by
        intro c t ht
        rw [honly.aux] at ht
        by_cases hts : t = s
        · rw [hts, hself]
          exact inr rfl
        · rw [hother t hts]
          exact h.live c t ht
      registered := by
        intro t hpos hopenT
        have hts : t ≠ s := by
          rintro rfl
          rw [hself] at hopenT
          cases hopenT
        rw [hother t hts] at hopenT ⊢
        rw [honly.aux]
        exact h.registered t hpos hopenT
      unborn := by
        intro t ht
        rw [honly.nextSocket] at ht
        have hts : t ≠ s := by
          rintro rfl
          rw [h.unborn t ht] at hstate
          cases hstate
        rw [hother t hts]
        exact h.unborn t ht
      pending := by
        intro c p hp
        rw [honly.pendingOpens] at hp
        obtain ⟨hposP, hltP, hnameP, hstreamP, hregistered⟩ := h.pending c p hp
        rw [honly.nextSocket, honly.aux, (hnames p.socket).1, (hnames p.socket).2]
        refine ⟨hposP, hltP, hnameP, hstreamP, ?_⟩
        by_cases hps : p.socket = s
        · rw [hps, hself]
          exact inr (inr rfl)
        · rw [hother _ hps]
          exact hregistered
      closes := by
        intro t
        have hbefore := h.closes t
        rw [honly.closesOf]
        by_cases hts : t = s
        · rw [hts, hstate] at hbefore
          rw [hts, hself]
          exact hbefore
        · rw [hother t hts]
          exact hbefore }

theorem flushFailed_registry (h : w.RegistryOpen) (s : Nat) :
    (w.remoteClosed s .flushFailed).RegistryOpen := by
  intro hclosed
  rw [(w.remoteClosed_only s .flushFailed).closed] at hclosed
  cases hopen : w.isOpen s with
  | false =>
    rw [remoteClosed_of_closed hopen]
    exact h hclosed
  | true => exact (h hclosed).flushFailed hopen

theorem flushOutbound_registry (s : Nat) (items : List Message) (h : w.RegistryOpen) :
    (flushOutbound s items w).RegistryOpen := by
  induction items generalizing w with
  | nil => exact h
  | cons item rest ih =>
    unfold flushOutbound
    split
    · exact h
    have hshifted := h.update s (f := fun socket =>
      { socket with outbound := rest, outboundBytes := socket.outboundBytes - item.bytes })
      fun socket => ⟨rfl, rfl, rfl⟩
    have hsent := handOver_registry hshifted
      (some (.data s (w.sockets s).streamId item)) fun _ => rfl
    simp only
    generalize (w.updateSocket s _).handOver _ = result at hsent
    obtain ⟨sent, returned⟩ := result
    cases returned with
    | true => exact ih hsent
    | false => exact flushFailed_registry hsent s

theorem releaseWriters_registry (h : w.RegistryOpen) (s : Nat) :
    (w.releaseWriters s).RegistryOpen := by
  have hupdated := h.update s (f := fun socket => { socket with writableWaiters := 0 })
    fun socket => ⟨rfl, rfl, rfl⟩
  intro hopen
  exact (hupdated hopen).same (fun _ => rfl) rfl

theorem remoteResume_registry (h : w.RegistryOpen) (s : Nat) : (w.remoteResume s).RegistryOpen := by
  unfold remoteResume
  split
  · have hresumed := h.update s (f := fun socket => { socket with remotePaused := false })
      fun socket => ⟨rfl, rfl, rfl⟩
    exact releaseWriters_registry (flushOutbound_registry s _ hresumed) s
  · exact h

theorem closeSocketAtEnd_closed (w : NodeChannel) (s : Nat) :
    (w.closeSocketAtEnd s).closed = w.closed := by
  unfold closeSocketAtEnd closeSocketWith
  split
  · generalize hv : w.updateSocket s _ = v
    have hclosed : v.closed = w.closed := by rw [← hv]; rfl
    unfold emitChannelCloseWith
    split
    · exact hclosed
    simp only
    split
    · exact hclosed
    · rw [(remoteClosed_only _ _ _).closed]
      exact hclosed
  · rfl

/-- An open auxiliary socket that closed itself left the maps; its `channel-close`
is the only one of it. -/
theorem Registry.left (h : w.Registry) (hopen : w.isOpen s = true)
    (hs : w.aux.get? (w.sockets s).channelId = some s)
    (hsockets : w'.sockets = (w.leaving s s).sockets)
    (hend : w'.channelEnd = w.channelEnd) (hnext : w'.nextSocket = w.nextSocket)
    (hstream : w'.nextAuxStreamId = w.nextAuxStreamId) (haux : w'.aux = (w.leaving s s).aux)
    (hby : w'.auxByStreamId = (w.leaving s s).auxByStreamId)
    (hpendingOpens : w'.pendingOpens = (w.leaving s s).pendingOpens)
    (hcloses : ∀ t, w'.closesOf t = w.closesOf t + if t = s then 1 else 0) : w'.Registry := by
  have hself := w.marked_self s
  have hcount := h.closes s
  rw [isOpen_iff.mp hopen, if_neg (by simp)] at hcount
  have hnames : (w'.sockets s).channelId = (w.sockets s).channelId ∧
      (w'.sockets s).streamId = (w.sockets s).streamId ∧
      (w'.sockets s).readyState = .CLOSED .localClose := by
    rw [hsockets]
    show ((w.marked s).sockets s).channelId = _ ∧ ((w.marked s).sockets s).streamId = _ ∧
      ((w.marked s).sockets s).readyState = _
    rw [hself]
    exact ⟨rfl, rfl, rfl⟩
  have hother : ∀ t, t ≠ s → w'.sockets t = w.sockets t := by
    intro t ht
    rw [hsockets]
    exact w.marked_ne ht
  have hstreams : w'.auxByStreamId = w.auxByStreamId.erase (w.sockets s).streamId := by
    rw [hby]
    show w.auxByStreamId.erase ((w.marked s).sockets s).streamId = _
    rw [hself]
  have hpending : ∀ c' p, w'.pendingOpens.get? c' = some p →
      w.pendingOpens.get? c' = some p ∧ (p.socket = s → LateClosed (.CLOSED .localClose)) := by
    intro c' p hp
    have hp' : (w.pendingOpens.erase (w.sockets s).channelId).get? c' = some p := by
      rw [hpendingOpens] at hp
      exact hp
    rw [get?_erase] at hp'
    split at hp'
    · cases hp'
    next hne =>
      have hname := (h.pending c' p hp').2.2.1
      exact ⟨hp', fun hps => (hne (by rw [← hname, hps])).elim⟩
  have hclosesSelf : w'.closesOf s = 1 := by
    have hs' := hcloses s
    rw [if_pos rfl] at hs'
    omega
  have hclosesOther : ∀ t, t ≠ s → w'.closesOf t = w.closesOf t := by
    intro t ht
    have ht' := hcloses t
    rw [if_neg ht] at ht'
    omega
  exact h.leave hs hnames hother hend hnext hstream haux hstreams hpending hclosesSelf hclosesOther

/-- The `close` of a socket: the main one takes the channel with it, an auxiliary
one leaves both maps and is announced. -/
theorem closeSocket_registry (h : w.RegistryOpen) (s code : Nat) (reason : String) :
    (w.closeSocket s code reason).RegistryOpen := by
  rcases w.closeSocket_cases s code reason with
    ⟨-, hsame⟩ | ⟨hopen, ⟨hclosed, hend⟩ | ⟨hclosed, ⟨-, hmain⟩ | ⟨hmain, ⟨haux, -⟩ | ⟨t, haux, hleft⟩⟩⟩⟩
  · rw [hsame]
    exact h
  · rw [hend]
    exact RegistryOpen.of_closed ((closeSocketAtEnd_closed w s).trans hclosed)
  · rw [hmain]
    exact RegistryOpen.of_closed (close_closed _)
  all_goals
    have hregistry := h hclosed
    have hpos : 0 < s := by
      rcases Nat.eq_zero_or_pos s with rfl | hpos
      · exact (hmain hregistry.main).elim
      · exact hpos
    have hregistered := hregistry.registered s hpos (isOpen_iff.mp hopen)
    rw [haux] at hregistered
  · cases hregistered
  cases hregistered
  -- The socket is closed already, so `remoteClosed` finds nothing to do.
  have hshut : ∀ w' : NodeChannel, w'.sockets = (w.leaving s s).sockets → w'.Registry →
      (w'.remoteClosed s .localClose).RegistryOpen := by
    intro w' hw' hregistry' _
    have hclosed' : w'.isOpen s = false := by
      rw [not_isOpen_iff, hw']
      refine ⟨.localClose, ?_⟩
      show ((w.marked s).sockets s).readyState = _
      rw [marked_self]
    rw [remoteClosed_of_closed hclosed']
    exact hregistry'
  rw [hleft]
  rcases sendClose_cases (w := w.leaving s s) hclosed code reason s (w.sockets s).channelId with
    ⟨answers, hqueued⟩ | ⟨answers, hgivenUp⟩ | ⟨answers, refusedCloses, hsession, hended⟩
  · rw [hqueued]
    refine hshut _ rfl ?_
    refine hregistry.left hopen haux rfl rfl rfl rfl rfl rfl rfl fun t => ?_
    show (w.wire ++ (w.outboundData ++ [_])).countP (isCloseOf t) + w.refusedCloses.count t =
      w.closesOf t + _
    unfold closesOf
    rw [← append_assoc, countP_append, countP_singleton]
    simp only [isCloseOf, decide_eq_true_eq, eq_comm (a := s)]
    omega
  · rw [hgivenUp]
    refine hshut _ rfl ?_
    refine hregistry.left hopen haux rfl rfl rfl rfl rfl rfl rfl fun t => ?_
    show (w.wire ++ w.outboundData).countP (isCloseOf t) + (w.refusedCloses ++ [s]).count t =
      w.closesOf t + _
    unfold closesOf
    rw [count_append, count_singleton]
    simp only [beq_iff_eq, eq_comm (a := s)]
    omega
  · rw [hended]
    refine RegistryOpen.of_closed ((remoteClosed_only _ s _).closed.trans ?_)
    exact sessionEnd_closed (w := { w.leaving s s with answers := answers }) hsession

theorem send_registry (h : w.RegistryOpen) (s : Nat) (message : Message) :
    (w.send s message).RegistryOpen := by
  have hrecord : ∀ v : NodeChannel, v.RegistryOpen → (v.recordAccepted s message).RegistryOpen :=
    fun v hv hopen =>
      (hv hopen).same (fun _ => rfl) rfl
  unfold send
  split
  · exact h
  split
  · split
    · exact closeSocket_registry h s _ _
    · exact hrecord _ (h.update s fun socket => ⟨rfl, rfl, rfl⟩)
  have hsent := handOver_registry h (some (.data s (w.sockets s).streamId message)) fun _ => rfl
  generalize w.handOver _ = result at hsent
  obtain ⟨sent, returned⟩ := result
  cases returned with
  | true => exact hrecord _ hsent
  | false => exact hsent

variable {cause : CloseCause}

theorem Registry.part (h : w.Registry) (hs : w.aux.get? c = some s)
    (hcause : cause ≠ .localClose) (hsockets : w'.sockets = w.sockets)
    (hend : w'.channelEnd = w.channelEnd) (hnext : w'.nextSocket = w.nextSocket)
    (hstream : w'.nextAuxStreamId = w.nextAuxStreamId) (haux : w'.aux = w.aux.erase c)
    (hby : w'.auxByStreamId = w.auxByStreamId.erase (w.sockets s).streamId)
    (hpending : ∀ c' p, w'.pendingOpens.get? c' = some p → w.pendingOpens.get? c' = some p ∧
      (p.socket = s → cause = .peerClosed)) (hcloses : ∀ t, w'.closesOf t = w.closesOf t) :
    (w'.remoteClosed s cause).Registry := by
  have hname := (h.byId c s hs).2.2.1
  have hcount := h.closes s
  have honly := w'.remoteClosed_only s cause
  have hother : ∀ t, t ≠ s → (w'.remoteClosed s cause).sockets t = w.sockets t := by
    intro t ht
    rw [remoteClosed_ne w' ht, hsockets]
  -- A socket whose deferred write failed is closed already and keeps that cause.
  have hself : ∃ state, state ≠ .localClose ∧ (cause = .peerClosed → LateClosed (.CLOSED state)) ∧
      ((w'.remoteClosed s cause).sockets s).channelId = c ∧
      ((w'.remoteClosed s cause).sockets s).streamId = (w.sockets s).streamId ∧
      ((w'.remoteClosed s cause).sockets s).readyState = .CLOSED state := by
    rcases h.live c s hs with hopen | hfailed
    · have hopen' : w'.isOpen s = true := by
        rw [isOpen_iff, hsockets]
        exact hopen
      rw [remoteClosed_self hopen', hsockets]
      exact ⟨cause, hcause, fun hpeer => inl (by rw [hpeer]), hname, rfl, rfl⟩
    · have hshut : w'.isOpen s = false := by
        rw [not_isOpen_iff, hsockets]
        exact ⟨_, hfailed⟩
      rw [remoteClosed_of_closed hshut, hsockets]
      exact ⟨.flushFailed, by simp, fun _ => inr rfl, hname, rfl, hfailed⟩
  obtain ⟨state, hstate, hlate, hself⟩ := hself
  have hcount' : w.closesOf s = 0 := by
    rw [hcount]
    rcases h.live c s hs with hopen | hfailed
    · rw [hopen]
      simp
    · rw [hfailed]
      simp
  have hpending' : ∀ c' p, (w'.remoteClosed s cause).pendingOpens.get? c' = some p →
      w.pendingOpens.get? c' = some p ∧ (p.socket = s → LateClosed (.CLOSED state)) := by
    intro c' p hp
    rw [honly.pendingOpens] at hp
    obtain ⟨hp', hpeer⟩ := hpending c' p hp
    exact ⟨hp', fun hps => hlate (hpeer hps)⟩
  exact h.leave hs hself hother (honly.channelEnd.trans hend) (honly.nextSocket.trans hnext)
    (honly.nextAuxStreamId.trans hstream) (honly.aux.trans haux) (honly.auxByStreamId.trans hby)
    hpending' (by rw [honly.closesOf, hcloses, hcount', if_neg hstate])
    (fun t _ => by rw [honly.closesOf, hcloses])

theorem Registry.giveUp (h : w.Registry) (hp : w.pendingOpens.get? c = some p)
    (hcause : cause ≠ .localClose) :
    ((w.unlisted c p.socket).remoteClosed p.socket cause).Registry := by
  obtain ⟨-, -, hname, -, hregistered⟩ := h.pending c p hp
  by_cases hs : w.aux.get? c = some p.socket
  · have hby := (h.byId c p.socket hs).2.2.2.2
    refine h.part hs hcause rfl rfl rfl rfl (if_pos hs) (if_pos hby) ?_ fun _ => rfl
    intro c' q hq
    have hq' : (w.pendingOpens.erase c).get? c' = some q := hq
    rw [get?_erase] at hq'
    split at hq'
    · cases hq'
    next hne =>
      have hname' := (h.pending c' q hq').2.2.1
      exact ⟨hq', fun hqs => (hne (by rw [← hname', hqs, hname])).elim⟩
  · have hlate : LateClosed (w.sockets p.socket).readyState := hregistered.resolve_left hs
    have hby : w.auxByStreamId.get? (w.sockets p.socket).streamId ≠ some p.socket := by
      intro hby
      have hback := (h.byStream _ _ hby).2
      rw [hname] at hback
      exact hs hback
    have hshut : (w.unlisted c p.socket).isOpen p.socket = false := by
      rw [not_isOpen_iff]
      rcases hlate with hpeer | hfailed
      · exact ⟨_, hpeer⟩
      · exact ⟨_, hfailed⟩
    rw [remoteClosed_of_closed hshut]
    exact (h.settle c).congr (fun _ => rfl) (fun _ => ⟨rfl, rfl, rfl⟩) (if_neg hs) (if_neg hby)
      rfl rfl rfl rfl

section

variable (h : w.RegistryOpen)

include h

theorem giveUp_registry
    (hp : w.closed = false → w.pendingOpens.get? c = some p) (hcause : cause ≠ .localClose) :
    ((w.unlisted c p.socket).remoteClosed p.socket cause).RegistryOpen := by
  intro hopen
  rw [(remoteClosed_only _ _ _).closed] at hopen
  exact (h hopen).giveUp (hp hopen) hcause

/-! ## Commands and messages -/

theorem openAuxChannel_registry (c : String) : (w.openAuxChannel c).RegistryOpen := by
  rcases w.openAuxChannel_cases c with hsame | ⟨hclosed, hfree, hopens⟩
  · rw [hsame]
    exact h
  have hentered : (w.dialed c).Registry :=
    (h hclosed).enter hfree (Function.update_self ..)
      (fun t ht => Function.update_of_ne ht ..) rfl rfl rfl rfl rfl rfl fun _ => rfl
  have hsent := handOver_registry (fun _ => hentered) none fun _ => rfl
  rcases hopens with hopens | hopens
  · rw [hopens]
    exact hsent
  rw [hopens]
  refine giveUp_registry hsent (p := ⟨w.nextAuxStreamId, w.nextSocket⟩) ?_ (by simp)
  intro hopen
  rcases (w.dialed c).handOver_maps none with hended | ⟨answers, outboundData, -, hsame⟩
  · rw [hended] at hopen
    cases hopen
  · rw [hsame]
    exact get?_set_self _ _ _

theorem openTimeout_registry (c : String) : (w.openTimeout c).RegistryOpen := by
  unfold openTimeout
  split
  · exact h
  · exact closeSocket_registry (w := { w with pendingOpens := w.pendingOpens.erase c })
      (fun hopen => (h hopen).settle c) _ _ _

theorem handleChannelClose_registry (c : String) : (w.handleChannelClose c).RegistryOpen := by
  unfold handleChannelClose
  split
  · exact RegistryOpen.of_closed (close_closed _)
  split
  · exact h
  rename_i s hs
  intro hopen
  rw [(remoteClosed_only _ _ _).closed] at hopen
  have hregistry := h hopen
  exact hregistry.part hs (by simp) rfl rfl rfl rfl rfl rfl (fun _ _ hp => ⟨hp, fun _ => rfl⟩)
    fun _ => rfl

theorem handleChannelAccept_registry (c : String) (n : Nat) :
    (w.handleChannelAccept c n).RegistryOpen := by
  unfold handleChannelAccept
  split
  · exact h
  split
  · exact sessionEnd_registry h
  · exact fun hopen => (h hopen).settle c

theorem handleChannelReject_registry (c : String) : (w.handleChannelReject c).RegistryOpen := by
  unfold handleChannelReject
  split
  · exact h
  · next p hp => exact giveUp_registry h (fun _ => hp) (by simp)

theorem handleMessage_registry (message : SessionMessage) (attached : Bool) :
    (w.handleMessage message attached).RegistryOpen := by
  unfold handleMessage
  by_cases hclosed : w.closed = true
  · rw [if_pos hclosed]
    exact h
  rw [if_neg hclosed, (h (by simpa using hclosed)).node]
  cases message with
  | relayPing => exact registry_ignoresInbound.reply h
  | relayPong => exact h
  | channelOpen c n => exact registry_ignoresInbound.reply h
  | channelAccept c n => exact handleChannelAccept_registry h c n
  | channelReject c => exact handleChannelReject_registry h c
  | channelClose c => exact handleChannelClose_registry h c
  | streamPause n =>
    simp only
    split
    · exact h
    · next s _ => exact h.update s fun socket => ⟨rfl, rfl, rfl⟩
  | streamResume n =>
    simp only
    split
    · exact h
    · next s _ => exact remoteResume_registry h s

theorem handleData_registry (n : Nat) (message : Message) :
    (w.handleData n message).RegistryOpen := by
  unfold handleData
  split
  · exact h
  split
  · exact h
  · next s _ =>
      exact registry_ignoresInbound.deliver h s message fun _ _ _ => closeSocket_registry h s _ _

theorem waitForOutboundCapacity_registry (s : Nat) :
    (w.waitForOutboundCapacity s).RegistryOpen := by
  unfold waitForOutboundCapacity
  split
  · exact h
  · exact fun hopen => (h hopen).same (fun _ => rfl) rfl

theorem perform_registry (command : Command) : (w.perform command).RegistryOpen := by
  have hsame : ∀ w' : NodeChannel, w'.closed = w.closed → (w.Registry → w'.Registry) →
      w'.RegistryOpen := fun w' hclosed hregistry hopen =>
    hregistry (h (hclosed.symm.trans hopen))
  cases command with
  | openAux c => exact openAuxChannel_registry h c
  | openTimeout c => exact openTimeout_registry h c
  | send s message => exact send_registry h s message
  | closeSocket s code reason => exact closeSocket_registry h s code reason
  | ping s =>
    show (if w.isOpen s then w.sendControl else w).RegistryOpen
    split
    · exact registry_ignoresInbound.sendControl h
    · exact h
  | listen s taken => exact registry_ignoresInbound.listen h s taken
  | unlisten s => exact registry_ignoresInbound.unlisten h s
  | pause s => exact registry_ignoresInbound.pause h s
  | resume s taken => exact registry_ignoresInbound.resume h s taken
  | waitForWritable s =>
    show (w.waitForWritable s).RegistryOpen
    unfold waitForWritable
    split
    · exact h.update s fun socket => ⟨rfl, rfl, rfl⟩
    · exact waitForOutboundCapacity_registry h s
  | continueWait s =>
    refine waitForOutboundCapacity_registry ?_ s
    exact hsame _ rfl fun hregistry =>
      hregistry.same (fun _ => rfl) rfl
  | closeChannel => exact RegistryOpen.of_closed (close_closed w)
  | receive message attached => exact handleMessage_registry h message attached
  | receiveData n message => exact handleData_registry h n message
  | flush count =>
    refine hsame _ rfl fun hregistry =>
      hregistry.same (fun s => ?_) rfl
    show ((w.wire ++ w.outboundData.take count) ++ w.outboundData.drop count).countP _ + _ = _
    rw [append_assoc, take_append_drop]
    rfl
  | backlog above =>
    exact hsame _ rfl fun hregistry =>
      hregistry.same (fun _ => rfl) rfl
  | sessionEnd => exact sessionEnd_registry h

end

theorem step_registry {action : Action} (hstep : step w action = some w')
    (h : w.RegistryOpen) : w'.RegistryOpen := by
  obtain ⟨-, hstep⟩ := ite_none_right_eq_some.mp hstep
  cases hstep
  refine perform_registry ?_ action.command
  exact fun hopen => (h hopen).same (fun _ => rfl) rfl

theorem start_registry : (start .node).Registry where
  node := rfl
  positive := Nat.one_pos
  main := rfl
  byId _ _ h := by cases h
  byStream _ _ h := by cases h
  live _ _ h := by cases h
  registered s hpos hopen := by
    have hunborn : (start .node).sockets s = (NodeRelayChannelSocket.create "" 0).drop .channelEnded :=
      if_neg (by omega)
    rw [hunborn] at hopen
    cases hopen
  unborn s hs := by
    have hpos : 1 ≤ s := hs
    have hunborn : (start .node).sockets s = (NodeRelayChannelSocket.create "" 0).drop .channelEnded :=
      if_neg (by omega)
    rw [hunborn]
    rfl
  pending _ _ h := by cases h
  closes s := by
    have hstate : ((start .node).sockets s).readyState ≠ .CLOSED .localClose := by
      show (if s = 0 then _ else _ : NodeRelayChannelSocket).readyState ≠ _
      split <;> simp [NodeRelayChannelSocket.create, NodeRelayChannelSocket.drop]
    rw [if_neg hstate]
    rfl

/-! ## Every reachable state -/

/-- In every reachable state of an open channel the two maps are inverse to each
other and hold every auxiliary socket that is open. A pending open belongs to a
registered socket or to one that the peer or a failed deferred write closed. A
socket that closed itself announced it once, a socket that the peer closed or
rejected, or whose open failed, did not. -/
theorem registry_consistent {w : NodeChannel} (hreach : Reachable step (start .node) w)
    (hopen : w.closed = false) : (∀ c s, w.aux.get? c = some s ↔
      (w.sockets s).channelId = c ∧ w.auxByStreamId.get? (w.sockets s).streamId = some s) ∧
    (∀ n s, w.auxByStreamId.get? n = some s ↔
      (w.sockets s).streamId = n ∧ w.aux.get? (w.sockets s).channelId = some s) ∧
    (∀ c s, w.aux.get? c = some s →
      (w.sockets s).readyState = .OPEN ∨ (w.sockets s).readyState = .CLOSED .flushFailed) ∧
    (∀ s, 0 < s → (w.sockets s).readyState = .OPEN → w.aux.get? (w.sockets s).channelId = some s) ∧
    (∀ c p, w.pendingOpens.get? c = some p →
      w.aux.get? c = some p.socket ∧ w.auxByStreamId.get? p.streamId = some p.socket ∨
        LateClosed (w.sockets p.socket).readyState) ∧
    (∀ s, (w.sockets s).readyState = .CLOSED .localClose → w.closesOf s = 1) ∧
    ∀ s, (w.sockets s).readyState = .OPEN ∨ (w.sockets s).readyState = .CLOSED .peerClosed ∨
      (w.sockets s).readyState = .CLOSED .rejected ∨
      (w.sockets s).readyState = .CLOSED .openFailed → w.closesOf s = 0 := by
  have hinvariant : w.RegistryOpen :=
    hreach.invariant (fun _ => start_registry) fun _ _ _ hstep h => step_registry hstep h
  have h := hinvariant hopen
  have hback : ∀ s, w.auxByStreamId.get? (w.sockets s).streamId = some s →
      w.aux.get? (w.sockets s).channelId = some s := fun s hs => (h.byStream _ s hs).2
  have hforth : ∀ s, w.aux.get? (w.sockets s).channelId = some s →
      w.auxByStreamId.get? (w.sockets s).streamId = some s := fun s hs =>
    (h.byId _ s hs).2.2.2.2
  refine ⟨fun c s => ⟨fun hs => ?_, ?_⟩, fun n s => ⟨h.byStream n s, ?_⟩, h.live, h.registered,
    fun c p hp => ?_, fun s hs => ?_, fun s hs => ?_⟩
  · obtain ⟨-, -, hname, -, hby⟩ := h.byId c s hs
    exact ⟨hname, hby⟩
  · rintro ⟨rfl, hby⟩
    exact hback s hby
  · rintro ⟨rfl, hs⟩
    exact hforth s hs
  · obtain ⟨-, -, hname, hstream, hregistered⟩ := h.pending c p hp
    rcases hregistered with hregistered | hlate
    · have hby := (h.byId c _ hregistered).2.2.2.2
      rw [hstream] at hby
      exact inl ⟨hregistered, hby⟩
    · exact inr hlate
  · rw [h.closes s, if_pos hs]
  · have hnot : (w.sockets s).readyState ≠ .CLOSED .localClose := by
      rcases hs with hs | hs | hs | hs <;> rw [hs] <;> simp
    rw [h.closes s, if_neg hnot]

/-- Two sockets are dialed; the first closes itself. -/
def exampleDialed : NodeChannel :=
  (Machine.run step (start .node)
    [⟨.openAux "http_1", [], []⟩, ⟨.openAux "ws_1", [], []⟩,
      ⟨.closeSocket 1 1000 "normal", [], []⟩]).getD (start .node)

theorem registry_consistent_dialed :
    (exampleDialed.aux.get? "ws_1" = some 2 ∧ exampleDialed.auxByStreamId.get? 2 = some 2) ∧
    (exampleDialed.sockets 1).readyState = .CLOSED .localClose ∧ exampleDialed.closesOf 1 = 1 := by
  have hconsistent := registry_consistent (w := exampleDialed)
    ⟨[⟨.openAux "http_1", [], []⟩, ⟨.openAux "ws_1", [], []⟩,
      ⟨.closeSocket 1 1000 "normal", [], []⟩], rfl⟩ rfl
  obtain ⟨hid, -, -, -, -, hlocal, -⟩ := hconsistent
  have hregistered : exampleDialed.aux.get? "ws_1" = some 2 := rfl
  exact ⟨⟨hregistered, ((hid "ws_1" 2).mp hregistered).2⟩, rfl, hlocal 1 rfl⟩

/-- A socket whose open the peer rejects is closed, and the peer hears nothing of it. -/
theorem rejected_without_close : ∃ w, Machine.run step (start .node)
        [⟨.openAux "http_1", [], []⟩, ⟨.receive (.channelReject "http_1") true, [], []⟩] = some w ∧
      w.closed = false ∧ (w.sockets 1).readyState = .CLOSED .rejected ∧ w.closesOf 1 = 0 :=
  ⟨_, rfl, rfl, rfl, rfl⟩

end NodeChannel

end TaskHandoff.Relay
