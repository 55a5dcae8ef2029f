import TaskHandoff.BrowserTunnel.Laws

/-! # Runs of a browser tunnel

Each event keeps the laws of every stream, as long as no target ends or closes with data still
queued for the peer and no write of an empty data frame calls back. -/

namespace TaskHandoff.BrowserTunnel

open Machine BrowserTunnel.Stream Option

namespace Tunnel

/-! ## The invariant -/

/-- The laws of all streams, what the table points to, and that nothing escaped. -/
structure Holds (w : Bool) (s : Tunnel) : Prop where
  laws : ∀ (i : Nat) (st : Stream), s.objects[i]? = some st → Law w st
  table : ∀ id i, s.streams.get? id = some i →
    ∃ st, s.objects[i]? = some st ∧ st.id = id ∧ st.state ≠ .closed
  quiet : s.escaped = false

/-- The invariant between two events. -/
def Inv (s : Tunnel) : Prop := Holds s.writable s

variable {w : Bool} {s : Tunnel}

theorem Holds.weaken (h : Holds w s) : Holds false s :=
  ⟨fun i st hat => (h.laws i st hat).weaken, h.table, h.quiet⟩

theorem Holds.inv (h : Holds w s) (hw : s.writable = true → w = true) : Inv s := by
  cases hs : s.writable with
  | false =>
    rw [Inv, hs]
    exact h.weaken
  | true =>
    rw [Inv, hs, ← hw hs]
    exact h

variable {t : Tunnel} {r : Runtime} {f : Frame} {id : Nat}

theorem objects_modify_self (s : Tunnel) (i : Nat) (f : Stream → Stream) :
    (s.modify i f).objects[i]? = s.objects[i]?.map f := by
  simp [modify]

theorem objects_modify_ne (s : Tunnel) {i j : Nat} (f : Stream → Stream) (h : i ≠ j) :
    (s.modify i f).objects[j]? = s.objects[j]? := by
  simp [modify, h]

theorem modify_modify (s : Tunnel) (i : Nat) (f g : Stream → Stream) :
    (s.modify i f).modify i g = s.modify i fun st => g (f st) := by
  have hobjects : (s.objects.modify i f).modify i g = s.objects.modify i fun st => g (f st) := by
    apply List.ext_getElem?
    intro j
    simp only [List.getElem?_modify]
    split <;> simp [Function.comp_def]
  simp [modify, hobjects]

variable {i : Nat}

theorem Holds.modify (h : Holds w s) {f : Stream → Stream}
    (hf : ∀ st, s.objects[i]? = some st → Law w (f st) ∧ (f st).id = st.id ∧
      (st.state ≠ .closed → (f st).state ≠ .closed)) : Holds w (s.modify i f) := by
  refine ⟨fun j st hat => ?_, fun id j hid => ?_, h.quiet⟩
  · by_cases hij : i = j
    · rw [← hij, objects_modify_self, map_eq_some_iff] at hat
      have ⟨old, hold, hst⟩ := hat
      exact hst ▸ (hf old hold).1
    · rw [objects_modify_ne s f hij] at hat
      exact h.laws j st hat
  · have ⟨old, hold, hsame, hopen⟩ := h.table id j hid
    by_cases hij : i = j
    · have hchanged := hf old (hij ▸ hold)
      refine ⟨f old, ?_, hchanged.2.1.trans hsame, hchanged.2.2 hopen⟩
      rw [← hij, objects_modify_self, hij, hold]
      rfl
    · exact ⟨old, by rw [objects_modify_ne s f hij]; exact hold, hsame, hopen⟩

theorem Holds.removeStream (h : Holds w s) (destroy : Bool) (i : Nat) :
    Holds w (s.removeStream destroy i) := by
  rw [Tunnel.removeStream]
  cases hi : s.objects[i]? with
  | none => exact h
  | some st =>
    dsimp only
    split
    · exact h
    refine ⟨fun j other hat => ?_, fun id j hid => ?_, h.quiet⟩
    · by_cases hij : i = j
      · rw [← hij, objects_modify_self, hi] at hat
        cases hat
        exact (h.laws i st hi).remove destroy
      · rw [objects_modify_ne s _ hij] at hat
        exact h.laws j other hat
    · have hid := OrderedMap.get?_erase_eq_some hid
      have ⟨old, hold, hsame, hopen⟩ := h.table id j hid.2
      have hij : i ≠ j := by
        intro hij
        rw [← hij, hi] at hold
        cases hold
        exact hid.1 hsame.symm
      refine ⟨old, ?_, hsame, hopen⟩
      exact (objects_modify_ne s _ hij).trans hold

theorem Holds.closeChannel (h : Holds w s) : Holds w s.closeChannel := by
  have hfold : ∀ (is : List Nat) (t : Tunnel), Holds w t → Holds w (is.foldl (Tunnel.removeStream true) t) := by
    intro is
    induction is with
    | nil => exact fun _ => id
    | cons i rest ih => exact fun t ht => ih _ (ht.removeStream true i)
  rw [Tunnel.closeChannel]
  split
  · exact h
  have hclosed : Holds w { s with closed := true } := { h with }
  have hall := hfold s.streams.values _ hclosed
  exact ⟨hall.laws, fun id i hid => by simp at hid, hall.quiet⟩

theorem closed_removeStream (destroy : Bool) (s : Tunnel) (i : Nat) :
    (s.removeStream destroy i).closed = s.closed ∧
      (s.removeStream destroy i).writable = s.writable := by
  rw [removeStream]
  split
  · exact ⟨rfl, rfl⟩
  split
  · exact ⟨rfl, rfl⟩
  · exact ⟨rfl, rfl⟩

theorem writable_closeChannel (s : Tunnel) : s.closeChannel.writable = false := by
  rw [closeChannel]
  split
  next hclosed => simp [writable, hclosed]
  · simp [writable]

theorem inv_closeChannel (h : Holds w s) : Inv s.closeChannel :=
  h.closeChannel.inv fun hw => by rw [writable_closeChannel] at hw; cases hw

theorem Inv.removeStream (h : Inv s) (destroy : Bool) (i : Nat) : Inv (s.removeStream destroy i) :=
  Holds.inv (Holds.removeStream h destroy i) fun hw => (closed_removeStream destroy s i).2 ▸ hw

theorem Inv.modify (h : Inv s) {f : Stream → Stream}
    (hf : ∀ st, s.objects[i]? = some st → Law s.writable (f st) ∧ (f st).id = st.id ∧
      (st.state ≠ .closed → (f st).state ≠ .closed)) : Inv (s.modify i f) :=
  Holds.modify h hf

/-! ## Sending -/

theorem send_cases (r : Runtime) (size : Nat) (s : Tunnel) :
    (s.send r size).2 = false ∧ ((s.send r size).1 = s ∧ s.writable = false ∨ (s.send r size).1 =
        ({ s with bufferedReads := s.bufferedReads + 1 } : Tunnel).closeChannel) ∨
    s.writable = true ∧
      s.send r size = ({ s with bufferedReads := s.bufferedReads + 1 }, true) := by
  rw [send]
  split
  next hshut =>
    cases hclosed : s.closed <;> simp_all [writable]
  next hopen =>
    split
    · exact .inl ⟨rfl, .inr rfl⟩
    · simpa [writable] using hopen

theorem Holds.send_false (h : Holds false s) {size : Nat}
    (hfalse : (s.send r size).2 = false) : Inv (s.send r size).1 := by
  rcases send_cases r size s with ⟨_, hsame | hclosed⟩ | ⟨_, htrue⟩
  · rw [hsame.1]
    exact h.inv fun hw => by rw [hsame.2] at hw; cases hw
  · rw [hclosed]
    exact inv_closeChannel { h with }
  · rw [htrue] at hfalse
    cases hfalse

theorem encodeFrame_isSome (h : assertFrame f = true) :
    ∃ bytes, encodeFrame f = some bytes := ⟨_, if_pos h⟩

theorem Holds.sendFrame (h : Holds false s) (hf : assertFrame f = true) (r : Runtime) (i : Nat) :
    (∃ t, s.sendFrame r i f = some (t, false) ∧ Inv t) ∨
    (s.writable = true ∧ s.sendFrame r i f =
      some (({ s with bufferedReads := s.bufferedReads + 1 } : Tunnel).modify i (.log f), true)) := by
  have ⟨bytes, hbytes⟩ := encodeFrame_isSome hf
  simp only [Tunnel.sendFrame, hbytes]
  cases hsent : (s.send r bytes.length).2 with
  | false =>
    left
    refine ⟨(s.send r bytes.length).1, ?_, h.send_false hsent⟩
    simp
  | true =>
    right
    rcases send_cases r bytes.length s with ⟨hfalse, _⟩ | ⟨hw, htrue⟩
    · rw [hsent] at hfalse
      cases hfalse
    refine ⟨hw, ?_⟩
    rw [htrue]
    simp

/-! ## Handlers -/

theorem Inv.reply (h : Inv s) (hid : 0 < id ∧ id ≤ 0xffffffff) (r : Runtime)
    (e : TunnelError) : ∃ t, s.reply r id e = some t ∧ Inv t := by
  have ⟨bytes, hbytes⟩ := encodeFrame_isSome (assertFrame_error hid e)
  simp only [Tunnel.reply, hbytes]
  refine ⟨_, rfl, ?_⟩
  split
  next hsent =>
    rcases send_cases r bytes.length s with ⟨hfalse, _⟩ | ⟨hw, htrue⟩
    · rw [hsent] at hfalse
      cases hfalse
    · rw [htrue]
      exact Holds.inv { h with } fun _ => hw
  next hsent => exact (Holds.weaken h).send_false (by simpa using hsent)

variable {st : Stream}

theorem removeStream_closed (destroy : Bool) (s : Tunnel) (i : Nat)
    (h : (s.removeStream destroy i).objects[i]? = some st) : st.state = .closed := by
  rw [removeStream] at h
  split at h
  next hnone =>
    rw [hnone] at h
    cases h
  rename_i old hold
  split at h
  next hclosed =>
    rw [hold] at h
    cases h
    exact hclosed
  · rw [objects_modify_self, hold] at h
    cases h
    rfl

theorem Inv.sendFrame (h : Inv s) (hf : assertFrame f = true) (hdata : f.type ≠ .data)
    (hupdate : f.type ≠ .windowUpdate) (r : Runtime)
    (hends : s.writable = true → ∀ st, s.objects[i]? = some st → f.ends →
      dataOf st.sent = st.read ∧ (st.finished = true ∨ st.gone = true)) :
    ∃ sent, s.sendFrame r i f = some sent ∧ Inv sent.1 := by
  rcases (Holds.weaken h).sendFrame hf r i with ⟨t, ht, hinv⟩ | ⟨hw, hsent⟩
  · exact ⟨(t, false), ht, hinv⟩
  refine ⟨_, hsent, ?_⟩
  have hcounted : Inv { s with bufferedReads := s.bufferedReads + 1 } :=
    Holds.inv { h with } id
  exact hcounted.modify fun st hat =>
    ⟨(h.laws i st hat).log hdata hupdate (hends hw st hat), rfl, id⟩

theorem Inv.streamError (h : Inv s) (i : Nat) (hid : 0 < st.id ∧ st.id ≤ 0xffffffff) (r : Runtime)
    (e : TunnelError) : ∃ t, s.streamError r i st e = some t ∧ Inv t ∧
      ∀ old, t.objects[i]? = some old → old.state = .closed := by
  have ⟨sent, hsent, hinv⟩ := h.sendFrame (i := i) (assertFrame_error hid e)
    (by simp [TunnelError.frame]) (by simp [TunnelError.frame]) r
    (fun _ _ _ hends => by simp [Frame.ends, TunnelError.frame] at hends)
  refine ⟨sent.1.removeStream true i, ?_, hinv.removeStream true i,
    fun old => removeStream_closed true sent.1 i⟩
  rw [Tunnel.streamError, hsent]
  rfl

theorem unguarded_of_some {o : Option Tunnel} (h : o = some t) : unguarded (s.attempt o) = t := by
  rw [h]
  rfl

section

variable (h : Inv s)

include h

theorem Inv.flushTargetData {fuel : Nat} :
    Inv (s.flushTargetData r i fuel).1 ∧ (s.flushTargetData r i fuel).2 = false := by
  induction fuel generalizing s with
  | zero => exact ⟨h, rfl⟩
  | succ fuel ih =>
    rw [flushTargetData]
    split
    · exact ⟨h, rfl⟩
    rename_i st hat
    have hlaw := h.laws i st hat
    split
    swap
    · exact ⟨h, rfl⟩
    rename_i hopen
    split
    · refine ⟨h.modify fun old hold => ?_, rfl⟩
      exact ⟨(h.laws i old hold).touch old.lastActivityAt false old.halfClosed old.connected
        old.connectTimer old.finished old.gone id id, rfl, id⟩
    rename_i current rest hqueued
    split
    · rcases (Holds.weaken h).sendFrame (hlaw.assertFrame_data current) r i with
        ⟨t, ht, hinv⟩ | ⟨hw, hsent⟩
      · simp only [ht]
        exact ⟨hinv, trivial⟩
      · simp only [hsent]
        apply ih
        rw [modify_modify]
        have hcounted : Inv { s with bufferedReads := s.bufferedReads + 1 } :=
          Holds.inv { h with } fun hw => hw
        refine hcounted.modify fun old hold => ?_
        have hsame : old = st := some.inj (hold.symm.trans hat)
        rw [hsame]
        exact ⟨hlaw.advance s.now (by simp [hopen]) hqueued, rfl, id⟩
    · exact ⟨h, rfl⟩

theorem Inv.flush (r : Runtime) (i : Nat) : Inv (s.flush r i).1 ∧ (s.flush r i).2 = false := by
  rw [Tunnel.flush]
  split
  · exact ⟨h, rfl⟩
  · exact h.flushTargetData

/-! ## Frames of the peer -/

/-- A change that touches no credit, no log, no queue and neither end of the target. -/
theorem Inv.touch (i now : Nat) : Inv (s.modify i fun st =>
    { st with lastActivityAt := now }) :=
  h.modify fun st hat => ⟨(h.laws i st hat).touch now st.paused st.halfClosed st.connected
    st.connectTimer st.finished st.gone id id, rfl, id⟩

theorem Inv.openStream (hid : 0 < id ∧ id ≤ 0xffffffff) (r : Runtime)
    (host : String) (port : Nat) : Inv (s.attempt (s.openStream r id host port)).1 := by
  rw [Tunnel.openStream]
  split
  · have ⟨t, ht, hinv⟩ := h.reply hid r .alreadyOpen
    rw [ht]
    exact hinv
  split
  · have ⟨t, ht, hinv⟩ := h.reply hid r .streamLimit
    rw [ht]
    exact hinv
  refine ⟨fun j st hat => ?_, fun other j hother => ?_, h.quiet⟩
  · change (s.objects ++ [_])[j]? = some st at hat
    rw [List.getElem?_append] at hat
    split at hat
    · exact h.laws j st hat
    have hnew := List.mem_singleton.mp (List.mem_of_getElem? hat)
    rw [hnew]
    exact .start hid _
  · rcases OrderedMap.get?_set_eq_some hother with ⟨heq, hj⟩ | ⟨_, hold⟩
    · refine ⟨.start id (targetHost host) port s.peerInitialWindow s.now, ?_, heq.symm, nofun⟩
      cases hj
      exact List.getElem?_concat_length
    · have ⟨st, hat, hsame⟩ := h.table other j hold
      have hbound := (List.getElem?_eq_some_iff.mp hat).choose
      exact ⟨st, (List.getElem?_append_left hbound).trans hat, hsame⟩

theorem Inv.streamFrame (hat : s.objects[i]? = some st) (r : Runtime) (f : Frame) :
    Inv (s.streamFrame r f i st).1 := by
  rw [Tunnel.streamFrame]
  split
  · split
    · have ⟨t, ht, hinv, hclosed⟩ := h.streamError i (h.laws i st hat).id r .receiveWindow
      rw [ht]
      exact hinv.modify fun old hold =>
        ⟨(hinv.laws i old hold).refuse f.payload (hclosed old hold), rfl, id⟩
    next hwithin =>
      refine h.modify fun old hold => ?_
      have hsame : old = st := some.inj (hold.symm.trans hat)
      simp only [ne_eq, not_or, not_not, gt_iff_lt, Nat.not_lt] at hwithin
      rw [hsame]
      exact ⟨(h.laws i st hat).accept (by simp [hwithin.1]) hwithin.2, rfl, id⟩
  · split
    · exact h
    · split
      · have ⟨t, ht, hinv, _⟩ := h.streamError i (h.laws i st hat).id r .sendWindow
        rw [ht]
        exact hinv
      next bytes _ _ =>
        have hgranted : Inv (s.modify i (.grant bytes)) := h.modify fun old hold =>
          ⟨(h.laws i old hold).grant bytes, rfl, id⟩
        exact (hgranted.flush r i).1
  · exact h.modify fun old hold => ⟨(h.laws i old hold).touch old.lastActivityAt old.paused true
      old.connected old.connectTimer old.finished old.gone id id, rfl, id⟩
  · exact h.removeStream true i
  · exact h.removeStream true i
  · exact h
  · exact h

theorem Inv.handleFrame (hid : 0 < f.streamId ∧ f.streamId ≤ 0xffffffff) (r : Runtime) :
    Inv (s.handleFrame r f).1 := by
  rw [Tunnel.handleFrame]
  split
  · split
    · exact h
    · exact h.openStream hid r _ _
  split
  · split
    · exact h
    · have ⟨t, ht, hinv⟩ := h.reply hid r .closed
      rw [ht]
      exact hinv
  next i _ =>
    have htouched := h.touch i s.now
    dsimp only
    split
    · exact htouched
    next st hat => exact htouched.streamFrame hat r f

theorem Inv.send (r : Runtime) (size : Nat) : Inv (s.send r size).1 := by
  rcases send_cases r size s with ⟨hfalse, _⟩ | ⟨hw, htrue⟩
  · exact (Holds.weaken h).send_false hfalse
  · rw [htrue]
    exact Holds.inv { h with } fun _ => hw

theorem Inv.message (r : Runtime) (bytes : List UInt8) (isBinary : Bool) :
    Inv (s.message r bytes isBinary) := by
  rw [Tunnel.message]
  split
  · split
    · split
      · exact inv_closeChannel h
      next f hf =>
        have hhandled := h.handleFrame (decodeFrame_streamId hf) r
        dsimp only
        split
        · exact inv_closeChannel hhandled
        · exact hhandled
    · exact inv_closeChannel h
  · split
    · exact inv_closeChannel h
    next window _ =>
      have hready : Inv { s with peerInitialWindow := window, ready := true } :=
        Holds.inv { h with } id
      exact hready.send r readyBytes

/-! ## Targets, callbacks and timers -/

section

variable (hat : s.objects[i]? = some st)

include hat

theorem Inv.onConnect (r : Runtime) : Inv (s.onConnect r i st) := by
  have hconnected : Inv (s.modify i fun st => { st with connected := true }) :=
    h.modify fun old hold => ⟨(h.laws i old hold).touch old.lastActivityAt old.paused
      old.halfClosed true old.connectTimer old.finished old.gone id id, rfl, id⟩
  rw [Tunnel.onConnect]
  split
  · exact hconnected
  rename_i hconnecting
  have hopened : Inv ((s.modify i fun st => { st with connected := true }).modify i
      (.connect s.now)) := by
    refine hconnected.modify fun old hold => ?_
    rw [objects_modify_self, hat] at hold
    cases hold
    refine ⟨(hconnected.laws i _ (by rw [objects_modify_self, hat]; rfl)).connect s.now ?_, rfl,
      fun _ => nofun⟩
    have hstate := not_not.mp hconnecting
    simp [hstate]
  have ⟨sent, hsent, hinv⟩ := hopened.sendFrame (i := i) (f := ⟨.openOk, st.id, []⟩)
    ((h.laws i st hat).assertFrame_control .openOk) nofun nofun r
    (fun _ _ _ hends => by simp [Frame.ends] at hends)
  refine unguarded_of_some (congrArg (Option.map _) hsent) ▸ hinv.modify fun old hold => ?_
  exact ⟨(hinv.laws i old hold).touch old.lastActivityAt false old.halfClosed old.connected
    old.connectTimer old.finished old.gone id id, rfl, id⟩

theorem Inv.onData
    (hopen : ¬(st.finished = true ∨ st.gone = true)) (r : Runtime) (chunk : List UInt8) :
    Inv (s.onData r i st chunk) := by
  rw [Tunnel.onData]
  split
  · exact h
  rename_i hstate
  have hstate : st.state = .opened := not_not.mp hstate
  have hqueued : Inv (s.modify i (.enqueue s.now chunk)) := by
    refine h.modify fun old hold => ?_
    have hsame : old = st := some.inj (hold.symm.trans hat)
    rw [hsame]
    exact ⟨(h.laws i st hat).enqueue s.now chunk (by simp [hstate]) hopen, rfl, id⟩
  split
  · have ⟨t, ht, hinv, _⟩ := hqueued.streamError i (h.laws i st hat).id r .producedTooMuch
    rw [unguarded_of_some ht]
    exact hinv
  have hflushed := hqueued.flush r i
  rw [unguarded, hflushed.2]
  exact hflushed.1

theorem Inv.sendEnd (hstate : st.state ≠ .closed)
    (hmark : st.finished = true ∨ st.gone = true) (t : FrameType) (ht : t ≠ .data)
    (hupdate : t ≠ .windowUpdate) (hempty : s.writable = true → st.queuedBytes = 0) (r : Runtime) :
    ∃ sent, s.sendFrame r i ⟨t, st.id, []⟩ = some sent ∧ Inv sent.1 := by
  have hlaw := h.laws i st hat
  refine h.sendFrame (hlaw.assertFrame_control t) ht hupdate r fun hw old hold _ => ?_
  have hsame : old = st := some.inj (hold.symm.trans hat)
  have hbytes := hlaw.queuedBytes
  rw [hempty hw] at hbytes
  rw [hsame, hlaw.queued hstate, List.eq_nil_of_length_eq_zero hbytes.symm, List.append_nil]
  exact ⟨rfl, hmark⟩

theorem Inv.onEnd (r : Runtime)
    (hempty : st.state ≠ .closed → s.writable = true → st.queuedBytes = 0) :
    Inv (s.onEnd r i st) := by
  have hfinished : Inv (s.modify i fun st => { st with finished := true }) :=
    h.modify fun old hold => ⟨(h.laws i old hold).touch old.lastActivityAt old.paused
      old.halfClosed old.connected old.connectTimer true old.gone (fun _ => rfl) id, rfl, id⟩
  rw [Tunnel.onEnd]
  split
  · exact hfinished
  rename_i hstate
  have hat' : (s.modify i fun st => { st with finished := true }).objects[i]? =
      some { st with finished := true } := by
    rw [objects_modify_self, hat]
    rfl
  have ⟨sent, hsent, hinv⟩ := hfinished.sendEnd hat' hstate (.inl rfl) .halfClose nofun nofun
    (hempty hstate) r
  exact unguarded_of_some (congrArg (Option.map _) hsent) ▸ hinv

theorem Inv.onError (r : Runtime) : Inv (s.onError r i st) := by
  rw [Tunnel.onError]
  split
  · exact h
  have ⟨t, ht, hinv, _⟩ := h.streamError i (h.laws i st hat).id r .connectFailed
  rw [unguarded_of_some ht]
  exact hinv

theorem Inv.onClose (r : Runtime)
    (hempty : st.state ≠ .closed → s.writable = true → st.queuedBytes = 0) :
    Inv (s.onClose r i st) := by
  have hgone : Inv (s.modify i fun st => { st with gone := true }) :=
    h.modify fun old hold => ⟨(h.laws i old hold).touch old.lastActivityAt old.paused
      old.halfClosed old.connected old.connectTimer old.finished true id (fun _ => rfl), rfl, id⟩
  rw [Tunnel.onClose]
  split
  · exact hgone
  rename_i hstate
  have hat' : (s.modify i fun st => { st with gone := true }).objects[i]? =
      some { st with gone := true } := by
    rw [objects_modify_self, hat]
    rfl
  have ⟨sent, hsent, hinv⟩ := hgone.sendEnd hat' hstate (.inr rfl) .close nofun nofun
    (hempty hstate) r
  exact unguarded_of_some (congrArg (Option.map _) hsent) ▸ hinv.removeStream false i

theorem Inv.onWritten (r : Runtime) {bytes : Nat}
    {rest : List Nat} (hflight : st.inFlight = bytes :: rest)
    (hbytes : st.state ≠ .closed → bytes ≠ 0) : Inv (s.onWritten r i st bytes rest) := by
  have hlaw := h.laws i st hat
  rw [Tunnel.onWritten]
  split
  next hclosed =>
    refine h.modify fun old hold => ?_
    have hsame : old = st := some.inj (hold.symm.trans hat)
    rw [hsame]
    exact ⟨{ hlaw with inFlight := absurd hclosed }, rfl, id⟩
  rename_i hstate
  have hcredit := hlaw.credit_eq hstate hflight
  have hupdate : windowUpdate st.id bytes = some ⟨.windowUpdate, st.id, writeUInt32BE bytes⟩ := by
    have hmax : bytes ≤ maxWindowBytes := by
      have hsum := hcredit.2
      simp only [initialWindowBytes] at hsum
      simp only [maxWindowBytes]
      omega
    rw [windowUpdate, if_neg]
    have hpositive := hbytes hstate
    omega
  have hweak : Holds false (s.modify i (.credit bytes rest)) := by
    refine (Holds.weaken h).modify fun old hold => ?_
    have hsame : old = st := some.inj (hold.symm.trans hat)
    rw [hsame]
    exact ⟨hlaw.credit_unsent hstate hflight, rfl, id⟩
  simp only [hupdate, bind_some]
  rcases hweak.sendFrame (hlaw.assertFrame_windowUpdate hupdate) r i with
    ⟨t, ht, hinv⟩ | ⟨hw, hsent⟩
  · rw [unguarded_of_some (congrArg (Option.map _) ht)]
    exact hinv
  rw [unguarded_of_some (congrArg (Option.map _) hsent)]
  have hcounted : Inv { s with bufferedReads := s.bufferedReads + 1 } :=
    Holds.inv { h with } id
  have hboth : ∀ g, (({ s.modify i (.credit bytes rest) with
      bufferedReads := (s.modify i (.credit bytes rest)).bufferedReads + 1 } : Tunnel).modify i
        g) = ({ s with bufferedReads := s.bufferedReads + 1 } : Tunnel).modify i
          fun st => g (st.credit bytes rest) := fun g =>
    modify_modify ({ s with bufferedReads := s.bufferedReads + 1 } : Tunnel) i _ g
  rw [hboth]
  refine hcounted.modify fun old hold => ?_
  have hsame : old = st := some.inj (hold.symm.trans hat)
  rw [hsame]
  exact ⟨(hw ▸ hlaw).credit_log hstate hflight hupdate _, rfl, id⟩

theorem Inv.onConnectTimer (r : Runtime) : Inv (s.onConnectTimer r i st) := by
  have hfired : Inv (s.modify i fun st => { st with connectTimer := false }) :=
    h.modify fun old hold => ⟨(h.laws i old hold).touch old.lastActivityAt old.paused
      old.halfClosed old.connected false old.finished old.gone id id, rfl, id⟩
  have ⟨t, ht, hinv, _⟩ := hfired.streamError i (h.laws i st hat).id r .connectTimeout
  rw [Tunnel.onConnectTimer, unguarded_of_some ht]
  exact hinv

end

theorem Inv.idleRound (r : Runtime) (is : List Nat) : Inv (s.idleRound r is) := by
  induction is generalizing s with
  | nil => exact h
  | cons i rest ih =>
    rw [idleRound]
    split
    · exact ih h
    rename_i st hat
    split
    · exact ih h
    have ⟨t, ht, hinv, _⟩ := h.streamError i (h.laws i st hat).id r .idleTimeout
    simp only [ht]
    exact ih hinv

end

/-! ## Runs -/

/-- Behind a target's end or close nothing is queued for the peer any more, and the write that calls
back is not that of an empty data frame. -/
def Orderly (s : Tunnel) : Action → Prop
  | .ended i | .closed i => ∀ st ∈ s.objects[i]?,
      st.state = .closed ∨ s.writable = false ∨ st.queuedBytes = 0
  | .written i => ∀ st ∈ s.objects[i]?, st.state = .closed ∨ st.inFlight.head? ≠ some 0
  | _ => True

instance (s : Tunnel) (a : Action) : Decidable (Orderly s a) :=
  match a with
  | .ended i | .closed i => inferInstanceAs (Decidable (∀ st ∈ s.objects[i]?, _))
  | .written i => inferInstanceAs (Decidable (∀ st ∈ s.objects[i]?, _))
  | .message _ _ | .connected _ | .data _ _ | .failed _ | .connectTimer _ | .idleTimer | .clock _
  | .socketLeaves | .socketClosed | .socketFailed | .close => inferInstanceAs (Decidable True)

theorem step_inv {a : Action} (hstep : step r s a = some t)
    (horderly : Orderly s a) (h : Inv s) : Inv t := by
  cases a with
  | message bytes isBinary =>
    cases hstep
    exact h.message r bytes isBinary
  | connected i =>
    simp only [step] at hstep
    split at hstep
    · cases hstep
    next st hat =>
      split at hstep
      · cases hstep
      · cases hstep
        exact h.onConnect hat r
  | data i chunk =>
    simp only [step] at hstep
    split at hstep
    · cases hstep
    rename_i st hat
    split at hstep
    · cases hstep
    rename_i hguard
    cases hstep
    exact h.onData hat (fun hmark => hguard (by
      cases hmark with
      | inl hfinished => exact .inr (.inl hfinished)
      | inr hgone => exact .inr (.inr (.inr hgone)))) r chunk
  | ended i =>
    simp only [step] at hstep
    split at hstep
    · cases hstep
    rename_i st hat
    split at hstep
    · cases hstep
    cases hstep
    have horderly := horderly st hat
    exact h.onEnd hat r fun hstate hw => by simpa [hstate, hw] using horderly
  | failed i =>
    simp only [step] at hstep
    split at hstep
    · cases hstep
    next st hat =>
      split at hstep
      · cases hstep
      · cases hstep
        exact h.onError hat r
  | closed i =>
    simp only [step] at hstep
    split at hstep
    · cases hstep
    rename_i st hat
    split at hstep
    · cases hstep
    cases hstep
    have horderly := horderly st hat
    exact h.onClose hat r fun hstate hw => by simpa [hstate, hw] using horderly
  | written i =>
    simp only [step] at hstep
    split at hstep
    · cases hstep
    rename_i st hat
    split at hstep
    · cases hstep
    next bytes rest hflight =>
      cases hstep
      have horderly := horderly st hat
      simp only [hflight, List.head?_cons, ne_eq, some.injEq] at horderly
      exact h.onWritten hat r hflight fun hstate => by simpa [hstate] using horderly
  | connectTimer i =>
    simp only [step] at hstep
    split at hstep
    · cases hstep
    next st hat =>
      split at hstep
      · cases hstep
        exact h.onConnectTimer hat r
      · cases hstep
  | idleTimer =>
    obtain ⟨-, hstep⟩ := ite_none_left_eq_some.1 hstep
    cases hstep
    exact h.idleRound r _
  | clock now =>
    cases hstep
    exact Holds.inv { h with } id
  | socketLeaves =>
    cases hstep
    exact Holds.inv { h with } fun hw => by simp [writable] at hw
  | socketClosed | socketFailed | close =>
    cases hstep
    exact inv_closeChannel h

theorem inv_start : Inv start :=
  ⟨fun _ _ hat => by simp [start] at hat, fun _ _ hid => by simp [start] at hid, rfl⟩

/-- In a run of orderly steps every stream keeps its laws and no exception leaves the guard. -/
theorem tunnel_lawful {r : Runtime} {actions : List Action} {s : Tunnel}
    (hrun : run (step r) start actions = some s)
    (hsteps : AllSteps (step r) Orderly start actions) :
    (∀ (i : Nat) (st : Stream), s.objects[i]? = some st → Law s.writable st) ∧
      (∀ id i, s.streams.get? id = some i →
        ∃ st, s.objects[i]? = some st ∧ st.id = id ∧ st.state ≠ .closed) ∧
      s.escaped = false := by
  have hinv : Inv s := run_invariant_of_steps (fun _ _ _ hstep horderly h =>
    step_inv hstep horderly h) hrun hsteps inv_start
  exact ⟨hinv.laws, hinv.table, hinv.quiet⟩

/-- A hello for a window of one byte, and an open frame for the stream 7. -/
def sampleHello : List UInt8 := asciiBytes
  ("\x7b\"type\":\"browser-tunnel.hello\",\"protocolVersion\":\"2026-08-29\"," ++
    "\"initialWindowBytes\":1\x7d")

def samplePayload : List UInt8 := asciiBytes "\x7b\"host\":\"127-0-0-1.internal\",\"port\":80\x7d"

/-- A runtime whose parsers know the two texts, with a WebSocket that keeps nothing buffered. -/
def sampleRuntime : Runtime where
  hello bytes := if bytes = sampleHello then some 1 else none
  openPayload bytes :=
    if bytes = samplePayload then some ("127-0-0-1.internal", 80) else none
  bufferedAmount _ := 0

/-- A binary frame of the stream 7. -/
def sampleFrame (t : FrameType) (payload : List UInt8) : Action :=
  .message (t.code :: (writeUInt32BE 7 ++ writeUInt32BE payload.length ++ payload)) true

def sampleOpen : List Action :=
  [.message sampleHello false, sampleFrame .opens samplePayload, .connected 0]

theorem tunnel_lawful_example : ∃ s, run (step sampleRuntime) start
        (sampleOpen ++ [sampleFrame .data [1, 2], .written 0, .data 0 [8, 9],
          sampleFrame .windowUpdate [0, 0, 0, 1], .ended 0]) = some s ∧
      ∃ st, s.objects[0]? = some st ∧ st.host = "127.0.0.1" ∧ st.written = [[1, 2]] ∧
        updatesOf st.sent = [2] ∧ dataOf st.sent = [8, 9] ∧ Law s.writable st := by
  have hsteps : AllSteps (step sampleRuntime) Orderly start
      (sampleOpen ++ [sampleFrame .data [1, 2], .written 0, .data 0 [8, 9],
        sampleFrame .windowUpdate [0, 0, 0, 1], .ended 0]) := by decide +kernel
  have hend : ((run (step sampleRuntime) start
      (sampleOpen ++ [sampleFrame .data [1, 2], .written 0, .data 0 [8, 9],
        sampleFrame .windowUpdate [0, 0, 0, 1], .ended 0])).bind fun s => s.objects[0]?).map
          (fun st => (st.host, st.written, updatesOf st.sent, dataOf st.sent)) =
            some ("127.0.0.1", [[1, 2]], [2], [8, 9]) := by decide +kernel
  have ⟨st, hst, hvalues⟩ := map_eq_some_iff.mp hend
  have ⟨s, hrun, hat⟩ := bind_eq_some_iff.mp hst
  simp only [Prod.mk.injEq] at hvalues
  exact ⟨s, hrun, st, hat, hvalues.1, hvalues.2.1, hvalues.2.2.1, hvalues.2.2.2,
    (tunnel_lawful hrun hsteps).1 0 st hat⟩

/-- The callback of an empty data frame throws outside of the guard. And a target that ends with
data queued is reported as half-closed before that data. -/
theorem tunnel_escapes_and_reorders :
    (run (step sampleRuntime) start (sampleOpen ++ [sampleFrame .data [], .written 0])).map
      (·.escaped) = some true ∧
    ∃ s, run (step sampleRuntime) start
        (sampleOpen ++ [.data 0 [8, 9], .ended 0, sampleFrame .windowUpdate [0, 0, 0, 1]]) =
          some s ∧
      ∃ st, s.objects[0]? = some st ∧ st.read = [8, 9] ∧
        st.sent = [⟨.openOk, 7, []⟩, ⟨.data, 7, [8]⟩, ⟨.halfClose, 7, []⟩, ⟨.data, 7, [9]⟩] ∧
        ¬Law s.writable st := by
  have hend : ((run (step sampleRuntime) start
      (sampleOpen ++ [.data 0 [8, 9], .ended 0, sampleFrame .windowUpdate [0, 0, 0, 1]])).bind
        fun s => s.objects[0]?).map (fun st => (st.read, st.sent)) =
          some ([8, 9], [⟨.openOk, 7, []⟩, ⟨.data, 7, [8]⟩, ⟨.halfClose, 7, []⟩,
            ⟨.data, 7, [9]⟩]) := by decide +kernel
  have ⟨st, hst, hvalues⟩ := map_eq_some_iff.mp hend
  have ⟨s, hrun, hat⟩ := bind_eq_some_iff.mp hst
  simp only [Prod.mk.injEq] at hvalues
  refine ⟨by decide +kernel, s, hrun, st, hat, hvalues.1, hvalues.2, fun hlaw => ?_⟩
  have hmark := hlaw.marks 2 ⟨.halfClose, 7, []⟩ (by rw [hvalues.2]; rfl) (.inl rfl)
  rw [hvalues.1, hvalues.2] at hmark
  exact absurd hmark (by decide)

end Tunnel

end TaskHandoff.BrowserTunnel
