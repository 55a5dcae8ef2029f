import TaskHandoff.BrowserTunnel.Channel

/-! # The laws of one stream

What the peer sent and what was written to the target, what came from the target and what the peer
was sent, and the credit in both directions, as each handler keeps them for the stream it is about. -/

namespace TaskHandoff.BrowserTunnel

open List Option

/-- The bytes that data frames carry to the peer. -/
def dataOf (sent : List Frame) : List UInt8 :=
  sent.flatMap fun f => if f.type = .data then f.payload else []

/-- The sizes that window updates give back to the peer, as the peer decodes them. -/
def updatesOf (sent : List Frame) : List Nat := sent.filterMap decodeWindowUpdate

theorem dataOf_snoc (sent : List Frame) (f : Frame) :
    dataOf (sent ++ [f]) = dataOf sent ++ if f.type = .data then f.payload else [] := by
  simp [dataOf, flatMap_append]

variable {f : Frame}

theorem updatesOf_snoc_none (h : decodeWindowUpdate f = none) (sent : List Frame) :
    updatesOf (sent ++ [f]) = updatesOf sent := by
  simp [updatesOf, filterMap_append, h]

theorem updatesOf_snoc_some {n : Nat} (h : decodeWindowUpdate f = some n)
    (sent : List Frame) : updatesOf (sent ++ [f]) = updatesOf sent ++ [n] := by
  simp [updatesOf, filterMap_append, h]

theorem decodeWindowUpdate_none (h : f.type ≠ .windowUpdate) : decodeWindowUpdate f = none := by
  unfold decodeWindowUpdate
  split
  next htype _ => exact absurd htype h
  · rfl

theorem assertFrame_error {id : Nat} (hid : 0 < id ∧ id ≤ 0xffffffff) (e : TunnelError) :
    assertFrame (e.frame id) = true :=
  assertFrame_eq_true.mpr ⟨hid.1, hid.2, e.length_payload, .inr (by simp [TunnelError.frame])⟩

/-- A frame that ends what the target sends. -/
def Frame.ends (f : Frame) : Prop := f.type = .halfClose ∨ f.type = .close

instance (f : Frame) : Decidable f.ends := inferInstanceAs (Decidable (_ ∨ _))

namespace Stream

/-- The laws of a stream. `writable` tells whether the WebSocket still takes frames. -/
structure Law (writable : Bool) (st : Stream) : Prop where
  id : 0 < st.id ∧ st.id ≤ 0xffffffff
  /-- Data frames are written to the target once and in order; only a refused one is not, and it
  closes the stream. -/
  arrived : st.written <+: st.arrived
  accepted : st.state ≠ .closed → st.written = st.arrived
  /-- The receive credit and what was written but not credited back make up the window. -/
  credit : st.receiveCredit + (st.written.map length).sum =
    initialWindowBytes + st.credited.sum
  credited : st.credited <+: st.written.map length
  inFlight : st.state ≠ .closed → st.written.map length = st.credited ++ st.inFlight
  /-- The peer is given back exactly the sizes credited. -/
  updates : updatesOf st.sent <+: st.credited
  updated : writable = true → updatesOf st.sent = st.credited
  /-- What is sent and the send credit make up what was granted. -/
  window : st.sendCredit + (dataOf st.sent).length = st.granted
  /-- What came from the target is sent in order, each byte once. -/
  data : dataOf st.sent <+: st.read
  queued : st.state ≠ .closed → st.read = dataOf st.sent ++ st.queued.flatten
  queuedBytes : st.queuedBytes = st.queued.flatten.length
  /-- A half-close or close frame follows all that was read. -/
  marks : ∀ (k : Nat) (f : Frame), st.sent[k]? = some f → f.ends → dataOf (st.sent.take k) = st.read
  final : ∀ f ∈ st.sent, f.ends → st.finished = true ∨ st.gone = true

theorem Law.start {id port window now : Nat} {host : String}
    (hid : 0 < id ∧ id ≤ 0xffffffff) (w : Bool) : Law w (.start id host port window now) where
  id := hid
  arrived := prefix_rfl
  accepted _ := rfl
  credit := rfl
  credited := prefix_rfl
  inFlight _ := rfl
  updates := prefix_rfl
  updated _ := rfl
  window := rfl
  data := prefix_rfl
  queued _ := rfl
  queuedBytes := rfl
  marks _ _ h := by simp [Stream.start] at h
  final _ h := by simp [Stream.start] at h

variable {w : Bool} {st : Stream}

section

variable (h : Law w st)

include h

theorem Law.weaken : Law false st := { h with updated := Bool.noConfusion }

theorem Law.touch (now : Nat) (paused halfClosed connected timer finished gone : Bool)
    (hfinished : st.finished = true → finished = true) (hgone : st.gone = true → gone = true) :
    Law w { st with lastActivityAt := now, paused := paused, halfClosed := halfClosed,
                    connected := connected, connectTimer := timer, finished := finished,
                    gone := gone } :=
  { h with
    final := fun f hf hends => (h.final f hf hends).imp hfinished hgone }

theorem Law.remove (destroy : Bool) : Law w (st.remove destroy) :=
  { h with
    accepted := absurd rfl
    inFlight := absurd rfl
    queued := absurd rfl
    queuedBytes := rfl }

theorem Law.connect (now : Nat) (hstate : st.state ≠ .closed) : Law w (st.connect now) :=
  { h with
    accepted := fun _ => h.accepted hstate
    inFlight := fun _ => h.inFlight hstate
    queued := fun _ => h.queued hstate }

theorem Law.grant (bytes : Nat) : Law w (st.grant bytes) :=
  { h with
    window := by
      have hwindow := h.window
      change st.sendCredit + bytes + (dataOf st.sent).length = st.granted + bytes
      omega }

theorem Law.accept {payload : List UInt8} (hstate : st.state ≠ .closed)
    (hwithin : payload.length ≤ st.receiveCredit) : Law w ((st.arrive payload).accept payload) := by
  have hboth : st.written ++ [payload] = st.arrived ++ [payload] := by rw [h.accepted hstate]
  refine { h with
    arrived := by rw [Stream.accept]; exact hboth ▸ prefix_rfl
    accepted := fun _ => hboth
    credit := ?_
    credited := ?_
    inFlight := fun _ => ?_ }
  · have hcredit := h.credit
    change st.receiveCredit - payload.length + ((st.written ++ [payload]).map length).sum =
      initialWindowBytes + st.credited.sum
    simp only [map_append, map_cons, map_nil, sum_append, sum_cons, sum_nil]
    omega
  · change st.credited <+: (st.written ++ [payload]).map length
    rw [map_append]
    exact h.credited.trans (prefix_append _ _)
  · change (st.written ++ [payload]).map length = st.credited ++ (st.inFlight ++ [payload.length])
    rw [map_append, h.inFlight hstate, append_assoc]
    rfl

theorem Law.refuse (payload : List UInt8) (hstate : st.state = .closed) :
    Law w (st.arrive payload) :=
  { h with
    arrived := h.arrived.trans (prefix_append _ _)
    accepted := absurd hstate }

end

/-! ## Frames for the peer -/

variable {f : Frame} {rest : List Nat}

theorem marks_snoc (h : Law w st) (hends : f.ends → dataOf st.sent = st.read) :
    ∀ (k : Nat) (g : Frame), (st.sent ++ [f])[k]? = some g → g.ends →
      dataOf ((st.sent ++ [f]).take k) = st.read := by
  intro k g hget hg
  by_cases hk : k < st.sent.length
  · rw [List.getElem?_append_left hk] at hget
    rw [take_append_of_le_length (Nat.le_of_lt hk)]
    exact h.marks k g hget hg
  have hbound := (List.getElem?_eq_some_iff.mp hget).choose
  have hlast : k = st.sent.length := by
    rw [length_append, length_singleton] at hbound
    omega
  rw [hlast, List.getElem?_concat_length, some.injEq] at hget
  rw [hlast, take_left' rfl]
  exact hends (hget ▸ hg)

theorem Law.log (h : Law w st) (hdata : f.type ≠ .data) (hupdate : f.type ≠ .windowUpdate)
    (hends : f.ends → dataOf st.sent = st.read ∧ (st.finished = true ∨ st.gone = true)) :
    Law w (st.log f) := by
  have hsame : dataOf (st.sent ++ [f]) = dataOf st.sent := by
    rw [dataOf_snoc, if_neg hdata, append_nil]
  have hupdates : updatesOf (st.sent ++ [f]) = updatesOf st.sent :=
    updatesOf_snoc_none (decodeWindowUpdate_none hupdate) _
  refine { h with
    updates := by rw [Stream.log, hupdates]; exact h.updates
    updated := fun hw => by rw [Stream.log, hupdates]; exact h.updated hw
    window := by rw [Stream.log, hsame]; exact h.window
    data := by rw [Stream.log, hsame]; exact h.data
    queued := fun hstate => by rw [Stream.log, hsame]; exact h.queued hstate
    marks := marks_snoc h fun hf => (hends hf).1
    final := fun g hg hgends => ?_ }
  cases mem_append.mp hg with
  | inl hold => exact h.final g hold hgends
  | inr hnew =>
    rw [mem_singleton.mp hnew] at hgends
    exact (hends hgends).2

variable {bytes : Nat}

theorem Law.credit_eq (h : Law w st) (hstate : st.state ≠ .closed)
    (hflight : st.inFlight = bytes :: rest) :
    min initialWindowBytes (st.receiveCredit + bytes) = st.receiveCredit + bytes ∧
      st.receiveCredit + bytes + rest.sum = initialWindowBytes := by
  have hcredit := h.credit
  rw [h.inFlight hstate, hflight, sum_append, sum_cons] at hcredit
  omega

theorem Law.credit_unsent (h : Law w st) (hstate : st.state ≠ .closed)
    (hflight : st.inFlight = bytes :: rest) : Law false (st.credit bytes rest) := by
  have heq := h.credit_eq hstate hflight
  have hsizes := h.inFlight hstate
  rw [hflight] at hsizes
  refine { h with
    credit := ?_
    credited := ?_
    inFlight := fun _ => ?_
    updates := h.updates.trans (prefix_append _ _)
    updated := fun hw => Bool.noConfusion hw }
  · have hcredit := h.credit
    change min initialWindowBytes (st.receiveCredit + bytes) + (st.written.map length).sum =
      initialWindowBytes + (st.credited ++ [bytes]).sum
    rw [sum_append, sum_singleton]
    omega
  · change st.credited ++ [bytes] <+: st.written.map length
    rw [hsizes]
    exact ⟨rest, by simp⟩
  · change st.written.map length = st.credited ++ [bytes] ++ rest
    rw [hsizes]
    simp

theorem Law.credit_log (h : Law true st) (hstate : st.state ≠ .closed)
    (hflight : st.inFlight = bytes :: rest) (hupdate : windowUpdate st.id bytes = some f)
    (w : Bool) : Law w ((st.credit bytes rest).log f) := by
  have hcredited := h.credit_unsent hstate hflight
  have hupdates : updatesOf (st.sent ++ [f]) = st.credited ++ [bytes] := by
    rw [updatesOf_snoc_some (decodeWindowUpdate_windowUpdate hupdate), h.updated rfl]
  have htype : f.type = .windowUpdate := by
    simp only [windowUpdate, ite_none_left_eq_some, some.injEq] at hupdate
    rw [← hupdate.2]
  have hends : ¬f.ends := by simp [Frame.ends, htype]
  have hsame : dataOf (st.sent ++ [f]) = dataOf st.sent := by
    rw [dataOf_snoc, if_neg (by simp [htype]), append_nil]
  refine { hcredited with
    updates := hupdates ▸ prefix_rfl
    updated := fun _ => hupdates
    window := by exact hsame ▸ h.window
    data := by exact hsame ▸ h.data
    queued := fun _ => by exact hsame ▸ h.queued hstate
    marks := marks_snoc hcredited fun hf => absurd hf hends
    final := fun g hg hgends => ?_ }
  cases mem_append.mp hg with
  | inl hold => exact h.final g hold hgends
  | inr hnew => exact absurd (mem_singleton.mp hnew ▸ hgends) hends

theorem Law.enqueue (h : Law w st) (now : Nat) (chunk : List UInt8) (hstate : st.state ≠ .closed)
    (hopen : ¬(st.finished = true ∨ st.gone = true)) : Law w (st.enqueue now chunk) := by
  refine { h with
    data := h.data.trans (prefix_append _ _)
    queued := fun _ => ?_
    queuedBytes := ?_
    marks := fun k f hget hf => ?_ }
  · change st.read ++ chunk = dataOf st.sent ++ (st.queued ++ [chunk]).flatten
    rw [h.queued hstate]
    simp
  · change st.queuedBytes + chunk.length = (st.queued ++ [chunk]).flatten.length
    rw [h.queuedBytes]
    simp
  · exact absurd (h.final f (mem_of_getElem? hget) hf) hopen

theorem chunkBytes_le (st : Stream) (current : List UInt8) :
    st.chunkBytes current ≤ current.length ∧ st.chunkBytes current ≤ st.sendCredit ∧
      st.chunkBytes current ≤ maxDataBytes := by
  unfold chunkBytes
  omega

variable (h : Law w st)

include h

theorem Law.advance (now : Nat) {current : List UInt8} {rest : List (List UInt8)}
    (hstate : st.state ≠ .closed) (hqueued : st.queued = current :: rest) :
    Law w ((st.log ⟨.data, st.id, current.take (st.chunkBytes current)⟩).advance now current
      rest) := by
  have hle := st.chunkBytes_le current
  have hdata : dataOf ((st.log ⟨.data, st.id, current.take (st.chunkBytes current)⟩).advance now
      current rest).sent = dataOf st.sent ++ current.take (st.chunkBytes current) :=
    (dataOf_snoc _ _).trans (by rw [if_pos rfl])
  have hupdates : updatesOf ((st.log ⟨.data, st.id, current.take (st.chunkBytes current)⟩).advance
      now current rest).sent = updatesOf st.sent :=
    updatesOf_snoc_none (decodeWindowUpdate_none (by simp)) _
  have hread := h.queued hstate
  rw [hqueued, flatten_cons] at hread
  have hsplit := take_append_drop (st.chunkBytes current) current
  -- What is left in the queue is the rest of the buffer with the buffers behind it.
  have hleft : (if st.chunkBytes current = current.length then rest
      else current.drop (st.chunkBytes current) :: rest).flatten =
        current.drop (st.chunkBytes current) ++ rest.flatten := by
    split
    next hall => rw [hall, drop_length, nil_append]
    · rw [flatten_cons]
  refine { h with
    updates := hupdates ▸ h.updates
    updated := hupdates ▸ h.updated
    window := ?_
    data := ?_
    queued := fun _ => ?_
    queuedBytes := ?_
    marks := ?_
    final := fun g hg hgends => ?_ }
  · have hwindow := h.window
    rw [hdata]
    change st.sendCredit - st.chunkBytes current + _ = st.granted
    rw [ length_append, length_take]
    omega
  · rw [hdata]
    change _ <+: st.read
    rw [hread]
    exact ⟨current.drop (st.chunkBytes current) ++ rest.flatten, by
      rw [append_assoc, ← append_assoc (current.take _), hsplit]⟩
  · rw [hdata]
    change st.read = _ ++ (if st.chunkBytes current = current.length then rest
      else current.drop (st.chunkBytes current) :: rest).flatten
    rw [hread, hleft, append_assoc, ← append_assoc (current.take _), hsplit]
  · have hbytes := h.queuedBytes
    rw [hqueued, flatten_cons, length_append] at hbytes
    change st.queuedBytes - st.chunkBytes current = (if st.chunkBytes current = current.length then rest
      else current.drop (st.chunkBytes current) :: rest).flatten.length
    rw [hleft, length_append, length_drop]
    omega
  · exact marks_snoc h fun hf => by simp [Frame.ends] at hf
  · cases mem_append.mp hg with
    | inl hold => exact h.final g hold hgends
    | inr hnew =>
      rw [mem_singleton.mp hnew] at hgends
      simp [Frame.ends] at hgends

/-! ## Valid frames -/

theorem Law.assertFrame_control (t : FrameType) : assertFrame ⟨t, st.id, []⟩ = true :=
  assertFrame_eq_true.mpr ⟨h.id.1, h.id.2, by simp, .inl rfl⟩

theorem Law.assertFrame_data (current : List UInt8) :
    assertFrame ⟨.data, st.id, current.take (st.chunkBytes current)⟩ = true := by
  have hle := st.chunkBytes_le current
  refine assertFrame_eq_true.mpr ⟨h.id.1, h.id.2, ?_, .inr (by simp)⟩
  simp only [length_take, if_true]
  omega

theorem Law.assertFrame_windowUpdate
    (hf : windowUpdate st.id bytes = some f) : assertFrame f = true := by
  simp only [windowUpdate, ite_none_left_eq_some, some.injEq] at hf
  rw [← hf.2]
  exact assertFrame_eq_true.mpr ⟨h.id.1, h.id.2, by simp [writeUInt32BE, maxControlBytes],
    .inr (by simp)⟩

end Stream

end TaskHandoff.BrowserTunnel
