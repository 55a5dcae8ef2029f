import TaskHandoff.NodeRelay.NonceUnique

/-! # The outbound queue of the channel

The counter of queued bytes, the flush timer and the writers that wait for capacity agree with the
queue, and a message is queued as a whole or not at all. -/

namespace TaskHandoff.NodeRelay

open Machine List PendingNodeRelayWrite
open NodeRelaySession (plainCodec)

variable {μ : Type}

namespace EncryptedNodeRelayChannel

variable {σ τ : EncryptedNodeRelayChannel μ} {codec : Codec μ} {write : PendingNodeRelayWrite}
  {payload : Bytes}

def queued (σ : EncryptedNodeRelayChannel μ) : List PendingNodeRelayWrite :=
  σ.outboundControl ++ σ.outboundData

theorem queued_of_next (h : σ.next = some (write, τ)) :
    ∃ outboundControl outboundData, τ = { σ with outboundControl, outboundData } ∧
      σ.queued = write :: (outboundControl ++ outboundData) := by
  unfold next at h
  split at h <;> cases h
  next control hcontrol => exact ⟨_, _, rfl, by rw [queued, hcontrol]; rfl⟩
  next data hcontrol hdata => exact ⟨_, _, rfl, by rw [queued, hcontrol, hdata]; rfl⟩

/-! ## The counter -/

/-- Holds also in the middle of a flush. -/
structure Counted (σ : EncryptedNodeRelayChannel μ) : Prop where
  counted : σ.outboundBytes = (σ.queued.map bytes).sum
  sized : ∀ write ∈ σ.queued, write.bytes = write.payload.length + 40
  bounded : σ.outboundBytes ≤ NODE_RELAY_SOCKET_MAX_QUEUED_BYTES
  waiting : 0 < σ.outboundCapacityWaiters →
    σ.closed = false ∧ NODE_RELAY_SOCKET_MAX_BUFFERED_BYTES < σ.outboundBytes

theorem Counted.finish (h : σ.Counted) : σ.finish.Counted := by
  rw [EncryptedNodeRelayChannel.finish]
  split
  · exact h
  · exact ⟨rfl, by simp [queued], Nat.zero_le _, fun hwaiting => absurd hwaiting (by simp)⟩

theorem Counted.sendPlaintext (h : σ.Counted) (write : PendingNodeRelayWrite) (thrown : Bool) :
    (σ.sendPlaintext codec write thrown).2.Counted := by
  obtain ⟨_, _, _, _, heq⟩ := sendPlaintext_eq codec σ write thrown
  rw [heq]
  exact { h with }

theorem Counted.taken (h : σ.Counted) (hnext : σ.next = some (write, τ)) :
    { τ with outboundBytes := τ.outboundBytes - write.bytes }.releaseOutboundCapacity.Counted := by
  obtain ⟨control, data, rfl, hqueued⟩ := queued_of_next hnext
  have hsized : ∀ write ∈ control ++ data, write.bytes = write.payload.length + 40 :=
    fun other hother => h.sized other (hqueued ▸ mem_cons_of_mem write hother)
  have hcounted := h.counted
  rw [hqueued, map_cons, sum_cons] at hcounted
  have hrest : σ.outboundBytes - write.bytes = ((control ++ data).map bytes).sum := by omega
  have hbounded : σ.outboundBytes - write.bytes ≤ NODE_RELAY_SOCKET_MAX_QUEUED_BYTES :=
    Nat.le_trans (Nat.sub_le _ _) h.bounded
  rw [releaseOutboundCapacity]
  split
  next hfull => exact ⟨hrest, hsized, hbounded, fun hwaiting => ⟨(h.waiting hwaiting).1, hfull⟩⟩
  next => exact ⟨hrest, hsized, hbounded, fun hwaiting => absurd hwaiting (by simp)⟩

theorem counted_flushKeeps : FlushKeeps codec (Counted (μ := μ)) where
  finish _ h := h.finish
  sendNext _ _ write thrown hnext h := (h.taken hnext).sendPlaintext write thrown
  timer _ _ h := { h with }

theorem Counted.queue (h : σ.Counted) (deflated control : Bool)
    (hfits : σ.outboundBytes + (payload.length + 40) ≤ NODE_RELAY_SOCKET_MAX_QUEUED_BYTES) :
    (σ.queue ⟨payload, deflated, payload.length + 40⟩ control).Counted := by
  have hcounted := h.counted
  have hsized := h.sized
  simp only [queued, map_append, sum_append, mem_append] at hcounted hsized
  have hwaiting : 0 < σ.outboundCapacityWaiters → σ.closed = false ∧
      NODE_RELAY_SOCKET_MAX_BUFFERED_BYTES < σ.outboundBytes + (payload.length + 40) :=
    fun hwaiting => ⟨(h.waiting hwaiting).1, Nat.lt_add_right _ (h.waiting hwaiting).2⟩
  cases control <;> refine ⟨?_, ?_, hfits, hwaiting⟩ <;>
    simp only [EncryptedNodeRelayChannel.queue, queued, Bool.false_eq_true, if_true, if_false,
      map_append, sum_append, map_cons, sum_cons, mem_append,
      mem_cons] <;> grind

/-! ## The flush timer -/

def Scheduled (σ : EncryptedNodeRelayChannel μ) : Prop :=
  σ.closed = false → σ.queued ≠ [] → σ.flushTimer = true

theorem queued_eq_nil_of_next (h : σ.next = none) : σ.queued = [] := by
  unfold next at h
  split at h <;> simp_all [queued]

theorem scheduled_finish (σ : EncryptedNodeRelayChannel μ) : σ.finish.Scheduled := by
  intro hopen
  rw [closed_finish] at hopen
  cases hopen

theorem scheduled_full (σ : EncryptedNodeRelayChannel μ) :
    (if σ.next.isSome then { σ with flushTimer := true } else σ).Scheduled := by
  split
  · exact fun _ _ => rfl
  next hnone =>
    have hempty := queued_eq_nil_of_next (Option.not_isSome_iff_eq_none.mp hnone)
    exact fun _ hqueued => absurd hempty hqueued

theorem scheduled_flushLoop (turns : List Turn) : (σ.flushLoop codec turns).Scheduled := by
  induction turns generalizing σ with
  | nil => exact scheduled_full σ
  | cons turn turns ih =>
    cases turn with
    | full => exact scheduled_full σ
    | sent | thrown =>
      simp only [flushLoop]
      split
      next hnone => exact fun _ hqueued => absurd (queued_eq_nil_of_next hnone) hqueued
      · split
        · exact ih
        · exact scheduled_finish _

theorem scheduled_flushOutbound (turns : List Turn) : (σ.flushOutbound codec turns).Scheduled := by
  rw [flushOutbound]
  split
  next hidle =>
    intro hopen hqueued
    obtain hclosed | hnone := hidle
    · rw [hopen] at hclosed
      cases hclosed
    · exact absurd (queued_eq_nil_of_next (Option.isNone_iff_eq_none.mp hnone)) hqueued
  · exact scheduled_flushLoop turns

/-! ## Every state of the channel -/

/-- What holds of the outbound queue between two steps. -/
structure OutboundLawful (σ : EncryptedNodeRelayChannel μ) : Prop extends Counted σ where
  scheduled : σ.Scheduled

theorem lawful_stepKeeps : StepKeeps codec (OutboundLawful (μ := μ)) := by
  apply StepKeeps.of_receives
  case finish => exact fun σ h => ⟨h.toCounted.finish, scheduled_finish σ⟩
  case enqueue =>
    intro σ payload deflated control turns h
    rw [enqueuePlaintext_eq]
    split
    · exact h
    split
    · exact h
    next hfits =>
      exact ⟨counted_flushKeeps.flushOutbound turns
        (h.toCounted.queue deflated control (by omega)), scheduled_flushOutbound turns⟩
  case flush =>
    exact fun σ turns h => ⟨counted_flushKeeps.flushOutbound turns
      { h with }, scheduled_flushOutbound turns⟩
  case wait =>
    intro σ h
    rw [waitForOutboundCapacity]
    split
    · exact h
    next hbusy =>
      simp only [not_or, Bool.not_eq_true, Nat.not_le] at hbusy
      exact ⟨⟨h.counted, h.sized, h.bounded, fun _ => hbusy⟩, h.scheduled⟩
  case receives =>
    rintro σ τ ⟨_, _, _, _, _, rfl⟩ h
    exact ⟨{ h with }, h.scheduled⟩

/-- Whatever is sent, awaited, received, closed or fails, in any order. -/
theorem outbound_lawful {directions limits : Nat × Nat} {as : List (Action μ)}
    (hrun : run (step codec) (opened directions.1 directions.2 limits.1 limits.2) as = some σ) :
    σ.OutboundLawful :=
  run_invariant (fun _ _ _ hstep h => lawful_stepKeeps.step hstep h) hrun
    ⟨⟨rfl, by simp [opened, queued], Nat.zero_le _, fun h => absurd h (by simp [opened])⟩,
      fun _ h => absurd rfl h⟩

/-- Messages are the lengths of their texts. -/
def lengthCodec : Codec Nat where
  secretbox := fun _ payload => payload
  secretboxOpen := fun _ payload => some payload
  deflate := id
  inflate := some
  render := fun length => List.replicate length 0x7b
  parse := fun payload => some payload.length
  isChannelClose := fun _ => false

/-- While the socket's buffer is full, the timer is armed. -/
theorem flushOutbound_nil (hopen : σ.closed = false) (hqueued : σ.queued ≠ []) :
    σ.flushOutbound codec [] = { σ with flushTimer := true } := by
  have hnext := mt queued_eq_nil_of_next hqueued
  rw [flushOutbound, if_neg (by simp [hopen, hnext]), flushLoop]
  apply if_pos
  rw [Option.isSome_iff_ne_none]
  intro hnone
  have hidle := queued_eq_nil_of_next hnone
  exact hqueued hidle

/-- A payload waits for the timer. -/
def held (τ : EncryptedNodeRelayChannel Nat) (payload : Bytes) : EncryptedNodeRelayChannel Nat :=
  { τ.queue ⟨payload, false, payload.length + 40⟩ true with flushTimer := true }

theorem outboundBytes_held (τ : EncryptedNodeRelayChannel Nat) (payload : Bytes) :
    (τ.held payload).outboundBytes = τ.outboundBytes + (payload.length + 40) := rfl

theorem step_held (τ : EncryptedNodeRelayChannel Nat) (length : Nat) (hopen : τ.closed = false)
    (hfits : τ.outboundBytes + (length + 40) ≤ NODE_RELAY_SOCKET_MAX_QUEUED_BYTES) :
    step lengthCodec τ (.send length []) = some (τ.held (List.replicate length 0x7b)) := by
  have hpacked : packRelayPayload lengthCodec (lengthCodec.render length) =
      (replicate length 0x7b, false) := by
    simp [packRelayPayload, lengthCodec]
  generalize hpayload : replicate length (0x7b : UInt8) = payload at hpacked
  have hlength : payload.length = length := by rw [← hpayload, length_replicate]
  have hqueued : (τ.queue ⟨payload, false, payload.length + 40⟩ true).queued ≠ [] := by
    simp [queued, queue]
  rw [step, send, hpacked, enqueuePlaintext_eq, hopen, if_neg Bool.false_ne_true,
    if_neg (Nat.not_lt.mpr (hlength ▸ hfits))]
  exact congrArg some (flushOutbound_nil hopen hqueued)

/-- The first of two messages is sent while a writer waits. -/
theorem steps_held {long : Bytes} (hlong : NODE_RELAY_SOCKET_MAX_BUFFERED_BYTES < long.length) :
    let τ := ((opened 1 2 8 64).held (replicate 9 0x7b)).held long
    ∃ σ, run (step lengthCodec) τ [.waitForOutboundCapacity, .flush [.sent]] = some σ ∧
      σ.queued.map bytes = [long.length + 40] ∧ σ.outboundCapacityWaiters = 1 := by
  intro τ
  have hwait : step lengthCodec τ .waitForOutboundCapacity =
      some { τ with outboundCapacityWaiters := 1 } := by
    have hbusy : ¬ 49 + (long.length + 40) ≤ NODE_RELAY_SOCKET_MAX_BUFFERED_BYTES := by omega
    simp [τ, step, waitForOutboundCapacity, held, queue, opened, hbusy]
  obtain ⟨σ, hflush, hσ⟩ : ∃ σ, step lengthCodec { τ with outboundCapacityWaiters := 1 }
      (.flush [.sent]) = some σ ∧ σ.queued.map bytes = [long.length + 40] ∧
        σ.outboundCapacityWaiters = 1 := by
    have hfull : NODE_RELAY_SOCKET_MAX_BUFFERED_BYTES < long.length + 40 := by omega
    simp [τ, step, flushOutbound, flushLoop, next, held, queue, opened, queued, sendPlaintext,
      encodeRelayFrame, releaseOutboundCapacity, lengthCodec, RELAY_FRAME_MAX_PAYLOAD_BYTES, hfull]
  exact ⟨σ, (run_cons_of_step _ hwait).trans (run_cons_of_step [] hflush), hσ⟩

theorem outbound_lawful_of_sent : ∃ σ,
    run (step lengthCodec) (opened 1 2 8 64)
        [.send 9 [], .send 3145728 [], .waitForOutboundCapacity, .flush [.sent]] = some σ ∧
      σ.queued.map bytes = [3145768] ∧ σ.outboundCapacityWaiters = 1 ∧ σ.OutboundLawful := by
  have hsecond := step_held ((opened 1 2 8 64).held (replicate 9 0x7b)) 3145728 rfl (by decide)
  have hlength : (replicate 3145728 (0x7b : UInt8)).length = 3145728 := length_replicate
  generalize replicate 3145728 (0x7b : UInt8) = long at hsecond hlength
  have hlong : NODE_RELAY_SOCKET_MAX_BUFFERED_BYTES < long.length := by
    rw [hlength]
    decide
  have ⟨σ, hrest, hqueued, hwaiting⟩ := steps_held hlong
  rw [hlength] at hqueued
  have hrun := (run_cons_of_step _ (step_held (opened 1 2 8 64) 9 rfl (by decide))).trans
    ((run_cons_of_step _ hsecond).trans hrest)
  exact ⟨σ, hrun, hqueued, hwaiting, @outbound_lawful _ _ lengthCodec (1, 2) (8, 64) _ hrun⟩

/-! ## A message as a whole -/

theorem sum_pieces (data : Bytes) (size overhead count : Nat) :
    ((List.range count).map fun i => ((data.drop (i * size)).take size).length + overhead).sum =
      min (count * size) data.length + count * overhead := by
  induction count with
  | zero => simp
  | succ count ih =>
    rw [range_succ, map_append, sum_append, ih, Nat.succ_mul, Nat.succ_mul]
    simp only [map_cons, map_nil, sum_singleton, length_take, length_drop]
    omega

/-- What `sendData` reserves for frames. -/
def reserved (frames : List NodeRelayDataFrame) : Nat :=
  (frames.map fun frame => frame.data.length + (NODE_RELAY_DATA_HEADER_BYTES + 40)).sum

theorem reserved_fragments (streamId : Nat) (data : Bytes) (binary : Bool) :
    reserved (fragments streamId data binary) =
      data.length + fragmentCount data * (NODE_RELAY_DATA_HEADER_BYTES + 40) := by
  have hcover : data.length ≤ fragmentCount data * NODE_RELAY_DATA_MAX_BYTES := by
    simp only [fragmentCount, NODE_RELAY_DATA_MAX_BYTES]
    omega
  rw [reserved, fragments, map_map]
  exact (sum_pieces data _ _ _).trans (by rw [Nat.min_eq_right hcover])

theorem encode_ne_backpressure (frame : NodeRelayDataFrame) :
    encodeNodeRelayDataFrame frame ≠ .error .backpressureLimit := by
  unfold encodeNodeRelayDataFrame
  split
  · simp
  · split <;> simp

theorem length_encodeNodeRelayDataFrame {frame : NodeRelayDataFrame} {plaintext : Bytes}
    (h : encodeNodeRelayDataFrame frame = .ok plaintext) :
    plaintext.length = frame.data.length + NODE_RELAY_DATA_HEADER_BYTES := by
  unfold encodeNodeRelayDataFrame at h
  split at h
  · cases h
  · split at h <;> cases h
    simp [BrowserTunnel.writeUInt32BE, NODE_RELAY_DATA_HEADER_BYTES]

theorem length_packRelayPayload_le (payload : Bytes) :
    (packRelayPayload codec payload).1.length ≤ payload.length := by
  rw [packRelayPayload]
  split
  · exact Nat.le_refl _
  split
  next hshrinks => exact Nat.le_of_lt hshrinks
  · exact Nat.le_refl _

theorem flush_le {n : Nat} :
    FlushKeeps codec fun σ : EncryptedNodeRelayChannel μ => σ.outboundBytes ≤ n where
  finish σ h := by
    rw [finish]
    split
    · exact h
    · exact Nat.zero_le n
  sendNext σ τ write thrown hnext h := by
    obtain ⟨control, data, rfl, _⟩ := queued_of_next hnext
    obtain ⟨_, _, _, _, heq⟩ := sendPlaintext_eq codec { σ with
      outboundControl := control
      outboundData := data
      outboundBytes := σ.outboundBytes - write.bytes }.releaseOutboundCapacity write thrown
    rw [heq, releaseOutboundCapacity]
    split <;> exact Nat.le_trans (Nat.sub_le _ _) h
  timer _ _ h := h

theorem enqueuePlaintext_refused {deflated control : Bool} {turns : List Turn}
    (h : (σ.enqueuePlaintext codec payload deflated control turns).1 = .error .backpressureLimit) :
    NODE_RELAY_SOCKET_MAX_QUEUED_BYTES < σ.outboundBytes + (payload.length + 40) ∧
      (σ.enqueuePlaintext codec payload deflated control turns).2 = σ := by
  rw [enqueuePlaintext_eq] at h ⊢
  split at h
  · cases h
  · split at h <;> simp_all

theorem enqueuePlaintext_grows (codec : Codec μ) (σ : EncryptedNodeRelayChannel μ) (payload : Bytes)
    (deflated control : Bool) (turns : List Turn) :
    (σ.enqueuePlaintext codec payload deflated control turns).2.outboundBytes ≤
      σ.outboundBytes + (payload.length + 40) := by
  rw [enqueuePlaintext_eq]
  split
  · exact Nat.le_add_right _ _
  split
  · exact Nat.le_add_right _ _
  · apply flush_le.flushOutbound turns
    cases control <;> exact Nat.le_refl _

theorem sendFragments_fits (turns : Nat → List Turn) (frames : List NodeRelayDataFrame)
    (hfits : σ.outboundBytes + reserved frames ≤ NODE_RELAY_SOCKET_MAX_QUEUED_BYTES) :
    (σ.sendFragments codec turns frames).1 ≠ .error .backpressureLimit := by
  induction frames generalizing σ with
  | nil => simp [sendFragments]
  | cons frame frames ih =>
    rw [reserved, map_cons, sum_cons, ← reserved] at hfits
    rw [sendFragments]
    cases hencoded : encodeNodeRelayDataFrame frame with
    | error error =>
      have herror := encode_ne_backpressure frame
      rw [hencoded] at herror
      exact fun h => herror (congrArg Except.error (Except.error.inj h))
    | ok plaintext =>
      have hplain := length_encodeNodeRelayDataFrame hencoded
      have hpacked : (if frame.binary then (plaintext, false)
          else packRelayPayload codec plaintext).1.length ≤ plaintext.length := by
        split
        · exact Nat.le_refl _
        · exact length_packRelayPayload_le plaintext
      dsimp only
      generalize (if frame.binary then (plaintext, false)
        else packRelayPayload codec plaintext) = packed at hpacked
      split
      next error τ hqueued =>
        intro herror
        rw [← hqueued] at herror
        have hover := (enqueuePlaintext_refused herror).1
        omega
      next τ hqueued =>
        have hgrows := enqueuePlaintext_grows codec σ packed.1 packed.2 false (turns frames.length)
        simp only [hqueued] at hgrows
        exact ih (by omega)

/-- A refused message leaves the channel as it was, and a message with fragments that passes the
reservation is not refused in the middle. -/
theorem sendData_all_or_nothing (streamId : Nat) (data : Bytes) (binary : Bool)
    (turns : Nat → List Turn) :
    ((σ.sendData codec streamId data binary turns).1 = .error .backpressureLimit →
      (σ.sendData codec streamId data binary turns).2 = σ) ∧
    (data ≠ [] → σ.outboundBytes + (data.length +
        fragmentCount data * (NODE_RELAY_DATA_HEADER_BYTES + 40)) ≤
          NODE_RELAY_SOCKET_MAX_QUEUED_BYTES →
      (σ.sendData codec streamId data binary turns).1 ≠ .error .backpressureLimit) := by
  have hfragments : σ.outboundBytes + reserved (fragments streamId data binary) ≤ _ →
      (σ.sendFragments codec turns _).1 ≠ _ := sendFragments_fits turns (fragments streamId data binary)
  rw [reserved_fragments] at hfragments
  rw [sendData]
  by_cases hlong : NODE_RELAY_DATA_MAX_MESSAGE_BYTES < data.length
  · simp [hlong]
  simp only [if_neg hlong]
  by_cases hempty : data = []
  · simp only [if_pos hempty]
    refine ⟨fun herror => ?_, absurd hempty⟩
    split at herror
    · rfl
    next plaintext hplaintext => exact (enqueuePlaintext_refused herror).2
  simp only [if_neg hempty]
  split
  next hfull => exact ⟨fun _ => rfl, fun _ hfits => absurd hfits (Nat.not_le.mpr hfull)⟩
  next hfits =>
    have hpassed := hfragments (Nat.le_of_not_lt hfits)
    exact ⟨fun herror => absurd herror hpassed, fun _ _ => hpassed⟩

/-- A byte passes the reservation of a channel without writes, and is refused behind sixteen
mebibytes. -/
theorem sendData_all_or_nothing_example : ∃ σ,
    run (step lengthCodec) (opened 1 2 8 64) [.send 16777156 []] = some σ ∧
      (σ.sendData lengthCodec 1 [7] true fun _ => []) = (.error .backpressureLimit, σ) ∧
      ((opened 1 2 8 64).sendData lengthCodec 1 [7] true fun _ => []).1 ≠
        .error .backpressureLimit := by
  have hstep := step_held (opened 1 2 8 64) 16777156 rfl (by decide)
  have hlength : (replicate 16777156 (0x7b : UInt8)).length = 16777156 := length_replicate
  generalize replicate 16777156 (0x7b : UInt8) = long at hstep hlength
  have hrefused : (((opened 1 2 8 64).held long).sendData lengthCodec 1 [7] true fun _ => []).1 =
      .error .backpressureLimit := by
    rw [sendData, if_neg (by decide), if_neg (by decide), outboundBytes_held, hlength,
      if_pos (by decide)]
  exact ⟨_, run_cons_of_step [] hstep, Prod.ext hrefused
    ((sendData_all_or_nothing 1 [7] true fun _ => []).1 hrefused),
    (sendData_all_or_nothing 1 [7] true fun _ => []).2 (by decide) (by decide)⟩

end EncryptedNodeRelayChannel

end TaskHandoff.NodeRelay
