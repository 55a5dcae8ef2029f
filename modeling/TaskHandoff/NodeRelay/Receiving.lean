import TaskHandoff.NodeRelay.NonceUnique

/-! # What the channel receives

The data frames of a stream, and the bounds of the messages that are assembled from them. -/

namespace TaskHandoff.NodeRelay

open List Option NodeRelayDataAssembly
open BrowserTunnel (readUInt32BE writeUInt32BE)
open Machine
open NodeRelaySession (plainCodec)

variable {μ : Type}

/-! ## Data frames -/

theorem flags_decoded {flags : UInt8} (h : flags.toNat < 4) :
    UInt8.ofNat ((decide (flags.toNat % 2 = 1)).toNat + 2 * (decide (flags.toNat / 2 = 1)).toNat) =
      flags := by
  have hcases : flags.toNat = 0 ∨ flags.toNat = 1 ∨ flags.toNat = 2 ∨ flags.toNat = 3 := by omega
  rw [← UInt8.toNat_inj]
  rcases hcases with hflags | hflags | hflags | hflags <;> simp [hflags]

/-- Every frame within the limits comes back. A frame that is accepted is encoded to the same bytes
if and only if its last header byte, which nothing reads or checks, is zero. -/
theorem dataFrame_canonical_iff (frame : NodeRelayDataFrame) (raw : Bytes) :
    (frame.streamId ≤ 0xffffffff → frame.data.length ≤ NODE_RELAY_DATA_MAX_BYTES →
      ∃ encoded, encodeNodeRelayDataFrame frame = .ok encoded ∧
        decodeNodeRelayDataFrame encoded = .ok frame) ∧
    (decodeNodeRelayDataFrame raw = .ok frame →
      (encodeNodeRelayDataFrame frame = .ok raw ↔ raw[7]? = some 0)) := by
  constructor
  · intro hid hdata
    obtain ⟨streamId, data, binary, more⟩ := frame
    refine ⟨_, by rw [encodeNodeRelayDataFrame, if_neg (by omega), if_neg (by omega)], ?_⟩
    have hread := BrowserTunnel.readUInt32BE_write (n := streamId) (by simp only at hid; omega)
    simp only [writeUInt32BE, cons_append, nil_append, decodeNodeRelayDataFrame, hread,
      if_neg (Nat.not_lt.mpr hdata)]
    cases binary <;> cases more <;> rfl
  · intro h
    unfold decodeNodeRelayDataFrame at h
    split at h
    case h_1 flags a b c d reserved data =>
      split at h
      · cases h
      rename_i hflags
      split at h <;> cases h
      next hdata =>
        have hid : ¬0xffffffff < readUInt32BE a b c d := by
          have hlt := BrowserTunnel.readUInt32BE_lt a b c d
          omega
        rw [encodeNodeRelayDataFrame, if_neg hid, if_neg hdata, flags_decoded (by omega),
          BrowserTunnel.writeUInt32BE_read]
        simp [eq_comm]
    case h_2 => cases h

/-- The documented layout has no byte for it. -/
theorem dataFrame_not_canonical : ∃ frame,
    decodeNodeRelayDataFrame [0xb2, 2, 0, 0, 0, 0, 1, 0xff] = .ok frame ∧
      encodeNodeRelayDataFrame frame ≠ .ok [0xb2, 2, 0, 0, 0, 0, 1, 0xff] :=
  ⟨⟨1, [], false, false⟩, by decide, by decide⟩

/-! ## Assemblies -/

/-- The bytes of the fragments that an assembly holds. -/
def NodeRelayDataAssembly.buffered (assembly : NodeRelayDataAssembly) : Nat :=
  (assembly.chunks.map List.length).sum

namespace EncryptedNodeRelayChannel

variable {σ τ : EncryptedNodeRelayChannel μ} {codec : Codec μ} {streamId : Nat}
  {grown : NodeRelayDataAssembly}

/-- The limits of what is assembled. An oversized fragment is counted in its assembly before it is
refused, so the records are exact unless the failure for such a fragment is still to come. -/
structure Assembled (σ : EncryptedNodeRelayChannel μ) : Prop where
  streams : σ.dataAssemblies.size ≤ σ.dataAssemblyMaxStreams
  total : (σ.dataAssemblies.values.map (·.buffered)).sum ≤ σ.dataAssemblyMaxBytes
  message : ∀ assembly ∈ σ.dataAssemblies.values,
    assembly.buffered ≤ assembly.bytes ∧ assembly.buffered ≤ NODE_RELAY_DATA_MAX_MESSAGE_BYTES
  exact : .dataMessageTooLarge ∉ σ.rejections →
    ∀ assembly ∈ σ.dataAssemblies.values, assembly.bytes = assembly.buffered
  ended : σ.closed = true → σ.dataAssemblies = .empty

theorem Assembled.finish (h : σ.Assembled) : σ.finish.Assembled := by
  rw [EncryptedNodeRelayChannel.finish]
  split
  · exact h
  · exact ⟨Nat.zero_le _, Nat.zero_le _, fun _ hmem => absurd hmem (not_mem_nil),
      fun _ _ hmem => absurd hmem (not_mem_nil), fun _ => rfl⟩

theorem length_values (m : OrderedMap Nat NodeRelayDataAssembly) : m.values.length = m.size :=
  length_map _

theorem erase_cases (m : OrderedMap Nat NodeRelayDataAssembly) (streamId : Nat) :
    (m.get? streamId = none ∧ m.erase streamId = m) ∨ ∃ assembly, m.get? streamId = some assembly ∧
        m.values.Perm (assembly :: (m.erase streamId).values) := by
  cases hget : m.get? streamId with
  | none => exact .inl ⟨rfl, OrderedMap.erase_of_get?_eq_none hget⟩
  | some assembly => exact .inr ⟨assembly, rfl, OrderedMap.values_perm_of_get? hget⟩

theorem Assembled.discard (h : σ.Assembled) (streamId : Nat) :
    (σ.discardDataAssembly streamId).Assembled := by
  obtain ⟨_, heq⟩ | ⟨assembly, _, hperm⟩ := erase_cases σ.dataAssemblies streamId
  · rw [discardDataAssembly, heq]
    exact h
  have hmem : ∀ other ∈ (σ.dataAssemblies.erase streamId).values,
      other ∈ σ.dataAssemblies.values :=
    fun other hother => hperm.mem_iff.mpr (mem_cons_of_mem assembly hother)
  have hlength := hperm.length_eq
  have hsum := (hperm.map (·.buffered)).sum_nat
  have hstreams := h.streams
  have htotal := h.total
  rw [length_cons, length_values, length_values] at hlength
  rw [map_cons, sum_cons] at hsum
  refine ⟨?_, ?_, fun a ha => h.message a (hmem a ha),
    fun hquiet a ha => h.exact hquiet a (hmem a ha), fun hclosed => ?_⟩
  · show (σ.dataAssemblies.erase streamId).size ≤ σ.dataAssemblyMaxStreams
    omega
  · show ((σ.dataAssemblies.erase streamId).values.map (·.buffered)).sum ≤ σ.dataAssemblyMaxBytes
    omega
  · rw [discardDataAssembly, h.ended hclosed]
    rfl

theorem Assembled.put (h : σ.Assembled) (hopen : σ.closed = false)
    (hstreams : σ.dataAssemblies.get? streamId = none →
      σ.dataAssemblies.size < σ.dataAssemblyMaxStreams)
    (htotal : grown.buffered + ((σ.dataAssemblies.erase streamId).values.map (·.buffered)).sum ≤
      σ.dataAssemblyMaxBytes)
    (hmessage : grown.buffered ≤ grown.bytes ∧ grown.buffered ≤ NODE_RELAY_DATA_MAX_MESSAGE_BYTES)
    (hexact : .dataMessageTooLarge ∉ σ.rejections → grown.bytes = grown.buffered) :
    { σ with dataAssemblies := σ.dataAssemblies.set streamId grown }.Assembled := by
  have hrest := h.discard streamId
  have hperm := σ.dataAssemblies.values_set_perm streamId grown
  have hlength := hperm.length_eq
  have hsum := (hperm.map (·.buffered)).sum_nat
  rw [length_cons, length_values, length_values] at hlength
  refine ⟨?_, hsum ▸ htotal, fun a ha => ?_, fun hquiet a ha => ?_, fun hclosed => ?_⟩
  · show (σ.dataAssemblies.set streamId grown).size ≤ σ.dataAssemblyMaxStreams
    have hfull := h.streams
    obtain ⟨hnone, heq⟩ | ⟨_, _, hfound⟩ := erase_cases σ.dataAssemblies streamId
    · rw [heq] at hlength
      exact hlength ▸ hstreams hnone
    have hbefore := hfound.length_eq
    rw [length_cons, length_values, length_values] at hbefore
    omega
  · obtain rfl | hother := mem_cons.mp (hperm.mem_iff.mp ha)
    · exact hmessage
    · exact hrest.message a hother
  · obtain rfl | hother := mem_cons.mp (hperm.mem_iff.mp ha)
    · exact hexact hquiet
    · exact hrest.exact hquiet a hother
  · exact absurd (hopen.symm.trans hclosed) Bool.false_ne_true

/-! ## Frames -/

/-- An error of `receive` waits for its `catch`. -/
def settle : Except NodeRelayError Unit × EncryptedNodeRelayChannel μ → EncryptedNodeRelayChannel μ
  | (.ok (), σ) => σ
  | (.error error, σ) => { σ with rejections := σ.rejections ++ [error] }

theorem step_receive (raw : Bytes) (isBinary : Bool) :
    σ.step codec (.receive raw isBinary) = some (settle (σ.receive codec raw isBinary)) := by
  rw [step]
  split <;> simp only [settle, *]

section

variable (h : σ.Assembled)

include h

theorem Assembled.reject (error : NodeRelayError) :
    { σ with rejections := σ.rejections ++ [error] }.Assembled :=
  ⟨h.streams, h.total, h.message,
    fun hquiet => h.exact fun hmem => hquiet (mem_append_left _ hmem), h.ended⟩

theorem Assembled.settle (result : Except NodeRelayError Unit) :
    (EncryptedNodeRelayChannel.settle (result, σ)).Assembled := by
  cases result with
  | ok => exact h
  | error error => exact h.reject error

theorem Assembled.buffered_le :
    (σ.dataAssemblies.values.map (·.buffered)).sum ≤ σ.assembledBytes := by
  have hmessage := h.message
  rw [assembledBytes]
  generalize σ.dataAssemblies.values = assemblies at hmessage ⊢
  induction assemblies with
  | nil => exact Nat.le_refl 0
  | cons a rest ih =>
    have hrest := ih fun b hb => hmessage b (mem_cons_of_mem a hb)
    have ha := (hmessage a mem_cons_self).1
    simp only [map_cons, sum_cons]
    omega

theorem Assembled.base (streamId : Nat) (binary : Bool) :
    ∃ base, base = (σ.dataAssemblies.get? streamId).getD ⟨binary, 0, []⟩ ∧
      base.buffered ≤ base.bytes ∧ base.buffered ≤ NODE_RELAY_DATA_MAX_MESSAGE_BYTES ∧
      (.dataMessageTooLarge ∉ σ.rejections → base.bytes = base.buffered) ∧
      base.buffered + ((σ.dataAssemblies.erase streamId).values.map (·.buffered)).sum =
        (σ.dataAssemblies.values.map (·.buffered)).sum := by
  refine ⟨_, rfl, ?_⟩
  obtain ⟨hnone, heq⟩ | ⟨assembly, hfound, hperm⟩ := erase_cases σ.dataAssemblies streamId
  · rw [hnone, heq]
    exact ⟨Nat.le_refl 0, Nat.zero_le _, fun _ => rfl, Nat.zero_add _⟩
  have hmem := hperm.mem_iff.mpr mem_cons_self
  rw [hfound]
  exact ⟨(h.message _ hmem).1, (h.message _ hmem).2, fun hquiet => h.exact hquiet _ hmem,
    (hperm.map buffered).sum_nat.symm⟩

theorem Assembled.oversized (hopen : σ.closed = false)
    {assembly : NodeRelayDataAssembly} (hfound : σ.dataAssemblies.get? streamId = some assembly)
    (more : Nat) : (EncryptedNodeRelayChannel.settle (.error .dataMessageTooLarge,
      { σ with
        dataAssemblies := σ.dataAssemblies.set streamId
          { assembly with bytes := assembly.bytes + more } })).Assembled := by
  obtain ⟨_, rfl, hbytes, hmessage, _, hsum⟩ := h.base streamId assembly.binary
  rw [hfound] at hbytes hmessage hsum
  refine (h.reject .dataMessageTooLarge).put hopen (fun hnone => ?_) ?_
    ⟨Nat.le_add_right_of_le hbytes, hmessage⟩ fun hquiet => ?_
  · exact absurd (hfound.symm.trans hnone) (by simp)
  · exact hsum ▸ h.total
  · exact absurd (mem_append_right _ (mem_singleton_self _)) hquiet

theorem Assembled.receiveData (hopen : σ.closed = false) (frame : NodeRelayDataFrame) :
    (EncryptedNodeRelayChannel.settle (σ.receiveData frame)).Assembled := by
  rw [EncryptedNodeRelayChannel.receiveData]
  dsimp only
  split
  · exact h.reject _
  split
  · split
    · exact h.reject _
    next hroom =>
      split
      · exact h.reject _
      rename_i htotal
      split
      next hlarge =>
        cases hget : σ.dataAssemblies.get? frame.streamId with
        | none => exact h.reject _
        | some assembly => exact h.oversized hopen hget _
      rename_i hfits
      obtain ⟨base, hbase, hbytes, _, hexact, hsum⟩ := h.base frame.streamId frame.binary
      have hle := h.buffered_le
      rw [← hbase] at hfits ⊢
      refine h.put hopen (fun hnone => ?_) ?_ ⟨?_, ?_⟩ fun hquiet => ?_
      · simp only [hnone, isNone_none, true_and, Nat.not_le] at hroom
        exact hroom
      all_goals simp only [buffered, map_append, sum_append,
        map_cons, map_nil, sum_singleton] at *
      · omega
      · omega
      · omega
      · rw [hexact hquiet]
  · split
    · exact { h with }
    next assembly hfound =>
      split
      · exact h.oversized hopen hfound _
      · have hrest := h.discard frame.streamId
        exact { hrest with }

end

/-! ## Every state of the channel -/

theorem assembled_flushKeeps : FlushKeeps codec (Assembled (μ := μ)) where
  finish _ h := h.finish
  sendNext σ τ write thrown hnext h := by
    obtain ⟨_, _, _, _, heq⟩ := sendPlaintext_eq codec
      { τ with outboundBytes := τ.outboundBytes - write.bytes }.releaseOutboundCapacity write thrown
    rw [heq, releaseOutboundCapacity]
    unfold next at hnext
    split at hnext <;> cases hnext <;> split <;>
      exact { h with }
  timer _ _ h := { h with }

theorem assembled_stepKeeps : StepKeeps codec (Assembled (μ := μ)) where
  finish _ h := h.finish
  enqueue σ payload deflated control turns h := by
    rw [enqueuePlaintext_eq]
    split
    · exact h
    split
    · exact h
    · apply assembled_flushKeeps.flushOutbound
      cases control <;> exact { h with }
  flush σ turns h := assembled_flushKeeps.flushOutbound turns
    { h with }
  wait σ h := by
    rw [waitForOutboundCapacity]
    split
    · exact h
    · exact { h with }
  discard _ streamId h := h.discard streamId
  receive σ τ raw isBinary hstep h := by
    rw [step_receive] at hstep
    cases hstep
    obtain heq | ⟨_, _, _, heq⟩ | ⟨hopen, sequence, counter, frame, heq⟩ :=
      receive_cases codec σ raw isBinary
    · have hout : (σ.receive codec raw isBinary).2.Assembled := heq ▸ h.finish
      exact hout.settle _
    · have hout : (σ.receive codec raw isBinary).2.Assembled := heq ▸ { h with }
      exact hout.settle _
    · have hcounted : { σ with receiveSequence := sequence, receiveCounter := counter }.Assembled :=
        { h with }
      exact heq ▸ hcounted.receiveData hopen frame
  reject σ rejections h := by
    rw [fail, finish]
    split
    next hclosed =>
      have hempty := h.ended hclosed
      have hnone : σ.dataAssemblies.values = [] := by rw [hempty]; rfl
      exact ⟨h.streams, h.total, h.message, fun _ a ha => absurd (hnone ▸ ha) not_mem_nil, h.ended⟩
    · exact ⟨Nat.zero_le _, Nat.zero_le _, fun _ hmem => absurd hmem not_mem_nil,
        fun _ _ hmem => absurd hmem not_mem_nil, fun _ => rfl⟩

/-- Whatever frames, timers, discards and failures come, in any order. -/
theorem assemblies_bounded {directions limits : Nat × Nat} {as : List (Action μ)}
    (hrun : run (step codec) (opened directions.1 directions.2 limits.1 limits.2) as = some σ) :
    σ.Assembled ∧ (.dataMessageTooLarge ∉ σ.rejections →
      σ.assembledBytes = (σ.dataAssemblies.values.map (·.buffered)).sum) := by
  have h : σ.Assembled := run_invariant (fun _ _ _ hstep h => assembled_stepKeeps.step hstep h) hrun
    ⟨Nat.zero_le _, Nat.zero_le _, fun _ hmem => absurd hmem not_mem_nil,
      fun _ _ hmem => absurd hmem not_mem_nil, fun hclosed => absurd hclosed (by simp [opened])⟩
  exact ⟨h, fun hquiet => congrArg sum (map_congr_left (h.exact hquiet))⟩

/-- The frame with a sequence number that carries a fragment of stream 1. -/
def fragmentFrame (piece : Bytes) (sequence : Nat) : Bytes :=
  0x52 :: 2 :: 0 :: 1 :: (writeUInt32BE sequence ++ 0xb2 :: 2 :: 3 :: 0 :: 0 :: 0 :: 1 :: 0 :: piece)

/-- The limits let through one assembly and two bytes. -/
theorem assemblies_bounded_of_received : ∃ σ,
    run (step plainCodec) (opened 1 2 1 2) [.receive (fragmentFrame [7, 7] 1) true] = some σ ∧
      σ.assembledBytes = 2 ∧ σ.Assembled := by
  have hreached : (run (step plainCodec) (opened 1 2 1 2)
      [.receive (fragmentFrame [7, 7] 1) true]).any fun σ => decide (σ.assembledBytes = 2) := by
    decide +kernel
  have ⟨σ, hrun, hσ⟩ := (any_eq_true _ _).mp hreached
  exact ⟨σ, hrun, of_decide_eq_true hσ, (@assemblies_bounded _ _ plainCodec (1, 2) (1, 2) _ hrun).1⟩

/-! ## An oversized message -/

variable {piece : Bytes}

theorem receive_fragmentFrame (σ : EncryptedNodeRelayChannel Unit) (sequence : Nat)
    (hpiece : piece.length = NODE_RELAY_DATA_MAX_BYTES) (hopen : σ.closed = false)
    (hsequence : σ.receiveSequence = sequence) (hlt : sequence < 2 ^ 32) :
    σ.receive plainCodec (fragmentFrame piece sequence) true =
      { σ with
        receiveSequence := sequence + 1
        receiveCounter := σ.receiveCounter + 1 }.receiveData ⟨1, piece, true, true⟩ := by
  have hread : readUInt32BE (.ofNat (sequence / 16777216)) (.ofNat (sequence / 65536))
      (.ofNat (sequence / 256)) (.ofNat sequence) = sequence := BrowserTunnel.readUInt32BE_write hlt
  have hone : readUInt32BE 0 0 0 1 = 1 := rfl
  have hlength : ¬RELAY_FRAME_MAX_PAYLOAD_BYTES < NODE_RELAY_DATA_MAX_BYTES + 8 := by decide
  simp [receive, hopen, hsequence, fragmentFrame, writeUInt32BE, decodeRelayFrame, hread, hpiece,
    hlength, plainCodec, receivePlaintext, isNodeRelayDataFrame, decodeNodeRelayDataFrame, hone]

/-- The assembly behind an empty and that many full fragments. -/
def assembling (piece : Bytes) (n : Nat) : NodeRelayDataAssembly :=
  ⟨true, n * NODE_RELAY_DATA_MAX_BYTES, [] :: List.replicate n piece⟩

def behind (assembly : NodeRelayDataAssembly) (n : Nat) : EncryptedNodeRelayChannel Unit :=
  { opened 1 2 8 (16 * 1024 * 1024) with
    receiveSequence := n + 2
    receiveCounter := n + 1
    dataAssemblies := ⟨[(1, assembly)], List.nodup_singleton 1⟩ }

theorem receive_assembling (hpiece : piece.length = NODE_RELAY_DATA_MAX_BYTES) (n : Nat)
    (hn : n < 11) :
    (behind (assembling piece n) n).step plainCodec (.receive (fragmentFrame piece (n + 2)) true) =
      some (if n < 10 then behind (assembling piece (n + 1)) (n + 1)
        else { behind { assembling piece n with bytes := (n + 1) * NODE_RELAY_DATA_MAX_BYTES } (n + 1) with
          rejections := [.dataMessageTooLarge] }) := by
  rw [step_receive, receive_fragmentFrame _ (n + 2) hpiece rfl rfl (by omega)]
  have htotal : ¬16 * 1024 * 1024 < n * NODE_RELAY_DATA_MAX_BYTES + NODE_RELAY_DATA_MAX_BYTES := by
    simp only [NODE_RELAY_DATA_MAX_BYTES]
    omega
  have hmessage : NODE_RELAY_DATA_MAX_MESSAGE_BYTES <
      n * NODE_RELAY_DATA_MAX_BYTES + NODE_RELAY_DATA_MAX_BYTES ↔ ¬n < 10 := by
    simp only [NODE_RELAY_DATA_MAX_BYTES, NODE_RELAY_DATA_MAX_MESSAGE_BYTES]
    omega
  simp only [receiveData, behind, assembling, opened, assembledBytes, OrderedMap.get?,
    OrderedMap.lookupEntries, OrderedMap.values, OrderedMap.set, OrderedMap.setEntries, hpiece,
    if_true, map_cons, map_nil, sum_singleton, any_some, ne_eq,
    not_true_eq_false, decide_false, Bool.false_eq_true, if_false, isNone_some, false_and,
    getD_some, htotal, hmessage]
  have hgrown := Nat.add_one_mul n NODE_RELAY_DATA_MAX_BYTES
  by_cases h : n < 10
  · simp only [h, not_true_eq_false, if_true, if_false, settle, hgrown, replicate_succ',
      cons_append]
  · simp only [h, not_false_eq_true, if_true, if_false, settle, hgrown, nil_append]

theorem run_assembling (hpiece : piece.length = NODE_RELAY_DATA_MAX_BYTES) (n : Nat) (hn : n ≤ 10) :
    run (step plainCodec) (opened 1 2 8 (16 * 1024 * 1024)) (.receive (fragmentFrame [] 1) true ::
        (List.range n).map fun i => .receive (fragmentFrame piece (i + 2)) true) =
      some (behind (assembling piece n) n) := by
  induction n with
  | zero => rfl
  | succ n ih =>
    rw [range_succ, map_append]
    refine run_snoc (ih (by omega)) ?_
    rw [receive_assembling hpiece n (by omega), if_pos (by omega)]

/-- The eleventh full fragment is counted although it is refused. -/
theorem oversized_fragment_counted : ∃ (as : List (Action Unit)) (σ : EncryptedNodeRelayChannel Unit)
    (assembly : NodeRelayDataAssembly),
    run (step plainCodec) (opened 1 2 8 (16 * 1024 * 1024)) as = some σ ∧
      assembly ∈ σ.dataAssemblies.values ∧ assembly.bytes ≠ assembly.buffered ∧
      NODE_RELAY_DATA_MAX_MESSAGE_BYTES < assembly.bytes := by
  obtain ⟨piece, hpiece⟩ : ∃ piece : Bytes, piece.length = NODE_RELAY_DATA_MAX_BYTES :=
    ⟨List.replicate _ 0, length_replicate⟩
  refine ⟨_, _, _, run_snoc (run_assembling hpiece 10 (Nat.le_refl 10))
    (receive_assembling hpiece 10 (by omega)), mem_singleton_self _, ?_, ?_⟩
  · simp [buffered, assembling, hpiece, NODE_RELAY_DATA_MAX_BYTES]
  · simp [NODE_RELAY_DATA_MAX_BYTES, NODE_RELAY_DATA_MAX_MESSAGE_BYTES]

end EncryptedNodeRelayChannel

end TaskHandoff.NodeRelay
