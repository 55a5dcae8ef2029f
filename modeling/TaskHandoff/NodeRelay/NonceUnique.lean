import TaskHandoff.NodeRelay.ChannelRules

/-! # No nonce is used twice

Each end seals its payloads under the counters from zero on, in order and without a gap, whatever
queues, timers and errors do. The directions keep the two ends apart. -/

namespace TaskHandoff.NodeRelay

open List Option
open BrowserTunnel (readUInt32BE writeUInt32BE)
open Machine

variable {μ : Type}

/-! ## Nonces -/

theorem writeUInt32BE_inj {i j : Nat} (hi : i < 2 ^ 32) (hj : j < 2 ^ 32)
    (h : writeUInt32BE i = writeUInt32BE j) : i = j := by
  simp only [writeUInt32BE, cons.injEq, and_true] at h
  have hread := BrowserTunnel.readUInt32BE_write hi
  rw [h.1, h.2.1, h.2.2.1, h.2.2.2, BrowserTunnel.readUInt32BE_write hj] at hread
  exact hread.symm

theorem sequenceNonce_inj {direction i j : Nat} (hi : i < 2 ^ 32) (hj : j < 2 ^ 32)
    (h : sequenceNonce direction i = sequenceNonce direction j) : i = j := by
  rw [sequenceNonce, sequenceNonce, Nat.div_eq_of_lt hi, Nat.div_eq_of_lt hj] at h
  exact writeUInt32BE_inj hi hj (append_cancel_left h)

theorem sequenceNonce_ne_of_direction (i j : Nat) : sequenceNonce NODE_RELAY_DIRECTION_NODE i ≠
      sequenceNonce NODE_RELAY_DIRECTION_CONTROL_PLANE j := by
  intro h
  have hfirst := congrArg head? h
  simp [sequenceNonce, NODE_RELAY_DIRECTION_NODE, NODE_RELAY_DIRECTION_CONTROL_PLANE] at hfirst

theorem nonces_of_range_nodup {direction n : Nat} (h : n ≤ 2 ^ 32) :
    ((List.range n).map (sequenceNonce direction)).Nodup := by
  apply List.Nodup.map_on _ nodup_range
  intro i hi j hj hnonce
  have hi' : i < n := mem_range.mp hi
  have hj' : j < n := mem_range.mp hj
  exact sequenceNonce_inj (by omega) (by omega) hnonce

/-! ## One end -/

namespace EncryptedNodeRelayChannel

variable {σ : EncryptedNodeRelayChannel μ} {direction : Nat} {codec : Codec μ}

/-- The payloads sealed so far have the nonces of the counters so far. -/
def Numbered (direction : Nat) (σ : EncryptedNodeRelayChannel μ) : Prop :=
  σ.sendDirection = direction ∧ σ.sealedPayloads.map Sealed.nonce =
      (List.range σ.sendCounter).map (sequenceNonce direction)

section

variable (h : σ.Numbered direction)

include h

theorem Numbered.finish : σ.finish.Numbered direction := by
  rw [EncryptedNodeRelayChannel.finish]
  split <;> exact h

theorem Numbered.release : σ.releaseOutboundCapacity.Numbered direction := by
  rw [releaseOutboundCapacity]
  split <;> exact h

theorem Numbered.next {write : PendingNodeRelayWrite}
    {τ : EncryptedNodeRelayChannel μ} (hnext : σ.next = some (write, τ)) :
    τ.Numbered direction := by
  unfold EncryptedNodeRelayChannel.next at hnext
  split at hnext <;> cases hnext <;> exact h

/-- The one place that seals takes the nonce of its counter and advances it. -/
theorem Numbered.sendPlaintext (write : PendingNodeRelayWrite)
    (thrown : Bool) : (σ.sendPlaintext codec write thrown).2.Numbered direction := by
  have hsealed : (σ.sealedPayloads ++
      [(⟨sequenceNonce σ.sendDirection σ.sendCounter, write.payload⟩ : Sealed)]).map Sealed.nonce =
        (List.range (σ.sendCounter + 1)).map (sequenceNonce direction) := by
    rw [map_append, h.2, range_succ, map_append, h.1]
    rfl
  rw [EncryptedNodeRelayChannel.sendPlaintext]
  split
  · exact h
  split
  · exact ⟨h.1, hsealed⟩
  · split <;> exact ⟨h.1, hsealed⟩

end

theorem numbered_flushKeeps : FlushKeeps codec (Numbered (μ := μ) direction) where
  finish _ h := h.finish
  sendNext σ τ write thrown hnext h := by
    have hτ : τ.Numbered direction := h.next hnext
    have hfree : ({ τ with outboundBytes := τ.outboundBytes - write.bytes } :
        EncryptedNodeRelayChannel μ).Numbered direction := hτ
    exact hfree.release.sendPlaintext write thrown
  timer _ _ h := h

theorem numbered_stepKeeps : StepKeeps codec (Numbered (μ := μ) direction) := by
  apply StepKeeps.of_receives
  case finish => exact fun _ h => h.finish
  case enqueue =>
    intro σ payload deflated control turns h
    rw [enqueuePlaintext_eq]
    split
    · exact h
    split
    · exact h
    · apply numbered_flushKeeps.flushOutbound
      cases control <;> exact h
  case flush => exact fun _ turns h => numbered_flushKeeps.flushOutbound turns h
  case wait =>
    intro σ h
    rw [waitForOutboundCapacity]
    split <;> exact h
  case receives =>
    rintro σ τ ⟨_, _, _, _, _, rfl⟩ h
    exact h

end EncryptedNodeRelayChannel

/-! ## The two ends of a session -/

/-- Both ends hold the key of one handshake. The pairing in the handshake is sealed under another
key. -/
structure NodeRelaySession (μ : Type) where
  node : EncryptedNodeRelayChannel μ
  controlPlane : EncryptedNodeRelayChannel μ

namespace NodeRelaySession

/-- The session behind the handshake, with the assembly limits of both ends. -/
def established (nodeLimits controlPlaneLimits : Nat × Nat) : NodeRelaySession μ where
  node :=
    { sendDirection := NODE_RELAY_DIRECTION_NODE
      receiveDirection := NODE_RELAY_DIRECTION_CONTROL_PLANE
      dataAssemblyMaxStreams := nodeLimits.1
      dataAssemblyMaxBytes := nodeLimits.2 }
  controlPlane :=
    { sendDirection := NODE_RELAY_DIRECTION_CONTROL_PLANE
      receiveDirection := NODE_RELAY_DIRECTION_NODE
      dataAssemblyMaxStreams := controlPlaneLimits.1
      dataAssemblyMaxBytes := controlPlaneLimits.2 }

inductive Action (μ : Type)
  | node (action : EncryptedNodeRelayChannel.Action μ)
  | controlPlane (action : EncryptedNodeRelayChannel.Action μ)

/-- One end takes a step. The frames that it receives are arbitrary bytes. -/
def step (codec : Codec μ) (σ : NodeRelaySession μ) : Action μ → Option (NodeRelaySession μ)
  | .node a => (σ.node.step codec a).map fun node => { σ with node }
  | .controlPlane a => (σ.controlPlane.step codec a).map fun controlPlane => { σ with controlPlane }

def sealedPayloads (σ : NodeRelaySession μ) : List Sealed :=
  σ.node.sealedPayloads ++ σ.controlPlane.sealedPayloads

/-- Each end numbers what it seals, under its own direction. -/
def Numbered (σ : NodeRelaySession μ) : Prop :=
  σ.node.Numbered NODE_RELAY_DIRECTION_NODE ∧
    σ.controlPlane.Numbered NODE_RELAY_DIRECTION_CONTROL_PLANE

theorem Numbered.step {codec : Codec μ} {σ τ : NodeRelaySession μ} (a : Action μ)
    (hstep : σ.step codec a = some τ) (h : σ.Numbered) : τ.Numbered := by
  cases a with
  | node a =>
    cases hnode : σ.node.step codec a with
    | none => simp [NodeRelaySession.step, hnode] at hstep
    | some node =>
      simp only [NodeRelaySession.step, hnode, map_some, some.injEq] at hstep
      subst hstep
      exact ⟨EncryptedNodeRelayChannel.numbered_stepKeeps.step hnode h.1, h.2⟩
  | controlPlane a =>
    cases hplane : σ.controlPlane.step codec a with
    | none => simp [NodeRelaySession.step, hplane] at hstep
    | some controlPlane =>
      simp only [NodeRelaySession.step, hplane, map_some, some.injEq] at hstep
      subst hstep
      exact ⟨h.1, EncryptedNodeRelayChannel.numbered_stepKeeps.step hplane h.2⟩

theorem numbered_established (nodeLimits controlPlaneLimits : Nat × Nat) :
    (established (μ := μ) nodeLimits controlPlaneLimits).Numbered :=
  ⟨⟨rfl, rfl⟩, rfl, rfl⟩

/-- No two payloads that the ends of a session seal have the same nonce. -/
theorem nonces_nodup {codec : Codec μ} {nodeLimits controlPlaneLimits : Nat × Nat}
    {as : List (Action μ)} {σ : NodeRelaySession μ}
    (hrun : run (step codec) (established nodeLimits controlPlaneLimits) as = some σ)
    (hnode : σ.node.sendCounter ≤ 2 ^ 32) (hplane : σ.controlPlane.sendCounter ≤ 2 ^ 32) :
    (σ.sealedPayloads.map Sealed.nonce).Nodup := by
  have hσ : σ.Numbered :=
    run_invariant (fun _ a _ hstep h => Numbered.step a hstep h) hrun
      (numbered_established nodeLimits controlPlaneLimits)
  rw [sealedPayloads, map_append, hσ.1.2, hσ.2.2]
  apply List.Nodup.append (nonces_of_range_nodup hnode) (nonces_of_range_nodup hplane)
  intro nonce hn hp
  simp only [List.mem_map] at hn hp
  have ⟨i, _, hi⟩ := hn
  have ⟨j, _, hj⟩ := hp
  exact sequenceNonce_ne_of_direction i j (hi.trans hj.symm)

/-- A codec without encryption, compression or messages. -/
def plainCodec : Codec Unit where
  secretbox := fun _ payload => payload
  secretboxOpen := fun _ payload => some payload
  deflate := id
  inflate := some
  render := fun _ => [0x7b, 0x7d]
  parse := fun _ => some ()
  isChannelClose := fun _ => false

/-- The node sends data behind a message that waits for the flush timer, the control plane a
message. -/
def sentActions : List (Action Unit) :=
  [.node (.send () []), .node (.sendData 1 [7] true fun _ => []), .controlPlane (.send () [.sent]),
    .node (.flush [.sent, .sent])]

theorem nonces_nodup_of_sent : ∃ σ,
    run (step plainCodec) (established (8, 64) (8, 64)) sentActions = some σ ∧
      σ.sealedPayloads.length = 3 ∧ (σ.sealedPayloads.map Sealed.nonce).Nodup := by
  have hreached : (run (step plainCodec) (established (8, 64) (8, 64)) sentActions).any
      fun σ => decide (σ.sealedPayloads.length = 3 ∧ σ.node.sendCounter ≤ 2 ^ 32 ∧
        σ.controlPlane.sendCounter ≤ 2 ^ 32) := by decide +kernel
  obtain ⟨σ, hrun, hσ⟩ := (any_eq_true _ _).mp hreached
  obtain ⟨hlength, hnode, hplane⟩ := of_decide_eq_true hσ
  exact ⟨σ, hrun, hlength, nonces_nodup hrun hnode hplane⟩

end NodeRelaySession

end TaskHandoff.NodeRelay
