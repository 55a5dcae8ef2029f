import TaskHandoff.NodeRelay.SessionChannel

/-! # Rules for properties of the channel

What the flush loop keeps, every enqueue keeps; what the operations keep, every step keeps. -/

namespace TaskHandoff.NodeRelay

open Option

variable {μ : Type}

namespace EncryptedNodeRelayChannel

variable {σ τ : EncryptedNodeRelayChannel μ} {codec : Codec μ}
  {P : EncryptedNodeRelayChannel μ → Prop}

/-- A channel behind its handshake. -/
def opened (sendDirection receiveDirection dataAssemblyMaxStreams dataAssemblyMaxBytes : Nat) :
    EncryptedNodeRelayChannel μ :=
  { sendDirection, receiveDirection, dataAssemblyMaxStreams, dataAssemblyMaxBytes }

@[simp] theorem closed_finish (σ : EncryptedNodeRelayChannel μ) : σ.finish.closed = true := by
  rw [finish]
  split
  next hclosed => exact hclosed
  · rfl

/-! ## Sending -/

theorem sendPlaintext_eq (codec : Codec μ) (σ : EncryptedNodeRelayChannel μ)
    (write : PendingNodeRelayWrite) (thrown : Bool) :
    ∃ sealedPayloads sendCounter sendSequence transmitted, (σ.sendPlaintext codec write thrown).2 =
      { σ with sealedPayloads, sendCounter, sendSequence, transmitted } := by
  rw [sendPlaintext]
  dsimp only
  repeat' split
  all_goals exact ⟨_, _, _, _, rfl⟩

/-- What the moves of the flush loop keep. -/
structure FlushKeeps (codec : Codec μ) (P : EncryptedNodeRelayChannel μ → Prop) : Prop where
  finish : ∀ σ, P σ → P σ.finish
  sendNext : ∀ σ τ write thrown, σ.next = some (write, τ) → P σ →
    P ({ τ with outboundBytes := τ.outboundBytes - write.bytes }.releaseOutboundCapacity.sendPlaintext
      codec write thrown).2
  timer : ∀ σ armed, P σ → P { σ with flushTimer := armed }

section

variable (h : FlushKeeps codec P)

include h

theorem FlushKeeps.full (hσ : P σ) :
    P (if σ.next.isSome then { σ with flushTimer := true } else σ) := by
  split
  · exact h.timer σ true hσ
  · exact hσ

theorem FlushKeeps.flushLoop (turns : List Turn) (hσ : P σ) : P (σ.flushLoop codec turns) := by
  induction turns generalizing σ with
  | nil => exact h.full hσ
  | cons turn turns ih =>
    cases turn with
    | full => exact h.full hσ
    | sent | thrown =>
      simp only [flushLoop]
      split
      · exact hσ
      next write τ hnext =>
        have hτ := fun thrown => h.sendNext σ τ write thrown hnext hσ
        split
        next sent hsent => exact ih (cast (congrArg (fun r => P r.2) hsent) (hτ _))
        next sent hsent => exact h.finish sent (cast (congrArg (fun r => P r.2) hsent) (hτ _))

theorem FlushKeeps.flushOutbound (turns : List Turn) (hσ : P σ) :
    P (σ.flushOutbound codec turns) := by
  rw [EncryptedNodeRelayChannel.flushOutbound]
  split
  · exact hσ
  · exact h.flushLoop turns (h.timer σ false hσ)

end

/-- An accepted write in its lane. -/
def queue (σ : EncryptedNodeRelayChannel μ) (write : PendingNodeRelayWrite) (control : Bool) :
    EncryptedNodeRelayChannel μ :=
  { if control then { σ with outboundControl := σ.outboundControl ++ [write] }
    else { σ with outboundData := σ.outboundData ++ [write] } with
    outboundBytes := σ.outboundBytes + write.bytes }

theorem enqueuePlaintext_eq (payload : Bytes) (deflated control : Bool) (turns : List Turn) :
    σ.enqueuePlaintext codec payload deflated control turns =
      if σ.closed then (.error .channelClosed, σ)
      else if NODE_RELAY_SOCKET_MAX_QUEUED_BYTES < σ.outboundBytes + (payload.length + 40) then
        (.error .backpressureLimit, σ)
      else (.ok (), (σ.queue ⟨payload, deflated, payload.length + 40⟩ control).flushOutbound codec
        turns) := by
  cases control <;> rfl

theorem sendData_keeps (henqueue : ∀ (σ : EncryptedNodeRelayChannel μ) payload deflated turns, P σ →
      P (σ.enqueuePlaintext codec payload deflated false turns).2)
    (streamId : Nat) (data : Bytes) (binary : Bool) (turns : Nat → List Turn) (hσ : P σ) :
    P (σ.sendData codec streamId data binary turns).2 := by
  have hfragments (frames : List NodeRelayDataFrame) :
      P (σ.sendFragments codec turns frames).2 := by
    induction frames generalizing σ with
    | nil => exact hσ
    | cons frame frames ih =>
      rw [sendFragments]
      split
      · exact hσ
      rename_i plaintext hplaintext
      have hqueued := fun payload deflated => henqueue σ payload deflated (turns frames.length) hσ
      dsimp only
      split
      next hresult => exact cast (congrArg (fun r => P r.2) hresult) (hqueued _ _)
      next hresult => exact ih (cast (congrArg (fun r => P r.2) hresult) (hqueued _ _))
  rw [sendData]
  simp only [apply_ite Prod.snd]
  split
  · exact hσ
  split
  · split
    · exact hσ
    · exact henqueue σ _ _ _ hσ
  split
  · exact hσ
  · exact hfragments _

/-! ## Receiving -/

/-- The two channels differ in what the channel has received. -/
def Receives (σ τ : EncryptedNodeRelayChannel μ) : Prop :=
  ∃ receiveSequence receiveCounter dataAssemblies rejections delivered,
    τ = { σ with receiveSequence, receiveCounter, dataAssemblies, rejections, delivered }

theorem receiveData_receives (frame : NodeRelayDataFrame) : Receives σ (σ.receiveData frame).2 := by
  rw [receiveData]
  dsimp only
  repeat' split
  all_goals exact ⟨_, _, _, _, _, rfl⟩

theorem receive_cases (codec : Codec μ) (σ : EncryptedNodeRelayChannel μ) (raw : Bytes)
    (isBinary : Bool) : (σ.receive codec raw isBinary).2 = σ.finish ∨
      (∃ receiveSequence receiveCounter delivered, (σ.receive codec raw isBinary).2 =
        { σ with receiveSequence, receiveCounter, delivered }) ∨
      σ.closed = false ∧ ∃ receiveSequence receiveCounter frame, σ.receive codec raw isBinary =
        { σ with receiveSequence, receiveCounter }.receiveData frame := by
  rw [receive]
  split
  · exact .inr (.inl ⟨_, _, _, rfl⟩)
  rename_i hopen
  split
  · exact .inr (.inl ⟨_, _, _, rfl⟩)
  split
  · exact .inr (.inl ⟨_, _, _, rfl⟩)
  split
  · exact .inl rfl
  · dsimp only [receivePlaintext]
    repeat' split
    all_goals first
      | exact .inr (.inl ⟨_, _, _, rfl⟩)
      | exact .inr (.inr ⟨by simpa using hopen, _, _, _, rfl⟩)

/-! ## Steps -/

/-- What the operations keep. -/
structure StepKeeps (codec : Codec μ) (P : EncryptedNodeRelayChannel μ → Prop) : Prop where
  finish : ∀ σ, P σ → P σ.finish
  enqueue : ∀ σ payload deflated control turns, P σ →
    P (σ.enqueuePlaintext codec payload deflated control turns).2
  flush : ∀ σ turns, P σ → P ({ σ with flushTimer := false }.flushOutbound codec turns)
  wait : ∀ σ, P σ → P σ.waitForOutboundCapacity
  discard : ∀ σ streamId, P σ → P (σ.discardDataAssembly streamId)
  receive : ∀ σ τ raw isBinary, σ.step codec (.receive raw isBinary) = some τ → P σ → P τ
  reject : ∀ σ rejections, P σ → P ({ σ with rejections } : EncryptedNodeRelayChannel μ).fail

theorem StepKeeps.step (h : StepKeeps codec P) {a : Action μ} (hstep : σ.step codec a = some τ)
    (hσ : P σ) : P τ := by
  cases a with
  | send message turns =>
    cases hstep
    exact h.enqueue σ _ _ _ _ hσ
  | sendData streamId data binary turns =>
    cases hstep
    exact sendData_keeps (fun σ _ _ _ => h.enqueue σ _ _ _ _) streamId data binary turns hσ
  | close | socketClosed | failed =>
    cases hstep
    exact h.finish σ hσ
  | waitForOutboundCapacity =>
    cases hstep
    exact h.wait σ hσ
  | discardDataAssembly streamId =>
    cases hstep
    exact h.discard σ streamId hσ
  | flush turns =>
    simp only [EncryptedNodeRelayChannel.step, ite_none_right_eq_some, some.injEq] at hstep
    exact hstep.2 ▸ h.flush σ turns hσ
  | receive raw isBinary => exact h.receive σ τ raw isBinary hstep hσ
  | reject =>
    simp only [EncryptedNodeRelayChannel.step] at hstep
    split at hstep <;> cases hstep
    exact h.reject σ _ hσ
  | assemblyTimeout streamId =>
    simp only [EncryptedNodeRelayChannel.step, ite_none_right_eq_some, some.injEq] at hstep
    exact hstep.2 ▸ h.finish _ (h.discard σ streamId hσ)

theorem StepKeeps.of_receives (finish : ∀ σ, P σ → P σ.finish)
    (enqueue : ∀ σ payload deflated control turns, P σ →
      P (σ.enqueuePlaintext codec payload deflated control turns).2)
    (flush : ∀ σ turns, P σ → P ({ σ with flushTimer := false }.flushOutbound codec turns))
    (wait : ∀ σ, P σ → P σ.waitForOutboundCapacity)
    (receives : ∀ σ τ, Receives σ τ → P σ → P τ) : StepKeeps codec P where
  finish
  enqueue
  flush
  wait
  discard σ _ hσ := receives σ _ ⟨_, _, _, _, _, rfl⟩ hσ
  reject σ _ hσ := finish _ (receives σ _ ⟨_, _, _, _, _, rfl⟩ hσ)
  receive σ τ raw isBinary hstep hσ := by
    have hreceived : P (σ.receive codec raw isBinary).2 := by
      obtain heq | ⟨_, _, _, heq⟩ | ⟨_, _, _, frame, heq⟩ := receive_cases codec σ raw isBinary
      · exact heq ▸ finish σ hσ
      · exact heq ▸ receives σ _ ⟨_, _, _, _, _, rfl⟩ hσ
      · exact heq ▸ receives _ _ (receiveData_receives frame) (receives σ _ ⟨_, _, _, _, _, rfl⟩ hσ)
    simp only [EncryptedNodeRelayChannel.step] at hstep
    split at hstep <;> rename_i hresult <;> rw [hresult] at hreceived <;> cases hstep
    · exact hreceived
    · exact receives _ _ ⟨_, _, _, _, _, rfl⟩ hreceived

end EncryptedNodeRelayChannel

end TaskHandoff.NodeRelay
