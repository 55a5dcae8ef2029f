import TaskHandoff.CloudNodes.Channels

/-! # Lifecycle notifications of a node

The channel map changes at once, the node store is told through a queue. Each
change of the map asks for its notification in the same step, so the last
notification asked for agrees with the map; an idle queue has run it. A socket
that closes while the transport attaches it breaks the order: its disconnection
is asked for before the connection.
-/

namespace TaskHandoff.CloudNodes

open Machine OrderedMap

namespace Channels

/-! ## The last notification -/

/-- The notification that ran last for the node. -/
def lastExecuted (executed : List (String × NodeNotification)) (nodeId : String) :
    Option NodeNotification :=
  ((executed.filter fun e => e.1 = nodeId).getLast?).map Prod.snd

/-- The last notification that ran or waits for the node. -/
def lastRequested (s : Channels) (nodeId : String) : Option NodeNotification :=
  (((s.nodeLifecycleOperations.get? nodeId).getD []).getLast?).or (lastExecuted s.executed nodeId)

/-- The map holds a channel of the node. -/
def Open (s : Channels) (nodeId : String) : Prop :=
  ∃ nodeHandle channel, s.channels.get? nodeHandle = some channel ∧ channel.nodeId = nodeId

variable {s t : Channels} {env : Env} {nodeHandle nodeId : String} {id : Nat} {a : AttachCall}

theorem lastExecuted_append (executed : List (String × NodeNotification)) (nodeId : String)
    (operation : NodeNotification) (n : String) :
    lastExecuted (executed ++ [(nodeId, operation)]) n =
      if n = nodeId then some operation else lastExecuted executed n := by
  unfold lastExecuted
  by_cases hn : n = nodeId
  · simp [hn]
  · simp [hn, Ne.symm hn]

theorem lastRequested_enqueue (s : Channels) (nodeId : String) (operation : NodeNotification)
    (isAsync : Bool) (n : String) :
    (s.enqueueNodeLifecycle nodeId operation isAsync).lastRequested n =
      if n = nodeId then some operation else s.lastRequested n := by
  unfold enqueueNodeLifecycle lastRequested
  split
  next hnone =>
    rw [lastExecuted_append]
    by_cases hn : n = nodeId
    · subst hn
      cases isAsync <;> simp [hnone]
    · cases isAsync <;> simp [hn, get?_set_ne _ _ hn]
  next waiting hsome =>
    by_cases hn : n = nodeId
    · subst hn
      simp
    · simp [hn, get?_set_ne _ _ hn]

theorem getLast?_cons_or (operation : NodeNotification) (waiting : List NodeNotification)
    (before : Option NodeNotification) :
    (operation :: waiting).getLast?.or before = waiting.getLast?.or (some operation) := by
  cases waiting with
  | nil => rfl
  | cons next rest =>
    rw [List.getLast?_cons_cons]
    cases hlast : (next :: rest).getLast? with
    | none => simp at hlast
    | some last => rfl

theorem lastRequested_settle (h : s.settleNodeLifecycle nodeId = some t) (n : String) :
    t.lastRequested n = s.lastRequested n := by
  unfold settleNodeLifecycle at h
  split at h
  · cases h
  next hempty =>
    cases h
    unfold lastRequested
    by_cases hn : n = nodeId
    · subst hn
      simp [hempty]
    · simp [get?_erase_ne _ hn]
  next operation waiting hsome =>
    cases h
    unfold lastRequested
    simp only [lastExecuted_append]
    by_cases hn : n = nodeId
    · subst hn
      rw [hsome, Option.getD_some, getLast?_cons_or]
      simp
    · simp [hn, get?_set_ne _ _ hn]

theorem settleNodeLifecycle_channels (h : s.settleNodeLifecycle nodeId = some t) :
    t.channels = s.channels := by
  unfold settleNodeLifecycle at h
  split at h
  · cases h
  · cases h
    rfl
  · cases h
    rfl

@[simp] theorem enqueueNodeLifecycle_channels (operation : NodeNotification) (isAsync : Bool) :
    (s.enqueueNodeLifecycle nodeId operation isAsync).channels = s.channels := by
  unfold enqueueNodeLifecycle
  split <;> rfl

/-! ## Agreement with the map -/

/-- What was asked for last for a node says whether the map holds its channel,
and a node has its channel under one handle. -/
structure Agreement (s : Channels) : Prop where
  agrees : ∀ n, s.lastRequested n = some .connected ↔ s.Open n
  unique : ∀ h k c d, s.channels.get? h = some c → s.channels.get? k = some d →
    c.nodeId = d.nodeId → h = k

theorem agreement_new : Agreement new where
  agrees n := by simp [new, lastRequested, lastExecuted, Open]
  unique := by simp [new]

variable (h : Agreement s)

include h

theorem Agreement.congr (hchannels : t.channels = s.channels)
    (hlast : t.lastRequested = s.lastRequested) : Agreement t where
  agrees n := by
    rw [hlast, h.agrees, Open, Open, hchannels]
  unique := by
    rw [hchannels]
    exact h.unique

theorem Agreement.drop {channel : ActiveNodeRelayChannel}
    (hget : s.channels.get? nodeHandle = some channel) (isAsync : Bool) :
    Agreement ((s.discardChannel nodeHandle).enqueueNodeLifecycle channel.nodeId .disconnected
      isAsync) := by
  have hleft : ∀ k d, (s.channels.erase nodeHandle).get? k = some d →
      s.channels.get? k = some d ∧ d.nodeId ≠ channel.nodeId := by
    intro k d hd
    obtain ⟨hk, hd'⟩ := get?_erase_eq_some hd
    exact ⟨hd', fun hnode => hk (h.unique k nodeHandle d channel hd' hget hnode)⟩
  constructor
  swap
  · intro k l c d hc hd hnode
    simp only [enqueueNodeLifecycle_channels, discardChannel] at hc hd
    exact h.unique k l c d (hleft k c hc).1 (hleft l d hd).1 hnode
  intro n
  rw [lastRequested_enqueue]
  simp only [Open, enqueueNodeLifecycle_channels, discardChannel]
  by_cases hn : n = channel.nodeId
  · rw [if_pos hn]
    refine iff_of_false (by simp) ?_
    rintro ⟨k, d, hd, hdn⟩
    exact (hleft k d hd).2 (hdn.trans hn)
  rw [if_neg hn]
  refine Iff.trans (h.agrees n) ?_
  constructor
  · rintro ⟨k, d, hd, hdn⟩
    refine ⟨k, d, ?_, hdn⟩
    have hk : k ≠ nodeHandle := by
      rintro rfl
      rw [hget] at hd
      exact hn (Option.some.inj hd ▸ hdn.symm)
    rwa [get?_erase_ne _ hk]
  · rintro ⟨k, d, hd, hdn⟩
    exact ⟨k, d, (hleft k d hd).1, hdn⟩

theorem Agreement.closeNode (env : Env) (nodeHandle : String) :
    Agreement (s.closeNode env nodeHandle) := by
  unfold Channels.closeNode
  split
  · exact h
  next channel hget => exact h.drop hget env.disconnectedIsAsync

theorem Agreement.handleClosed (env : Env) (nodeHandle : String) (id : Nat) :
    Agreement (s.handleClosed env nodeHandle id) := by
  unfold Channels.handleClosed
  split
  · exact h
  next channel hget =>
    split
    · exact h
    · exact h.drop hget env.disconnectedIsAsync

/-- The handle and the node id belong together: the map holds a channel of the
node under this handle only, and none of another node under it. -/
def SameNode (s : Channels) (nodeHandle nodeId : String) : Prop :=
  ∀ e ∈ s.channels.entries, e.1 = nodeHandle ↔ e.2.nodeId = nodeId

instance (s : Channels) (nodeHandle nodeId : String) : Decidable (SameNode s nodeHandle nodeId) :=
  by
    unfold SameNode
    infer_instance

theorem Agreement.install (hsame : SameNode s a.verified.nodeHandle nodeId)
    (hthrows : env.attachThrows = false) (hcloses : env.attachCloses = false) :
    Agreement (s.install env id a nodeId) := by
  have hnode : ∀ {k d}, s.channels.get? k = some d →
      (k = a.verified.nodeHandle ↔ d.nodeId = nodeId) := by
    intro k d hd
    exact hsame (k, d) (get?_eq_some.mp hd)
  have hself : (s.channels.set a.verified.nodeHandle ⟨id, a.verified.allocationId, nodeId⟩).get?
      a.verified.nodeHandle = some ⟨id, a.verified.allocationId, nodeId⟩ :=
    get?_set_self _ _ _
  simp only [Channels.install, hthrows, hcloses, Bool.false_eq_true, if_false]
  constructor
  · intro n
    have hlast := lastRequested_enqueue { s with
      channels := s.channels.set a.verified.nodeHandle ⟨id, a.verified.allocationId, nodeId⟩
      claims := s.claims.erase a.verified.nodeHandle
      errors := s.errors.erase a.verified.nodeHandle
      trust := s.trust.erase a.verified.nodeHandle
      effects := (.installChannel, a.verified.nodeHandle, a.forgotten) :: s.effects }
      nodeId .connected env.connectedIsAsync n
    refine Eq.congr_left hlast |>.trans ?_
    simp only [Open, setAttach, enqueueNodeLifecycle_channels]
    by_cases hn : n = nodeId
    · rw [if_pos hn]
      exact iff_of_true rfl ⟨_, _, hself, hn.symm⟩
    rw [if_neg hn]
    refine Iff.trans (h.agrees n) ?_
    constructor
    · rintro ⟨k, d, hd, hdn⟩
      have hk : k ≠ a.verified.nodeHandle := fun hk => hn (hdn.symm.trans ((hnode hd).mp hk))
      exact ⟨k, d, by rwa [get?_set_ne _ _ hk], hdn⟩
    rintro ⟨k, d, hd, hdn⟩
    rcases get?_set_eq_some hd with ⟨-, rfl⟩ | ⟨-, hd'⟩
    · exact (hn hdn.symm).elim
    · exact ⟨k, d, hd', hdn⟩
  · intro k l c d hc hd hcd
    simp only [setAttach, enqueueNodeLifecycle_channels] at hc hd
    rcases get?_set_eq_some hc with ⟨hk, rfl⟩ | ⟨-, hc'⟩
    · rcases get?_set_eq_some hd with ⟨hl, -⟩ | ⟨-, hd'⟩
      · exact hk.trans hl.symm
      · exact hk.trans ((hnode hd').mpr hcd.symm).symm
    rcases get?_set_eq_some hd with ⟨hl, rfl⟩ | ⟨-, hd'⟩
    · exact ((hnode hc').mpr hcd).trans hl.symm
    · exact h.unique k l c d hc' hd' hcd

theorem Agreement.preserveLocal
    (hnone : s.channels.contains nodeHandle = false) : Agreement (s.preserveLocal nodeHandle) := by
  have hget : s.channels.get? nodeHandle = none := by simpa [contains] using hnone
  exact h.congr (erase_of_get?_eq_none hget) rfl

/-! ## Steps that keep the order -/

/-- The attach finds the node managed over its own connection, and discards the channel. -/
def preserves (a : AttachCall) : Settled → Bool
  | .linked rejected => !rejected
  | .connected _ => a.resolved.any ResolvedNode.preserveLocalConnection
  | .ensured identity => identity.preserveLocalConnection
  | _ => false

/-- The node whose channel the attach is about to install. -/
def installs (a : AttachCall) : Settled → Option String
  | .connected connection => some connection.nodeId
  | .ensured identity => some identity.nodeId
  | .saved _ =>
    match a.phase with
    | .saving nodeId => some nodeId
    | _ => none
  | _ => none

end Channels

open Channels

/-- The transport takes a socket over without closing it or throwing, the
handle and the node id of a channel belong together, and no channel is
discarded for a connection that the node has on its own. -/
def Orderly (s : Channels) : Env × Event → Prop
  | (env, .attach v) =>
    (env.resolved.any ResolvedNode.preserveLocalConnection) = true →
      s.channels.contains v.nodeHandle = false
  | (env, .settle id outcome) =>
    match s.attaches.get? id with
    | none => True
    | some a =>
      (preserves a outcome = true → s.channels.contains a.verified.nodeHandle = false) ∧
        match installs a outcome with
        | none => True
        | some nodeId =>
          env.attachThrows = false ∧ env.attachCloses = false ∧
            SameNode s a.verified.nodeHandle nodeId
  | _ => True

instance (s : Channels) (action : Env × Event) : Decidable (Orderly s action) := by
  unfold Orderly
  split
  · infer_instance
  · split
    · infer_instance
    · split <;> infer_instance
  · infer_instance

namespace Channels

variable {s t : Channels} {env : Env} {nodeHandle nodeId : String} {id : Nat} {a : AttachCall}

variable (h : Agreement s)

include h

theorem Agreement.attach {v : VerifiedNodeRelayAllocation}
    (horderly : Orderly s (env, .attach v)) : Agreement (s.attach env v) := by
  have hclosed : Agreement (s.closeNode env v.nodeHandle) := h.closeNode env v.nodeHandle
  simp only [Channels.attach]
  split
  · exact h
  split
  · exact { h with }
  split
  next hpreserve => exact h.preserveLocal (horderly hpreserve)
  split
  · exact { h with }
  split
  · exact { h with }
  split
  · exact { h with }
  split
  · exact h
  · exact { hclosed with }

theorem Agreement.attachIdentity {connection : Connection}
    {identity : ResolvedNode} (hpreserve : identity.preserveLocalConnection = true →
      s.channels.contains a.verified.nodeHandle = false)
    (hthrows : env.attachThrows = false) (hcloses : env.attachCloses = false)
    (hsame : SameNode s a.verified.nodeHandle identity.nodeId) :
    Agreement (s.attachIdentity env id a connection identity) := by
  simp only [Channels.attachIdentity]
  split
  · exact { h with }
  split
  · exact { h with }
  split
  next hlocal => exact { h.preserveLocal (hpreserve hlocal) with }
  split
  · exact { h with }
  · exact h.install hsame hthrows hcloses

theorem Agreement.settle {outcome : Settled}
    (hs : s.settle env id outcome = some t) (horderly : Orderly s (env, .settle id outcome)) :
    Agreement t := by
  unfold Channels.settle at hs
  split at hs
  · cases hs
  rename_i a ha
  simp only [Orderly, ha] at horderly
  obtain ⟨hpreserve, hinstall⟩ := horderly
  split at hs
  · cases hs
    exact { h with }
  · cases hs
    exact { h.preserveLocal (hpreserve rfl) with }
  · cases hs
    unfold connectFailed
    split <;> exact { h with }
  · cases hs
    simp only [trustRequired]
    split
    · exact { h with }
    split <;> exact { h with }
  next connection hphase =>
    cases hs
    obtain ⟨hthrows, hcloses, hsame⟩ := hinstall
    unfold connected
    split
    · exact { h with }
    split
    · exact { h with }
    split
    · exact { h with }
    rename_i identity hresolved
    by_cases hnode : identity.nodeId = connection.nodeId
    · refine h.attachIdentity ?_ hthrows hcloses (hnode ▸ hsame)
      intro hlocal
      exact hpreserve (by simp [preserves, hresolved, hlocal])
    simp only [Channels.attachIdentity]
    split
    · exact { h with }
    · exact { h with }
  · cases hs
    exact { h with }
  · cases hs
    obtain ⟨hthrows, hcloses, hsame⟩ := hinstall
    exact h.attachIdentity hpreserve hthrows hcloses hsame
  · cases hs
    exact { h with }
  next nodeId hphase =>
    cases hs
    simp only [installs, hphase] at hinstall
    obtain ⟨hthrows, hcloses, hsame⟩ := hinstall
    exact h.install hsame hthrows hcloses
  · cases hs
    simp only [notified]
    split <;> exact { h with }
  · cases hs

theorem Agreement.forgetNode (env : Env) (nodeHandle : String) :
    Agreement (s.forgetNode env nodeHandle) := by
  refine Agreement.closeNode ?_ env nodeHandle
  split <;> exact { h with }

theorem Agreement.step {action : Env × Event} (hs : step s action = some t)
    (horderly : Orderly s action) : Agreement t := by
  obtain ⟨env, event⟩ := action
  cases event with
  | noteClaim nodeHandle requestedAt =>
    cases hs
    exact { h with }
  | recordClaimFailure nodeHandle code =>
    cases hs
    exact { h with }
  | forgetClaim nodeHandle =>
    cases hs
    exact { h with }
  | forgetNode nodeHandle =>
    cases hs
    exact h.forgetNode env nodeHandle
  | closeNode nodeHandle =>
    cases hs
    exact h.closeNode env nodeHandle
  | attachUnverified nodeHandle code =>
    cases nodeHandle with
    | none =>
      cases hs
      exact h
    | some nodeHandle =>
      cases hs
      exact { h with }
  | attach v =>
    cases hs
    exact h.attach horderly
  | settle id outcome => exact h.settle hs horderly
  | socketClosed nodeHandle id =>
    cases hs
    exact h.handleClosed env nodeHandle id
  | lifecycleSettled nodeId =>
    exact h.congr (settleNodeLifecycle_channels hs) (funext (lastRequested_settle hs))

end Channels

/-- Over every orderly run, a node whose queue is idle was last told that it is
connected exactly when the map holds a channel of it. -/
theorem idle_agrees {as : List (Env × Event)} {s : Channels} (h : run step new as = some s)
    (horderly : AllSteps step Orderly new as) (nodeId : String)
    (hidle : s.nodeLifecycleOperations.get? nodeId = none) :
    lastExecuted s.executed nodeId = some .connected ↔ s.Open nodeId := by
  have hagreement : Agreement s :=
    run_invariant_of_steps (fun _ _ _ hs hP ha => ha.step hs hP) h horderly agreement_new
  have hlast : s.lastRequested nodeId = lastExecuted s.executed nodeId := by
    simp [lastRequested, hidle]
  rw [← hlast]
  exact hagreement.agrees nodeId

/-- Answers for a node with a paired record and a wired transport. -/
def pairedEnv : Env := ⟨true, some ⟨"node", false⟩, none, some false, false, false, true, true⟩

/-- A channel is installed, replaced through a second allocation, and idle again. -/
theorem idle_agrees_replaced : ∃ s, run step new [(pairedEnv, .attach ⟨"h", "first", none⟩),
        (pairedEnv, .settle 0 (.connected ⟨"node", false⟩)), (pairedEnv, .lifecycleSettled "node"),
        (pairedEnv, .attach ⟨"h", "second", none⟩), (pairedEnv, .socketClosed "h" 0),
        (pairedEnv, .settle 1 (.connected ⟨"node", false⟩)), (pairedEnv, .lifecycleSettled "node"),
        (pairedEnv, .lifecycleSettled "node")] = some s ∧
      s.executed = [("node", .connected), ("node", .disconnected), ("node", .connected)] ∧
      s.Open "node" := by
  have h := @idle_agrees [(pairedEnv, .attach ⟨"h", "first", none⟩),
    (pairedEnv, .settle 0 (.connected ⟨"node", false⟩)), (pairedEnv, .lifecycleSettled "node"),
    (pairedEnv, .attach ⟨"h", "second", none⟩), (pairedEnv, .socketClosed "h" 0),
    (pairedEnv, .settle 1 (.connected ⟨"node", false⟩)), (pairedEnv, .lifecycleSettled "node"),
    (pairedEnv, .lifecycleSettled "node")] _ rfl (by decide) "node" rfl
  exact ⟨_, rfl, rfl, h.mp rfl⟩

/-- The socket closes while the transport attaches it: the disconnection runs
first, and the connection is what the node hears last. -/
theorem closed_while_attaching : ∃ s, run step new [(pairedEnv, .attach ⟨"h", "first", none⟩),
        ({ pairedEnv with attachCloses := true }, .settle 0 (.connected ⟨"node", false⟩)),
        (pairedEnv, .lifecycleSettled "node"), (pairedEnv, .lifecycleSettled "node")] = some s ∧
      s.nodeLifecycleOperations.get? "node" = none ∧
      lastExecuted s.executed "node" = some .connected ∧ ¬ s.Open "node" := by
  refine ⟨_, rfl, rfl, rfl, ?_⟩
  rintro ⟨nodeHandle, channel, hget, -⟩
  cases hget

end TaskHandoff.CloudNodes
