import TaskHandoff.Events.TransientSubscription
import TaskHandoff.Lib.Machine
import TaskHandoff.Lib.OrderedMap

/-! # The control-plane event bus

`ControlPlaneEventBus` delivers events to the connected sockets and announces
to its demand listeners which transient events and which resource metrics
anybody asks for. The model has the clients, the demands that other consumers
registered and, for each demand listener, the demand it was last called with.
Whether a socket is open, whether a frame fits its buffer and whether `send`
throws is the environment's choice. In-process event listeners, which no demand
counts, the keepalive timers and the encoding of the frames are left out.
-/

namespace TaskHandoff.Events

open OrderedMap List Option AiSessionEventType

def InstanceResourceMetricsTopic : String := "instances"

def InstanceResourceMetricsSnapshot : String := "instance.metrics.snapshot"

structure EventAuthorizationBinding where
  userId : String
  ownerUserId : Option String
  ownerAuthorizationRevision : Option Nat
  authorizationRevision : Nat
  permissionIds : List String
  allowedNodeIds : Option (List String)
  allowedInstanceIds : Option (List String)

structure EventSocket where
  topics : Option (List String)
  instanceIds : Option (List String)
  metricInstanceIds : Option (List String)
  aiSessionTransient : Option AiSessionTransientSubscription
  subscriptionReceived : Bool
  authorization : Option EventAuthorizationBinding

structure ConnectOptions where
  instanceIds : List String
  expectsTransientSubscription : Bool
  expectsMetricSubscription : Bool
  authorization : Option EventAuthorizationBinding

/-- A `subscribe` message; `topics` and the instance lists may be absent. -/
structure SubscribeMessage where
  topics : Option (List String)
  instanceIds : Option (List String)
  metricInstanceIds : Option (List String)
  aiSessionTransient : Option AiSessionTransientSubscription

structure ControlPlaneAiSessionTransientDemand where
  legacyAll : Bool
  subscription : AiSessionTransientSubscription

structure ControlPlaneResourceMetricDemand where
  all : Bool
  instanceIds : List String

/-! ## Filters -/

def NODE_DERIVED_EVENT_TOPICS : List String :=
  ["nodes", "node.state", "node.runtime", "instances", "app.sessions", "ai.sessions", "apps",
    "agents"]

def subscribedToAiSessionTransient (topics : Option (List String)) : Bool :=
  subscribed topics AiSessionEventTopic MessageDelta ||
    subscribed topics AiSessionEventTopic TimelineItem ||
    subscribed topics AiSessionEventTopic TimelineItemDelta

def subscribedInstance (instanceIds : Option (List String)) (scope : EventScope) : Bool :=
  match instanceIds, truthy scope.instanceId with
  | some ids, some id => id ∈ ids
  | _, _ => true

def acceptsResourceMetricInstance (metricInstanceIds : Option (List String))
    (event : EventEnvelope) : Bool :=
  if event.type ≠ InstanceResourceMetricsSnapshot then true
  else
    match metricInstanceIds with
    | none => true
    | some ids =>
      match truthy event.scope.instanceId with
      | some id => id ∈ ids
      | none => false

variable (client : EventSocket)

def subscribedAiSessionTransient (event : EventEnvelope) : Bool :=
  if isAiSessionTransient event.type = false then true
  else
    client.subscriptionReceived &&
      aiSessionTransientSubscriptionAccepts client.aiSessionTransient event

/-- The kinds that need `settings:manage`, which is also the permission to
resolve operation approvals. -/
def settingsEventTypes : List String :=
  ["operation-approval.changed", "cloud-node-relay.changed", "device-trust.changed",
    "node.control-plane-trust.changed"]

def authorizedEvent (event : EventEnvelope) : Bool :=
  match client.authorization with
  | none => event.type ∉ settingsEventTypes
  | some authorization =>
    let nodeId := truthy event.scope.nodeId
    if event.type ∈ settingsEventTypes then "settings:manage" ∈ authorization.permissionIds
    else if event.topic = "triggers" ∧ nodeId = none ∧ truthy event.scope.instanceId = none then
      "triggers:manage" ∈ authorization.permissionIds
    else
      let scopedInstanceIds :=
        (event.scope.instanceId.toList ++ event.scope.instanceIds).filter fun id => id ≠ ""
      let nodeDenied :=
        match nodeId, authorization.allowedNodeIds with
        | some id, some allowed => id ∉ allowed
        | _, _ => false
      let instanceDenied :=
        match authorization.allowedInstanceIds with
        | some allowed => scopedInstanceIds.any fun id => id ∉ allowed
        | none => false
      if nodeDenied || instanceDenied then false
      else if nodeId.isSome || !scopedInstanceIds.isEmpty then true
      else if authorization.allowedNodeIds.isNone && authorization.allowedInstanceIds.isNone then
        true
      else event.topic ∉ NODE_DERIVED_EVENT_TOPICS

def allowedInstanceIds : Option (List String) :=
  client.authorization.bind (·.allowedInstanceIds)

def authorizedInstanceSubscription (requested : Option (List String)) : Option (List String) :=
  let requested := requested.getD []
  match allowedInstanceIds client with
  | none => if requested.isEmpty then none else some requested
  | some allowed =>
    some (if requested.isEmpty then allowed else requested.filter fun id => id ∈ allowed)

def authorizedMetricInstanceSubscription (requested : Option (List String)) : Option (List String) :=
  requested.map fun requested =>
    match allowedInstanceIds client with
    | none => requested
    | some allowed => requested.filter fun id => id ∈ allowed

def authorizedTransientSubscription (subscription : Option AiSessionTransientSubscription) :
    Option AiSessionTransientSubscription :=
  match allowedInstanceIds client, subscription with
  | none, subscription => subscription
  | some allowed, none => some ⟨none, ⟨false, allowed⟩, false, []⟩
  | some allowed, some subscription =>
    some { subscription with
      messageDeltas :=
        ⟨false, if subscription.messageDeltas.allInstances then allowed
          else subscription.messageDeltas.instanceIds.filter fun id => id ∈ allowed⟩
      timelineAllSessions := false
      timelineSessions :=
        subscription.timelineSessions.filter fun entry => entry.instanceId ∈ allowed }

def earlierReplaySince (current candidate : Option String) : Option String :=
  match truthy candidate with
  | none => current
  | some candidate =>
    match truthy current with
    | none => some candidate
    | some current => if candidate < current then some candidate else some current

/-! ## The bus -/

structure ControlPlaneEventBus where
  clients : OrderedMap Nat EventSocket
  externalTransientDemands : OrderedMap Nat (Option AiSessionTransientSubscription)
  externalResourceMetricDemands : OrderedMap Nat (Option (List String))
  transientDemandListeners : OrderedMap Nat ControlPlaneAiSessionTransientDemand
  resourceMetricDemandListeners : OrderedMap Nat ControlPlaneResourceMetricDemand

namespace ControlPlaneEventBus

def new : ControlPlaneEventBus :=
  ⟨OrderedMap.empty, OrderedMap.empty, OrderedMap.empty, OrderedMap.empty, OrderedMap.empty⟩

variable (demand : ControlPlaneAiSessionTransientDemand)

/-- The demand so far joined with one more subscription; absence asks for the full stream. -/
def addTransientDemand :
    Option AiSessionTransientSubscription → ControlPlaneAiSessionTransientDemand
  | none => { demand with legacyAll := true }
  | some s =>
    { demand with
      subscription :=
        { replaySince := earlierReplaySince demand.subscription.replaySince s.replaySince
          messageDeltas :=
            ⟨demand.subscription.messageDeltas.allInstances || s.messageDeltas.allInstances,
              addAll demand.subscription.messageDeltas.instanceIds s.messageDeltas.instanceIds⟩
          timelineAllSessions :=
            demand.subscription.timelineAllSessions || s.timelineAllSessions
          timelineSessions :=
            addAll demand.subscription.timelineSessions s.timelineSessions } }

/-- The clients whose subscription counts for the transient demand. -/
def transientDemandClients (b : ControlPlaneEventBus) : List EventSocket :=
  b.clients.values.filter fun client =>
    client.subscriptionReceived && subscribedToAiSessionTransient client.topics

/-- The returned demand: the full stream sets both wildcards. -/
def withWildcards : ControlPlaneAiSessionTransientDemand :=
  { demand with
    subscription :=
      { demand.subscription with
        messageDeltas :=
          { demand.subscription.messageDeltas with
            allInstances :=
              demand.legacyAll || demand.subscription.messageDeltas.allInstances }
        timelineAllSessions := demand.legacyAll || demand.subscription.timelineAllSessions } }

/-- The subscriptions the two loops run over. -/
def transientDemands (b : ControlPlaneEventBus) : List (Option AiSessionTransientSubscription) :=
  b.transientDemandClients.map (·.aiSessionTransient) ++ b.externalTransientDemands.values

def aiSessionTransientDemand (b : ControlPlaneEventBus) : ControlPlaneAiSessionTransientDemand :=
  withWildcards (b.transientDemands.foldl addTransientDemand ⟨false, .empty⟩)

def addResourceMetricDemand (demand : ControlPlaneResourceMetricDemand) :
    Option (List String) → ControlPlaneResourceMetricDemand
  | none => { demand with all := true }
  | some ids => { demand with instanceIds := addAll demand.instanceIds ids }

def resourceMetricDemandClients (b : ControlPlaneEventBus) : List EventSocket :=
  b.clients.values.filter fun client =>
    subscribed client.topics InstanceResourceMetricsTopic InstanceResourceMetricsSnapshot

def resourceMetricDemands (b : ControlPlaneEventBus) : List (Option (List String)) :=
  b.resourceMetricDemandClients.map (·.metricInstanceIds) ++ b.externalResourceMetricDemands.values

def resourceMetricDemand (b : ControlPlaneEventBus) : ControlPlaneResourceMetricDemand :=
  b.resourceMetricDemands.foldl addResourceMetricDemand ⟨false, []⟩

def publishTransientDemand (b : ControlPlaneEventBus) : ControlPlaneEventBus :=
  { b with
    transientDemandListeners :=
      b.transientDemandListeners.mapValues fun _ => b.aiSessionTransientDemand }

def publishResourceMetricDemand (b : ControlPlaneEventBus) : ControlPlaneEventBus :=
  { b with
    resourceMetricDemandListeners :=
      b.resourceMetricDemandListeners.mapValues fun _ => b.resourceMetricDemand }

def publishDemand (b : ControlPlaneEventBus) : ControlPlaneEventBus :=
  b.publishTransientDemand.publishResourceMetricDemand

def connect (b : ControlPlaneEventBus) (id : Nat) (options : ConnectOptions) :
    ControlPlaneEventBus :=
  let socket : EventSocket :=
    { topics := some ["*"]
      instanceIds := if options.instanceIds.isEmpty then none else some options.instanceIds
      metricInstanceIds := if options.expectsMetricSubscription then some [] else none
      aiSessionTransient := none
      subscriptionReceived := !options.expectsTransientSubscription &&
        (options.authorization.bind (·.allowedInstanceIds)).isNone
      authorization := options.authorization }
  publishDemand { b with clients := b.clients.set id socket }

/-- The close event of a socket, also of one that is no client any more. -/
def socketClosed (b : ControlPlaneEventBus) (id : Nat) : ControlPlaneEventBus :=
  publishDemand { b with clients := b.clients.erase id }

/-- A socket that is no client any more keeps its own fields, which nothing reads. -/
def subscribe (b : ControlPlaneEventBus) (id : Nat) (message : SubscribeMessage) :
    ControlPlaneEventBus :=
  match b.clients.get? id with
  | none => b.publishDemand
  | some socket =>
    publishDemand { b with
      clients := b.clients.set id
        { socket with
          topics := some (message.topics.getD ["*"])
          instanceIds := authorizedInstanceSubscription socket message.instanceIds
          metricInstanceIds :=
            authorizedMetricInstanceSubscription socket message.metricInstanceIds
          aiSessionTransient :=
            authorizedTransientSubscription socket message.aiSessionTransient
          subscriptionReceived := true } }

def audienceMatches (client : EventSocket) (audienceUserId : Option String) : Bool :=
  match truthy audienceUserId with
  | none => true
  | some user =>
    match client.authorization with
    | none => false
    | some authorization => authorization.userId = user || authorization.ownerUserId = some user

/-- The condition under which `publish` sends the event to the client. -/
def delivers (client : EventSocket) (isOpen : Bool) (event : EventEnvelope)
    (audienceUserId : Option String) : Bool :=
  isOpen && audienceMatches client audienceUserId && authorizedEvent client event &&
    subscribed client.topics event.topic event.type &&
    subscribedInstance client.instanceIds event.scope &&
    acceptsResourceMetricInstance client.metricInstanceIds event &&
    subscribedAiSessionTransient client event

/-- The rounds of the delivery loop: `sent` says of each client whether its
frame fits and `send` returns; otherwise it is dropped and the demand announced. -/
def deliverTo (b : ControlPlaneEventBus) (event : EventEnvelope) (audienceUserId : Option String)
    (isOpen sent : Nat → Bool) : List (Nat × EventSocket) → ControlPlaneEventBus
  | [] => b
  | (id, client) :: rest =>
    if delivers client (isOpen id) event audienceUserId && !sent id then
      deliverTo (b.socketClosed id) event audienceUserId isOpen sent rest
    else deliverTo b event audienceUserId isOpen sent rest

def publish (b : ControlPlaneEventBus) (event : EventEnvelope) (audienceUserId : Option String)
    (isOpen sent : Nat → Bool) : ControlPlaneEventBus :=
  b.deliverTo event audienceUserId isOpen sent b.clients.entries

/-- The authorization of the client is bound to an older revision of the user. -/
def invalidated (client : EventSocket) (userId : String) (revision : Nat) : Bool :=
  match client.authorization with
  | none => false
  | some binding =>
    if binding.userId = userId then binding.authorizationRevision ≠ revision
    else if binding.ownerUserId = some userId then
      binding.ownerAuthorizationRevision ≠ some revision
    else false

def invalidateUserAuthorization (b : ControlPlaneEventBus) (userId : String) (revision : Nat) :
    ControlPlaneEventBus :=
  let dropped := b.clients.entries.filter fun e => invalidated e.2 userId revision
  publishDemand { b with clients := dropped.foldl (fun clients e => clients.erase e.1) b.clients }

/-! ## Runs -/

inductive Action where
  | connect (id : Nat) (options : ConnectOptions)
  | socketClosed (id : Nat)
  | subscribe (id : Nat) (message : SubscribeMessage)
  | publish (event : EventEnvelope) (audienceUserId : Option String) (isOpen sent : Nat → Bool)
  | invalidate (userId : String) (revision : Nat)
  | onTransientDemand (listener : Nat)
  | offTransientDemand (listener : Nat)
  | onResourceMetricDemand (listener : Nat)
  | offResourceMetricDemand (listener : Nat)
  | registerTransientDemand (token : Nat) (subscription : Option AiSessionTransientSubscription)
  | unregisterTransientDemand (token : Nat)
  | registerResourceMetricDemand (token : Nat) (instanceIds : Option (List String))
  | unregisterResourceMetricDemand (token : Nat)

/-- A listener is called with the current demand when it is added. The ids of a
registered metric demand are those that `normalizedInstanceIds` left. -/
def apply (b : ControlPlaneEventBus) : Action → ControlPlaneEventBus
  | .connect id options => b.connect id options
  | .socketClosed id => b.socketClosed id
  | .subscribe id message => b.subscribe id message
  | .publish event audienceUserId isOpen sent => b.publish event audienceUserId isOpen sent
  | .invalidate userId revision => b.invalidateUserAuthorization userId revision
  | .onTransientDemand listener =>
    { b with
      transientDemandListeners :=
        b.transientDemandListeners.set listener b.aiSessionTransientDemand }
  | .offTransientDemand listener =>
    { b with transientDemandListeners := b.transientDemandListeners.erase listener }
  | .onResourceMetricDemand listener =>
    { b with
      resourceMetricDemandListeners :=
        b.resourceMetricDemandListeners.set listener b.resourceMetricDemand }
  | .offResourceMetricDemand listener =>
    { b with resourceMetricDemandListeners := b.resourceMetricDemandListeners.erase listener }
  | .registerTransientDemand token subscription =>
    publishTransientDemand
      { b with
        externalTransientDemands := b.externalTransientDemands.set token subscription }
  | .unregisterTransientDemand token =>
    publishTransientDemand
      { b with externalTransientDemands := b.externalTransientDemands.erase token }
  | .registerResourceMetricDemand token instanceIds =>
    publishResourceMetricDemand
      { b with
        externalResourceMetricDemands :=
          b.externalResourceMetricDemands.set token instanceIds }
  | .unregisterResourceMetricDemand token =>
    publishResourceMetricDemand
      { b with externalResourceMetricDemands := b.externalResourceMetricDemands.erase token }

def step (b : ControlPlaneEventBus) (a : Action) : Option ControlPlaneEventBus :=
  some (b.apply a)

/-! ## Announcements -/

/-- Every listener was last called with the demand as it is now. -/
structure Announced (b : ControlPlaneEventBus) : Prop where
  transient : ∀ listener demand, b.transientDemandListeners.get? listener = some demand →
    demand = b.aiSessionTransientDemand
  metric : ∀ listener demand, b.resourceMetricDemandListeners.get? listener = some demand →
    demand = b.resourceMetricDemand

theorem announced_new : Announced new := by constructor <;> simp [new]

variable {b : ControlPlaneEventBus}

theorem announced_publishTransientDemand
    (hmetric : ∀ listener demand, b.resourceMetricDemandListeners.get? listener = some demand →
      demand = b.resourceMetricDemand) : Announced b.publishTransientDemand where
  transient listener demand h := by
    simp only [publishTransientDemand, get?_mapValues, map_eq_some_iff] at h
    obtain ⟨-, -, hdemand⟩ := h
    exact hdemand.symm
  metric := hmetric

theorem announced_publishResourceMetricDemand
    (htransient : ∀ listener demand, b.transientDemandListeners.get? listener = some demand →
      demand = b.aiSessionTransientDemand) : Announced b.publishResourceMetricDemand where
  transient := htransient
  metric listener demand h := by
    simp only [publishResourceMetricDemand, get?_mapValues, map_eq_some_iff] at h
    obtain ⟨-, -, hdemand⟩ := h
    exact hdemand.symm

theorem announced_publishDemand (b : ControlPlaneEventBus) : Announced b.publishDemand := by
  refine announced_publishResourceMetricDemand ?_
  intro listener demand h
  simp only [publishTransientDemand, get?_mapValues, map_eq_some_iff] at h
  obtain ⟨-, -, hdemand⟩ := h
  exact hdemand.symm

theorem announced_deliverTo (hb : Announced b) (event : EventEnvelope)
    (audienceUserId : Option String) (isOpen sent : Nat → Bool) (clients : List
    (Nat × EventSocket)) : Announced (b.deliverTo event audienceUserId isOpen sent clients) := by
  induction clients generalizing b with
  | nil => exact hb
  | cons entry rest ih =>
    simp only [deliverTo]
    split
    · exact ih (announced_publishDemand _)
    · exact ih hb

theorem announced_apply (hb : Announced b) (a : Action) : Announced (b.apply a) := by
  cases a with
  | connect id options => exact announced_publishDemand _
  | socketClosed id => exact announced_publishDemand _
  | subscribe id message =>
    simp only [apply, subscribe]
    split
    · exact announced_publishDemand _
    · exact announced_publishDemand _
  | publish event audienceUserId isOpen sent => exact announced_deliverTo hb _ _ _ _ _
  | invalidate userId revision => exact announced_publishDemand _
  | onTransientDemand listener =>
    refine ⟨?_, hb.metric⟩
    intro other demand h
    obtain ⟨-, rfl⟩ | ⟨-, hold⟩ := get?_set_eq_some h
    · rfl
    · exact hb.transient other demand hold
  | offTransientDemand listener =>
    refine ⟨?_, hb.metric⟩
    intro other demand h
    exact hb.transient other demand (get?_erase_eq_some h).2
  | onResourceMetricDemand listener =>
    refine ⟨hb.transient, ?_⟩
    intro other demand h
    obtain ⟨-, rfl⟩ | ⟨-, hold⟩ := get?_set_eq_some h
    · rfl
    · exact hb.metric other demand hold
  | offResourceMetricDemand listener =>
    refine ⟨hb.transient, ?_⟩
    intro other demand h
    exact hb.metric other demand (get?_erase_eq_some h).2
  | registerTransientDemand token subscription => exact announced_publishTransientDemand hb.metric
  | unregisterTransientDemand token => exact announced_publishTransientDemand hb.metric
  | registerResourceMetricDemand token instanceIds =>
    exact announced_publishResourceMetricDemand hb.transient
  | unregisterResourceMetricDemand token => exact announced_publishResourceMetricDemand hb.transient

theorem run_announced {as : List Action} (h : Machine.run step new as = some b) : Announced b := by
  refine Machine.run_invariant ?_ h announced_new
  intro s a t ht hs
  cases ht
  exact announced_apply hs a

/-! ## The demand covers what is delivered -/

open AiSessionTransientSubscription

theorem widens_addTransientDemand (s : Option AiSessionTransientSubscription) :
    Widens (addTransientDemand demand s).subscription demand.subscription := by
  cases s with
  | none => exact Widens.refl _
  | some s => constructor <;> simp +contextual [addTransientDemand]

theorem addTransientDemand_widens (s : AiSessionTransientSubscription) :
    Widens (addTransientDemand demand (some s)).subscription s := by
  constructor <;> simp +contextual [addTransientDemand]

theorem widens_foldl (l : List (Option AiSessionTransientSubscription))
    (demand : ControlPlaneAiSessionTransientDemand) :
    Widens (l.foldl addTransientDemand demand).subscription demand.subscription := by
  induction l generalizing demand with
  | nil => exact Widens.refl _
  | cons s rest ih => exact (ih _).trans (widens_addTransientDemand demand s)

theorem foldl_widens {l : List (Option AiSessionTransientSubscription)}
    {s : AiSessionTransientSubscription} (h : some s ∈ l)
    (demand : ControlPlaneAiSessionTransientDemand) :
    Widens (l.foldl addTransientDemand demand).subscription s := by
  induction l generalizing demand with
  | nil => cases h
  | cons t rest ih =>
    rcases mem_cons.mp h with rfl | hrest
    · exact (widens_foldl rest _).trans (addTransientDemand_widens demand s)
    · exact ih hrest _

theorem legacyAll_foldl (l : List (Option AiSessionTransientSubscription))
    (demand : ControlPlaneAiSessionTransientDemand) (h : demand.legacyAll = true ∨ none ∈ l) :
    (l.foldl addTransientDemand demand).legacyAll = true := by
  induction l generalizing demand with
  | nil => exact h.resolve_right not_mem_nil
  | cons s rest ih =>
    apply ih
    rcases h with hdemand | hmem
    · cases s with
      | none => exact .inl rfl
      | some s => exact .inl hdemand
    rcases mem_cons.mp hmem with rfl | hrest
    · exact .inl rfl
    · exact .inr hrest

theorem withWildcards_widens : Widens (withWildcards demand).subscription demand.subscription := by
  constructor <;> simp +contextual [withWildcards]

variable {client : EventSocket} {event : EventEnvelope}

theorem transientDemand_accepts (hclient : client ∈ b.transientDemandClients)
    (ha : aiSessionTransientSubscriptionAccepts client.aiSessionTransient event = true) :
    aiSessionTransientSubscriptionAccepts (some b.aiSessionTransientDemand.subscription) event =
      true := by
  have hmem : client.aiSessionTransient ∈ b.transientDemands :=
    mem_append_left _ (mem_map_of_mem hclient)
  unfold aiSessionTransientDemand
  cases hsub : client.aiSessionTransient with
  | none =>
    rw [hsub] at hmem
    have hlegacy := legacyAll_foldl _ ⟨false, .empty⟩ (.inr hmem)
    exact accepts_of_wildcards (by simp [withWildcards, hlegacy])
      (by simp [withWildcards, hlegacy]) event
  | some s =>
    rw [hsub] at hmem ha
    have hfold := foldl_widens hmem ⟨false, .empty⟩
    exact ((withWildcards_widens _).trans hfold).accepts ha

theorem foldl_metric {l : List (Option (List String))} (demand : ControlPlaneResourceMetricDemand) :
    ((demand.all = true ∨ none ∈ l) → (l.foldl addResourceMetricDemand demand).all = true) ∧
      ∀ id, (id ∈ demand.instanceIds ∨ ∃ ids, some ids ∈ l ∧ id ∈ ids) →
        id ∈ (l.foldl addResourceMetricDemand demand).instanceIds := by
  induction l generalizing demand with
  | nil => exact ⟨fun h => h.resolve_right not_mem_nil, by simp⟩
  | cons s rest ih =>
    cases s with
    | none =>
      refine ⟨fun _ => (ih _).1 (.inl rfl), fun id h => (ih _).2 id ?_⟩
      rcases h with hid | ⟨ids, hmem, hid⟩
      · exact .inl hid
      · exact .inr ⟨ids, (mem_cons.mp hmem).resolve_left (some_ne_none _), hid⟩
    | some given =>
      refine ⟨fun h => (ih _).1 (h.imp id fun hmem => ?_), fun id h => (ih _).2 id ?_⟩
      · exact (mem_cons.mp hmem).resolve_left (some_ne_none _).symm
      rcases h with hid | ⟨ids, hmem, hid⟩
      · exact .inl (mem_addAll.mpr (.inl hid))
      rcases mem_cons.mp hmem with hgiven | hrest
      · exact .inl (mem_addAll.mpr (.inr (some.inj hgiven ▸ hid)))
      · exact .inr ⟨ids, hrest, hid⟩

/-- The demand as the filter that the nodes apply. -/
def ControlPlaneResourceMetricDemand.accepts (demand : ControlPlaneResourceMetricDemand)
    (event : EventEnvelope) : Bool :=
  acceptsResourceMetricInstance (if demand.all then none else some demand.instanceIds) event

theorem resourceMetricDemand_accepts (hclient : client ∈ b.resourceMetricDemandClients)
    (ha : acceptsResourceMetricInstance client.metricInstanceIds event = true) :
    ControlPlaneResourceMetricDemand.accepts b.resourceMetricDemand event = true := by
  have hmem : client.metricInstanceIds ∈ b.resourceMetricDemands :=
    mem_append_left _ (mem_map_of_mem hclient)
  obtain ⟨hall, hids⟩ := foldl_metric (l := b.resourceMetricDemands) ⟨false, []⟩
  unfold ControlPlaneResourceMetricDemand.accepts
  cases hdemand : b.resourceMetricDemand.all with
  | true => simp [acceptsResourceMetricInstance]
  | false =>
    cases hscope : client.metricInstanceIds with
    | none =>
      rw [hscope] at hmem
      have htrue : b.resourceMetricDemand.all = true := hall (.inr hmem)
      rw [hdemand] at htrue
      cases htrue
    | some ids =>
      rw [hscope] at hmem ha
      simp only [acceptsResourceMetricInstance, Bool.false_eq_true, if_false] at ha ⊢
      split
      · rfl
      rename_i htype
      rw [if_neg htype] at ha
      cases hid : truthy event.scope.instanceId with
      | none => simp [hid] at ha
      | some id =>
        simp only [hid, decide_eq_true_eq] at ha ⊢
        exact hids id (.inr ⟨ids, hmem, ha⟩)

/-- The event is on the topic of its kind, or the client does not select the
topic it is on. -/
def OwnTopic (own : String) (client : EventSocket) (event : EventEnvelope) : Prop :=
  event.topic = own ∨ ∀ topics, client.topics = some topics → event.topic ∉ topics

theorem OwnTopic.subscribed {own : String} (h : OwnTopic own client event)
    (hsub : subscribed client.topics event.topic event.type = true) :
    subscribed client.topics own event.type = true := by
  rcases h with rfl | hnot
  · exact hsub
  cases htopics : client.topics with
  | none => rfl
  | some topics =>
    rw [htopics] at hsub
    have hforeign := hnot topics htopics
    simp only [Events.subscribed, hforeign, decide_false, Bool.or_false,
      Bool.or_eq_true, decide_eq_true_eq] at hsub ⊢
    rcases hsub with hstar | htype
    · exact .inl (.inl hstar)
    · exact .inr htype

theorem subscribedToAiSessionTransient_of_type {topics : Option (List String)} {type : String}
    (htype : isAiSessionTransient type = true)
    (h : subscribed topics AiSessionEventTopic type = true) :
    subscribedToAiSessionTransient topics = true := by
  simp only [isAiSessionTransient, Bool.or_eq_true, decide_eq_true_eq] at htype
  rcases htype with (rfl | rfl) | rfl
  · simp [subscribedToAiSessionTransient, h]
  · simp [subscribedToAiSessionTransient, h]
  · simp [subscribedToAiSessionTransient, h]

theorem delivers_parts {isOpen : Bool} {audienceUserId : Option String}
    (h : delivers client isOpen event audienceUserId = true) :
    subscribed client.topics event.topic event.type = true ∧
      acceptsResourceMetricInstance client.metricInstanceIds event = true ∧
      subscribedAiSessionTransient client event = true := by
  simp only [delivers, Bool.and_eq_true] at h
  exact ⟨h.1.1.1.2, h.1.2, h.2⟩

/-- What `publish` would deliver to a client is asked for by the demand that
every listener was last called with. -/
theorem delivered_demanded {b : ControlPlaneEventBus} {as : List Action}
    (h : Machine.run step new as = some b) {id : Nat} {client : EventSocket}
    (hclient : b.clients.get? id = some client) {isOpen : Bool} {event : EventEnvelope}
    {audienceUserId : Option String} (hd : delivers client isOpen event audienceUserId = true) :
    (isAiSessionTransient event.type = true → OwnTopic AiSessionEventTopic client event →
        ∀ listener demand, b.transientDemandListeners.get? listener = some demand →
          demand = b.aiSessionTransientDemand ∧
            aiSessionTransientSubscriptionAccepts (some demand.subscription) event = true) ∧
      (event.type = InstanceResourceMetricsSnapshot →
        OwnTopic InstanceResourceMetricsTopic client event →
        ∀ listener demand, b.resourceMetricDemandListeners.get? listener = some demand →
          demand = b.resourceMetricDemand ∧
            ControlPlaneResourceMetricDemand.accepts demand event = true) := by
  have hannounced := run_announced h
  obtain ⟨hsub, hmetric, htransient⟩ := delivers_parts hd
  have hvalue : client ∈ b.clients.values := mem_values.mpr ⟨id, hclient⟩
  constructor
  · intro htype hown listener demand hlistener
    have hcurrent := hannounced.transient listener demand hlistener
    subst hcurrent
    have htopics := subscribedToAiSessionTransient_of_type htype (hown.subscribed hsub)
    have hboth : client.subscriptionReceived = true ∧
        aiSessionTransientSubscriptionAccepts client.aiSessionTransient event = true := by
      simpa [subscribedAiSessionTransient, htype] using htransient
    have hcounted : client ∈ b.transientDemandClients := by
      simp [transientDemandClients, hvalue, hboth.1, htopics]
    exact ⟨rfl, transientDemand_accepts hcounted hboth.2⟩
  · intro htype hown listener demand hlistener
    have hcurrent := hannounced.metric listener demand hlistener
    subst hcurrent
    have htopics := hown.subscribed hsub
    rw [htype] at htopics
    have hcounted : client ∈ b.resourceMetricDemandClients := by
      simp [resourceMetricDemandClients, hvalue, htopics]
    exact ⟨rfl, resourceMetricDemand_accepts hcounted hmetric⟩

/-- A listener, and a client that asks for the deltas of one instance. -/
def scopedRun : List Action :=
  [.onTransientDemand 0, .connect 7 ⟨[], true, true, none⟩,
    .subscribe 7 ⟨none, none, some [], some ⟨none, ⟨false, ["inst_a"]⟩, false, []⟩⟩]

def deltaOn (topic : String) : EventEnvelope :=
  ⟨MessageDelta, topic, ⟨some "inst_a", some "session_1"⟩,
    ⟨some "node_1", some "inst_a", []⟩⟩

theorem delivered_demanded_scoped : ∃ b client demand, Machine.run step new scopedRun = some b ∧
      b.clients.get? 7 = some client ∧
      delivers client true (deltaOn AiSessionEventTopic) none = true ∧
      b.transientDemandListeners.get? 0 = some demand ∧
      demand = b.aiSessionTransientDemand ∧
      aiSessionTransientSubscriptionAccepts (some demand.subscription)
        (deltaOn AiSessionEventTopic) = true := by
  refine ⟨_, _, _, rfl, rfl, by decide, rfl, ?_⟩
  have hboth := @delivered_demanded _ scopedRun rfl 7 _ rfl true (deltaOn AiSessionEventTopic) none
    (by decide)
  exact hboth.1 (by decide) (.inl rfl) 0 _ rfl

/-- A client that selects a topic of its own and asks for the full transient stream. -/
def foreignTopicRun : List Action :=
  [.onTransientDemand 0, .connect 7 ⟨[], true, true, none⟩,
    .subscribe 7 ⟨some ["custom"], none, none, none⟩]

/-- A delta published under that topic is delivered, but nobody asked for it. -/
theorem delivered_undemanded : ∃ b client demand, Machine.run step new foreignTopicRun = some b ∧
      b.clients.get? 7 = some client ∧
      delivers client true (deltaOn "custom") none = true ∧
      b.transientDemandListeners.get? 0 = some demand ∧ demand.legacyAll = false ∧
      aiSessionTransientSubscriptionAccepts (some demand.subscription) (deltaOn "custom") =
        false := by
  refine ⟨_, _, _, rfl, rfl, ?_, rfl, ?_⟩
  · decide
  · decide

end ControlPlaneEventBus

end TaskHandoff.Events
