import Mathlib.Data.List.Sort
import TaskHandoff.AiSessions.Stream
import TaskHandoff.Events.TransientSubscription
import TaskHandoff.Lib.ForestTraversal
import TaskHandoff.Lib.ParentCycles

/-! # Deriving the session forest

A subagent names its parent by instance, agent and provider session id. The
forest is derived from the flat session list: index the identities, look up the
named parents, take the parents of cycle members away, link the rest, fold the
activity of every subtree into its root and sort the siblings.
-/

namespace TaskHandoff.AiSessions

open TaskHandoff.Events (truthy)

/-! ## Records, diagnostics and nodes -/

/-- The fields of a session that the hierarchy reads. -/
structure AiSessionHierarchyRecord where
  id : String
  instanceId : Option String
  agent : String
  providerSessionId : Option String
  lineage : Option AiSessionLineage
  lastUserMessageAt : Option String
  updatedAt : String
  completedAt : Option String
deriving DecidableEq

inductive AiSessionHierarchyDiagnosticCode where
  | duplicateProviderIdentity
  | orphanParent
  | crossAgentParent
  | crossInstanceParent
  | selfParent
  | cycle
deriving DecidableEq

structure AiSessionHierarchyDiagnostic where
  sessionId : String
  code : AiSessionHierarchyDiagnosticCode
  parentProviderSessionId : Option String
deriving DecidableEq

inductive AiSessionForestOrder where
  | updatedAt
  | lastUserMessage
deriving DecidableEq

/-- A node object: the session it was made for and its position, which tells it from others. -/
structure AiSessionNode where
  index : Nat
  session : AiSessionHierarchyRecord
deriving DecidableEq

/-- The fields of a node object that the derivation writes. An absent activity text is the
`completedAt` of a session whose `updatedAt` lies before the epoch. -/
structure AiSessionNodeFields where
  parentSessionId : Option String
  children : List AiSessionNode
  aggregateUpdatedAt : Option String
  aggregateLastActiveAt : Option String

structure AiSessionForest where
  roots : List AiSessionNode
  nodesById : OrderedMap String AiSessionNode
  diagnostics : List AiSessionHierarchyDiagnostic
  fields : AiSessionNode → AiSessionNodeFields

def AiSessionLineage.parentProviderSessionId : AiSessionLineage → String
  | .fork parentProviderSessionId _ => parentProviderSessionId
  | .subagent parentProviderSessionId => parentProviderSessionId

/-! ## Keys and times -/

def identityKey (instanceId : Option String) (agent : String)
    (providerSessionId : Option String) : String :=
  (truthy instanceId).getD "" ++ "\x00" ++ agent ++ "\x00" ++ (truthy providerSessionId).getD ""

def stableHierarchyKey (session : AiSessionHierarchyRecord) : String :=
  (truthy session.instanceId).getD "" ++ "\x00" ++ session.agent ++ "\x00" ++
    (truthy session.providerSessionId).getD session.id ++ "\x00" ++ session.id

section Times

-- `Date.parse`, absent where the text is no date.
variable (dateParse : String → Option Int)

def timestamp (value : Option String) : Int :=
  match truthy value with
  | some text => (dateParse text).getD 0
  | none => 0

def latestTimestamp (left right : Option String) : Option String :=
  if timestamp dateParse left < timestamp dateParse right then right else left

def ownLastActiveAt (session : AiSessionHierarchyRecord) : Option String :=
  if timestamp dateParse (some session.updatedAt) < timestamp dateParse session.completedAt then
    session.completedAt
  else some session.updatedAt

end Times

/-! ## Provider identities -/

structure ProviderIndex where
  nodesByIdentity : OrderedMap String AiSessionNode
  nodesByProviderId : OrderedMap String (List AiSessionNode)
  diagnostics : List AiSessionHierarchyDiagnostic

variable (index : ProviderIndex)

def indexNode (node : AiSessionNode) : ProviderIndex :=
  match truthy node.session.providerSessionId with
  | none => index
  | some providerSessionId =>
    let key := identityKey node.session.instanceId node.session.agent (some providerSessionId)
    let known := index.nodesByIdentity.contains key
    { nodesByIdentity :=
        if known then index.nodesByIdentity else index.nodesByIdentity.set key node
      nodesByProviderId :=
        index.nodesByProviderId.set providerSessionId
          ((index.nodesByProviderId.get? providerSessionId).getD [] ++ [node])
      diagnostics :=
        if known then
          index.diagnostics ++ [⟨node.session.id, .duplicateProviderIdentity, none⟩]
        else index.diagnostics }

variable (nodes : List AiSessionNode)

def providerIndex : ProviderIndex :=
  nodes.foldl indexNode ⟨.empty, .empty, []⟩

/-! ## Candidate parents -/

/-- What looking up the named parent of a node comes to. -/
inductive ParentLookup where
  | unnamed
  | rejected (code : AiSessionHierarchyDiagnosticCode) (parentProviderSessionId : String)
  | candidate (parentId : String)

def lookupParent (node : AiSessionNode) : ParentLookup :=
  match node.session.lineage with
  | some (.subagent parentProviderSessionId) =>
    match index.nodesByIdentity.get?
        (identityKey node.session.instanceId node.session.agent
          (some parentProviderSessionId)) with
    | none =>
      let sameProvider := (index.nodesByProviderId.get? parentProviderSessionId).getD []
      let code : AiSessionHierarchyDiagnosticCode :=
        if sameProvider.any (·.session.instanceId ≠ node.session.instanceId) then
          .crossInstanceParent
        else if sameProvider.any (·.session.agent ≠ node.session.agent) then .crossAgentParent
        else .orphanParent
      .rejected code parentProviderSessionId
    | some parent =>
      if parent.session.id = node.session.id then
        .rejected .selfParent parentProviderSessionId
      else .candidate parent.session.id
  | _ => .unnamed

def lookupDiagnostic (node : AiSessionNode) : Option AiSessionHierarchyDiagnostic :=
  match lookupParent index node with
  | .rejected code parentProviderSessionId =>
    some ⟨node.session.id, code, some parentProviderSessionId⟩
  | _ => none

def setCandidate (candidateParents : OrderedMap String String)
    (node : AiSessionNode) : OrderedMap String String :=
  match lookupParent index node with
  | .candidate parentId => candidateParents.set node.session.id parentId
  | _ => candidateParents

def candidateParents : OrderedMap String String :=
  nodes.foldl (setCandidate (providerIndex nodes)) .empty

/-! ## Cycles -/

/-- The parent a node's id leads to; an empty id leads nowhere. -/
def parentIn (parents : OrderedMap String String) (id : String) : Option String :=
  truthy (parents.get? id)

def cycleMarks : ParentCycles.Marks String :=
  nodes.foldl
    (fun marks node =>
      if node.session.id ∈ marks.complete then marks
      else
        ParentCycles.markFrom (parentIn (candidateParents nodes)) (nodes.length + 1) marks
          (truthy (some node.session.id)))
    ⟨[], []⟩

/-- The candidate parents after those of the cycle members are deleted. -/
def settledParents : OrderedMap String String :=
  (cycleMarks nodes).cycleMembers.foldl (fun parents id => parents.erase id)
    (candidateParents nodes)

def cycleDiagnostic (nodesById : OrderedMap String AiSessionNode) (sessionId : String) :
    AiSessionHierarchyDiagnostic where
  sessionId := sessionId
  code := .cycle
  parentProviderSessionId := (nodesById.get? sessionId).bind fun node =>
    node.session.lineage.map AiSessionLineage.parentProviderSessionId

/-! ## Linking -/

def sessionNodes (sessions : List AiSessionHierarchyRecord) : List AiSessionNode :=
  sessions.zipIdx.map fun entry => ⟨entry.2, entry.1⟩

def indexNodesById : OrderedMap String AiSessionNode :=
  .ofList (nodes.map fun node => (node.session.id, node))

def parentNode (node : AiSessionNode) : Option AiSessionNode :=
  (parentIn (settledParents nodes) node.session.id).bind (indexNodesById nodes).get?

/-- The nodes the linking loop pushes to a parent, in the order of the list. -/
def linkedChildren (parent : AiSessionNode) : List AiSessionNode :=
  nodes.filter fun node => parentNode nodes node = some parent

def linkedRoots : List AiSessionNode :=
  nodes.filter fun node => parentNode nodes node = none

section Derive

variable (dateParse : String → Option Int) (localeCompare : String → String → Int)

def linkedFields (nodes : List AiSessionNode) (node : AiSessionNode) : AiSessionNodeFields where
  parentSessionId := (parentNode nodes node).map (·.session.id)
  children := linkedChildren nodes node
  aggregateUpdatedAt := some node.session.updatedAt
  aggregateLastActiveAt := ownLastActiveAt dateParse node.session

/-! ## Aggregation and order -/

variable (orderBy : Option AiSessionForestOrder)

def hierarchyOrderTime (fields : AiSessionNode → AiSessionNodeFields) (node : AiSessionNode) : Int :=
  timestamp dateParse
    (if orderBy = some .lastUserMessage then node.session.lastUserMessageAt
      else (fields node).aggregateUpdatedAt)

variable (indexById : OrderedMap String Nat)

def hierarchyOrderFallback (left right : AiSessionNode) : Int :=
  if orderBy = some .lastUserMessage then
    localeCompare (stableHierarchyKey left.session) (stableHierarchyKey right.session)
  else
    ((indexById.get? left.session.id).getD 0 : Int) - (indexById.get? right.session.id).getD 0

def compareNodes (fields : AiSessionNode → AiSessionNodeFields) (left right : AiSessionNode) : Int :=
  let difference := hierarchyOrderTime dateParse orderBy fields right -
    hierarchyOrderTime dateParse orderBy fields left
  if difference ≠ 0 then difference
  else hierarchyOrderFallback localeCompare orderBy indexById left right

/-- The stable sort of the siblings. -/
def sortNodes (fields : AiSessionNode → AiSessionNodeFields) (nodes : List AiSessionNode) :
    List AiSessionNode :=
  nodes.insertionSort fun left right =>
    compareNodes dateParse localeCompare orderBy indexById fields left right ≤ 0

/-- One node of the postorder: fold the children in, then sort them. -/
def settleNode (fields : AiSessionNode → AiSessionNodeFields) (node : AiSessionNode) :
    AiSessionNode → AiSessionNodeFields :=
  let own := fields node
  Function.update fields node
    { own with
      children := sortNodes dateParse localeCompare orderBy indexById fields own.children
      aggregateUpdatedAt := own.children.foldl
        (fun latest child => latestTimestamp dateParse latest (fields child).aggregateUpdatedAt)
        own.aggregateUpdatedAt
      aggregateLastActiveAt := own.children.foldl
        (fun latest child => latestTimestamp dateParse latest (fields child).aggregateLastActiveAt)
        own.aggregateLastActiveAt }

def settledFields (nodes : List AiSessionNode) : AiSessionNode → AiSessionNodeFields :=
  (ForestTraversal.postorder (linkedChildren nodes) (2 * nodes.length) (linkedRoots nodes)).foldl
    (settleNode dateParse localeCompare orderBy
      (.ofList (nodes.map fun node => (node.session.id, node.index))))
    (linkedFields dateParse nodes)

def forestOfNodes (nodes : List AiSessionNode) (orderBy : Option AiSessionForestOrder) :
    AiSessionForest where
  roots := sortNodes dateParse localeCompare orderBy
    (.ofList (nodes.map fun node => (node.session.id, node.index)))
    (settledFields dateParse localeCompare orderBy nodes) (linkedRoots nodes)
  nodesById := indexNodesById nodes
  diagnostics := (providerIndex nodes).diagnostics ++
    nodes.filterMap (lookupDiagnostic (providerIndex nodes)) ++
    (cycleMarks nodes).cycleMembers.map (cycleDiagnostic (indexNodesById nodes))
  fields := settledFields dateParse localeCompare orderBy nodes

def deriveAiSessionForest (sessions : List AiSessionHierarchyRecord)
    (orderBy : Option AiSessionForestOrder) : AiSessionForest :=
  forestOfNodes dateParse localeCompare (sessionNodes sessions) orderBy

end Derive

/-! ## Reading a forest -/

def AiSessionForest.children (forest : AiSessionForest) (node : AiSessionNode) :
    List AiSessionNode :=
  (forest.fields node).children

/-- The parent the forest gives to a session. -/
def AiSessionForest.parentOf (forest : AiSessionForest) (sessionId : String) : Option String :=
  (forest.nodesById.get? sessionId).bind fun node => (forest.fields node).parentSessionId

def aiSessionSubtreePostorder (forest : AiSessionForest) (sessionId : String) :
    List AiSessionNode :=
  match forest.nodesById.get? sessionId with
  | none => []
  | some root => ForestTraversal.postorder forest.children (2 * forest.nodesById.size) [root]

end TaskHandoff.AiSessions
