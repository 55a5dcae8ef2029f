import Mathlib.Data.List.Sort
import TaskHandoff.Lib.Machine
import TaskHandoff.Persistence.Connection

/-! # The instance repository and its cache

Instances are parsed from their joined rows and the parsed projection is cached. The cache is
keyed by SQLite's `data_version`, which only commits of other connections move; every write of this
connection that the join reads has to invalidate it. Values live at addresses, so that a copy and
the value it was made from can be told apart. -/

namespace TaskHandoff.Persistence

/-! ## Rows -/

structure InstanceRow (ν : Type) where
  id : String
  nodeId : String
  runtimeId : String
  sourceLocalFolderId : Option String
  name : String
  status : String
  stateRevision : Nat
  processIncarnationId : Option String
  registrationCredential : Option String
  desired : ν
  createdAt : String
  updatedAt : String

structure ObservationRow (ν : Type) where
  instanceId : String
  health : String
  connectionStatus : String
  ready : Bool
  observed : ν
  lastHeartbeatAt : Option String
  updatedAt : String

structure ModelAssignmentRow where
  instanceId : String
  legacyCodexModelId : Option String
  legacyClaudeModelId : Option String
  legacyOpencodeModelId : Option String
  updatedAt : String

structure ModelEntityRow where
  instanceId : String
  modelId : String
  displayOrder : Nat

/-- The tables the projection reads, and the keys their rows refer to. -/
structure Database (ν : Type) where
  nodes : List String
  runtimes : List String
  localFolders : List String
  models : List String
  instances : List (InstanceRow ν)
  observations : List (ObservationRow ν)
  assignments : List ModelAssignmentRow
  entities : List ModelEntityRow

/-! ## Instances -/

structure ModelSelection where
  modelEntityIds : List String
  codexModelHash : Option String
  claudeModelHash : Option String
  opencodeModelHash : Option String

/-- What is assembled from the rows of an instance. A `modelSelection` replaces that of
`desired`. -/
structure StoredInstance (ν : Type) where
  desired : ν
  observed : Option ν
  modelSelection : Option ModelSelection
  id : String
  nodeId : String
  runtimeId : String
  name : String
  status : String
  stateRevision : Nat
  processIncarnationId : Option String
  registrationToken : Option String
  health : String
  connectionStatus : String
  ready : Bool
  lastHeartbeatAt : Option String
  createdAt : String
  updatedAt : String

/-- An instance as the protocol has it. `localFolderId` is that of a `local-folder` source, and
`desired` and `observed` are what the two projections keep. -/
structure ControlledInstance (ν : Type) where
  id : String
  nodeId : String
  runtimeId : String
  localFolderId : Option String
  name : String
  status : String
  stateRevision : Nat
  processIncarnationId : Option String
  registrationToken : Option String
  health : String
  connectionStatus : String
  ready : Bool
  lastHeartbeatAt : Option String
  desired : ν
  observed : ν
  createdAt : String
  updatedAt : String
deriving DecidableEq

structure NodeModelAssignment where
  instanceId : String
  modelEntityIds : List String
  codexModelHash : Option String
  claudeModelHash : Option String
  opencodeModelHash : Option String
  updatedAt : String

structure Issue where
  path : List String
  message : String

structure PersistenceError where
  code : String
  message : String
  statusCode : Nat
deriving DecidableEq

/-- `value || undefined` of a text. -/
def truthy (value : Option String) : Option String := value.filter (· ≠ "")

def Issue.detail (issue : Issue) : String :=
  let path := ".".intercalate issue.path
  (if path = "" then "body" else path) ++ ": " ++ issue.message

def payloadInvalid (instanceId : String) (issues : List Issue) : PersistenceError where
  code := "NODE_INSTANCE_PAYLOAD_INVALID"
  message :=
    let detail := "; ".intercalate (issues.map Issue.detail)
    s!"Stored instance {instanceId} is not compatible with protocol 2026-10-02: {detail}"
  statusCode := 409

def instanceNotFound (instanceId : String) : PersistenceError where
  code := "NODE_INSTANCE_NOT_FOUND"
  message := s!"Instance {instanceId} was not found."
  statusCode := 404

section Parsing

variable {ν : Type}

namespace Database

variable (db : Database ν)
variable (instanceId : String)

def instance? : Option (InstanceRow ν) :=
  db.instances.find? (·.id = instanceId)

def observation? : Option (ObservationRow ν) :=
  db.observations.find? (·.instanceId = instanceId)

def assignment? : Option ModelAssignmentRow :=
  db.assignments.find? (·.instanceId = instanceId)

/-- `ORDER BY display_order`. -/
def modelEntityIds : List String :=
  ((db.entities.filter (·.instanceId = instanceId)).insertionSort
    fun a b => a.displayOrder ≤ b.displayOrder).map (·.modelId)

def modelSelection : Option ModelSelection :=
  (db.assignment? instanceId).map fun assignment =>
    { modelEntityIds := db.modelEntityIds instanceId
      codexModelHash := truthy assignment.legacyCodexModelId
      claudeModelHash := truthy assignment.legacyClaudeModelId
      opencodeModelHash := truthy assignment.legacyOpencodeModelId }

def storedInstance (row : InstanceRow ν) : StoredInstance ν :=
  let observation := db.observation? row.id
  { desired := row.desired
    observed := observation.map (·.observed)
    modelSelection := db.modelSelection row.id
    id := row.id
    nodeId := row.nodeId
    runtimeId := row.runtimeId
    name := row.name
    status := row.status
    stateRevision := row.stateRevision
    processIncarnationId := truthy row.processIncarnationId
    registrationToken := truthy row.registrationCredential
    health := (truthy (observation.map (·.health))).getD "unknown"
    connectionStatus := (truthy (observation.map (·.connectionStatus))).getD "unknown"
    ready := (observation.map (·.ready)).getD false
    lastHeartbeatAt := truthy (observation.bind (·.lastHeartbeatAt))
    createdAt := row.createdAt
    updatedAt := row.updatedAt }

end Database

/-- `safeParseStoredControlledInstance`. -/
abbrev ParseStored (ν : Type) := StoredInstance ν → Except (List Issue) (ControlledInstance ν)

def instanceFromRow (parse : ParseStored ν) (db : Database ν) (row : InstanceRow ν) :
    Except (List Issue) (ControlledInstance ν) :=
  parse (db.storedInstance row)

namespace Database

/-- The rows in the order of their ids, each parsed. -/
def parsed (parse : ParseStored ν) (db : Database ν) :
    List (String × Except PersistenceError (ControlledInstance ν)) :=
  (db.instances.insertionSort fun a b => a.id ≤ b.id).map fun row =>
    (row.id, (instanceFromRow parse db row).mapError (payloadInvalid row.id))

/-- What a fresh parse of the rows answers for an id. -/
def get (parse : ParseStored ν) (db : Database ν) (instanceId : String) :
    Except PersistenceError (Option (ControlledInstance ν)) :=
  match (db.parsed parse).lookup instanceId with
  | none => .ok none
  | some entry => entry.map some

/-- What a fresh parse of the rows lists. -/
def list (parse : ParseStored ν) (db : Database ν) : List (ControlledInstance ν) :=
  (db.parsed parse).filterMap fun entry => entry.2.toOption

end Database

end Parsing

/-! ## Statements

A statement that breaks a constraint writes nothing; the model then has no database behind it. -/

section Statements

variable {ν ρ : Type}

/-- `INSERT … ON CONFLICT DO UPDATE`. -/
def upsert (key : ρ → String) (row : ρ) (update : ρ → ρ) (rows : List ρ) : List ρ :=
  if rows.any fun old => key old = key row then
    rows.map fun old => if key old = key row then update old else old
  else rows ++ [row]

namespace Database

variable (db : Database ν)
variable (value : ControlledInstance ν)

def putObservationRow : Database ν :=
  let row : ObservationRow ν :=
    { instanceId := value.id
      health := value.health
      connectionStatus := value.connectionStatus
      ready := value.ready
      observed := value.observed
      lastHeartbeatAt := value.lastHeartbeatAt
      updatedAt := value.updatedAt }
  { db with observations := upsert (·.instanceId) row (fun _ => row) db.observations }

def nextRevision : Nat :=
  max value.stateRevision (((db.instance? value.id).map (·.stateRevision)).getD 0) + 1

def retainedCredential : Option String :=
  (truthy value.registrationToken).or
    ((db.instance? value.id).bind (·.registrationCredential))

/-- Only a folder that has a row is referred to. -/
def sourceFolder : Option String :=
  (truthy value.localFolderId).filter fun folder => db.localFolders.contains folder

/-- The statements of `put`; the first refers to a node and a runtime. -/
def putInstance : Option (Database ν) :=
  if value.nodeId ∈ db.nodes ∧ value.runtimeId ∈ db.runtimes then
    let row : InstanceRow ν :=
      { id := value.id
        nodeId := value.nodeId
        runtimeId := value.runtimeId
        sourceLocalFolderId := db.sourceFolder value
        name := value.name
        status := value.status
        stateRevision := db.nextRevision value
        processIncarnationId := value.processIncarnationId
        registrationCredential := db.retainedCredential value
        desired := value.desired
        createdAt := value.createdAt
        updatedAt := value.updatedAt }
    let instances :=
      upsert (·.id) row (fun old => { row with createdAt := old.createdAt }) db.instances
    some (({ db with instances } : Database ν).putObservationRow value)
  else none

/-- The statements of `putObservation` for an instance that has a row. -/
def putObservation (value : ControlledInstance ν) : Database ν :=
  let update (row : InstanceRow ν) : InstanceRow ν :=
    { row with
      status := value.status
      stateRevision := db.nextRevision value
      processIncarnationId := value.processIncarnationId
      registrationCredential := db.retainedCredential value
      updatedAt := value.updatedAt }
  let instances := db.instances.map fun row => if row.id = value.id then update row else row
  ({ db with instances } : Database ν).putObservationRow value

def hasInstance (instanceId : String) : Bool :=
  db.instances.any (·.id = instanceId)

/-- Observations, assignments and their entities go with the instance. -/
def deleteInstance (instanceId : String) : Database ν :=
  { db with
    instances := db.instances.filter (·.id ≠ instanceId)
    observations := db.observations.filter (·.instanceId ≠ instanceId)
    assignments := db.assignments.filter (·.instanceId ≠ instanceId)
    entities := db.entities.filter (·.instanceId ≠ instanceId) }

/-- `UPDATE na_models SET id = ?`, whose references are updated with it. -/
def renameModel (modelId nextId : String) : Option (Database ν) :=
  if nextId ≠ modelId ∧ nextId ∈ db.models then none
  else
    let renamed (m : String) : String := if m = modelId then nextId else m
    some
      { db with
        models := db.models.map renamed
        assignments := db.assignments.map fun row =>
          { row with
            legacyCodexModelId := row.legacyCodexModelId.map renamed
            legacyClaudeModelId := row.legacyClaudeModelId.map renamed
            legacyOpencodeModelId := row.legacyOpencodeModelId.map renamed }
        entities := db.entities.map fun row => { row with modelId := renamed row.modelId } }

def storesModel (modelId : Option String) : Bool :=
  modelId.all fun m => db.models.contains m

/-- The first statement of an assignment refers to the instance and the legacy models. -/
def putAssignmentRow (value : NodeModelAssignment) : Option (Database ν) :=
  if db.hasInstance value.instanceId ∧ db.storesModel value.codexModelHash ∧
      db.storesModel value.claudeModelHash ∧ db.storesModel value.opencodeModelHash then
    let row : ModelAssignmentRow :=
      { instanceId := value.instanceId
        legacyCodexModelId := value.codexModelHash
        legacyClaudeModelId := value.claudeModelHash
        legacyOpencodeModelId := value.opencodeModelHash
        updatedAt := value.updatedAt }
    some
      { db with
        assignments := upsert (·.instanceId) row (fun _ => row) db.assignments
        entities := db.entities.filter (·.instanceId ≠ value.instanceId) }
  else none

/-- Insert the entities from a display order on. The flag says that no insert threw. -/
def insertEntities (instanceId : String) : List String → Nat → Database ν → Database ν × Bool
  | [], _, db => (db, true)
  | modelId :: rest, displayOrder, db =>
    if modelId ∈ db.models ∧
        ¬ db.entities.any fun row => row.instanceId = instanceId ∧ row.modelId = modelId then
      insertEntities instanceId rest (displayOrder + 1)
        { db with entities := db.entities ++ [⟨instanceId, modelId, displayOrder⟩] }
    else (db, false)

def deleteAssignment (instanceId : String) : Database ν :=
  { db with
    assignments := db.assignments.filter (·.instanceId ≠ instanceId)
    entities := db.entities.filter (·.instanceId ≠ instanceId) }

end Database

end Statements

/-! ## The repository -/

abbrev Address := Nat

/-- A parsed instance or the error its rows raise. -/
abbrev CacheEntry := String × Except PersistenceError Address

structure Snapshot where
  dataVersion : Nat
  entries : List CacheEntry

/-- The connection, the repository's cache and the values in memory. `returned` and `torn` are
history: the addresses callers were given, and whether an assignment threw behind its first
statement in the open transaction with nothing invalidated since. -/
structure InstanceRepository (ν : Type) where
  connection : Connection (Database ν)
  dataVersion : Nat
  cache : Option Snapshot
  objects : List (ControlledInstance ν)
  returned : List Address
  torn : Bool

inductive WriteFailure where
  /-- A statement broke a constraint of the schema. -/
  | constraint
  | refused (error : PersistenceError)

namespace InstanceRepository

variable {ν : Type}

/-- A repository on a database that is open. -/
def new (contents : Database ν) : InstanceRepository ν := ⟨⟨contents, none⟩, 0, none, [], [], false⟩

variable (s : InstanceRepository ν)

def isTransaction : Bool := s.connection.isTransaction

def invalidate : InstanceRepository ν :=
  { s with cache := none, torn := false }

def setContents (contents : Database ν) : InstanceRepository ν :=
  { s with connection := { s.connection with contents } }

/-! ### Reads -/

/-- Place the parsed values in memory. -/
def allocate : List (String × Except PersistenceError (ControlledInstance ν)) →
    List (ControlledInstance ν) → List (ControlledInstance ν) × List CacheEntry
  | [], objects => (objects, [])
  | (instanceId, .error error) :: rest, objects =>
    let r := allocate rest objects
    (r.1, (instanceId, .error error) :: r.2)
  | (instanceId, .ok value) :: rest, objects =>
    let r := allocate rest (objects ++ [value])
    (r.1, (instanceId, .ok objects.length) :: r.2)

/-- The cache, where it may be served. -/
def served : Option Snapshot :=
  if s.isTransaction then none else s.cache.filter (·.dataVersion = s.dataVersion)

variable (parse : ParseStored ν)

def snapshot (s : InstanceRepository ν) : InstanceRepository ν × Snapshot :=
  match s.served with
  | some cached => (s, cached)
  | none =>
    let r := allocate (s.connection.contents.parsed parse) s.objects
    let fresh : Snapshot := ⟨s.dataVersion, r.2⟩
    -- rows of an open transaction are not published
    ({ s with objects := r.1, cache := if s.isTransaction then s.cache else some fresh }, fresh)

/-- `structuredClone` of a value that goes to a caller. -/
def structuredClone (a : Address) : InstanceRepository ν × Address :=
  ({ s with
      objects := s.objects ++ s.objects[a]?.toList
      returned := s.returned ++ [s.objects.length] }, s.objects.length)

def get (s : InstanceRepository ν) (instanceId : String) :
    InstanceRepository ν × Except PersistenceError (Option Address) :=
  let r := s.snapshot parse
  match r.2.entries.lookup instanceId with
  | none => (r.1, .ok none)
  | some (.error error) => (r.1, .error error)
  | some (.ok a) =>
    let cloned := r.1.structuredClone a
    (cloned.1, .ok (some cloned.2))

def cloneAll : List CacheEntry → InstanceRepository ν → InstanceRepository ν × List Address
  | [], s => (s, [])
  | (_, .error _) :: rest, s => cloneAll rest s
  | (_, .ok a) :: rest, s =>
    let cloned := s.structuredClone a
    let r := cloneAll rest cloned.1
    (r.1, cloned.2 :: r.2)

def list (s : InstanceRepository ν) : InstanceRepository ν × List Address :=
  let r := s.snapshot parse
  cloneAll r.2.entries r.1

/-! ### Writes -/

def begin_ : Option (InstanceRepository ν) :=
  s.connection.beginImmediate.map fun connection => { s with connection, torn := false }

def commit : Option (InstanceRepository ν) :=
  s.connection.commit.map fun connection => { s with connection, torn := false }

def rollback : Option (InstanceRepository ν) :=
  s.connection.rollback.map fun connection => { s with connection, torn := false }

/-- Join the transaction that is open, or open one and close it by the outcome. -/
def runImmediate {α : Type}
    (operation : InstanceRepository ν → InstanceRepository ν × Except WriteFailure α)
    (s : InstanceRepository ν) : InstanceRepository ν × Except WriteFailure α :=
  match s.begin_ with
  | none => operation s
  | some opened =>
    let r := operation opened
    match r.2 with
    | .ok _ => (r.1.commit.getD r.1, r.2)
    | .error _ => (r.1.rollback.getD r.1, r.2)

/-- The end of both puts: invalidate, and read the instance back. -/
def written (s : InstanceRepository ν) (contents : Database ν)
    (instanceId : String) : InstanceRepository ν × Except WriteFailure (Option Address) :=
  let r := (s.setContents contents).invalidate.get parse instanceId
  (r.1, r.2.mapError .refused)

def put (value : ControlledInstance ν) :
    InstanceRepository ν → InstanceRepository ν × Except WriteFailure (Option Address) :=
  runImmediate fun s =>
    match s.connection.contents.putInstance value with
    | none => (s, .error .constraint)
    | some contents => s.written parse contents value.id

def putObservation (value : ControlledInstance ν) :
    InstanceRepository ν → InstanceRepository ν × Except WriteFailure (Option Address) :=
  runImmediate fun s =>
    if s.connection.contents.hasInstance value.id then
      s.written parse (s.connection.contents.putObservation value) value.id
    else (s, .error (.refused (instanceNotFound value.id)))

def delete (instanceId : String) (s : InstanceRepository ν) : InstanceRepository ν × Bool :=
  if s.connection.contents.hasInstance instanceId then
    ((s.setContents (s.connection.contents.deleteInstance instanceId)).invalidate, true)
  else (s, false)

end InstanceRepository

/-! ## The model repositories

Both call `invalidate` of the instances when the projection changes. -/

namespace ModelRepository

variable {ν : Type}

def rename (modelId nextId : String) (s : InstanceRepository ν) :
    InstanceRepository ν × Except WriteFailure Unit :=
  if s.connection.contents.models.contains modelId then
    match s.connection.contents.renameModel modelId nextId with
    | none => (s, .error .constraint)
    | some contents => ((s.setContents contents).invalidate, .ok ())
  else (s, .ok ())

end ModelRepository

namespace ModelAssignmentRepository

variable {ν : Type}

/-- The statements of `put`. What was written before one threw stays. -/
def write (value : NodeModelAssignment) (s : InstanceRepository ν) :
    InstanceRepository ν × Except WriteFailure Unit :=
  match s.connection.contents.putAssignmentRow value with
  | none => (s, .error .constraint)
  | some contents =>
    match contents.insertEntities value.instanceId value.modelEntityIds 0 with
    | (contents, true) => (s.setContents contents, .ok ())
    | (contents, false) => ({ s.setContents contents with torn := true }, .error .constraint)

/-- The cache is invalidated behind the transaction, so not when it throws. -/
def put (value : NodeModelAssignment) (s : InstanceRepository ν) :
    InstanceRepository ν × Except WriteFailure Unit :=
  let r := InstanceRepository.runImmediate (write value) s
  match r.2 with
  | .ok _ => (r.1.invalidate, .ok ())
  | .error failure => (r.1, .error failure)

def delete (instanceId : String) (s : InstanceRepository ν) : InstanceRepository ν × Bool :=
  if (s.connection.contents.assignment? instanceId).isSome then
    ((s.setContents (s.connection.contents.deleteAssignment instanceId)).invalidate, true)
  else (s, false)

end ModelAssignmentRepository

/-! ## Runs -/

namespace InstanceRepository

variable {ν : Type}

/-- What happens next on the connection, or to a value a caller holds. -/
inductive Action (ν : Type) where
  | begin_
  | commit
  | rollback
  /-- Another connection commits; it has to wait while a transaction is open here. -/
  | external (contents : Database ν)
  | put (value : ControlledInstance ν)
  | putObservation (value : ControlledInstance ν)
  | delete (instanceId : String)
  | get (instanceId : String)
  | list
  | renameModel (modelId nextId : String)
  | putAssignment (value : NodeModelAssignment)
  | deleteAssignment (instanceId : String)
  /-- A caller changes a value it was given. -/
  | mutate (a : Address) (value : ControlledInstance ν)

def mutate (s : InstanceRepository ν) (a : Address) (value : ControlledInstance ν) :
    InstanceRepository ν :=
  { s with objects := s.objects.set a value }

def step (parse : ParseStored ν) (s : InstanceRepository ν) :
    Action ν → Option (InstanceRepository ν)
  | .begin_ => s.begin_
  | .commit => s.commit
  | .rollback => s.rollback
  | .external contents =>
    if s.isTransaction then none
    else some { s.setContents contents with dataVersion := s.dataVersion + 1 }
  | .put value => some (put parse value s).1
  | .putObservation value => some (putObservation parse value s).1
  | .delete instanceId => some (delete instanceId s).1
  | .get instanceId => some (s.get parse instanceId).1
  | .list => some (s.list parse).1
  | .renameModel modelId nextId => some (ModelRepository.rename modelId nextId s).1
  | .putAssignment value => some (ModelAssignmentRepository.put value s).1
  | .deleteAssignment instanceId => some (ModelAssignmentRepository.delete instanceId s).1
  | .mutate a value => if a ∈ s.returned then some (s.mutate a value) else none

/-- What a caller of `get` sees. -/
def answer (parse : ParseStored ν) (s : InstanceRepository ν) (instanceId : String) :
    Except PersistenceError (Option (ControlledInstance ν)) :=
  let r := s.get parse instanceId
  r.2.map fun a => a.bind fun a => r.1.objects[a]?

/-- What a caller of `list` sees. -/
def listing (parse : ParseStored ν) (s : InstanceRepository ν) : List (ControlledInstance ν) :=
  let r := s.list parse
  r.2.filterMap fun a => r.1.objects[a]?

end InstanceRepository

end TaskHandoff.Persistence
