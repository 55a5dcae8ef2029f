import TaskHandoff.Lib.Machine
import TaskHandoff.Repository.WorktreeRegistry

/-! # Creating worktrees beside listings

`create` and `createForAiSession` run one at a time; `list` runs beside them. A
listing reads git's list, and some time later compares the registry with it. A
list that was read before git added a worktree may then delete the entry of the
worktree: while it is added, and also when it is ready.
-/

namespace TaskHandoff.Repository

open OrderedMap List Machine

/-! ## Requests and listings -/

inductive CreationRequest where
  | newBranch (branchName : String)
  | existingBranch (branchName : String)
  | forAiSession (ref : ManagedRef) (clientRequestId : String)
deriving DecidableEq

/-- What a listing says about a worktree, as far as the creations read it. -/
structure InternalWorktree where
  record : WorktreeRecord
  managed : Bool
  accessible : Bool

def hasAttachedBranch (worktrees : List InternalWorktree) (branchName : String) : Bool :=
  worktrees.any fun item =>
    !item.record.detached && item.record.headOid.getD "" ≠ "" && item.record.branch = some branchName

/-- Without blockers; a managed worktree is authorized. -/
def InternalWorktree.canCreateAiSession (item : InternalWorktree) : Bool :=
  item.managed && item.accessible && !item.record.locked && !item.record.prunable

def CreationRequest.forSession : CreationRequest → Bool
  | forAiSession _ _ => true
  | _ => false

def CreationRequest.checkout (request : CreationRequest) (current : List InternalWorktree) :
    Checkout :=
  match request with
  | newBranch _ => .attached
  | existingBranch branchName =>
    if hasAttachedBranch current branchName then .detached else .attached
  | forAiSession .head _ => .detached
  | forAiSession (.branch name) _ => if hasAttachedBranch current name then .detached else .attached

def CreationRequest.intent (request : CreationRequest) (current : List InternalWorktree)
    (resolvedOid : String) : ManagedWorktreeIntent where
  requestId :=
    match request with
    | forAiSession _ clientRequestId => some clientRequestId
    | _ => none
  ref :=
    match request with
    | newBranch branchName => .branch branchName
    | existingBranch branchName => .branch branchName
    | forAiSession ref _ => ref
  resolvedOid := resolvedOid
  checkout := request.checkout current

/-- The record of a worktree that git added. -/
def addedRecord (path : Path) (intent : ManagedWorktreeIntent) : WorktreeRecord where
  path := path
  headOid := some intent.resolvedOid
  branch :=
    match intent.checkout, intent.ref with
    | .attached, .branch name => some name
    | _, _ => none
  detached := intent.checkout = .detached
  locked := false
  prunable := false

/-! ## The service -/

inductive RejectionCode where
  | stateStale
  | branchOccupied
  | branchInvalid
  | worktreeUnsafe
deriving DecidableEq

/-- `failed` stands for REPOSITORY_OPERATION_FAILED. -/
inductive Outcome where
  | created
  | reused
  | rejected (code : RejectionCode)
  | failed
deriving DecidableEq

def Outcome.succeeded : Outcome → Bool
  | created => true
  | reused => true
  | _ => false

/-- Where a creation waits. -/
inductive CreationPhase where
  | reading
  | listed (records : List WorktreeRecord)
  | checking (current : List InternalWorktree)
  | resolving (current : List InternalWorktree)
  /-- Git adds the worktree; the flag tells that its admin directory is there. -/
  | adding (intent : ManagedWorktreeIntent) (registered : Bool)
  | added
  | refreshing (outcome : Outcome)
  | relisted (outcome : Outcome) (records : List WorktreeRecord)
  | cleaning

/-- A creation with its destination. -/
structure Creation where
  request : CreationRequest
  destination : Path
  phase : CreationPhase

structure WorktreeService where
  registry : ManagedWorktreeRegistry
  disk : Disk
  /-- What git lists. -/
  records : List WorktreeRecord
  /-- The lists that `list` calls read and that were not compared yet. -/
  lists : List (List WorktreeRecord)
  creation : Option Creation
  results : List (Path × Outcome)

structure ServiceOptions where
  repositoryId : String
  withinRoot : Path → Bool
  /-- The path for a label and the key of an allocation. -/
  allocate : String → String → Path
  allocated : ∀ label allocationKey, withinRoot (allocate label allocationKey) = true

inductive ServiceAction where
  | readList
  | reconcileList (index : Nat)
  /-- A creation gets its turn; `random` is the path under the root with a random suffix. -/
  | enter (request : CreationRequest) (random : Path) (snapshotId expectedSnapshotId : String)
  | creationRead
  | creationReconcile
  | check
  | resolved (resolvedOid generationId : String)
  | gitAdmin
  | gitDirectory
  | gitRecord (record : WorktreeRecord)
  | gitAdded
  | markReady
  | refreshRead
  | refreshReconcile
  | removed
  | gitFailed
deriving DecidableEq

namespace WorktreeService

variable (options : ServiceOptions)

def idOf (path : Path) : WorktreeId := repositoryWorktreeId options.repositoryId path

def destinationOf (request : CreationRequest) (random : Path) : Path :=
  match request with
  | .forAiSession .head clientRequestId => options.allocate "HEAD" clientRequestId
  | .forAiSession (.branch name) clientRequestId => options.allocate name clientRequestId
  | _ => random

/-- Compare the registry with a list; the managed worktrees are returned. -/
def reconciled (s : WorktreeService) (records : List WorktreeRecord) :
    WorktreeService × List WorktreeId :=
  let r := s.registry.reconcile s.disk options.repositoryId records
  ({ s with registry := r.registry, disk := r.disk }, r.managed)

def listItems (s : WorktreeService) (managed : List WorktreeId) (records : List WorktreeRecord) :
    List InternalWorktree :=
  records.map fun record =>
    ⟨record, idOf options record.path ∈ managed, record.path ∈ s.disk.existing⟩

def wait (s : WorktreeService) (c : Creation) (phase : CreationPhase) : WorktreeService :=
  { s with creation := some { c with phase := phase } }

def finish (s : WorktreeService) (c : Creation) (outcome : Outcome) : WorktreeService :=
  { s with creation := none, results := s.results ++ [(c.destination, outcome)] }

/-- The end of a creation that failed and whose worktree is not there or was removed. -/
def abort (s : WorktreeService) (c : Creation) : WorktreeService :=
  finish { s with
    disk := { s.disk with existing := s.disk.existing.filter (· ≠ c.destination) }
    registry := s.registry.abortPreparation (idOf options c.destination) } c .failed

/-- What a creation finds about its request in the list. -/
def checked (s : WorktreeService) (c : Creation) (current : List InternalWorktree) :
    WorktreeService :=
  match c.request with
  | .newBranch branchName =>
    if hasAttachedBranch current branchName then s.finish c (.rejected .branchOccupied)
    else s.wait c (.resolving current)
  | .existingBranch _ => s.wait c (.resolving current)
  | .forAiSession ref clientRequestId =>
    match current.find? fun item => item.record.path = c.destination with
    | some item =>
      if !item.managed || !s.registry.matchesCreation (idOf options c.destination) c.destination
          clientRequestId ref then
        s.finish c (.rejected .worktreeUnsafe)
      else if !item.canCreateAiSession then s.finish c (.rejected .worktreeUnsafe)
      else s.wait c (.refreshing .reused)
    | none =>
      if c.destination ∈ s.disk.existing then s.finish c (.rejected .worktreeUnsafe)
      else s.wait c (.resolving current)

/-- A random path is a new one. -/
def fresh (s : WorktreeService) (c : Creation) : Bool :=
  c.request.forSession || (s.registry.get? (idOf options c.destination)).isNone

def prepared (s : WorktreeService) (c : Creation) (current : List InternalWorktree)
    (resolvedOid generationId : String) : WorktreeService :=
  let intent := c.request.intent current resolvedOid
  match s.registry.prepare options.withinRoot options.repositoryId (idOf options c.destination)
      c.destination intent generationId with
  | none => s.abort options c
  | some registry => { s with registry := registry }.wait c (.adding intent false)

def confirmed (s : WorktreeService) (c : Creation) : WorktreeService :=
  if c.destination ∉ s.disk.existing then s.wait c .cleaning
  else
    match s.registry.markReady options.withinRoot s.disk (idOf options c.destination)
        c.destination with
    | none => s.wait c .cleaning
    | some (registry, disk) =>
      { s with registry := registry, disk := disk }.wait c (.refreshing .created)

/-- Git's list with one record in the place of that of its worktree. -/
def withRecord (records : List WorktreeRecord) (record : WorktreeRecord) : List WorktreeRecord :=
  records.filter (fun r => r.path ≠ record.path) ++ [record]

def stepCreation (s : WorktreeService) (c : Creation) : ServiceAction → Option WorktreeService
  | .creationRead =>
    match c.phase with
    | .reading => some (s.wait c (.listed s.records))
    | _ => none
  | .creationReconcile =>
    match c.phase with
    | .listed records =>
      let r := s.reconciled options records
      some (r.1.wait c (.checking (r.1.listItems options r.2 records)))
    | _ => none
  | .check =>
    match c.phase with
    | .checking current => some (s.checked options c current)
    | _ => none
  | .resolved resolvedOid generationId =>
    match c.phase with
    | .resolving current =>
      if s.fresh options c then some (s.prepared options c current resolvedOid generationId)
      else none
    | _ => none
  | .gitAdmin =>
    match c.phase with
    | .adding intent false =>
      -- Git refuses a path that is registered already.
      if (s.disk.admins.get? c.destination).isNone then
        some (wait { s with
          disk := { s.disk with admins := s.disk.admins.set c.destination none } } c
            (.adding intent true))
      else none
    | _ => none
  | .gitDirectory =>
    match c.phase with
    | .adding _ _ =>
      some { s with disk := { s.disk with existing := c.destination :: s.disk.existing } }
    | _ => none
  | .gitRecord record =>
    match c.phase with
    | .adding _ _ =>
      if record.path = c.destination then
        some { s with records := withRecord s.records record }
      else none
    | _ => none
  | .gitAdded =>
    match c.phase with
    | .adding intent true =>
      if c.destination ∈ s.disk.existing then
        some (wait { s with
          records := withRecord s.records (addedRecord c.destination intent) } c
            .added)
      else none
    | _ => none
  | .markReady =>
    match c.phase with
    | .added => some (s.confirmed options c)
    | _ => none
  | .refreshRead =>
    match c.phase with
    | .refreshing outcome => some (s.wait c (.relisted outcome s.records))
    | _ => none
  | .refreshReconcile =>
    match c.phase with
    | .relisted outcome records => some ((s.reconciled options records).1.finish c outcome)
    | _ => none
  | .removed =>
    match c.phase with
    | .cleaning =>
      some (abort options { s with
        records := s.records.filter fun record => record.path ≠ c.destination
        disk := { s.disk with admins := s.disk.admins.erase c.destination } } c)
    | _ => none
  | .gitFailed =>
    match c.phase with
    | .reading => some (s.finish c .failed)
    | .resolving _ => some (s.finish c (.rejected .branchInvalid))
    | .adding _ _ => some (s.abort options c)
    | .refreshing .created => some (s.wait c .cleaning)
    | .refreshing _ => some (s.finish c .failed)
    | .cleaning => some (s.finish c .failed)
    | _ => none
  | _ => none

def step (s : WorktreeService) : ServiceAction → Option WorktreeService
  | .readList => some { s with lists := s.lists ++ [s.records] }
  | .reconcileList index =>
    match s.lists[index]? with
    | none => none
    | some records => some (reconciled options { s with lists := s.lists.eraseIdx index } records).1
  | .enter request random snapshotId expectedSnapshotId =>
    match s.creation with
    | some _ => none
    | none =>
      let c : Creation := ⟨request, destinationOf options request random, .reading⟩
      match request with
      | .forAiSession _ _ => some { s with creation := some c }
      | _ =>
        if !options.withinRoot random then none
        else if snapshotId ≠ expectedSnapshotId then
          some (s.finish c (.rejected .stateStale))
        else some { s with creation := some c }
  | action =>
    match s.creation with
    | none => none
    | some c => s.stepCreation options c action

/-! ## The invariant -/

/-- The destinations of the creations that succeeded. -/
def done (s : WorktreeService) : List Path :=
  s.results.filterMap fun result => if result.2.succeeded then some result.1 else none

end WorktreeService

/-- The entry of the destination is registered. -/
def CreationPhase.prepared : CreationPhase → Bool
  | adding _ _ => true
  | added => true
  | refreshing _ => true
  | relisted _ _ => true
  | _ => false

namespace WorktreeService

variable (options : ServiceOptions)

/-- The worktrees that were created, or are. -/
def watched (s : WorktreeService) : List Path :=
  s.done ++
    match s.creation with
    | none => []
    | some c => if c.phase.prepared then [c.destination] else []

open ManagedWorktreeRegistry

/-- A ready worktree that git lists. -/
def Created (s : WorktreeService) (path : Path) : Prop :=
  Ready s.registry s.disk options.repositoryId path ∧ Listed s.records path

def PhaseInv (s : WorktreeService) (c : Creation) : Prop :=
  match c.phase with
  | .reading => True
  | .listed records => records = s.records
  | .checking current =>
    current.map (·.record) = s.records ∧ ∀ item ∈ current, item.managed = true →
        Sound s.registry s.disk options.repositoryId item.record.path
  | .resolving _ => c.request.forSession = true → c.destination ∉ s.done
  | .adding _ registered => Held s.registry s.disk options.repositoryId c.destination registered
  | .added =>
    Held s.registry s.disk options.repositoryId c.destination true ∧
      Listed s.records c.destination ∧ c.destination ∈ s.disk.existing
  | .refreshing outcome => s.Created options c.destination ∧ outcome.succeeded = true
  | .relisted outcome records =>
    s.Created options c.destination ∧ outcome.succeeded = true ∧ records = s.records
  | .cleaning => False

structure Inv (s : WorktreeService) : Prop where
  keyed : WellKeyed s.registry
  unfailed : ∀ result ∈ s.results, result.2 ≠ .failed
  done : ∀ path ∈ s.done, s.Created options path
  within : ∀ c, s.creation = some c → options.withinRoot c.destination = true
  creation : ∀ c, s.creation = some c → s.PhaseInv options c

/-- No worktree was created yet, and none is. -/
structure Idle (s : WorktreeService) : Prop where
  keyed : WellKeyed s.registry
  creation : s.creation = none
  results : s.results = []

variable {options}

variable {s : WorktreeService}

theorem Idle.inv (h : Idle s) : Inv options s where
  keyed := h.keyed
  unfailed := by simp [h.results]
  done := by simp [done, h.results]
  within := by simp [h.creation]
  creation := by simp [h.creation]

/-! ## The lists -/

/-- A list keeps the entries of the worktrees that were created, or are. -/
def ListKeeps (options : ServiceOptions) (s : WorktreeService) : ServiceAction → Prop
  | .reconcileList index =>
    ∀ records ∈ s.lists[index]?, ∀ path ∈ s.watched,
      Keeps s.registry s.disk options.repositoryId records path
  | _ => True

instance (options : ServiceOptions) (s : WorktreeService) :
    (action : ServiceAction) → Decidable (ListKeeps options s action)
  | .reconcileList index => inferInstanceAs (Decidable (∀ records ∈ s.lists[index]?,
      ∀ path ∈ s.watched, Keeps s.registry s.disk options.repositoryId records path))
  | .readList | .enter _ _ _ _ | .creationRead | .creationReconcile | .check | .resolved _ _
  | .gitAdmin | .gitDirectory | .gitRecord _ | .gitAdded | .markReady | .refreshRead
  | .refreshReconcile | .removed | .gitFailed => inferInstanceAs (Decidable True)

variable {records : List WorktreeRecord} {path : Path}

theorem Created.reconciled (h : s.Created options path) (hlisted : Listed records path) :
    (s.reconciled options records).1.Created options path :=
  ⟨h.1.reconcile hlisted, h.2⟩

theorem inv_reconcileList (h : Inv options s) {index : Nat}
    (hlist : s.lists[index]? = some records) (hkeeps : ListKeeps options s (.reconcileList index)) :
    Inv options (reconciled options { s with lists := s.lists.eraseIdx index } records).1 := by
  have hwatched := hkeeps records hlist
  have hdone : ∀ path ∈ s.done,
      (reconciled options { s with lists := s.lists.eraseIdx index } records).1.Created options
        path := by
    intro path hpath
    have hcreated := h.done path hpath
    have hlisted := hcreated.1.listed (hwatched path (mem_append_left _ hpath))
    exact ⟨hcreated.1.reconcile hlisted, hcreated.2⟩
  refine ⟨h.keyed.reconcile s.disk, h.unfailed, hdone, h.within, fun c hc => ?_⟩
  have hphase := h.creation c hc
  have hdestination : c.phase.prepared = true →
      Keeps s.registry s.disk options.repositoryId records c.destination := by
    intro hprepared
    refine hwatched c.destination (mem_append_right _ ?_)
    have hcreation : s.creation = some c := hc
    simp [hcreation, hprepared]
  have hcreated : c.phase.prepared = true → s.Created options c.destination →
      (reconciled options { s with lists := s.lists.eraseIdx index } records).1.Created options
        c.destination := fun hprepared hbefore =>
    ⟨hbefore.1.reconcile (hbefore.1.listed (hdestination hprepared)), hbefore.2⟩
  unfold PhaseInv at hphase ⊢
  cases hstate : c.phase with
  | reading => trivial
  | listed records' =>
    rw [hstate] at hphase
    exact hphase
  | checking current =>
    rw [hstate] at hphase
    exact ⟨hphase.1, fun item hitem hmanaged => (hphase.2 item hitem hmanaged).reconcile⟩
  | resolving current =>
    rw [hstate] at hphase
    exact hphase
  | adding intent registered =>
    rw [hstate] at hphase hdestination
    exact Held.reconcile hphase (hdestination rfl)
  | added =>
    rw [hstate] at hphase hdestination
    refine ⟨Held.reconcile hphase.1 (hdestination rfl), hphase.2.1, ?_⟩
    exact (reconcile_existing s.registry s.disk).symm ▸ hphase.2.2
  | refreshing outcome =>
    rw [hstate] at hphase hcreated
    exact ⟨hcreated rfl hphase.1, hphase.2⟩
  | relisted outcome records' =>
    rw [hstate] at hphase hcreated
    exact ⟨hcreated rfl hphase.1, hphase.2⟩
  | cleaning =>
    rw [hstate] at hphase
    exact hphase

/-! ## The steps of a creation -/

section Creation

variable {s : WorktreeService} {c : Creation}

variable {s' : WorktreeService}

theorem Inv.frame (h : Inv options s) (hregistry : s'.registry = s.registry)
    (hadmins : s'.disk.admins = s.disk.admins) (hresults : s'.results = s.results)
    (hlisted : ∀ path, Listed s.records path → Listed s'.records path)
    (hwithin : ∀ c, s'.creation = some c → options.withinRoot c.destination = true)
    (hphase : ∀ c, s'.creation = some c → s'.PhaseInv options c) : Inv options s' where
  keyed := hregistry ▸ h.keyed
  unfailed := hresults ▸ h.unfailed
  done := fun path hpath => by
    have hbefore : path ∈ s.done := by
      unfold WorktreeService.done at hpath ⊢
      rwa [hresults] at hpath
    obtain ⟨⟨entry, howns, hready, hmarked⟩, hrecord⟩ := h.done path hbefore
    refine ⟨⟨entry, hregistry ▸ howns, hready, ?_⟩, hlisted path hrecord⟩
    rw [Marked, hadmins]
    exact hmarked
  within := hwithin
  creation := hphase

variable {phase : CreationPhase} {path : Path} {outcome : Outcome} {action : ServiceAction}

theorem Inv.wait (h : Inv options s) (hc : s.creation = some c)
    (hphase : s.PhaseInv options { c with phase := phase }) : Inv options (s.wait c phase) := by
  refine h.frame rfl rfl rfl (fun _ => id) ?_ ?_
  · intro c' hc'
    cases hc'
    exact h.within c hc
  intro c' hc'
  cases hc'
  exact hphase

theorem mem_done_finish (h : path ∈ (s.finish c outcome).done) :
    path ∈ s.done ∨ path = c.destination ∧ outcome.succeeded = true := by
  unfold done finish at h
  simp only [filterMap_append, mem_append] at h
  refine h.imp id fun hlast => ?_
  cases hsucceeded : outcome.succeeded with
  | true =>
    simp [hsucceeded] at hlast
    exact ⟨hlast, rfl⟩
  | false => simp [hsucceeded] at hlast

theorem Inv.finish (h : Inv options s) (hunfailed : outcome ≠ .failed)
    (hcreated : outcome.succeeded = true → s.Created options c.destination) :
    Inv options (s.finish c outcome) where
  keyed := h.keyed
  unfailed := by
    intro result hresult
    rcases mem_concat.mp hresult with hbefore | rfl
    · exact h.unfailed result hbefore
    · exact hunfailed
  done := by
    intro path hpath
    rcases mem_done_finish hpath with hbefore | ⟨rfl, hsucceeded⟩
    · exact h.done path hbefore
    · exact hcreated hsucceeded
  within := fun c' hc' => absurd hc' nofun
  creation := fun c' hc' => absurd hc' nofun

theorem Inv.reconciled (h : Inv options s) (hc : s.creation = some c)
    (hphase : (s.reconciled options s.records).1.PhaseInv options { c with phase := phase }) :
    Inv options ((s.reconciled options s.records).1.wait c phase) where
  keyed := h.keyed.reconcile s.disk
  unfailed := h.unfailed
  done := fun path hpath => (h.done path hpath).reconciled (h.done path hpath).2
  within := fun c' hc' => by
    cases hc'
    exact h.within c hc
  creation := fun c' hc' => by
    cases hc'
    exact hphase

theorem Ready.sound {registry : ManagedWorktreeRegistry} {disk : Disk} {repositoryId : String}
    (h : Ready registry disk repositoryId path) : Sound registry disk repositoryId path := by
  obtain ⟨entry, howns, -, hmarked⟩ := h
  intro entry' hfound
  obtain rfl := Option.some.inj (howns.found.symm.trans hfound)
  exact ⟨howns.own, howns.place, hmarked⟩

theorem phase_checking (s : WorktreeService) (c : Creation) :
    (s.reconciled options s.records).1.PhaseInv options
      { c with phase := .checking ((s.reconciled options s.records).1.listItems options
        (s.reconciled options s.records).2 s.records) } := by
  constructor
  · rw [listItems, map_map]
    exact map_id' s.records
  intro item hitem hmanaged
  obtain ⟨record, -, rfl⟩ := mem_map.mp hitem
  exact Ready.sound (reconcile_managed (of_decide_eq_true hmanaged))

variable {current : List InternalWorktree}

section

variable (h : Inv options s)

include h

theorem inv_checked (hc : s.creation = some c)
    (hphase : s.PhaseInv options { c with phase := .checking current }) :
    Inv options (s.checked options c current) := by
  obtain ⟨hrecords, hmanaged⟩ := hphase
  have hlisted : ∀ path ∈ s.done, ∃ item ∈ current, item.record.path = path := by
    intro path hpath
    obtain ⟨record, hrecord, hplace⟩ := (h.done path hpath).2
    rw [← hrecords] at hrecord
    obtain ⟨item, hitem, rfl⟩ := mem_map.mp hrecord
    exact ⟨item, hitem, hplace⟩
  have hrejected : ∀ code, Inv options (s.finish c (.rejected code)) := fun code =>
    h.finish nofun fun hsucceeded => absurd hsucceeded nofun
  have hresolving : (c.request.forSession = true → c.destination ∉ s.done) →
      Inv options (s.wait c (.resolving current)) := fun hnew => h.wait hc hnew
  unfold checked
  cases hrequest : c.request with
  | newBranch branchName =>
    simp only
    split
    · exact hrejected _
    exact hresolving fun hsession => by
      rw [hrequest] at hsession
      cases hsession
  | existingBranch branchName =>
    exact hresolving fun hsession => by
      rw [hrequest] at hsession
      cases hsession
  | forAiSession ref clientRequestId =>
    cases hfind : current.find? fun item => item.record.path = c.destination with
    | none =>
      simp only
      split
      · exact hrejected _
      refine hresolving fun _ hdone => ?_
      obtain ⟨item, hitem, hplace⟩ := hlisted c.destination hdone
      have hnone := find?_eq_none.mp hfind item hitem
      exact absurd (decide_eq_true hplace) hnone
    | some item =>
      have hsame := find?_some hfind
      have hplace : item.record.path = c.destination := of_decide_eq_true hsame
      have hitem := mem_of_find?_eq_some hfind
      simp only
      split
      · exact hrejected _
      rename_i hmatches
      split
      · exact hrejected _
      rw [Bool.or_eq_true, not_or, Bool.not_eq_true', Bool.not_eq_true', Bool.not_eq_false,
        Bool.not_eq_false] at hmatches
      have hsound := hmanaged item hitem hmatches.1
      rw [hplace] at hsound
      have hcreation := hmatches.2
      unfold matchesCreation at hcreation
      cases hget : s.registry.get? (idOf options c.destination) with
      | none =>
        rw [hget] at hcreation
        cases hcreation
      | some entry =>
        rw [hget] at hcreation
        simp only [Bool.and_eq_true, decide_eq_true_eq] at hcreation
        obtain ⟨hown, hpath, hmarked⟩ := hsound entry hget
        refine h.wait hc ⟨⟨⟨entry, ⟨hget, hown, hpath⟩, hcreation.1.1, hmarked⟩, ?_⟩, rfl⟩
        exact ⟨item.record, hrecords ▸ mem_map_of_mem hitem, hplace⟩

theorem not_done_of_fresh
    (hphase : s.PhaseInv options { c with phase := .resolving current })
    (hfresh : s.fresh options c = true) : c.destination ∉ s.done := by
  intro hdone
  rcases Bool.or_eq_true_iff.mp hfresh with hsession | hnone
  · exact hphase hsession hdone
  obtain ⟨entry, howns, -⟩ := (h.done c.destination hdone).1
  have hfound : s.registry.get? (idOf options c.destination) = some entry := howns.found
  rw [hfound] at hnone
  cases hnone

theorem prepare_some (hc : s.creation = some c)
    (intent : ManagedWorktreeIntent) (generationId : String) :
    ∃ entry, s.registry.prepare options.withinRoot options.repositoryId
        (idOf options c.destination) c.destination intent generationId =
          some (s.registry.set (idOf options c.destination) entry) ∧
      entry.repositoryId = options.repositoryId ∧ entry.path = c.destination ∧
      entry.state = .preparing ∧ entry.legacy = false := by
  unfold prepare
  rw [h.within c hc]
  cases hget : s.registry.get? (idOf options c.destination) with
  | none => exact ⟨_, rfl, rfl, rfl, rfl, rfl⟩
  | some existing =>
    obtain ⟨hown, hplace⟩ := WorktreeId.mk.inj (h.keyed _ existing hget)
    have hsame : ¬ (existing.repositoryId ≠ options.repositoryId ∨ existing.path ≠ c.destination) := by
      rw [← hown, ← hplace]
      simp
    simp only [if_neg hsame]
    exact ⟨_, rfl, rfl, rfl, rfl, rfl⟩

theorem inv_prepared (hc : s.creation = some c)
    (hphase : s.PhaseInv options { c with phase := .resolving current })
    (hfresh : s.fresh options c = true) (resolvedOid generationId : String) :
    Inv options (s.prepared options c current resolvedOid generationId) := by
  have hnew := not_done_of_fresh h hphase hfresh
  obtain ⟨entry, hprepare, hown, hplace, hpreparing, hlegacy⟩ :=
    prepare_some h hc (c.request.intent current resolvedOid) generationId
  unfold prepared
  simp only [hprepare]
  constructor
  · refine h.keyed.set ?_
    rw [hown, hplace]
    rfl
  · exact h.unfailed
  · intro path hpath
    have hother : idOf options path ≠ idOf options c.destination := by
      intro hsame
      obtain rfl := (WorktreeId.mk.inj hsame).2
      exact hnew hpath
    obtain ⟨⟨entry', howns, hready, hmarked⟩, hlisted⟩ := h.done path hpath
    exact ⟨⟨entry', ⟨(get?_set_ne _ _ hother).trans howns.found, howns.own, howns.place⟩,
      hready, hmarked⟩, hlisted⟩
  · intro c' hc'
    cases hc'
    exact h.within c hc
  · intro c' hc'
    cases hc'
    refine ⟨entry, ⟨get?_set_self _ _ _, hown, hplace⟩, hlegacy, fun hready => ?_, nofun⟩
    rw [hpreparing] at hready
    cases hready

end

theorem listed_withRecord {records : List WorktreeRecord} (h : Listed records path)
    (record : WorktreeRecord) : Listed (withRecord records record) path := by
  obtain ⟨listed, hmem, hplace⟩ := h
  by_cases hsame : listed.path = record.path
  · exact ⟨record, mem_append_right _ mem_cons_self, hsame.symm.trans hplace⟩
  · exact ⟨listed, mem_append_left _ (mem_filter.mpr ⟨hmem, decide_eq_true hsame⟩), hplace⟩

theorem listed_withRecord_self (records : List WorktreeRecord) (record : WorktreeRecord) :
    Listed (withRecord records record) record.path :=
  ⟨record, mem_append_right _ mem_cons_self, rfl⟩

theorem inv_gitAdmin (h : Inv options s) (hc : s.creation = some c) {intent : ManagedWorktreeIntent}
    (hphase : s.PhaseInv options { c with phase := .adding intent false })
    (hnone : s.disk.admins.get? c.destination = none) : Inv options (wait { s with
      disk := { s.disk with admins := s.disk.admins.set c.destination none } } c
        (.adding intent true)) := by
  constructor
  · exact h.keyed
  · exact h.unfailed
  · intro path hpath
    obtain ⟨⟨entry, howns, hready, hmarked⟩, hlisted⟩ := h.done path hpath
    have hother : path ≠ c.destination := by
      rintro rfl
      cases hnone.symm.trans hmarked
    exact ⟨⟨entry, howns, hready, (get?_set_ne _ _ hother).trans hmarked⟩, hlisted⟩
  · intro c' hc'
    cases hc'
    exact h.within c hc
  · intro c' hc'
    cases hc'
    obtain ⟨entry, howns, hlegacy, hready, -⟩ := hphase
    exact ⟨entry, howns, hlegacy, fun hstate => absurd (hnone.symm.trans (hready hstate)) nofun,
      fun _ => .inl (get?_set_self _ _ _)⟩

theorem inv_confirmed (h : Inv options s) (hc : s.creation = some c)
    (hphase : s.PhaseInv options { c with phase := .added }) :
    Inv options (s.confirmed options c) ∧ ∃ registry disk, s.confirmed options c =
        wait { s with registry := registry, disk := disk } c (.refreshing .created) := by
  obtain ⟨⟨entry, howns, hlegacy, -, hregistered⟩, hlisted, hexists⟩ := hphase
  have hfound : s.registry.get? (idOf options c.destination) = some entry := howns.found
  have hplace : entry.path = c.destination := howns.place
  have hrequire : s.registry.requireEntry options.withinRoot (idOf options c.destination)
      c.destination = some entry := by
    simp [requireEntry, hfound, hplace, h.within c hc]
  obtain ⟨disk, hwrite⟩ : ∃ disk, s.disk.writeGenerationMarker c.destination entry.generationId =
      some disk := by
    unfold Disk.writeGenerationMarker
    rcases hregistered rfl with hadmin | hmarked
    · rw [hadmin]
      exact ⟨_, rfl⟩
    · rw [show s.disk.admins.get? c.destination = some (some entry.generationId) from hmarked]
      exact ⟨_, if_pos rfl⟩
  have hconfirmed : s.confirmed options c = wait { s with
      registry := s.registry.set (idOf options c.destination)
        { entry with path := c.destination, state := .ready, legacy := false }
      disk := disk } c (.refreshing .created) := by
    rw [confirmed, if_neg (not_not.mpr hexists), markReady, hrequire]
    simp only [hwrite]
  refine ⟨?_, _, _, hconfirmed⟩
  have hmarked := writeGenerationMarker_self hwrite
  rw [hconfirmed]
  have hready : Ready (s.registry.set (idOf options c.destination)
      { entry with path := c.destination, state := .ready, legacy := false }) disk
      options.repositoryId c.destination :=
    ⟨_, ⟨get?_set_self _ _ _, howns.own, rfl⟩, rfl, hmarked⟩
  constructor
  · refine h.keyed.set ?_
    have hown : entry.repositoryId = options.repositoryId := howns.own
    simp only [hown]
    rfl
  · exact h.unfailed
  · intro path hpath
    obtain ⟨⟨entry', howns', hready', hmarked'⟩, hlisted'⟩ := h.done path hpath
    by_cases hsame : path = c.destination
    · rw [hsame] at hlisted' ⊢
      exact ⟨hready, hlisted'⟩
    have hother : idOf options path ≠ idOf options c.destination := fun hid =>
      hsame (WorktreeId.mk.inj hid).2
    exact ⟨⟨entry', ⟨(get?_set_ne _ _ hother).trans howns'.found, howns'.own,
      howns'.place⟩, hready', (writeGenerationMarker_ne hwrite hsame).trans hmarked'⟩, hlisted'⟩
  · intro c' hc'
    cases hc'
    exact h.within c hc
  · intro c' hc'
    cases hc'
    exact ⟨⟨hready, hlisted⟩, rfl⟩

theorem inv_stepCreation (h : Inv options s) (hc : s.creation = some c)
    (haction : action ≠ .gitFailed) (hstep : s.stepCreation options c action = some s') :
    Inv options s' := by
  have hphase := h.creation c hc
  have hwithin := h.within c hc
  have hsame : ∀ {phase}, c.phase = phase → c = { c with phase := phase } := by
    rintro phase rfl
    rfl
  cases action with
  | creationRead =>
    simp only [stepCreation] at hstep
    split at hstep
    · cases hstep
      exact h.wait hc rfl
    · cases hstep
  | creationReconcile =>
    simp only [stepCreation] at hstep
    split at hstep
    next records hlisted =>
      cases hstep
      rw [hsame hlisted] at hphase
      obtain rfl : records = s.records := hphase
      exact h.reconciled hc (phase_checking s c)
    · cases hstep
  | check =>
    simp only [stepCreation] at hstep
    split at hstep
    next current hchecking =>
      cases hstep
      rw [hsame hchecking] at hphase
      exact inv_checked h hc hphase
    · cases hstep
  | resolved resolvedOid generationId =>
    simp only [stepCreation] at hstep
    split at hstep
    next current hresolving =>
      rw [hsame hresolving] at hphase
      split at hstep
      next hfresh =>
        cases hstep
        exact inv_prepared h hc hphase hfresh resolvedOid generationId
      · cases hstep
    · cases hstep
  | gitAdmin =>
    simp only [stepCreation] at hstep
    split at hstep
    next intent hadding =>
      rw [hsame hadding] at hphase
      split at hstep
      next hnone =>
        cases hstep
        exact inv_gitAdmin h hc hphase (Option.isNone_iff_eq_none.mp hnone)
      · cases hstep
    · cases hstep
  | gitDirectory =>
    simp only [stepCreation] at hstep
    split at hstep
    next intent registered hadding =>
      cases hstep
      rw [hsame hadding] at hphase
      refine h.frame rfl rfl rfl (fun _ => id) h.within fun c' hc' => ?_
      obtain rfl := Option.some.inj (hc.symm.trans hc')
      rw [hsame hadding]
      exact hphase
    · cases hstep
  | gitRecord record =>
    simp only [stepCreation] at hstep
    split at hstep
    next intent registered hadding =>
      rw [hsame hadding] at hphase
      split at hstep
      · cases hstep
        refine h.frame rfl rfl rfl (fun _ hlisted => listed_withRecord hlisted record) h.within
          fun c' hc' => ?_
        obtain rfl := Option.some.inj (hc.symm.trans hc')
        rw [hsame hadding]
        exact hphase
      · cases hstep
    · cases hstep
  | gitAdded =>
    simp only [stepCreation] at hstep
    split at hstep
    next intent hadding =>
      rw [hsame hadding] at hphase
      split at hstep
      next hexists =>
        cases hstep
        refine h.frame rfl rfl rfl
          (fun _ hlisted => listed_withRecord hlisted (addedRecord c.destination intent)) ?_ ?_
        · intro c' hc'
          cases hc'
          exact hwithin
        intro c' hc'
        cases hc'
        exact ⟨hphase, listed_withRecord_self s.records (addedRecord c.destination intent),
          hexists⟩
      · cases hstep
    · cases hstep
  | markReady =>
    simp only [stepCreation] at hstep
    split at hstep
    next hadded =>
      cases hstep
      rw [hsame hadded] at hphase
      exact (inv_confirmed h hc hphase).1
    · cases hstep
  | refreshRead =>
    simp only [stepCreation] at hstep
    split at hstep
    next outcome hrefreshing =>
      cases hstep
      rw [hsame hrefreshing] at hphase
      exact h.wait hc ⟨hphase.1, hphase.2, rfl⟩
    · cases hstep
  | refreshReconcile =>
    simp only [stepCreation] at hstep
    split at hstep
    next outcome records hrelisted =>
      cases hstep
      rw [hsame hrelisted] at hphase
      obtain ⟨hcreated, hsucceeded, rfl⟩ := hphase
      have hafter := hcreated.reconciled hcreated.2
      have hinv : Inv options ((s.reconciled options s.records).1.wait c .reading) :=
        h.reconciled hc trivial
      refine Inv.finish (s := (s.reconciled options s.records).1.wait c .reading) hinv ?_
        fun _ => hafter
      rintro rfl
      cases hsucceeded
    · cases hstep
  | removed =>
    simp only [stepCreation] at hstep
    split at hstep
    next hcleaning =>
      rw [hsame hcleaning] at hphase
      exact hphase.elim
    · cases hstep
  | gitFailed => exact absurd rfl haction
  | readList | reconcileList | enter => cases hstep

theorem inv_step (hstep : step options s action = some s')
    (hcondition : action ≠ .gitFailed ∧ ListKeeps options s action) (h : Inv options s) :
    Inv options s' := by
  have hcreation : ∀ action, (match s.creation with
        | none => none
        | some c => s.stepCreation options c action) = some s' → action ≠ .gitFailed →
      Inv options s' := by
    intro action hstep haction
    cases hc : s.creation with
    | none =>
      rw [hc] at hstep
      cases hstep
    | some c =>
      rw [hc] at hstep
      exact inv_stepCreation h hc haction hstep
  cases action with
  | readList =>
    cases hstep
    exact h.frame rfl rfl rfl (fun _ => id) h.within h.creation
  | reconcileList index =>
    simp only [step] at hstep
    split at hstep
    · cases hstep
    next records hlist =>
      cases hstep
      exact inv_reconcileList h hlist hcondition.2
  | enter request random snapshotId expectedSnapshotId =>
    simp only [step] at hstep
    split at hstep
    · cases hstep
    rename_i hnone
    have hbegin : options.withinRoot (destinationOf options request random) = true →
        Inv options { s with
          creation := some ⟨request, destinationOf options request random, .reading⟩ } := by
      intro hwithin
      refine h.frame rfl rfl rfl (fun _ => id) ?_ ?_
      · intro c hc
        cases hc
        exact hwithin
      intro c hc
      cases hc
      trivial
    have hrejected : ∀ c, Inv options (s.finish c (.rejected .stateStale)) := fun c =>
      h.finish nofun fun hsucceeded => absurd hsucceeded nofun
    cases request with
    | forAiSession ref clientRequestId =>
      cases hstep
      refine hbegin ?_
      cases ref <;> exact options.allocated _ _
    | newBranch | existingBranch =>
      simp only at hstep
      split at hstep
      · cases hstep
      rename_i hwithin
      split at hstep
      · cases hstep
        exact hrejected _
      cases hstep
      have hrandom : options.withinRoot random = true := by
        rw [Bool.not_eq_true', Bool.not_eq_false] at hwithin
        exact hwithin
      exact hbegin hrandom
  | creationRead | creationReconcile | check | resolved | gitAdmin | gitDirectory | gitRecord
  | gitAdded | markReady | refreshRead | refreshReconcile | removed | gitFailed =>
    exact hcreation _ hstep hcondition.1

end Creation

/-! ## Creations beside lists -/

def ReadyEntry (options : ServiceOptions) (s : WorktreeService) (path : Path) : Prop :=
  (s.registry.get? (idOf options path)).map (·.state) = some .ready

instance (options : ServiceOptions) (s : WorktreeService) (path : Path) :
    Decidable (ReadyEntry options s path) :=
  inferInstanceAs (Decidable (_ = _))

/-- Creations succeed, with a ready entry in the end. -/
structure Tolerated (options : ServiceOptions) (s : WorktreeService) : Prop where
  unfailed : ∀ result ∈ s.results, result.2 ≠ .failed
  ready : ∀ result ∈ s.results, result.2.succeeded = true → s.ReadyEntry options result.1
  /-- Behind `git worktree add` a creation comes to its end. -/
  finishes : ∀ c, s.creation = some c → c.phase = .added →
    ∃ t, run (step options) s [.markReady, .refreshRead, .refreshReconcile] = some t ∧
      t.results = s.results ++ [(c.destination, .created)] ∧ t.ReadyEntry options c.destination

theorem Created.readyEntry (h : s.Created options path) : s.ReadyEntry options path := by
  obtain ⟨entry, howns, hready, -⟩ := h.1
  have hfound : s.registry.get? (idOf options path) = some entry := howns.found
  rw [ReadyEntry, hfound, Option.map_some, hready]

theorem finishes_of_added (h : Inv options s) {c : Creation} (hc : s.creation = some c)
    (hadded : c.phase = .added) :
    ∃ t, run (step options) s [.markReady, .refreshRead, .refreshReconcile] = some t ∧
      t.results = s.results ++ [(c.destination, .created)] ∧ t.ReadyEntry options c.destination := by
  have hphase := h.creation c hc
  have hsame : c = { c with phase := .added } := by rw [← hadded]
  rw [hsame] at hphase
  obtain ⟨hinv, registry, disk, hconfirmed⟩ := inv_confirmed h hc hphase
  have hmark : step options s .markReady = some (s.confirmed options c) := by
    simp only [step, hc, stepCreation, hadded]
  rw [hconfirmed] at hinv hmark
  generalize hmarked : wait { s with registry := registry, disk := disk } c
    (.refreshing .created) = marked at hinv hmark
  have hcreation : marked.creation = some { c with phase := .refreshing .created } := by
    rw [← hmarked]
    rfl
  obtain ⟨hcreated, -⟩ := hinv.creation _ hcreation
  have hread : step options marked .refreshRead =
      some (marked.wait c (.relisted .created marked.records)) := by
    simp only [step, hcreation, stepCreation]
    rfl
  have hrun : run (step options) s [.markReady, .refreshRead, .refreshReconcile] =
      some ((marked.reconciled options marked.records).1.finish c .created) := by
    rw [run_cons_of_step _ hmark, run_cons_of_step _ hread]
    rfl
  refine ⟨_, hrun, ?_, (hcreated.reconciled hcreated.2).readyEntry⟩
  rw [← hmarked]
  rfl

/-- While every list keeps the entries of the worktrees that were created or are, creations
succeed, whatever the order of the steps. -/
theorem create_beside_lists {s t : WorktreeService} {actions : List ServiceAction} (hidle : Idle s)
    (hrun : run (step options) s actions = some t) (hsteps : AllSteps (step options)
      (fun s action => action ≠ .gitFailed ∧ ListKeeps options s action) s actions) :
    Tolerated options t := by
  have h : Inv options t := run_invariant_of_steps
    (fun _ _ _ hstep hcondition h => inv_step hstep hcondition h) hrun hsteps hidle.inv
  constructor
  · exact h.unfailed
  · intro result hresult hsucceeded
    have hdone : result.1 ∈ t.done := mem_filterMap.mpr ⟨result, hresult, if_pos hsucceeded⟩
    exact (h.done result.1 hdone).readyEntry
  · exact fun c hc hadded => finishes_of_added h hc hadded

/-! ## A list that was read before -/

def exampleOptions : ServiceOptions where
  repositoryId := "repo:1"
  withinRoot := fun path => path ≠ "/repo"
  allocate := fun _ _ => "/managed/HEAD-1"
  allocated := fun _ _ => by decide

def exampleService : WorktreeService where
  registry := .empty
  disk := ⟨["/repo"], .empty⟩
  records := [⟨"/repo", some "c1", some "main", false, false, false⟩]
  lists := []
  creation := none
  results := []

theorem exampleService_idle : Idle exampleService := ⟨nofun, rfl, rfl⟩

/-- The list is read again when git has added the worktree. -/
def exampleActions : List ServiceAction :=
  [.enter (.forAiSession .head "r1") "" "" "", .creationRead, .creationReconcile, .check,
    .resolved "c1" "g1", .gitAdmin, .gitDirectory, .gitAdded, .readList, .markReady,
    .reconcileList 0, .refreshRead, .refreshReconcile]

theorem create_beside_lists_example :
    ∃ t, run (step exampleOptions) exampleService exampleActions = some t ∧
      t.results = [("/managed/HEAD-1", .created)] ∧ Tolerated exampleOptions t := by
  exact ⟨_, rfl, by decide +kernel, @create_beside_lists exampleOptions exampleService _
    exampleActions exampleService_idle rfl (by decide +kernel)⟩

/-- A list that was read before the creation is compared while git adds the worktree. -/
def earlyActions : List ServiceAction :=
  [.enter (.forAiSession .head "r1") "" "" "", .creationRead, .creationReconcile, .check,
    .readList, .resolved "c1" "g1", .reconcileList 0, .gitAdmin, .gitDirectory, .gitAdded,
    .markReady, .removed]

/-- It is compared when the worktree is ready. -/
def lateActions : List ServiceAction :=
  [.enter (.newBranch "feature") "/managed/feature-1" "s1" "s1", .creationRead,
    .creationReconcile, .check, .readList, .resolved "c1" "g1", .gitAdmin, .gitDirectory, .gitAdded,
    .markReady, .refreshRead, .refreshReconcile, .reconcileList 0]

/-- The creation fails, or its entry is gone. -/
theorem create_not_beside_lists : Idle exampleService ∧
      (∃ t, run (step exampleOptions) exampleService earlyActions = some t ∧
        .gitFailed ∉ earlyActions ∧ t.results = [("/managed/HEAD-1", .failed)] ∧
        ¬ Tolerated exampleOptions t) ∧
      ∃ t, run (step exampleOptions) exampleService lateActions = some t ∧
        .gitFailed ∉ lateActions ∧ t.results = [("/managed/feature-1", .created)] ∧
        ¬ Tolerated exampleOptions t := by
  refine ⟨exampleService_idle, ⟨_, rfl, by decide, by decide +kernel, fun h => ?_⟩,
    ⟨_, rfl, by decide, by decide +kernel, fun h => ?_⟩⟩
  · exact h.unfailed ("/managed/HEAD-1", .failed) (by decide +kernel) rfl
  · exact absurd (h.ready ("/managed/feature-1", .created) (by decide +kernel) rfl)
      (by decide +kernel)

end WorktreeService

end TaskHandoff.Repository
