import TaskHandoff.Lib.OrderedMap

/-! # The registry of managed worktrees

The registry holds an entry for every worktree the program created. An entry is
prepared before git adds the worktree and marked ready behind it; in between,
and after a crash, `reconcile` compares the entries with the worktrees that git
lists and with the generation markers in git's admin directories.
-/

namespace TaskHandoff.Repository

open OrderedMap List Option

/-- Paths are canonical. -/
abbrev Path := String

/-! ## Entries and records -/

inductive ManagedRef where
  | head
  | branch (name : String)
deriving DecidableEq

inductive Checkout where
  | attached
  | detached
deriving DecidableEq

structure ManagedWorktreeIntent where
  requestId : Option String
  ref : ManagedRef
  resolvedOid : String
  checkout : Checkout

inductive EntryState where
  | preparing
  | ready
  | removing
  | quarantined
deriving DecidableEq

/-- The entry's `worktreeId` is its key. -/
structure ManagedWorktreeEntry where
  repositoryId : String
  path : Path
  generationId : String
  state : EntryState
  intent : Option ManagedWorktreeIntent
  legacy : Bool

/-- What `repositoryWorktreeId` hashes stands for the digest. -/
structure WorktreeId where
  repositoryId : String
  path : Path
deriving DecidableEq

def repositoryWorktreeId (repositoryId : String) (path : Path) : WorktreeId := ⟨repositoryId, path⟩

/-- A worktree that git lists. -/
structure WorktreeRecord where
  path : Path
  headOid : Option String
  branch : Option String
  detached : Bool
  locked : Bool
  prunable : Bool
deriving DecidableEq

def recordMatchesIntent (record : WorktreeRecord) (intent : ManagedWorktreeIntent) : Bool :=
  if record.prunable || record.headOid.getD "" = "" then false
  else
    match intent.checkout with
    | .detached => record.detached && record.headOid = some intent.resolvedOid
    | .attached =>
      !record.detached &&
        (match intent.ref with
          | .head => false
          | .branch name => record.branch = some name) &&
        record.headOid = some intent.resolvedOid

/-! ## The disk -/

/-- The paths that exist, and by worktree the admin directories with their generation markers. -/
structure Disk where
  existing : List Path
  admins : OrderedMap Path (Option String)

namespace Disk

def readGenerationMarker (disk : Disk) (path : Path) : Option String :=
  (disk.admins.get? path).getD none

/-- Without an admin directory, and where another generation is marked, the source throws. -/
def writeGenerationMarker (disk : Disk) (path : Path) (generationId : String) : Option Disk :=
  match disk.admins.get? path with
  | none => none
  | some (some existing) => if existing = generationId then some disk else none
  | some none => some { disk with admins := disk.admins.set path (some generationId) }

end Disk

/-! ## Operations on the registry -/

abbrev ManagedWorktreeRegistry := OrderedMap WorktreeId ManagedWorktreeEntry

namespace ManagedWorktreeRegistry

section Root

variable (withinRoot : Path → Bool)

/-- An entry that is there keeps its generation; another one gets the fresh `generationId`. -/
def prepare (registry : ManagedWorktreeRegistry) (repositoryId : String) (worktreeId : WorktreeId)
    (path : Path) (intent : ManagedWorktreeIntent) (generationId : String) :
    Option ManagedWorktreeRegistry :=
  if !withinRoot path then none
  else
    match registry.get? worktreeId with
    | some existing =>
      if existing.repositoryId ≠ repositoryId ∨ existing.path ≠ path then none
      else some (registry.set worktreeId
        ⟨repositoryId, path, existing.generationId, .preparing, some intent, false⟩)
    | none =>
      some (registry.set worktreeId
        ⟨repositoryId, path, generationId, .preparing, some intent, false⟩)

def requireEntry (registry : ManagedWorktreeRegistry) (worktreeId : WorktreeId) (path : Path) :
    Option ManagedWorktreeEntry :=
  match registry.get? worktreeId with
  | none => none
  | some entry => if entry.path ≠ path ∨ !withinRoot entry.path then none else some entry

def markReady (registry : ManagedWorktreeRegistry) (disk : Disk) (worktreeId : WorktreeId)
    (path : Path) : Option (ManagedWorktreeRegistry × Disk) :=
  match registry.requireEntry withinRoot worktreeId path with
  | none => none
  | some entry =>
    match disk.writeGenerationMarker path entry.generationId with
    | none => none
    | some disk =>
      some (registry.set worktreeId { entry with path := path, state := .ready, legacy := false },
        disk)

end Root

variable (registry : ManagedWorktreeRegistry)

def abortPreparation (worktreeId : WorktreeId) : ManagedWorktreeRegistry :=
  match registry.get? worktreeId with
  | none => registry
  | some entry => if entry.state = .preparing then registry.erase worktreeId else registry

def matchesCreation (worktreeId : WorktreeId) (path : Path)
    (requestId : String) (ref : ManagedRef) : Bool :=
  match registry.get? worktreeId with
  | none => false
  | some entry =>
    entry.state = .ready && entry.path = path &&
      match entry.intent with
      | none => false
      | some intent => intent.requestId = some requestId && intent.ref = ref

/-! ## Reconciliation -/

/-- What becomes of an entry; without one it is deleted. -/
structure Reconciled where
  entry : Option ManagedWorktreeEntry
  disk : Disk
  managed : Bool

/-- The last record wins. -/
def recordsById (repositoryId : String) (records : List WorktreeRecord) (worktreeId : WorktreeId) :
    Option WorktreeRecord :=
  records.reverse.find? fun record => repositoryWorktreeId repositoryId record.path = worktreeId

variable (disk : Disk)

/-- An entry that git does not list. -/
def reconcileMissing (entry : ManagedWorktreeEntry) : Reconciled :=
  if entry.state = .preparing && entry.path ∈ disk.existing then
    ⟨some { entry with state := .quarantined }, disk, false⟩
  else ⟨none, disk, false⟩

def canRecover (entry : ManagedWorktreeEntry) (record : WorktreeRecord) : Bool :=
  entry.legacy ||
    (entry.state = .preparing &&
      match entry.intent with
      | none => false
      | some intent => recordMatchesIntent record intent)

/-- An entry that git lists at its path. -/
def reconcileListed (entry : ManagedWorktreeEntry) (record : WorktreeRecord) : Reconciled :=
  let marker := disk.readGenerationMarker record.path
  if marker = some entry.generationId then
    let state := if entry.state = .preparing ∨ entry.state = .removing then .ready else entry.state
    ⟨some { entry with state := state }, disk, state = .ready⟩
  else
    let quarantined : Reconciled := ⟨some { entry with state := .quarantined }, disk, false⟩
    match marker with
    | some generationId =>
      -- A registry that an older version rewrote: the marker is the stronger identity.
      if entry.legacy then
        ⟨some { entry with generationId := generationId, state := .ready, legacy := false }, disk,
          true⟩
      else quarantined
    | none =>
      if canRecover entry record then
        match disk.writeGenerationMarker record.path entry.generationId with
        | some disk =>
          ⟨some { entry with path := record.path, state := .ready, legacy := false }, disk, true⟩
        | none => quarantined
      else quarantined

def reconcileEntry (repositoryId : String) (records : List WorktreeRecord) (disk : Disk)
    (worktreeId : WorktreeId) (entry : ManagedWorktreeEntry) : Reconciled :=
  match recordsById repositoryId records worktreeId with
  | none => reconcileMissing disk entry
  | some record =>
    if record.path ≠ entry.path then reconcileMissing disk entry
    else reconcileListed disk entry record

structure Reconciliation where
  registry : ManagedWorktreeRegistry
  disk : Disk
  managed : List WorktreeId

def reconcileOne (repositoryId : String) (records : List WorktreeRecord) (r : Reconciliation)
    (e : WorktreeId × ManagedWorktreeEntry) : Reconciliation :=
  if e.2.repositoryId ≠ repositoryId then r
  else
    let result := reconcileEntry repositoryId records r.disk e.1 e.2
    { registry :=
        match result.entry with
        | none => r.registry.erase e.1
        | some entry => r.registry.set e.1 entry
      disk := result.disk
      managed := if result.managed then r.managed ++ [e.1] else r.managed }

/-- Compare the entries of the repository with the worktrees that git listed. -/
def reconcile (repositoryId : String) (records : List WorktreeRecord) : Reconciliation :=
  registry.entries.foldl (reconcileOne repositoryId records) ⟨registry, disk, []⟩

/-! ## Markers -/

section Markers

variable {disk disk' : Disk} {path : Path} {generationId : String}

section

variable (h : disk.writeGenerationMarker path generationId = some disk')

include h

theorem writeGenerationMarker_existing : disk'.existing = disk.existing := by
  unfold Disk.writeGenerationMarker at h
  split at h
  · cases h
  · split at h
    · cases h
      rfl
    · cases h
  · cases h
    rfl

theorem writeGenerationMarker_ne
    {other : Path} (hother : other ≠ path) : disk'.admins.get? other = disk.admins.get? other := by
  unfold Disk.writeGenerationMarker at h
  split at h
  · cases h
  · split at h
    · cases h
      rfl
    · cases h
  · cases h
    exact get?_set_ne _ _ hother

theorem writeGenerationMarker_self : disk'.admins.get? path = some (some generationId) := by
  unfold Disk.writeGenerationMarker at h
  split at h
  · cases h
  next existing hmarker =>
    split at h
    next hsame =>
      cases h
      rw [hmarker, hsame]
    · cases h
  · cases h
    exact get?_set_self _ _ _

end

theorem readGenerationMarker_some : disk.readGenerationMarker path = some generationId ↔
      disk.admins.get? path = some (some generationId) := by
  unfold Disk.readGenerationMarker
  cases disk.admins.get? path with
  | none => simp
  | some marker => simp

end Markers

/-! ## One entry -/

section Entry

variable {repositoryId : String} {records : List WorktreeRecord} {disk : Disk}
variable {worktreeId : WorktreeId} {entry : ManagedWorktreeEntry} {record : WorktreeRecord}

theorem recordsById_some (h : recordsById repositoryId records worktreeId = some record) :
    worktreeId = ⟨repositoryId, record.path⟩ ∧ record ∈ records := by
  have hid := find?_some h
  have hmem := mem_of_find?_eq_some h
  exact ⟨(of_decide_eq_true hid).symm, mem_reverse.mp hmem⟩

theorem recordsById_listed {path : Path} (h : ∃ record ∈ records, record.path = path) :
    ∃ record, recordsById repositoryId records ⟨repositoryId, path⟩ = some record ∧
      record.path = path := by
  cases hfind : recordsById repositoryId records ⟨repositoryId, path⟩ with
  | none =>
    obtain ⟨record, hmem, hpath⟩ := h
    have hnone := find?_eq_none.mp hfind record (mem_reverse.mpr hmem)
    rw [hpath] at hnone
    exact absurd (decide_eq_true rfl) hnone
  | some record =>
    have hid := (recordsById_some hfind).1
    exact ⟨record, rfl, (WorktreeId.mk.inj hid).2.symm⟩

theorem reconcileMissing_disk : (reconcileMissing disk entry).disk = disk := by
  unfold reconcileMissing
  split <;> rfl

/-- A marker that is missing in a directory that cannot be written. -/
theorem writeGenerationMarker_none {path : Path} {generationId : String}
    (hread : disk.readGenerationMarker path = none)
    (h : disk.writeGenerationMarker path generationId = none) : disk.admins.get? path = none := by
  unfold Disk.readGenerationMarker at hread
  unfold Disk.writeGenerationMarker at h
  cases hget : disk.admins.get? path with
  | none => rfl
  | some marker =>
    rw [hget] at hread h
    obtain rfl : marker = none := hread
    cases h

/-- Everything that `reconcileListed` decides: the marker is the entry's, a legacy entry adopts
another one, the missing marker is written, or the entry is quarantined. -/
theorem reconcileListed_cases (record : WorktreeRecord) :
    (disk.readGenerationMarker record.path = some entry.generationId ∧
      ∃ state, (state = .ready ∨ state = .quarantined) ∧ (entry.state = .ready → state = .ready) ∧
        reconcileListed disk entry record =
          ⟨some { entry with state := state }, disk, state = .ready⟩) ∨
    (∃ generationId, disk.readGenerationMarker record.path = some generationId ∧
      entry.legacy = true ∧ reconcileListed disk entry record =
        ⟨some { entry with generationId := generationId, state := .ready, legacy := false }, disk,
          true⟩) ∨
    (∃ disk', disk.writeGenerationMarker record.path entry.generationId = some disk' ∧
      reconcileListed disk entry record =
        ⟨some { entry with path := record.path, state := .ready, legacy := false }, disk', true⟩) ∨
    (disk.readGenerationMarker record.path ≠ some entry.generationId ∧
      (entry.legacy = true → disk.admins.get? record.path = none) ∧
      reconcileListed disk entry record =
        ⟨some { entry with state := .quarantined }, disk, false⟩) := by
  by_cases hmarker : disk.readGenerationMarker record.path = some entry.generationId
  · refine .inl ⟨hmarker, _, ?_, ?_, if_pos hmarker⟩
    · cases entry.state <;> simp
    · intro hready
      rw [hready]
      rfl
  refine .inr ?_
  simp only [reconcileListed]
  rw [if_neg hmarker]
  cases hother : disk.readGenerationMarker record.path with
  | some generationId =>
    by_cases hlegacy : entry.legacy = true
    · exact .inl ⟨generationId, rfl, hlegacy, if_pos hlegacy⟩
    · exact .inr (.inr ⟨hother ▸ hmarker, fun h => absurd h hlegacy, if_neg hlegacy⟩)
  | none =>
    refine .inr ?_
    by_cases hrecover : canRecover entry record = true
    · rw [if_pos hrecover]
      cases hwrite : disk.writeGenerationMarker record.path entry.generationId with
      | some disk' => exact .inl ⟨disk', rfl, rfl⟩
      | none => exact .inr ⟨nofun, fun _ => writeGenerationMarker_none hother hwrite, rfl⟩
    · refine .inr ⟨nofun, fun hlegacy => absurd ?_ hrecover, if_neg hrecover⟩
      rw [canRecover, hlegacy]
      rfl

theorem reconcileListed_disk (record : WorktreeRecord) :
    (reconcileListed disk entry record).disk = disk ∨
      disk.writeGenerationMarker record.path entry.generationId =
        some (reconcileListed disk entry record).disk := by
  rcases @reconcileListed_cases disk entry record with
    ⟨-, _, -, -, h⟩ | ⟨_, -, -, h⟩ | ⟨_, hwrite, h⟩ | ⟨-, -, h⟩
  · exact .inl (by rw [h])
  · exact .inl (by rw [h])
  · exact .inr (by rw [h, hwrite])
  · exact .inl (by rw [h])

theorem reconcileEntry_disk :
    (reconcileEntry repositoryId records disk worktreeId entry).disk = disk ∨
      ∃ path, worktreeId = ⟨repositoryId, path⟩ ∧
        disk.writeGenerationMarker path entry.generationId =
          some (reconcileEntry repositoryId records disk worktreeId entry).disk := by
  unfold reconcileEntry
  cases hfind : recordsById repositoryId records worktreeId with
  | none => exact .inl reconcileMissing_disk
  | some record =>
    simp only
    split
    · exact .inl reconcileMissing_disk
    · refine (reconcileListed_disk record).imp id fun hwrite => ?_
      exact ⟨record.path, (recordsById_some hfind).1, hwrite⟩

theorem reconcileEntry_existing :
    (reconcileEntry repositoryId records disk worktreeId entry).disk.existing = disk.existing := by
  rcases @reconcileEntry_disk repositoryId records disk worktreeId entry with h | ⟨path, -, h⟩
  · rw [h]
  · exact writeGenerationMarker_existing h

theorem reconcileEntry_admins {path : Path} (h : worktreeId ≠ ⟨repositoryId, path⟩) :
    (reconcileEntry repositoryId records disk worktreeId entry).disk.admins.get? path =
      disk.admins.get? path := by
  rcases @reconcileEntry_disk repositoryId records disk worktreeId entry with hdisk | ⟨own, hid, hdisk⟩
  · rw [hdisk]
  · refine writeGenerationMarker_ne hdisk fun hpath => h ?_
    rw [hid, hpath]

theorem reconcileEntry_managed
    (h : (reconcileEntry repositoryId records disk worktreeId entry).managed = true) :
    ∃ entry' path, (reconcileEntry repositoryId records disk worktreeId entry).entry = some entry' ∧
      worktreeId = ⟨repositoryId, path⟩ ∧ entry'.path = path ∧ entry'.state = .ready ∧
      entry'.repositoryId = entry.repositoryId ∧
      (reconcileEntry repositoryId records disk worktreeId entry).disk.admins.get? path =
        some (some entry'.generationId) := by
  have hmissing : (reconcileMissing disk entry).managed = false := by
    unfold reconcileMissing
    split <;> rfl
  unfold reconcileEntry at h ⊢
  cases hfind : recordsById repositoryId records worktreeId with
  | none =>
    rw [hfind] at h
    cases hmissing.symm.trans h
  | some record =>
    rw [hfind] at h
    simp only at h ⊢
    split at h
    · cases hmissing.symm.trans h
    rename_i hpath
    have hpath : record.path = entry.path := of_not_not hpath
    rw [if_neg (not_not.mpr hpath)]
    have hid := (recordsById_some hfind).1
    rcases @reconcileListed_cases disk entry record with
      ⟨hmarker, state, -, -, hlist⟩ | ⟨_, hmarker, -, hlist⟩ | ⟨_, hwrite, hlist⟩ | ⟨-, -, hlist⟩
    · rw [hlist] at h ⊢
      exact ⟨_, record.path, rfl, hid, hpath.symm, of_decide_eq_true h, rfl,
        readGenerationMarker_some.mp hmarker⟩
    · rw [hlist]
      exact ⟨_, record.path, rfl, hid, hpath.symm, rfl, rfl, readGenerationMarker_some.mp hmarker⟩
    · rw [hlist]
      exact ⟨_, record.path, rfl, hid, rfl, rfl, rfl, writeGenerationMarker_self hwrite⟩
    · rw [hlist] at h
      cases h

end Entry

/-! ## All entries -/

section Fold

variable {repositoryId : String} {records : List WorktreeRecord}

theorem reconcileOne_other (r : Reconciliation) {e : WorktreeId × ManagedWorktreeEntry}
    {worktreeId : WorktreeId} (h : worktreeId ≠ e.1) :
    (reconcileOne repositoryId records r e).registry.get? worktreeId = r.registry.get? worktreeId ∧
      (worktreeId ∈ (reconcileOne repositoryId records r e).managed ↔ worktreeId ∈ r.managed) := by
  unfold reconcileOne
  split
  · exact ⟨rfl, Iff.rfl⟩
  simp only
  constructor
  · split
    · exact get?_erase_ne _ h
    · exact get?_set_ne _ _ h
  split
  · simp [h]
  · rfl

theorem reconcileOne_disk (r : Reconciliation) (e : WorktreeId × ManagedWorktreeEntry) :
    (reconcileOne repositoryId records r e).disk.existing = r.disk.existing ∧
      ∀ path, e.1 ≠ ⟨repositoryId, path⟩ →
        (reconcileOne repositoryId records r e).disk.admins.get? path =
          r.disk.admins.get? path := by
  unfold reconcileOne
  split
  · exact ⟨rfl, fun _ _ => rfl⟩
  · exact ⟨reconcileEntry_existing, fun path h => reconcileEntry_admins h⟩

theorem foldl_other {es : List (WorktreeId × ManagedWorktreeEntry)} {worktreeId : WorktreeId}
    (h : worktreeId ∉ es.map Prod.fst) (r : Reconciliation) :
    (es.foldl (reconcileOne repositoryId records) r).registry.get? worktreeId =
        r.registry.get? worktreeId ∧
      (worktreeId ∈ (es.foldl (reconcileOne repositoryId records) r).managed ↔
        worktreeId ∈ r.managed) := by
  induction es generalizing r with
  | nil => exact ⟨rfl, Iff.rfl⟩
  | cons e es ih =>
    rw [map_cons, mem_cons, not_or] at h
    obtain ⟨hget, hmanaged⟩ := @reconcileOne_other repositoryId records r e worktreeId h.1
    obtain ⟨hget', hmanaged'⟩ := ih h.2 (reconcileOne repositoryId records r e)
    exact ⟨hget'.trans hget, hmanaged'.trans hmanaged⟩

theorem foldl_disk (es : List (WorktreeId × ManagedWorktreeEntry)) (r : Reconciliation) :
    (es.foldl (reconcileOne repositoryId records) r).disk.existing = r.disk.existing ∧
      ∀ path, ⟨repositoryId, path⟩ ∉ es.map Prod.fst →
        (es.foldl (reconcileOne repositoryId records) r).disk.admins.get? path =
          r.disk.admins.get? path := by
  induction es generalizing r with
  | nil => exact ⟨rfl, fun _ _ => rfl⟩
  | cons e es ih =>
    obtain ⟨hexisting, hadmins⟩ := @reconcileOne_disk repositoryId records r e
    obtain ⟨hexisting', hadmins'⟩ := ih (reconcileOne repositoryId records r e)
    refine ⟨hexisting'.trans hexisting, fun path h => ?_⟩
    rw [map_cons, mem_cons, not_or] at h
    exact (hadmins' path h.2).trans (hadmins path (Ne.symm h.1))

/-- The state `r` that the pass reaches before it comes to the entry `e`; the entries before and
behind it leave alone what it decides. -/
structure Reached (registry : ManagedWorktreeRegistry) (disk : Disk) (repositoryId : String)
    (records : List WorktreeRecord) (e : WorktreeId × ManagedWorktreeEntry) (r : Reconciliation) :
    Prop where
  existing : r.disk.existing = disk.existing
  admin : ∀ path, e.1 = ⟨repositoryId, path⟩ → r.disk.admins.get? path = disk.admins.get? path
  found : r.registry.get? e.1 = some e.2
  fresh : e.1 ∉ r.managed
  outcome : (reconcile registry disk repositoryId records).registry.get? e.1 =
    (reconcileOne repositoryId records r e).registry.get? e.1
  marked : ∀ path, e.1 = ⟨repositoryId, path⟩ →
    (reconcile registry disk repositoryId records).disk.admins.get? path =
      (reconcileOne repositoryId records r e).disk.admins.get? path
  managed : e.1 ∈ (reconcile registry disk repositoryId records).managed ↔
    e.1 ∈ (reconcileOne repositoryId records r e).managed

variable {registry : ManagedWorktreeRegistry} {disk : Disk} {worktreeId : WorktreeId}
variable {entry : ManagedWorktreeEntry}

theorem exists_reached (h : registry.get? worktreeId = some entry) :
    ∃ r, Reached registry disk repositoryId records (worktreeId, entry) r := by
  obtain ⟨before, after, hsplit⟩ := append_of_mem (get?_eq_some.mp h)
  have hnodup := registry.nodup
  rw [hsplit, map_append, nodup_append] at hnodup
  obtain ⟨-, hafter, hdisjoint⟩ := hnodup
  have hbefore : worktreeId ∉ before.map Prod.fst := fun hmem =>
    hdisjoint _ hmem _ mem_cons_self rfl
  have hafter := (nodup_cons.mp hafter).1
  let r := before.foldl (reconcileOne repositoryId records) ⟨registry, disk, []⟩
  obtain ⟨hexisting, hadmin⟩ := @foldl_disk repositoryId records before ⟨registry, disk, []⟩
  obtain ⟨hget, hmanaged⟩ := @foldl_other repositoryId records before _ hbefore ⟨registry, disk, []⟩
  have hreconcile : reconcile registry disk repositoryId records =
      after.foldl (reconcileOne repositoryId records)
        (reconcileOne repositoryId records r (worktreeId, entry)) := by
    rw [reconcile, hsplit, foldl_append, foldl_cons]
  obtain ⟨hget', hmanaged'⟩ := @foldl_other repositoryId records after _ hafter
    (reconcileOne repositoryId records r (worktreeId, entry))
  refine ⟨r, hexisting, fun path hid => hadmin path (hid ▸ hbefore), hget.trans h,
    fun hmem => absurd (hmanaged.mp hmem) not_mem_nil, ?_, fun path hid => ?_, ?_⟩
  · rw [hreconcile, hget']
  · rw [hreconcile, (foldl_disk after _).2 path (hid ▸ hafter)]
  · rw [hreconcile, hmanaged']

theorem Reached.foreign {r : Reconciliation}
    (h : Reached registry disk repositoryId records (worktreeId, entry) r)
    (hforeign : entry.repositoryId ≠ repositoryId) :
    (reconcile registry disk repositoryId records).registry.get? worktreeId = some entry ∧
      worktreeId ∉ (reconcile registry disk repositoryId records).managed := by
  have hone : reconcileOne repositoryId records r (worktreeId, entry) = r := if_pos hforeign
  constructor
  · rw [h.outcome, hone]
    exact h.found
  · rw [h.managed, hone]
    exact h.fresh

/-- What becomes of an entry of the repository. -/
theorem Reached.own {r : Reconciliation}
    (h : Reached registry disk repositoryId records (worktreeId, entry) r)
    (hown : entry.repositoryId = repositoryId) :
    (reconcile registry disk repositoryId records).registry.get? worktreeId =
        (reconcileEntry repositoryId records r.disk worktreeId entry).entry ∧
      (∀ path, worktreeId = ⟨repositoryId, path⟩ →
        (reconcile registry disk repositoryId records).disk.admins.get? path =
          (reconcileEntry repositoryId records r.disk worktreeId entry).disk.admins.get? path) ∧
      (worktreeId ∈ (reconcile registry disk repositoryId records).managed ↔
        (reconcileEntry repositoryId records r.disk worktreeId entry).managed = true) := by
  obtain ⟨-, -, -, hfresh, houtcome, hmarked, hmanaged⟩ := h
  rw [reconcileOne, if_neg (not_not.mpr hown)] at houtcome hmarked hmanaged
  refine ⟨houtcome.trans ?_, hmarked, hmanaged.trans ?_⟩
  · simp only
    cases (reconcileEntry repositoryId records r.disk worktreeId entry).entry with
    | none => exact get?_erase_self _ _
    | some entry' => exact get?_set_self _ _ _
  · simp only
    split
    next hyes => simp [hyes]
    next hno => exact ⟨fun hmem => absurd hmem hfresh, fun hyes => absurd hyes hno⟩

/-- What `reconcile` does with an entry, on a disk that is the one before as far as this entry
goes. -/
structure Effect (registry : ManagedWorktreeRegistry) (disk : Disk) (repositoryId : String)
    (records : List WorktreeRecord) (path : Path) (entry : ManagedWorktreeEntry) (d : Disk) :
    Prop where
  existing : d.existing = disk.existing
  admin : d.admins.get? path = disk.admins.get? path
  outcome : (reconcile registry disk repositoryId records).registry.get? ⟨repositoryId, path⟩ =
    (reconcileEntry repositoryId records d ⟨repositoryId, path⟩ entry).entry
  marked : (reconcile registry disk repositoryId records).disk.admins.get? path =
    (reconcileEntry repositoryId records d ⟨repositoryId, path⟩ entry).disk.admins.get? path
  managed : ⟨repositoryId, path⟩ ∈ (reconcile registry disk repositoryId records).managed ↔
    (reconcileEntry repositoryId records d ⟨repositoryId, path⟩ entry).managed = true

theorem exists_effect {registry : ManagedWorktreeRegistry} (disk : Disk) {path : Path}
    {entry : ManagedWorktreeEntry} (h : registry.get? ⟨repositoryId, path⟩ = some entry)
    (hown : entry.repositoryId = repositoryId) :
    ∃ d, Effect registry disk repositoryId records path entry d := by
  obtain ⟨r, hreached⟩ := @exists_reached repositoryId records registry disk _ entry h
  obtain ⟨houtcome, hmarked, hmanaged⟩ := hreached.own hown
  exact ⟨r.disk, hreached.existing, hreached.admin path rfl, houtcome, hmarked path rfl, hmanaged⟩

theorem not_managed_of_foreign
    (h : registry.get? worktreeId = some entry) (hforeign : entry.repositoryId ≠ repositoryId) :
    worktreeId ∉ (reconcile registry disk repositoryId records).managed := by
  obtain ⟨r, hreached⟩ := @exists_reached repositoryId records registry disk worktreeId entry h
  exact (hreached.foreign hforeign).2

theorem reconcile_existing (registry : ManagedWorktreeRegistry) (disk : Disk) :
    (reconcile registry disk repositoryId records).disk.existing = disk.existing :=
  (foldl_disk registry.entries ⟨registry, disk, []⟩).1

end Fold

/-! ## What reconciling keeps -/

def Listed (records : List WorktreeRecord) (path : Path) : Prop :=
  ∃ record ∈ records, record.path = path

instance (records : List WorktreeRecord) (path : Path) : Decidable (Listed records path) :=
  inferInstanceAs (Decidable (∃ record ∈ records, record.path = path))

/-- The entry of a worktree of the repository. -/
structure Owns (registry : ManagedWorktreeRegistry) (repositoryId : String) (path : Path)
    (entry : ManagedWorktreeEntry) : Prop where
  found : registry.get? ⟨repositoryId, path⟩ = some entry
  own : entry.repositoryId = repositoryId
  place : entry.path = path

def Marked (path : Path) (entry : ManagedWorktreeEntry) : Prop :=
  disk.admins.get? path = some (some entry.generationId)

/-- A ready entry whose generation is marked. -/
def Ready (repositoryId : String) (path : Path) : Prop :=
  ∃ entry, Owns registry repositoryId path entry ∧ entry.state = .ready ∧ Marked disk path entry

/-- The entry of a worktree that is added; once it is registered in git it has no other marker. -/
def Held (repositoryId : String) (path : Path) (registered : Bool) : Prop :=
  ∃ entry, Owns registry repositoryId path entry ∧ entry.legacy = false ∧
    (entry.state = .ready → Marked disk path entry) ∧
    (registered = true → disk.admins.get? path = some none ∨ Marked disk path entry)

/-- An entry, if there is one, that has its marker. -/
def Sound (repositoryId : String) (path : Path) : Prop :=
  ∀ entry, registry.get? ⟨repositoryId, path⟩ = some entry →
    entry.repositoryId = repositoryId ∧ entry.path = path ∧ Marked disk path entry

/-- A list that does not delete the entry: the worktree is listed, or it is still prepared and its
directory exists. -/
def Keeps (repositoryId : String) (records : List WorktreeRecord) (path : Path) : Prop :=
  Listed records path ∨ path ∈ disk.existing ∧
    (registry.get? ⟨repositoryId, path⟩).map (·.state) = some .preparing

instance (registry : ManagedWorktreeRegistry) (disk : Disk) (repositoryId : String)
    (records : List WorktreeRecord) (path : Path) :
    Decidable (Keeps registry disk repositoryId records path) :=
  inferInstanceAs (Decidable (_ ∨ _))

section Kept

variable {registry : ManagedWorktreeRegistry} {disk d : Disk} {repositoryId : String}
variable {records : List WorktreeRecord} {path : Path} {entry entry' : ManagedWorktreeEntry}

theorem reconcileEntry_listed (hlisted : Listed records path) (hplace : entry.path = path) :
    ∃ record, record.path = path ∧
      reconcileEntry repositoryId records d ⟨repositoryId, path⟩ entry =
        reconcileListed d entry record := by
  obtain ⟨record, hfind, hpath⟩ := @recordsById_listed repositoryId records path hlisted
  refine ⟨record, hpath, ?_⟩
  rw [reconcileEntry, hfind]
  exact if_neg (not_not.mpr (hpath.trans hplace.symm))

theorem reconcileEntry_unlisted (hlisted : ¬ Listed records path) :
    reconcileEntry repositoryId records d ⟨repositoryId, path⟩ entry = reconcileMissing d entry := by
  cases hfind : recordsById repositoryId records ⟨repositoryId, path⟩ with
  | none => rw [reconcileEntry, hfind]
  | some record =>
    obtain ⟨hid, hmem⟩ := recordsById_some hfind
    exact absurd ⟨record, hmem, (WorktreeId.mk.inj hid).2.symm⟩ hlisted

theorem reconcileListed_marked (hpath : record.path = path) (hmarked : Marked d path entry) :
    ∃ state, (reconcileListed d entry record).entry = some { entry with state := state } ∧
      (entry.state = .ready → state = .ready) ∧ (reconcileListed d entry record).disk = d := by
  have hmarker : d.readGenerationMarker record.path = some entry.generationId :=
    readGenerationMarker_some.mpr (hpath.symm ▸ hmarked)
  simp only [reconcileListed, hmarker, if_true]
  refine ⟨_, rfl, fun hready => ?_, trivial⟩
  rw [hready]
  rfl

theorem reconcileMissing_entry (h : (reconcileMissing d entry).entry = some entry') :
    entry' = { entry with state := .quarantined } := by
  unfold reconcileMissing at h
  split at h
  · exact (some.inj h).symm
  · cases h

theorem Ready.reconcile (h : Ready registry disk repositoryId path)
    (hlisted : Listed records path) : Ready (registry.reconcile disk repositoryId records).registry
      (registry.reconcile disk repositoryId records).disk repositoryId path := by
  obtain ⟨entry, howns, hready, hmarked⟩ := h
  obtain ⟨d, heffect⟩ := @exists_effect repositoryId records registry disk path entry howns.found
    howns.own
  have hmarked' : Marked d path entry := heffect.admin.trans hmarked
  obtain ⟨record, hpath, hentry⟩ := @reconcileEntry_listed d repositoryId records path entry hlisted
    howns.place
  obtain ⟨state, hstate, hkept, hdisk⟩ := reconcileListed_marked hpath hmarked'
  have houtcome := heffect.outcome
  have hadmin := heffect.marked
  rw [hentry] at houtcome hadmin
  rw [hdisk] at hadmin
  exact ⟨{ entry with state := state }, ⟨houtcome.trans hstate, howns.own, howns.place⟩,
    hkept hready, hadmin.trans hmarked'⟩

theorem Ready.listed (h : Ready registry disk repositoryId path)
    (hkeeps : Keeps registry disk repositoryId records path) : Listed records path := by
  obtain ⟨entry, howns, hready, -⟩ := h
  refine hkeeps.resolve_right fun hpreparing => ?_
  rw [howns.found] at hpreparing
  have hstate : entry.state = .preparing := some.inj hpreparing.2
  rw [hready] at hstate
  cases hstate

theorem Held.reconcile {registered : Bool} (h : Held registry disk repositoryId path registered)
    (hkeeps : Keeps registry disk repositoryId records path) :
    Held (registry.reconcile disk repositoryId records).registry
      (registry.reconcile disk repositoryId records).disk repositoryId path registered := by
  obtain ⟨entry, howns, hlegacy, hready, hregistered⟩ := h
  obtain ⟨d, heffect⟩ := @exists_effect repositoryId records registry disk path entry howns.found
    howns.own
  have hadmin : d.admins.get? path = disk.admins.get? path := heffect.admin
  have houtcome := heffect.outcome
  have hmarked := heffect.marked
  -- An entry that becomes no ready one keeps its generation and the disk.
  have hquarantined : (reconcileEntry repositoryId records d ⟨repositoryId, path⟩ entry).entry =
        some { entry with state := .quarantined } →
      (reconcileEntry repositoryId records d ⟨repositoryId, path⟩ entry).disk = d →
      Held (registry.reconcile disk repositoryId records).registry
        (registry.reconcile disk repositoryId records).disk repositoryId path registered := by
    intro hentry hdisk
    rw [hentry] at houtcome
    rw [hdisk, hadmin] at hmarked
    refine ⟨{ entry with state := .quarantined }, ⟨houtcome, howns.own, howns.place⟩, hlegacy,
      nofun, fun h => ?_⟩
    exact (hregistered h).imp hmarked.trans hmarked.trans
  by_cases hlisted : Listed records path
  · obtain ⟨record, hpath, hentry⟩ := @reconcileEntry_listed d repositoryId records path entry
      hlisted howns.place
    rw [hentry] at houtcome hmarked hquarantined
    rcases @reconcileListed_cases d entry record with
      ⟨hmarker, state, -, -, hlist⟩ | ⟨_, -, hold, -⟩ | ⟨_, hwrite, hlist⟩ | ⟨-, -, hlist⟩
    · have hmarked' : Marked d path entry := hpath ▸ readGenerationMarker_some.mp hmarker
      rw [hlist] at houtcome hmarked
      exact ⟨{ entry with state := state }, ⟨houtcome, howns.own, howns.place⟩, hlegacy,
        fun _ => hmarked.trans hmarked', fun _ => .inr (hmarked.trans hmarked')⟩
    · cases hlegacy.symm.trans hold
    · rw [hlist] at houtcome hmarked
      have hset : (registry.reconcile disk repositoryId records).disk.admins.get? path =
          some (some entry.generationId) :=
        hmarked.trans (hpath ▸ writeGenerationMarker_self hwrite)
      exact ⟨_, ⟨houtcome, howns.own, hpath⟩, rfl, fun _ => hset, fun _ => .inr hset⟩
    · exact hquarantined (by rw [hlist]) (by rw [hlist])
  · obtain ⟨hexists, hpreparing⟩ := hkeeps.resolve_left hlisted
    rw [howns.found] at hpreparing
    have hstate : entry.state = .preparing := some.inj hpreparing
    have hmissing : reconcileMissing d entry =
        ⟨some { entry with state := .quarantined }, d, false⟩ := by
      rw [← heffect.existing, ← howns.place] at hexists
      simp [reconcileMissing, hstate, hexists]
    rw [reconcileEntry_unlisted hlisted] at hquarantined
    exact hquarantined (by rw [hmissing]) (by rw [hmissing])

theorem Sound.reconcile (h : Sound registry disk repositoryId path) :
    Sound (registry.reconcile disk repositoryId records).registry
      (registry.reconcile disk repositoryId records).disk repositoryId path := by
  intro entry' hfound
  cases hget : registry.get? ⟨repositoryId, path⟩ with
  | none =>
    have hother := (@foldl_other repositoryId records registry.entries ⟨repositoryId, path⟩
      (get?_eq_none.mp hget) ⟨registry, disk, []⟩).1
    cases hfound.symm.trans (hother.trans hget)
  | some entry =>
    obtain ⟨hown, hplace, hmarked⟩ := h entry hget
    obtain ⟨d, heffect⟩ := @exists_effect repositoryId records registry disk path entry hget hown
    have hmarked' : Marked d path entry := heffect.admin.trans hmarked
    have houtcome := heffect.outcome.symm.trans hfound
    have hadmin := heffect.marked
    by_cases hlisted : Listed records path
    · obtain ⟨record, hpath, hentry⟩ := @reconcileEntry_listed d repositoryId records path entry
        hlisted hplace
      obtain ⟨state, hstate, -, hdisk⟩ := reconcileListed_marked hpath hmarked'
      rw [hentry] at houtcome hadmin
      rw [hdisk] at hadmin
      obtain rfl := some.inj (hstate.symm.trans houtcome)
      exact ⟨hown, hplace, hadmin.trans hmarked'⟩
    · rw [reconcileEntry_unlisted hlisted] at houtcome hadmin
      rw [reconcileMissing_disk] at hadmin
      obtain rfl := reconcileMissing_entry houtcome
      exact ⟨hown, hplace, hadmin.trans hmarked'⟩

theorem reconcile_managed
    (h : ⟨repositoryId, path⟩ ∈ (registry.reconcile disk repositoryId records).managed) :
    Ready (registry.reconcile disk repositoryId records).registry
      (registry.reconcile disk repositoryId records).disk repositoryId path := by
  cases hget : registry.get? ⟨repositoryId, path⟩ with
  | none =>
    have hother := (@foldl_other repositoryId records registry.entries ⟨repositoryId, path⟩
      (get?_eq_none.mp hget) ⟨registry, disk, []⟩).2
    exact absurd (hother.mp h) not_mem_nil
  | some entry =>
    by_cases hown : entry.repositoryId = repositoryId
    · obtain ⟨d, heffect⟩ := @exists_effect repositoryId records registry disk path entry hget hown
      obtain ⟨entry', path', hentry, hid, hplace, hready, hown', hmarked⟩ :=
        reconcileEntry_managed (heffect.managed.mp h)
      obtain rfl := (WorktreeId.mk.inj hid).2
      exact ⟨entry', ⟨heffect.outcome.trans hentry, hown'.trans hown, hplace⟩, hready,
        heffect.marked.trans hmarked⟩
    · exact absurd h (not_managed_of_foreign hget hown)

end Kept

/-! ## Keys -/

/-- Every entry has the key of its repository and path. -/
def WellKeyed : Prop :=
  ∀ worktreeId entry, registry.get? worktreeId = some entry →
    worktreeId = ⟨entry.repositoryId, entry.path⟩

section Keys

variable {registry : ManagedWorktreeRegistry} {repositoryId : String}
variable {records : List WorktreeRecord}

variable {entry : ManagedWorktreeEntry}

theorem WellKeyed.set (h : WellKeyed registry) {worktreeId : WorktreeId}
    (hkey : worktreeId = ⟨entry.repositoryId, entry.path⟩) :
    WellKeyed (registry.set worktreeId entry) := by
  intro other entry' hget
  rw [get?_set] at hget
  split at hget
  next hsame =>
    cases hget
    rw [hsame, hkey]
  · exact h other entry' hget

theorem WellKeyed.erase (h : WellKeyed registry) (worktreeId : WorktreeId) :
    WellKeyed (registry.erase worktreeId) := by
  intro other entry hget
  exact h other entry (get?_erase_eq_some hget).2

theorem reconcileListed_key {disk : Disk} (hpath : record.path = entry.path)
    (h : (reconcileListed disk entry record).entry = some entry') :
    entry'.repositoryId = entry.repositoryId ∧ entry'.path = entry.path := by
  rcases @reconcileListed_cases disk entry record with
    ⟨-, _, -, -, hlist⟩ | ⟨_, -, -, hlist⟩ | ⟨_, -, hlist⟩ | ⟨-, -, hlist⟩
  · rw [hlist] at h
    cases h
    exact ⟨rfl, rfl⟩
  · rw [hlist] at h
    cases h
    exact ⟨rfl, rfl⟩
  · rw [hlist] at h
    cases h
    exact ⟨rfl, hpath⟩
  · rw [hlist] at h
    cases h
    exact ⟨rfl, rfl⟩

theorem reconcileEntry_key {disk : Disk} {worktreeId : WorktreeId}
    (h : (reconcileEntry repositoryId records disk worktreeId entry).entry = some entry') :
    entry'.repositoryId = entry.repositoryId ∧ entry'.path = entry.path := by
  have hmissing : ∀ entry', (reconcileMissing disk entry).entry = some entry' →
      entry'.repositoryId = entry.repositoryId ∧ entry'.path = entry.path := by
    intro entry' h
    rw [reconcileMissing_entry h]
    exact ⟨rfl, rfl⟩
  unfold reconcileEntry at h
  split at h
  · exact hmissing entry' h
  split at h
  · exact hmissing entry' h
  next hpath => exact reconcileListed_key (of_not_not hpath) h

theorem WellKeyed.reconcile (h : WellKeyed registry) (disk : Disk) :
    WellKeyed (registry.reconcile disk repositoryId records).registry := by
  have hentries : ∀ e ∈ registry.entries, e.1 = ⟨e.2.repositoryId, e.2.path⟩ :=
    fun e he => h e.1 e.2 (get?_eq_some.mpr he)
  have hfold : ∀ (es : List (WorktreeId × ManagedWorktreeEntry)) (r : Reconciliation),
      (∀ e ∈ es, e.1 = ⟨e.2.repositoryId, e.2.path⟩) → WellKeyed r.registry →
      WellKeyed (es.foldl (reconcileOne repositoryId records) r).registry := by
    intro es
    induction es with
    | nil => exact fun r _ hr => hr
    | cons e es ih =>
      intro r hes hr
      refine ih _ (fun e' he' => hes e' (mem_cons_of_mem _ he')) ?_
      unfold reconcileOne
      split
      · exact hr
      simp only
      split
      · exact hr.erase _
      next entry' hentry =>
        obtain ⟨hown, hplace⟩ := reconcileEntry_key hentry
        refine hr.set ?_
        rw [hown, hplace]
        exact hes e mem_cons_self
  exact hfold registry.entries ⟨registry, disk, []⟩ hentries h

end Keys

end ManagedWorktreeRegistry

end TaskHandoff.Repository
