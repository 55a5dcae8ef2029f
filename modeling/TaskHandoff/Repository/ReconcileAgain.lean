import TaskHandoff.Repository.WorktreeRegistry

/-! # Reconciling a second time

What `reconcile` returns is ready and marked. On the disk that it leaves, and
with the same list of git, a second call decides every entry as the first one
did, except where the first one quarantined an entry that git does not list: the
second one takes it for a leftover and deletes it.
-/

namespace TaskHandoff.Repository

open OrderedMap

namespace ManagedWorktreeRegistry

/-! ## One entry -/

/-- Git lists the entry's worktree, and where the entry has it. -/
def AtItsPlace (repositoryId : String) (records : List WorktreeRecord) (worktreeId : WorktreeId)
    (entry : ManagedWorktreeEntry) : Prop :=
  ∃ record, recordsById repositoryId records worktreeId = some record ∧ record.path = entry.path

section Entry

variable {repositoryId : String} {records : List WorktreeRecord} {worktreeId : WorktreeId}
variable {entry entry' : ManagedWorktreeEntry} {record : WorktreeRecord} {d d' : Disk}

theorem reconcileEntry_atItsPlace
    (hfind : recordsById repositoryId records worktreeId = some record)
    (hpath : record.path = entry.path) :
    reconcileEntry repositoryId records d worktreeId entry = reconcileListed d entry record := by
  rw [reconcileEntry, hfind]
  exact if_neg (not_not.mpr hpath)

theorem reconcileEntry_elsewhere (h : ¬ AtItsPlace repositoryId records worktreeId entry) :
    reconcileEntry repositoryId records d worktreeId entry = reconcileMissing d entry := by
  unfold reconcileEntry
  cases hfind : recordsById repositoryId records worktreeId with
  | none => rfl
  | some record => exact if_pos fun hpath => h ⟨record, hfind, hpath⟩

/-- An entry under its marker that the pass has settled. -/
theorem reconcileListed_settled (hmarker : d.readGenerationMarker record.path = some entry.generationId)
    (hstate : entry.state = .ready ∨ entry.state = .quarantined) :
    reconcileListed d entry record = ⟨some entry, d, entry.state = .ready⟩ := by
  obtain ⟨repositoryId, path, generationId, state, intent, legacy⟩ := entry
  simp only [reconcileListed]
  rw [if_pos hmarker]
  rcases hstate with rfl | rfl <;> rfl

/-- A quarantined entry stays so where its marker is missing, or is another's. -/
theorem reconcileListed_quarantined
    (hmarker : d.readGenerationMarker record.path ≠ some entry.generationId)
    (hlegacy : entry.legacy = true → d.admins.get? record.path = none) :
    reconcileListed d { entry with state := .quarantined } record =
      ⟨some { entry with state := .quarantined }, d, false⟩ := by
  simp only [reconcileListed]
  rw [if_neg hmarker]
  by_cases hold : entry.legacy = true
  · have hadmin := hlegacy hold
    simp [Disk.readGenerationMarker, Disk.writeGenerationMarker, hadmin]
  cases d.readGenerationMarker record.path with
  | some generationId => exact if_neg hold
  | none => simp [canRecover, hold]

theorem reconcileListed_again
    (hadmin : d'.admins.get? record.path =
      (reconcileListed d entry record).disk.admins.get? record.path) :
    ∃ entry', (reconcileListed d entry record).entry = some entry' ∧
      reconcileListed d' entry' record =
        ⟨some entry', d', (reconcileListed d entry record).managed⟩ := by
  have hread : d'.readGenerationMarker record.path =
      (reconcileListed d entry record).disk.readGenerationMarker record.path := by
    rw [Disk.readGenerationMarker, hadmin]
    rfl
  rcases @reconcileListed_cases d entry record with
    ⟨hmarker, state, hstate, -, hlist⟩ | ⟨_, hmarker, -, hlist⟩ | ⟨_, hwrite, hlist⟩ |
      ⟨hmarker, hlegacy, hlist⟩
  · rw [hlist] at hread ⊢
    exact ⟨_, rfl, reconcileListed_settled (hread.trans hmarker) hstate⟩
  · rw [hlist] at hread ⊢
    exact ⟨_, rfl, reconcileListed_settled (hread.trans hmarker) (.inl rfl)⟩
  · rw [hlist] at hread ⊢
    have hmarker := readGenerationMarker_some.mpr (writeGenerationMarker_self hwrite)
    exact ⟨_, rfl, reconcileListed_settled (hread.trans hmarker) (.inl rfl)⟩
  · rw [hlist] at hread hadmin ⊢
    exact ⟨_, rfl, reconcileListed_quarantined (hread.trans_ne hmarker)
      fun hold => hadmin.trans (hlegacy hold)⟩

/-- The second decision, on a disk that differs from the one after the first in no more than
other worktrees' markers. -/
theorem reconcileEntry_again
    (hadmin : ∀ path, worktreeId = ⟨repositoryId, path⟩ → d'.admins.get? path =
      (reconcileEntry repositoryId records d worktreeId entry).disk.admins.get? path)
    (hplace : entry.state = .preparing → entry.path ∈ d.existing →
      AtItsPlace repositoryId records worktreeId entry)
    (hentry : (reconcileEntry repositoryId records d worktreeId entry).entry = some entry') :
    reconcileEntry repositoryId records d' worktreeId entry' =
      ⟨some entry', d', (reconcileEntry repositoryId records d worktreeId entry).managed⟩ := by
  by_cases h : AtItsPlace repositoryId records worktreeId entry
  · obtain ⟨record, hfind, hpath⟩ := h
    have hfirst := @reconcileEntry_atItsPlace repositoryId records worktreeId entry record d hfind
      hpath
    have hkept := (reconcileEntry_key hentry).2
    rw [reconcileEntry_atItsPlace hfind (hpath.trans hkept.symm)]
    rw [hfirst] at hadmin hentry ⊢
    obtain ⟨again, hagain, hlist⟩ :=
      reconcileListed_again (hadmin record.path (recordsById_some hfind).1)
    obtain rfl := Option.some.inj (hagain.symm.trans hentry)
    exact hlist
  · rw [reconcileEntry_elsewhere h, reconcileMissing, if_neg] at hentry
    · cases hentry
    · intro hleft
      obtain ⟨hstate, hexists⟩ := Bool.and_eq_true_iff.mp hleft
      exact h (hplace (of_decide_eq_true hstate) (of_decide_eq_true hexists))

theorem reconcileEntry_none (h : (reconcileEntry repositoryId records d worktreeId entry).entry = none) :
    (reconcileEntry repositoryId records d worktreeId entry).managed = false := by
  cases hmanaged : (reconcileEntry repositoryId records d worktreeId entry).managed with
  | false => rfl
  | true =>
    obtain ⟨entry', -, hentry, -⟩ := reconcileEntry_managed hmanaged
    cases h.symm.trans hentry

theorem reconcileEntry_leftover (hplace : ¬ AtItsPlace repositoryId records worktreeId entry)
    (hstate : entry.state = .preparing) (hexists : entry.path ∈ d.existing) :
    (reconcileEntry repositoryId records d worktreeId entry).entry =
        some { entry with state := .quarantined } ∧
      (reconcileEntry repositoryId records d' worktreeId
        { entry with state := .quarantined }).entry = none := by
  have hplace' : ¬ AtItsPlace repositoryId records worktreeId
      { entry with state := .quarantined } := hplace
  rw [reconcileEntry_elsewhere hplace, reconcileEntry_elsewhere hplace']
  constructor
  · simp [reconcileMissing, hstate, hexists]
  · rfl

end Entry

/-! ## The whole pass -/

section Pass

variable (registry : ManagedWorktreeRegistry) (disk : Disk) (repositoryId : String)
variable (records : List WorktreeRecord)

/-- The second pass over what the first one left. -/
def reconcileAgain : Reconciliation :=
  reconcile (reconcile registry disk repositoryId records).registry
    (reconcile registry disk repositoryId records).disk repositoryId records

/-- No entry that is prepared, and whose directory exists, is missing from git's list. -/
def NoLeftover : Prop :=
  ∀ worktreeId entry, registry.get? worktreeId = some entry → entry.repositoryId = repositoryId →
    entry.state = .preparing → entry.path ∈ disk.existing →
      AtItsPlace repositoryId records worktreeId entry

variable {registry disk repositoryId records} {worktreeId : WorktreeId}
variable {entry : ManagedWorktreeEntry}

theorem reconcile_absent (h : registry.get? worktreeId = none) :
    (reconcile registry disk repositoryId records).registry.get? worktreeId = none ∧
      worktreeId ∉ (reconcile registry disk repositoryId records).managed := by
  obtain ⟨hget, hmanaged⟩ := @foldl_other repositoryId records registry.entries worktreeId
    (get?_eq_none.mp h) ⟨registry, disk, []⟩
  exact ⟨hget.trans h, fun hmem => absurd (hmanaged.mp hmem) List.not_mem_nil⟩

theorem reconcileAgain_own (h : registry.get? worktreeId = some entry)
    (hown : entry.repositoryId = repositoryId)
    (hplace : entry.state = .preparing → entry.path ∈ disk.existing →
      AtItsPlace repositoryId records worktreeId entry) :
    (worktreeId ∈ (reconcileAgain registry disk repositoryId records).managed ↔
        worktreeId ∈ (reconcile registry disk repositoryId records).managed) ∧
      (reconcileAgain registry disk repositoryId records).registry.get? worktreeId =
        (reconcile registry disk repositoryId records).registry.get? worktreeId := by
  obtain ⟨r, hreached⟩ := @exists_reached repositoryId records registry disk _ _ h
  obtain ⟨houtcome, hmarked, hmanaged⟩ := hreached.own hown
  cases hentry : (reconcileEntry repositoryId records r.disk worktreeId entry).entry with
  | none =>
    obtain ⟨hget', hmanaged'⟩ := @reconcile_absent
      _ (reconcile registry disk repositoryId records).disk repositoryId records worktreeId
      (houtcome.trans hentry)
    rw [hmanaged, reconcileEntry_none hentry]
    exact ⟨⟨fun hmem => absurd hmem hmanaged', nofun⟩, hget'.trans (houtcome.trans hentry).symm⟩
  | some entry' =>
    have hfound := houtcome.trans hentry
    obtain ⟨r', hreached'⟩ := @exists_reached repositoryId records _
      (reconcile registry disk repositoryId records).disk _ _ hfound
    obtain ⟨houtcome', -, hmanaged'⟩ := hreached'.own ((reconcileEntry_key hentry).1.trans hown)
    have hagain := @reconcileEntry_again repositoryId records worktreeId entry entry' r.disk
      r'.disk (fun path hid => (hreached'.admin path hid).trans (hmarked path hid))
      (fun hstate hexists => hplace hstate (hreached.existing ▸ hexists)) hentry
    rw [hagain] at houtcome' hmanaged'
    exact ⟨hmanaged'.trans hmanaged.symm, houtcome'.trans hfound.symm⟩

theorem reconcileAgain_eq (h : NoLeftover registry disk repositoryId records)
    (worktreeId : WorktreeId) :
    (worktreeId ∈ (reconcileAgain registry disk repositoryId records).managed ↔
        worktreeId ∈ (reconcile registry disk repositoryId records).managed) ∧
      (reconcileAgain registry disk repositoryId records).registry.get? worktreeId =
        (reconcile registry disk repositoryId records).registry.get? worktreeId := by
  cases hget : registry.get? worktreeId with
  | none =>
    obtain ⟨hnone, hmanaged⟩ := @reconcile_absent registry disk repositoryId records worktreeId hget
    obtain ⟨hnone', hmanaged'⟩ := @reconcile_absent _
      (reconcile registry disk repositoryId records).disk repositoryId records worktreeId hnone
    exact ⟨⟨fun hmem => absurd hmem hmanaged', fun hmem => absurd hmem hmanaged⟩,
      hnone'.trans hnone.symm⟩
  | some entry =>
    by_cases hown : entry.repositoryId = repositoryId
    · exact reconcileAgain_own hget hown (h worktreeId entry hget hown)
    obtain ⟨r, hreached⟩ := @exists_reached repositoryId records registry disk _ _ hget
    obtain ⟨hkept, hmanaged⟩ := hreached.foreign hown
    obtain ⟨r', hreached'⟩ := @exists_reached repositoryId records _
      (reconcile registry disk repositoryId records).disk _ _ hkept
    obtain ⟨hkept', hmanaged'⟩ := hreached'.foreign hown
    exact ⟨⟨fun hmem => absurd hmem hmanaged', fun hmem => absurd hmem hmanaged⟩,
      hkept'.trans hkept.symm⟩

theorem NoLeftover.of_same
    (h : ∀ worktreeId, (reconcileAgain registry disk repositoryId records).registry.get? worktreeId =
      (reconcile registry disk repositoryId records).registry.get? worktreeId) :
    NoLeftover registry disk repositoryId records := by
  intro worktreeId entry hget hown hstate hexists
  by_contra hplace
  obtain ⟨r, hreached⟩ := @exists_reached repositoryId records registry disk _ _ hget
  have hexists : entry.path ∈ r.disk.existing := hreached.existing ▸ hexists
  have hfound := (hreached.own hown).1.trans
    (@reconcileEntry_leftover _ _ _ _ _ r.disk hplace hstate hexists).1
  obtain ⟨r', hreached'⟩ := @exists_reached repositoryId records _
    (reconcile registry disk repositoryId records).disk _ _ hfound
  have hgone := (hreached'.own hown).1.trans
    (@reconcileEntry_leftover _ _ _ _ r.disk r'.disk hplace hstate hexists).2
  cases hgone.symm.trans ((h worktreeId).trans hfound)

theorem reconcile_managed_key
    (h : worktreeId ∈ (reconcile registry disk repositoryId records).managed) :
    ∃ path, worktreeId = ⟨repositoryId, path⟩ := by
  cases hget : registry.get? worktreeId with
  | none => exact absurd h (reconcile_absent hget).2
  | some entry =>
    obtain ⟨r, hreached⟩ := @exists_reached repositoryId records registry disk _ _ hget
    by_cases hown : entry.repositoryId = repositoryId
    · obtain ⟨-, path, -, hid, -⟩ := reconcileEntry_managed ((hreached.own hown).2.2.mp h)
      exact ⟨path, hid⟩
    · exact absurd h (hreached.foreign hown).2

variable (registry disk repositoryId records)

/-- Whatever `reconcile` returns is ready under the marker on disk; a second call returns the same
and changes no entry exactly when the first one leaves no quarantined leftover. -/
theorem reconcile_idempotent_iff :
    (∀ worktreeId ∈ (reconcile registry disk repositoryId records).managed, ∃ path,
      worktreeId = repositoryWorktreeId repositoryId path ∧
        Ready (reconcile registry disk repositoryId records).registry
          (reconcile registry disk repositoryId records).disk repositoryId path) ∧
      ((∀ worktreeId, (worktreeId ∈ (reconcileAgain registry disk repositoryId records).managed ↔
            worktreeId ∈ (reconcile registry disk repositoryId records).managed) ∧
          (reconcileAgain registry disk repositoryId records).registry.get? worktreeId =
            (reconcile registry disk repositoryId records).registry.get? worktreeId) ↔
        NoLeftover registry disk repositoryId records) := by
  refine ⟨fun worktreeId hmem => ?_, fun h => NoLeftover.of_same fun worktreeId => (h worktreeId).2,
    reconcileAgain_eq⟩
  obtain ⟨path, rfl⟩ := reconcile_managed_key hmem
  exact ⟨path, rfl, reconcile_managed hmem⟩

end Pass

/-! ## A worktree that git never listed -/

def mainWorktree : WorktreeRecord := ⟨"/r", some "1", some "main", false, false, false⟩

/-- The directory was made before the process ended; git lists the main worktree only. -/
def interrupted : ManagedWorktreeRegistry :=
  (empty : ManagedWorktreeRegistry).set (repositoryWorktreeId "r" "/w")
    ⟨"r", "/w", "g", .preparing, none, false⟩

/-- The first pass quarantines the entry and the second one deletes it. -/
theorem interrupted_changes :
    ((reconcile interrupted ⟨["/r", "/w"], empty⟩ "r" [mainWorktree]).registry.get?
        (repositoryWorktreeId "r" "/w")).map (·.state) = some .quarantined ∧
      (reconcileAgain interrupted ⟨["/r", "/w"], empty⟩ "r" [mainWorktree]).registry.get?
        (repositoryWorktreeId "r" "/w") = none := by
  decide

end ManagedWorktreeRegistry

end TaskHandoff.Repository
