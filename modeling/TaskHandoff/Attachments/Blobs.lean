import TaskHandoff.Attachments.Operations

/-! # References keep their blobs

Every manifest and draft file has its blob, on the disk after every write.
Removal decides on the maps in memory, which hold what the files hold, and
takes the reference away before the blob. Between the writes of one operation
at most one blob waits for its reference.
-/

namespace TaskHandoff.Attachments

open OrderedMap List

variable {Hash : Type} [DecidableEq Hash]

/-! ## Directories -/

/-- Every draft and every manifest that keeps its content has its blob. -/
structure Disk.BlobsPresent (d : Disk Hash) : Prop where
  draft : ∀ id f, d.draftFiles.get? id = some f → d.blobs.contains f.blobHash = true
  manifest : ∀ id f, d.manifestFiles.get? id = some f → f.contentKept = true →
    d.blobs.contains f.blobHash = true

/-- A directory the store can be started from. -/
structure Disk.Sound (d : Disk Hash) : Prop where
  blobs : d.BlobsPresent
  draftId : ∀ id f, d.draftFiles.get? id = some f → f.id = id
  manifestId : ∀ id f, d.manifestFiles.get? id = some f → f.id = id
  deleted : ∀ id f, d.manifestFiles.get? id = some f → f.contentKept = false → f.state = .committed
  sameBlob : ∀ id f g, d.draftFiles.get? id = some f → d.manifestFiles.get? id = some g →
    f.blobHash = g.blobHash

variable {κ ν : Type} {m : OrderedMap κ ν} {k j : κ}

theorem contains_set [DecidableEq κ] {v : ν} (h : m.contains j = true) :
    (m.set k v).contains j = true := by
  unfold OrderedMap.contains at h ⊢
  by_cases hj : j = k
  · simp [hj]
  · rw [m.get?_set_ne v hj]
    exact h

theorem contains_set_self [DecidableEq κ] (m : OrderedMap κ ν) (k : κ) (v : ν) :
    (m.set k v).contains k = true := by
  simp [OrderedMap.contains]

theorem contains_of_set [DecidableEq κ] {v : ν} (h : (m.set k v).contains j = true) (hne : j ≠ k) :
    m.contains j = true := by
  unfold OrderedMap.contains at h ⊢
  rwa [m.get?_set_ne v hne] at h

theorem contains_erase [DecidableEq κ] (h : m.contains j = true) (hne : j ≠ k) :
    (m.erase k).contains j = true := by
  unfold OrderedMap.contains at h ⊢
  rwa [m.get?_erase_ne hne]

theorem contains_of_erase [DecidableEq κ] (h : (m.erase k).contains j = true) :
    j ≠ k ∧ m.contains j = true := by
  unfold OrderedMap.contains at h ⊢
  rw [m.get?_erase] at h
  split at h
  · cases h
  next hne => exact ⟨hne, h⟩

namespace Disk.Sound

variable {d : Disk Hash}

variable (h : d.Sound)

include h

theorem setBlob (temporaries : OrderedMap TemporaryName Bytes) (hash : Hash)
    (content : Bytes) : Disk.Sound { d with temporaries, blobs := d.blobs.set hash content } where
  __ := h
  blobs :=
    { draft := fun id f hf => contains_set (h.blobs.draft id f hf)
      manifest := fun id f hf hkept => contains_set (h.blobs.manifest id f hf hkept) }

theorem setTemporaries (temporaries : OrderedMap TemporaryName Bytes) :
    Disk.Sound { d with temporaries } where
  __ := h
  blobs := ⟨h.blobs.draft, h.blobs.manifest⟩

theorem eraseBlob {hash : Hash}
    (hdrafts : ∀ id f, d.draftFiles.get? id = some f → f.blobHash ≠ hash)
    (hmanifests : ∀ id f, d.manifestFiles.get? id = some f → f.contentKept = true →
      f.blobHash ≠ hash) : Disk.Sound { d with blobs := d.blobs.erase hash } where
  __ := h
  blobs :=
    { draft := fun id f hf => contains_erase (h.blobs.draft id f hf) (hdrafts id f hf)
      manifest := fun id f hf hkept =>
        contains_erase (h.blobs.manifest id f hf hkept) (hmanifests id f hf hkept) }

theorem setManifest {m : AttachmentManifest Hash}
    (hblob : m.contentKept = true → d.blobs.contains m.blobHash = true)
    (hdeleted : m.contentKept = false → m.state = .committed)
    (hsame : ∀ f, d.draftFiles.get? m.id = some f → f.blobHash = m.blobHash) :
    Disk.Sound { d with manifestFiles := d.manifestFiles.set m.id m } where
  blobs :=
    { draft := h.blobs.draft
      manifest := by
        intro id f hf hkept
        rcases get?_set_eq_some hf with ⟨-, rfl⟩ | ⟨-, hf⟩
        · exact hblob hkept
        · exact h.blobs.manifest id f hf hkept }
  draftId := h.draftId
  manifestId := by
    intro id f hf
    rcases get?_set_eq_some hf with ⟨rfl, rfl⟩ | ⟨-, hf⟩
    · rfl
    · exact h.manifestId id f hf
  deleted := by
    intro id f hf
    rcases get?_set_eq_some hf with ⟨-, rfl⟩ | ⟨-, hf⟩
    · exact hdeleted
    · exact h.deleted id f hf
  sameBlob := by
    intro id f g hf hg
    rcases get?_set_eq_some hg with ⟨rfl, rfl⟩ | ⟨-, hg⟩
    · exact hsame f hf
    · exact h.sameBlob id f g hf hg

theorem setDraft {f : DraftManifest Hash} (hblob : d.blobs.contains f.blobHash = true)
    (hsame : ∀ g, d.manifestFiles.get? f.id = some g → f.blobHash = g.blobHash) :
    Disk.Sound { d with draftFiles := d.draftFiles.set f.id f } where
  __ := h
  blobs :=
    { draft := by
        intro id g hg
        rcases get?_set_eq_some hg with ⟨-, rfl⟩ | ⟨-, hg⟩
        · exact hblob
        · exact h.blobs.draft id g hg
      manifest := h.blobs.manifest }
  draftId := by
    intro id g hg
    rcases get?_set_eq_some hg with ⟨rfl, rfl⟩ | ⟨-, hg⟩
    · rfl
    · exact h.draftId id g hg
  sameBlob := by
    intro id g m hg hm
    rcases get?_set_eq_some hg with ⟨rfl, rfl⟩ | ⟨-, hg⟩
    · exact hsame m hm
    · exact h.sameBlob id g m hg hm

theorem eraseManifest (id : String) :
    Disk.Sound { d with manifestFiles := d.manifestFiles.erase id } where
  blobs :=
    { draft := h.blobs.draft
      manifest := fun j f hf => h.blobs.manifest j f (get?_erase_eq_some hf).2 }
  draftId := h.draftId
  manifestId := fun j f hf => h.manifestId j f (get?_erase_eq_some hf).2
  deleted := fun j f hf => h.deleted j f (get?_erase_eq_some hf).2
  sameBlob := fun j f g hf hg => h.sameBlob j f g hf (get?_erase_eq_some hg).2

theorem eraseDraft (id : String) : Disk.Sound { d with draftFiles := d.draftFiles.erase id } where
  __ := h
  blobs :=
    { draft := fun j f hf => h.blobs.draft j f (get?_erase_eq_some hf).2
      manifest := h.blobs.manifest }
  draftId := fun j f hf => h.draftId j f (get?_erase_eq_some hf).2
  sameBlob := fun j f g hf hg => h.sameBlob j f g (get?_erase_eq_some hf).2 hg

end Disk.Sound

theorem emptyDisk_sound : (emptyDisk : Disk Hash).Sound where
  blobs := ⟨fun id f hf => by simp [emptyDisk] at hf, fun id f hf => by simp [emptyDisk] at hf⟩
  draftId id f hf := by simp [emptyDisk] at hf
  manifestId id f hf := by simp [emptyDisk] at hf
  deleted id f hf := by simp [emptyDisk] at hf
  sameBlob id f g hf := by simp [emptyDisk] at hf

/-! ## References in memory -/

namespace Store

variable {s : Store Hash}

variable {hash : Hash}

theorem referencedByManifest_iff : s.referencedByManifest hash = true ↔
    ∃ id m, s.manifests.get? id = some m ∧ m.blobHash = hash ∧ m.contentKept = true := by
  simp only [referencedByManifest, any_eq_true, mem_values, Bool.and_eq_true, beq_iff_eq]
  constructor
  · rintro ⟨m, ⟨id, hm⟩, h⟩
    exact ⟨id, m, hm, h⟩
  · rintro ⟨id, m, hm, h⟩
    exact ⟨m, ⟨id, hm⟩, h⟩

theorem referencedByDraft_iff : s.referencedByDraft hash = true ↔
    ∃ id f, s.drafts.get? id = some f ∧ f.blobHash = hash := by
  simp only [referencedByDraft, any_eq_true, mem_values, beq_iff_eq]
  constructor
  · rintro ⟨f, ⟨id, hf⟩, h⟩
    exact ⟨id, f, hf, h⟩
  · rintro ⟨id, f, hf, h⟩
    exact ⟨f, ⟨id, hf⟩, h⟩

variable {m : AttachmentManifest Hash}

variable {id : String} {t : Store Hash} {k : Hash}

theorem referenced_of_manifest (hm : s.manifests.get? id = some m)
    (hhash : m.blobHash = hash) (hkept : m.contentKept = true) : s.referenced hash = true := by
  simp [referenced, referencedByManifest_iff.mpr ⟨id, m, hm, hhash, hkept⟩]

variable {f : DraftManifest Hash}

theorem referenced_of_draft (hf : s.drafts.get? id = some f)
    (hhash : f.blobHash = hash) : s.referenced hash = true := by
  simp [referenced, referencedByDraft_iff.mpr ⟨id, f, hf, hhash⟩]

theorem referenced_cases (h : s.referenced hash = true) :
    (∃ id m, s.manifests.get? id = some m ∧ m.blobHash = hash ∧ m.contentKept = true) ∨
      ∃ id f, s.drafts.get? id = some f ∧ f.blobHash = hash := by
  simpa only [referenced, Bool.or_eq_true, referencedByManifest_iff, referencedByDraft_iff] using h

theorem referenced_of_kept (hmanifests : ∀ id m, s.manifests.get? id = some m → m.blobHash = hash →
      m.contentKept = true → t.referenced hash = true)
    (hdrafts : ∀ id f, s.drafts.get? id = some f → f.blobHash = hash → t.referenced hash = true)
    (h : s.referenced hash = true) : t.referenced hash = true := by
  rcases referenced_cases h with ⟨id, m, hm, hhash, hkept⟩ | ⟨id, f, hf, hhash⟩
  · exact hmanifests id m hm hhash hkept
  · exact hdrafts id f hf hhash

/-! ## Consistent stores -/

/-- The maps hold what the files hold, every written directory is sound, and no upload in
progress has the id of a draft, a manifest or another upload. -/
structure Consistent (s : Store Hash) : Prop where
  sound : s.disk.Sound
  manifests : ∀ id, s.manifests.get? id = s.disk.manifestFiles.get? id
  drafts : ∀ id, s.drafts.get? id = s.disk.draftFiles.get? id
  trace : ∀ d ∈ s.trace, d.Sound
  unowned : ∀ call u, s.uploads.get? call = some u →
    s.drafts.get? u.id = none ∧ s.manifests.get? u.id = none
  distinct : ∀ i j u v, s.uploads.get? i = some u → s.uploads.get? j = some v → u.id = v.id → i = j

/-- Every blob but perhaps one is referenced. -/
def CoveredBut (hash : Hash) (s : Store Hash) : Prop :=
  ∀ h, h ≠ hash → s.blobExists h = true → s.referenced h = true

def Covered (s : Store Hash) : Prop :=
  ∀ h, s.blobExists h = true → s.referenced h = true

/-- What holds between two operations. -/
structure Settled (s : Store Hash) : Prop extends Consistent s where
  covered : Covered s

theorem Covered.but (h : Covered s) (hash : Hash) : CoveredBut hash s := fun k _ hk => h k hk

theorem CoveredBut.covered (h : CoveredBut hash s)
    (hhash : s.blobExists hash = true → s.referenced hash = true) : Covered s := by
  intro k hk
  by_cases hne : k = hash
  · subst hne
    exact hhash hk
  · exact h k hne hk

namespace Consistent

variable {disk : Disk Hash}

variable (h : Consistent s)

include h

theorem trace_snoc (hdisk : disk.Sound) : ∀ d ∈ s.trace ++ [disk], d.Sound := by
  intro d hd
  rcases mem_concat.mp hd with hd | rfl
  · exact h.trace d hd
  · exact hdisk

theorem wrote (hdisk : disk.Sound) (hmanifests : disk.manifestFiles = s.disk.manifestFiles)
    (hdrafts : disk.draftFiles = s.disk.draftFiles) : Consistent (s.wrote disk) where
  __ := h
  sound := hdisk
  manifests id := by
    rw [show (s.wrote disk).disk.manifestFiles = _ from hmanifests]
    exact h.manifests id
  drafts id := by
    rw [show (s.wrote disk).disk.draftFiles = _ from hdrafts]
    exact h.drafts id
  trace := h.trace_snoc hdisk

theorem saveManifest
    (hblob : m.contentKept = true → s.blobExists m.blobHash = true)
    (hdeleted : m.contentKept = false → m.state = .committed)
    (hsame : ∀ f, s.drafts.get? m.id = some f → f.blobHash = m.blobHash)
    (hunowned : ∀ call u, s.uploads.get? call = some u → u.id ≠ m.id) :
    Consistent (s.saveManifest m) := by
  have hsound := h.sound.setManifest hblob hdeleted fun f hf => hsame f ((h.drafts m.id).trans hf)
  constructor
  · exact hsound
  · intro id
    show (s.manifests.set m.id m).get? id = (s.disk.manifestFiles.set m.id m).get? id
    rw [get?_set, get?_set, h.manifests id]
  · exact h.drafts
  · exact h.trace_snoc hsound
  · intro call u hu
    have hne := hunowned call u hu
    exact ⟨(h.unowned call u hu).1, (s.manifests.get?_set_ne m hne).trans (h.unowned call u hu).2⟩
  · exact h.distinct

theorem saveDraft (hblob : s.blobExists f.blobHash = true)
    (hsame : ∀ m, s.manifests.get? f.id = some m → f.blobHash = m.blobHash)
    (hunowned : ∀ call u, s.uploads.get? call = some u → u.id ≠ f.id) :
    Consistent (s.saveDraft f) := by
  have hsound := h.sound.setDraft hblob fun m hm => hsame m ((h.manifests f.id).trans hm)
  constructor
  · exact hsound
  · exact h.manifests
  · intro id
    show (s.drafts.set f.id f).get? id = (s.disk.draftFiles.set f.id f).get? id
    rw [get?_set, get?_set, h.drafts id]
  · exact h.trace_snoc hsound
  · intro call u hu
    have hne := hunowned call u hu
    exact ⟨(s.drafts.get?_set_ne f hne).trans (h.unowned call u hu).1, (h.unowned call u hu).2⟩
  · exact h.distinct

theorem unlinkBlob (hfree : s.referenced hash = false) : Consistent (s.unlinkBlob hash) := by
  unfold Store.unlinkBlob
  split
  · refine h.wrote (h.sound.eraseBlob ?_ ?_) rfl rfl
    · intro id f hf hhash
      have href := referenced_of_draft ((h.drafts id).trans hf) hhash
      rw [hfree] at href
      cases href
    · intro id m hm hkept hhash
      have href := referenced_of_manifest ((h.manifests id).trans hm) hhash hkept
      rw [hfree] at href
      cases href
  · exact h

theorem removeBlobIfUnreferenced (hash : Hash) : Consistent (s.removeBlobIfUnreferenced hash) := by
  unfold Store.removeBlobIfUnreferenced
  cases hfree : s.referenced hash with
  | true => exact h
  | false => exact h.unlinkBlob hfree

theorem unlinkTemporary (name : TemporaryName) : Consistent (s.unlinkTemporary name) := by
  unfold Store.unlinkTemporary
  split
  · exact h.wrote (h.sound.setTemporaries _) rfl rfl
  · exact h

theorem writeTemporary (name : TemporaryName) (content : Bytes) :
    Consistent (s.writeTemporary name content) :=
  h.wrote (h.sound.setTemporaries _) rfl rfl

theorem renameToBlob (name : TemporaryName) (hash : Hash) (content : Bytes) :
    Consistent (s.renameToBlob name hash content) :=
  h.wrote (h.sound.setBlob _ hash content) rfl rfl

theorem writeBlob (hash : Hash) (content : Bytes) : Consistent (s.writeBlob hash content) := by
  unfold Store.writeBlob
  split
  · exact h
  · exact (h.writeTemporary .snapshot content).renameToBlob .snapshot hash content

theorem eraseManifest (id : String) : Consistent (s.eraseManifest id) where
  __ := h
  sound := h.sound.eraseManifest id
  manifests j := by
    show (s.manifests.erase id).get? j = (s.disk.manifestFiles.erase id).get? j
    rw [get?_erase, get?_erase, h.manifests j]
  trace := h.trace_snoc (h.sound.eraseManifest id)
  unowned call u hu := by
    have hfree := h.unowned call u hu
    exact ⟨hfree.1, by
      show (s.manifests.erase id).get? u.id = none
      rw [get?_erase, hfree.2, ite_self]⟩

theorem eraseDraft (id : String) : Consistent (s.eraseDraft id) where
  __ := h
  sound := h.sound.eraseDraft id
  drafts j := by
    show (s.drafts.erase id).get? j = (s.disk.draftFiles.erase id).get? j
    rw [get?_erase, get?_erase, h.drafts j]
  trace := h.trace_snoc (h.sound.eraseDraft id)
  unowned call u hu := by
    have hfree := h.unowned call u hu
    exact ⟨by
      show (s.drafts.erase id).get? u.id = none
      rw [get?_erase, hfree.1, ite_self], hfree.2⟩

end Consistent

/-! ## Covered blobs -/

theorem CoveredBut.change (h : CoveredBut hash s) (hblobs : t.disk.blobs = s.disk.blobs)
    (hmanifests : ∀ id m, s.manifests.get? id = some m → m.blobHash ≠ hash →
      t.manifests.get? id = some m)
    (hdrafts : ∀ id f, s.drafts.get? id = some f → f.blobHash ≠ hash → t.drafts.get? id = some f) :
    CoveredBut hash t := by
  intro k hne hk
  have hs : s.blobExists k = true := by
    unfold blobExists at hk ⊢
    rwa [hblobs] at hk
  refine referenced_of_kept ?_ ?_ (h k hne hs)
  · intro id m hm hhash hkept
    have hm := hmanifests id m hm fun heq => hne (hhash.symm.trans heq)
    exact referenced_of_manifest hm hhash hkept
  intro id f hf hhash
  have hf := hdrafts id f hf fun heq => hne (hhash.symm.trans heq)
  exact referenced_of_draft hf hhash

theorem CoveredBut.saveManifest (h : CoveredBut m.blobHash s)
    (hold : ∀ old, s.manifests.get? m.id = some old → old.blobHash = m.blobHash) :
    CoveredBut m.blobHash (s.saveManifest m) := by
  refine h.change rfl ?_ fun id f hf _ => hf
  intro id old hget hne
  refine (s.manifests.get?_set_ne m ?_).trans hget
  intro hid
  subst hid
  exact hne (hold old hget)

theorem CoveredBut.saveDraft (h : CoveredBut f.blobHash s)
    (hold : ∀ old, s.drafts.get? f.id = some old → old.blobHash = f.blobHash) :
    CoveredBut f.blobHash (s.saveDraft f) := by
  refine h.change rfl (fun id m hm _ => hm) ?_
  intro id old hget hne
  refine (s.drafts.get?_set_ne f ?_).trans hget
  intro hid
  subst hid
  exact hne (hold old hget)

theorem CoveredBut.covered_saveManifest (h : CoveredBut m.blobHash s) (hkept : m.contentKept = true)
    (hold : ∀ old, s.manifests.get? m.id = some old → old.blobHash = m.blobHash) :
    Covered (s.saveManifest m) :=
  (h.saveManifest hold).covered fun _ =>
    referenced_of_manifest (s.manifests.get?_set_self m.id m) rfl hkept

theorem CoveredBut.covered_saveDraft (h : CoveredBut f.blobHash s)
    (hold : ∀ old, s.drafts.get? f.id = some old → old.blobHash = f.blobHash) :
    Covered (s.saveDraft f) :=
  (h.saveDraft hold).covered fun _ => referenced_of_draft (s.drafts.get?_set_self f.id f) rfl

theorem referenced_unlinkBlob (s : Store Hash) (hash k : Hash) :
    (s.unlinkBlob hash).referenced k = s.referenced k := by
  unfold unlinkBlob
  split <;> rfl

theorem blobExists_of_unlinkBlob (h : (s.unlinkBlob hash).blobExists k = true) :
    k ≠ hash ∧ s.blobExists k = true := by
  unfold unlinkBlob at h
  split at h
  · exact contains_of_erase h
  next habsent =>
    refine ⟨?_, h⟩
    rintro rfl
    exact habsent h

/-- The blob that waited for a reference goes when nothing references it. -/
theorem CoveredBut.removeBlobIfUnreferenced (h : CoveredBut hash s) :
    Covered (s.removeBlobIfUnreferenced hash) := by
  unfold Store.removeBlobIfUnreferenced
  cases hfree : s.referenced hash with
  | true => exact h.covered fun _ => hfree
  | false =>
    intro k hk
    have ⟨hne, hold⟩ := blobExists_of_unlinkBlob hk
    exact (referenced_unlinkBlob s hash k).trans (h k hne hold)

namespace Settled

variable (h : Settled s)

include h

theorem removeManifest (id : String) : Settled (s.removeManifest id) := by
  unfold Store.removeManifest
  cases hm : s.manifests.get? id with
  | none => exact h
  | some m =>
    have hcons := h.toConsistent.eraseManifest id
    have hbut : CoveredBut m.blobHash (s.eraseManifest id) := by
      refine (h.covered.but m.blobHash).change rfl ?_ fun j f hf _ => hf
      intro j old hget hne
      refine (s.manifests.get?_erase_ne ?_).trans hget
      intro hid
      subst hid
      rw [hm] at hget
      exact hne (Option.some.inj hget ▸ rfl)
    exact ⟨hcons.removeBlobIfUnreferenced _, hbut.removeBlobIfUnreferenced⟩

theorem removeDraft (id : String) : Settled (s.removeDraft id) := by
  unfold Store.removeDraft
  cases hf : s.drafts.get? id with
  | none => exact h
  | some f =>
    have hcons := h.toConsistent.eraseDraft id
    have hbut : CoveredBut f.blobHash (s.eraseDraft id) := by
      refine (h.covered.but f.blobHash).change rfl (fun j m hm _ => hm) ?_
      intro j old hget hne
      refine (s.drafts.get?_erase_ne ?_).trans hget
      intro hid
      subst hid
      rw [hf] at hget
      exact hne (Option.some.inj hget ▸ rfl)
    exact ⟨hcons.removeBlobIfUnreferenced _, hbut.removeBlobIfUnreferenced⟩

theorem unlinkTemporary (name : TemporaryName) : Settled (s.unlinkTemporary name) := by
  refine ⟨h.toConsistent.unlinkTemporary name, ?_⟩
  unfold Store.unlinkTemporary
  split <;> exact h.covered

end Settled

/-! ## The sweep -/

theorem Consistent.unlinkBlobs (h : Consistent s) (stale : List Hash)
    (hfree : ∀ hash ∈ stale, s.referenced hash = false) :
    Consistent (stale.foldl Store.unlinkBlob s) := by
  induction stale generalizing s with
  | nil => exact h
  | cons hash rest ih =>
    refine ih (h.unlinkBlob (hfree hash mem_cons_self)) ?_
    intro k hk
    exact (referenced_unlinkBlob s hash k).trans (hfree k (mem_cons_of_mem _ hk))

theorem referenced_unlinkBlobs (s : Store Hash) (stale : List Hash) (k : Hash) :
    (stale.foldl unlinkBlob s).referenced k = s.referenced k := by
  induction stale generalizing s with
  | nil => rfl
  | cons hash rest ih => exact (ih (s.unlinkBlob hash)).trans (referenced_unlinkBlob s hash k)

theorem blobExists_of_unlinkBlobs {stale : List Hash}
    (h : (stale.foldl unlinkBlob s).blobExists k = true) : k ∉ stale ∧ s.blobExists k = true := by
  induction stale generalizing s with
  | nil => exact ⟨not_mem_nil, h⟩
  | cons hash rest ih =>
    have ⟨hrest, hk⟩ := ih h
    have ⟨hne, hold⟩ := blobExists_of_unlinkBlob hk
    exact ⟨not_mem_cons_of_ne_of_not_mem hne hrest, hold⟩

theorem mem_keys_of_blobExists (h : s.blobExists k = true) : k ∈ s.disk.blobs.keys := by
  by_contra hk
  have hnone := get?_eq_none.mpr hk
  unfold blobExists OrderedMap.contains at h
  rw [hnone] at h
  cases h

theorem Consistent.cleanupUnreferencedBlobs (h : Consistent s) :
    Settled s.cleanupUnreferencedBlobs := by
  refine foldlRecOn _ _ ?_ fun t ht name _ => ht.unlinkTemporary name
  constructor
  · refine h.unlinkBlobs _ ?_
    intro hash hmem
    have hstale := (mem_filter.mp hmem).2
    simpa using hstale
  intro k hk
  have ⟨hkept, hold⟩ := blobExists_of_unlinkBlobs hk
  rw [referenced_unlinkBlobs]
  by_contra hfree
  refine hkept (mem_filter.mpr ⟨mem_keys_of_blobExists hold, ?_⟩)
  simpa using hfree

end Store

end TaskHandoff.Attachments
