import TaskHandoff.Attachments.BlobOperations

/-! # What an operation leaves alone

An operation in one turn leaves the uploads in progress and their temporary
files as they are, and every blob it adds has the digest of its content for a
name. Only the error paths sweep the blob directory.
-/

namespace TaskHandoff.Attachments

open OrderedMap List

variable {Hash : Type} [DecidableEq Hash] {content : Bytes}

/-- Every blob has the digest of its content for a name. -/
def Disk.Named (digest : Bytes → Hash) (d : Disk Hash) : Prop :=
  ∀ hash content, d.blobs.get? hash = some content → digest content = hash

theorem Disk.Named.erase {digest : Bytes → Hash} {d : Disk Hash} (h : d.Named digest)
    (hash : Hash) : Disk.Named digest { d with blobs := d.blobs.erase hash } :=
  fun k content hk => h k content (get?_erase_eq_some hk).2

theorem Disk.Named.set {digest : Bytes → Hash} {d : Disk Hash} (h : d.Named digest)
    (temporaries : OrderedMap TemporaryName Bytes) {hash : Hash}
    (hcontent : digest content = hash) :
    Disk.Named digest { d with temporaries, blobs := d.blobs.set hash content } := by
  intro k c hk
  rcases get?_set_eq_some hk with ⟨rfl, rfl⟩ | ⟨-, hk⟩
  · exact hcontent
  · exact h k c hk

/-- The content an item writes has the digest its manifest names. -/
def StagedItem.Named (digest : Bytes → Hash) (item : StagedItem Hash) : Prop :=
  ∀ content, item.content = some content → digest content = item.manifest.blobHash

namespace Store

variable {digest : Bytes → Hash} {s t u : Store Hash}

/-- The directory is named by digests, and was after every write. -/
structure Named (digest : Bytes → Hash) (s : Store Hash) : Prop where
  disk : s.disk.Named digest
  trace : ∀ d ∈ s.trace, d.Named digest

theorem Named.wrote (h : s.Named digest) {disk : Disk Hash} (hdisk : disk.Named digest) :
    (s.wrote disk).Named digest where
  disk := hdisk
  trace d hd := by
    rcases mem_concat.mp hd with hd | rfl
    · exact h.trace d hd
    · exact hdisk

/-- The uploads and their files are the same, and the blobs are named as before. -/
structure Frame (digest : Bytes → Hash) (s t : Store Hash) : Prop where
  uploads : t.uploads = s.uploads
  outcomes : t.outcomes = s.outcomes
  temporaries : ∀ call,
    t.disk.temporaries.get? (.upload call) = s.disk.temporaries.get? (.upload call)
  snapshot : s.disk.temporaries.get? .snapshot = none → t.disk.temporaries.get? .snapshot = none
  named : s.Named digest → t.Named digest

namespace Frame

theorem refl (digest : Bytes → Hash) (s : Store Hash) : Frame digest s s :=
  ⟨rfl, rfl, fun _ => rfl, id, id⟩

theorem trans (h : Frame digest s t) (g : Frame digest t u) : Frame digest s u where
  uploads := g.uploads.trans h.uploads
  outcomes := g.outcomes.trans h.outcomes
  temporaries call := (g.temporaries call).trans (h.temporaries call)
  snapshot hs := g.snapshot (h.snapshot hs)
  named hs := g.named (h.named hs)

theorem foldl {α : Type} {f : Store Hash → α → Store Hash} {as : List α}
    (h : ∀ s, ∀ a ∈ as, Frame digest s (f s a)) (s : Store Hash) : Frame digest s (as.foldl f s) :=
  foldlRecOn as f (refl digest s) fun t ht a ha => ht.trans (h t a ha)

theorem wrote (s : Store Hash) {disk : Disk Hash}
    (htemporaries : disk.temporaries = s.disk.temporaries)
    (hnamed : s.disk.Named digest → disk.Named digest) : Frame digest s (s.wrote disk) where
  uploads := rfl
  outcomes := rfl
  temporaries _ := congrArg (get? · _) htemporaries
  snapshot h := (congrArg (get? · _) htemporaries).trans h
  named h := h.wrote (hnamed h.disk)

theorem remember (h : Frame digest s t) (manifests : OrderedMap String (AttachmentManifest Hash))
    (drafts : OrderedMap String (DraftManifest Hash)) :
    Frame digest s { t with manifests, drafts } where
  __ := h
  named hs := ⟨(h.named hs).disk, (h.named hs).trace⟩

theorem wroteFiles (s : Store Hash)
    (manifestFiles manifests : OrderedMap String (AttachmentManifest Hash))
    (draftFiles drafts : OrderedMap String (DraftManifest Hash)) : Frame digest s
      { s.wrote { s.disk with manifestFiles, draftFiles } with manifests, drafts } :=
  have hwrote : Frame digest s (s.wrote { s.disk with manifestFiles, draftFiles }) := wrote s rfl id
  hwrote.remember manifests drafts

theorem saveManifest (s : Store Hash) (m : AttachmentManifest Hash) :
    Frame digest s (s.saveManifest m) :=
  wroteFiles s _ _ _ _

theorem saveDraft (s : Store Hash) (f : DraftManifest Hash) : Frame digest s (s.saveDraft f) :=
  wroteFiles s _ _ _ _

theorem eraseManifest (s : Store Hash) (id : String) : Frame digest s (s.eraseManifest id) :=
  wroteFiles s _ _ _ _

theorem eraseDraft (s : Store Hash) (id : String) : Frame digest s (s.eraseDraft id) :=
  wroteFiles s _ _ _ _

theorem unlinkBlob (s : Store Hash) (hash : Hash) : Frame digest s (s.unlinkBlob hash) := by
  unfold Store.unlinkBlob
  split
  · exact wrote s rfl fun h => h.erase hash
  · exact refl digest s

theorem removeBlobIfUnreferenced (s : Store Hash) (hash : Hash) :
    Frame digest s (s.removeBlobIfUnreferenced hash) := by
  unfold Store.removeBlobIfUnreferenced
  split
  · exact refl digest s
  · exact unlinkBlob s hash

theorem removeManifest (s : Store Hash) (id : String) : Frame digest s (s.removeManifest id) := by
  unfold Store.removeManifest
  split
  · exact refl digest s
  · exact (eraseManifest s id).trans (removeBlobIfUnreferenced _ _)

theorem removeDraft (s : Store Hash) (id : String) : Frame digest s (s.removeDraft id) := by
  unfold Store.removeDraft
  split
  · exact refl digest s
  · exact (eraseDraft s id).trans (removeBlobIfUnreferenced _ _)

theorem gcDraft (s : Store Hash) (f : DraftManifest Hash) : Frame digest s (s.gcDraft f) := by
  unfold Store.gcDraft
  split
  · exact refl digest s
  · exact removeDraft s f.id

theorem gcManifest (s : Store Hash) (m : AttachmentManifest Hash) :
    Frame digest s (s.gcManifest m) := by
  unfold Store.gcManifest
  split
  · exact removeManifest s m.id
  split
  · exact refl digest s
  split
  · exact refl digest s
  · split
    · exact refl digest s
    · exact (saveManifest s _).trans (removeBlobIfUnreferenced _ _)

theorem gc (s : Store Hash) : Frame digest s s.gc :=
  (foldl (fun t f _ => gcDraft t f) s).trans (foldl (fun t m _ => gcManifest t m) s.gcDrafts)

theorem commitMessage (s : Store Hash) (sessionId messageId : String) (turnId : Option String) :
    Frame digest s (s.commitMessage sessionId messageId turnId) :=
  (foldl (fun t _ _ => saveManifest t _) s).trans (gc _)

theorem rollbackManifest (s : Store Hash) (m : AttachmentManifest Hash) :
    Frame digest s (s.rollbackManifest m) := by
  unfold Store.rollbackManifest
  split
  · exact refl digest s
  split
  · exact (saveDraft s _).trans (removeManifest _ m.id)
  · exact saveManifest s _

theorem rollbackMessage (s : Store Hash) (sessionId messageId : String) :
    Frame digest s (s.rollbackMessage sessionId messageId) :=
  foldl (fun t m _ => rollbackManifest t m) s

theorem claimMessageAttachments (s : Store Hash) (sessionId messageId : String)
    (ids : List String) : Frame digest s (s.claimMessageAttachments sessionId messageId ids) := by
  unfold Store.claimMessageAttachments
  split
  · exact refl digest s
  split
  · exact refl digest s
  refine trans (foldl ?_ s) (foldl ?_ _)
  · intro t m _
    unfold claimManifest
    split
    · exact saveManifest t _
    · exact refl digest t
  · intro t m _
    unfold releaseClaimedDraft
    split
    · exact removeDraft t m.id
    · exact refl digest t

theorem releaseSession (s : Store Hash) (sessionId : String) :
    Frame digest s (s.releaseSession sessionId) :=
  foldl (fun t id _ => removeManifest t id) s

theorem cancelDraft (s : Store Hash) (scope : DraftScope) (id : String) :
    Frame digest s (s.cancelDraft scope id) := by
  unfold Store.cancelDraft
  split
  · exact refl digest s
  split
  · exact refl digest s
  · exact removeDraft s id

/-! ## Staging -/

theorem writeBlob (s : Store Hash) {hash : Hash} (hcontent : digest content = hash) :
    Frame digest s (s.writeBlob hash content) := by
  unfold Store.writeBlob
  split
  · exact refl digest s
  constructor
  · rfl
  · rfl
  · intro call
    show ((s.disk.temporaries.set .snapshot content).erase .snapshot).get? _ = _
    have hne : TemporaryName.upload call ≠ .snapshot := by simp
    rw [get?_erase_ne _ hne, get?_set_ne _ _ hne]
  · exact fun _ => get?_erase_self _ _
  · intro h
    have hdisk : Disk.Named digest { s.disk with
        temporaries := s.disk.temporaries.set .snapshot content } := h.disk
    have hwritten := h.wrote hdisk
    exact hwritten.wrote (hwritten.disk.set _ hcontent)

variable {item : StagedItem Hash}

theorem writeItemBlob (s : Store Hash) (h : item.Named digest) :
    Frame digest s (s.writeItemBlob item) := by
  unfold Store.writeItemBlob
  cases hcontent : item.content with
  | none => exact refl digest s
  | some content => exact writeBlob s (h content hcontent)

theorem stageItem (s : Store Hash) (h : item.Named digest) : Frame digest s (s.stageItem item) :=
  (writeItemBlob s h).trans (saveManifest _ item.manifest)

theorem completeStage (s : Store Hash) {items : List (StagedItem Hash)}
    (h : ∀ item ∈ items, item.Named digest) (drafts : List (DraftManifest Hash)) :
    Frame digest s (s.completeStage items drafts) :=
  (foldl (fun t item hitem => stageItem t (h item hitem)) s).trans
    (foldl (fun t f _ => removeDraft t f.id) _)

end Frame

omit [DecidableEq Hash] in
theorem stagedItems_named (digest : Bytes → Hash) (s : Store Hash) (input : StageInput)
    (plan : StagePlan Hash) (ids : List String) :
    ∀ item ∈ s.stagedItems digest input plan ids, item.Named digest := by
  intro item hitem content hcontent
  unfold stagedItems at hitem
  rcases mem_append.mp hitem with hitem | hitem
  · rcases mem_append.mp hitem with hitem | hitem
    · have ⟨e, _, he⟩ := mem_map.mp hitem
      subst he
      cases hcontent
    · have ⟨f, _, hf⟩ := mem_map.mp hitem
      subst hf
      cases hcontent
  · have ⟨e, _, he⟩ := mem_map.mp hitem
    subst he
    exact congrArg digest (Option.some.inj hcontent).symm

/-! ## The sweep -/

/-- The uploads are the same, no temporary file is left, and the blobs are named as before. -/
structure Swept (digest : Bytes → Hash) (s t : Store Hash) : Prop where
  uploads : t.uploads = s.uploads
  outcomes : t.outcomes = s.outcomes
  temporaries : ∀ name, t.disk.temporaries.get? name = none
  named : s.Named digest → t.Named digest

theorem Frame.swept (h : Frame digest s t) (hswept : Swept digest t u) : Swept digest s u where
  uploads := hswept.uploads.trans h.uploads
  outcomes := hswept.outcomes.trans h.outcomes
  temporaries := hswept.temporaries
  named hs := hswept.named (h.named hs)

omit [DecidableEq Hash] in
theorem get?_unlinkTemporary (s : Store Hash) (name other : TemporaryName) :
    (s.unlinkTemporary name).disk.temporaries.get? other =
      if other = name then none else s.disk.temporaries.get? other := by
  unfold unlinkTemporary
  split
  · exact s.disk.temporaries.get?_erase name other
  rename_i habsent
  split
  next heq =>
    subst heq
    unfold OrderedMap.contains at habsent
    simpa using habsent
  · rfl

omit [DecidableEq Hash] in
theorem get?_unlinkTemporaries (names : List TemporaryName) (s : Store Hash)
    (other : TemporaryName) : (names.foldl unlinkTemporary s).disk.temporaries.get? other =
      if other ∈ names then none else s.disk.temporaries.get? other := by
  induction names generalizing s with
  | nil => simp
  | cons name rest ih =>
    rw [foldl_cons, ih, get?_unlinkTemporary]
    by_cases hrest : other ∈ rest
    · simp [hrest]
    by_cases heq : other = name
    · simp [heq]
    · simp [hrest, heq]

omit [DecidableEq Hash] in
theorem unlinkTemporary_rest (s : Store Hash) (name : TemporaryName) :
    (s.unlinkTemporary name).uploads = s.uploads ∧ (s.unlinkTemporary name).outcomes = s.outcomes ∧
      (s.unlinkTemporary name).disk.blobs = s.disk.blobs := by
  unfold unlinkTemporary
  split <;> exact ⟨rfl, rfl, rfl⟩

theorem Named.unlinkTemporary (h : s.Named digest) (name : TemporaryName) :
    (s.unlinkTemporary name).Named digest := by
  unfold Store.unlinkTemporary
  split
  · exact h.wrote h.disk
  · exact h

theorem cleanupUnreferencedBlobs_swept (digest : Bytes → Hash) (s : Store Hash) :
    Swept digest s s.cleanupUnreferencedBlobs := by
  unfold cleanupUnreferencedBlobs
  dsimp only
  generalize (s.disk.blobs.keys.filter fun hash => !s.referenced hash) = stale
  have hblobs : Frame digest s (stale.foldl unlinkBlob s) :=
    Frame.foldl (fun t hash _ => Frame.unlinkBlob t hash) s
  have hsame : (stale.foldl unlinkBlob s).disk.temporaries = s.disk.temporaries := by
    refine List.foldlRecOn (motive := fun (t : Store Hash) =>
      t.disk.temporaries = s.disk.temporaries) _ _ rfl ?_
    intro t ht hash _
    unfold unlinkBlob
    split <;> exact ht
  generalize stale.foldl unlinkBlob s = t at hblobs hsame
  have hrest : (s.disk.temporaries.keys.foldl unlinkTemporary t).uploads = t.uploads ∧
      (s.disk.temporaries.keys.foldl unlinkTemporary t).outcomes = t.outcomes ∧
      (t.Named digest → (s.disk.temporaries.keys.foldl unlinkTemporary t).Named digest) := by
    refine List.foldlRecOn (motive := fun (v : Store Hash) => v.uploads = t.uploads ∧
      v.outcomes = t.outcomes ∧ (t.Named digest → v.Named digest)) _ _ ⟨rfl, rfl, id⟩ ?_
    rintro v ⟨huploads, houtcomes, hnamed⟩ name _
    obtain ⟨hu, ho, _⟩ := unlinkTemporary_rest v name
    exact ⟨hu.trans huploads, ho.trans houtcomes, fun ht => (hnamed ht).unlinkTemporary name⟩
  constructor
  · exact hrest.1.trans hblobs.uploads
  · exact hrest.2.1.trans hblobs.outcomes
  · intro name
    rw [get?_unlinkTemporaries, hsame]
    split
    · rfl
    next hkeys => exact get?_eq_none.mpr hkeys
  · exact fun hs => hrest.2.2 (hblobs.named hs)

theorem failStage_swept (s : Store Hash) {items : List (StagedItem Hash)}
    (h : ∀ item ∈ items, item.Named digest) (failure : StageFailure) :
    Swept digest s (s.failStage items failure) := by
  refine Frame.swept ?_ (cleanupUnreferencedBlobs_swept digest _)
  have hsaved : Frame digest s ((items.take failure.completed).foldl stageItem s) :=
    Frame.foldl (fun t item hitem => Frame.stageItem t (h item (mem_of_mem_take hitem))) s
  refine Frame.trans ?_ (Frame.foldl (fun t item _ => Frame.removeManifest t item.manifest.id) _)
  split
  · exact hsaved
  next item hitem =>
    split
    · exact hsaved.trans (Frame.writeItemBlob _ (h item (mem_of_getElem? hitem)))
    · exact hsaved

end Store

end TaskHandoff.Attachments
