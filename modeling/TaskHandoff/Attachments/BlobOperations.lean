import TaskHandoff.Attachments.Blobs

/-! # Every operation keeps the references

The operations loop over manifests, items and ids they read before the loop.
A turn keeps what the later turns rely on: memory still has the blob of a
manifest that was read, and a staged id still stands for one blob.
-/

namespace TaskHandoff.Attachments.Store

open List OrderedMap

variable {Hash : Type} [DecidableEq Hash] {s t : Store Hash}

/-! ## Manifests read before -/

/-- Memory has the blob of a manifest that was read. -/
structure Agrees (s : Store Hash) (m : AttachmentManifest Hash) : Prop where
  current : ∃ now, s.manifests.get? m.id = some now ∧ now.blobHash = m.blobHash ∧
    now.contentKept = m.contentKept
  deleted : m.contentKept = false → m.state = .committed

variable {m : AttachmentManifest Hash}

omit [DecidableEq Hash] in
theorem Agrees.of_eq (h : Agrees s m) (heq : t.manifests.get? m.id = s.manifests.get? m.id) :
    Agrees t m where
  current := by
    rw [heq]
    exact h.current
  deleted := h.deleted

variable {id : String}

theorem Consistent.manifest_id (h : Consistent s) (hm : s.manifests.get? id = some m) : m.id = id :=
  h.sound.manifestId id m ((h.manifests id).symm.trans hm)

variable {f : DraftManifest Hash} {j sessionId : String} {next : AttachmentManifest Hash}
  {hash k : Hash} {item : StagedItem Hash}

section

variable (h : Consistent s)

include h

theorem Consistent.draft_id (hf : s.drafts.get? id = some f) : f.id = id :=
  h.sound.draftId id f ((h.drafts id).symm.trans hf)

theorem Consistent.agrees (hm : s.manifests.get? id = some m) : Agrees s m where
  current := ⟨m, (h.manifest_id hm).symm ▸ hm, rfl, rfl⟩
  deleted := h.sound.deleted id m ((h.manifests id).symm.trans hm)

theorem Consistent.agrees_values : ∀ m ∈ s.manifests.values, Agrees s m := by
  intro m hm
  have ⟨id, hget⟩ := mem_values.mp hm
  exact h.agrees hget

theorem Consistent.values_pairwise : s.manifests.values.Pairwise fun m n => m.id ≠ n.id := by
  have hids : s.manifests.values.map AttachmentManifest.id = s.manifests.keys := by
    unfold values OrderedMap.keys
    rw [map_map]
    refine map_congr_left ?_
    intro e he
    exact h.manifest_id (get?_eq_some.mpr he)
  have hnodup : (s.manifests.values.map AttachmentManifest.id).Nodup := hids ▸ s.manifests.nodup
  exact pairwise_map.mp hnodup

end

omit [DecidableEq Hash] in
theorem mem_messageManifests {sessionId messageId : String}
    (h : m ∈ s.messageManifests sessionId messageId) : m ∈ s.manifests.values :=
  mem_of_mem_filter ((mem_insertionSort _).mp h)

theorem Consistent.messageManifests_pairwise (h : Consistent s) (sessionId messageId : String) :
    (s.messageManifests sessionId messageId).Pairwise fun m n => m.id ≠ n.id := by
  refine ((perm_insertionSort _ _).pairwise_iff ?_).mpr (h.values_pairwise.filter _)
  exact fun hne heq => hne heq.symm

theorem manifests_removeBlobIfUnreferenced (s : Store Hash) (hash : Hash) :
    (s.removeBlobIfUnreferenced hash).manifests = s.manifests := by
  unfold removeBlobIfUnreferenced unlinkBlob
  split
  · rfl
  · split <;> rfl

theorem get?_removeManifest_ne (h : j ≠ id) :
    (s.removeManifest id).manifests.get? j = s.manifests.get? j := by
  unfold removeManifest
  split
  · rfl
  · rw [manifests_removeBlobIfUnreferenced]
    exact s.manifests.get?_erase_ne h

namespace Agrees

variable {m next : AttachmentManifest Hash}

theorem blobExists (h : Agrees s m) (hs : Consistent s) (hkept : m.contentKept = true) :
    s.blobExists m.blobHash = true := by
  have ⟨now, hnow, hhash, heq⟩ := h.current
  have hblob := hs.sound.blobs.manifest m.id now ((hs.manifests m.id).symm.trans hnow)
    (heq.trans hkept)
  exact hhash ▸ hblob

theorem draft_blob (h : Agrees s m) (hs : Consistent s) {f : DraftManifest Hash}
    (hf : s.drafts.get? m.id = some f) : f.blobHash = m.blobHash := by
  have ⟨now, hnow, hhash, _⟩ := h.current
  have hsame := hs.sound.sameBlob m.id f now ((hs.drafts m.id).symm.trans hf)
    ((hs.manifests m.id).symm.trans hnow)
  exact hsame.trans hhash

omit [DecidableEq Hash] in
theorem manifest_blob (h : Agrees s m) {old : AttachmentManifest Hash}
    (hold : s.manifests.get? m.id = some old) : old.blobHash = m.blobHash := by
  have ⟨now, hnow, hhash, _⟩ := h.current
  rw [hnow] at hold
  exact Option.some.inj hold ▸ hhash

theorem unowned (h : Agrees s m) (hs : Consistent s) :
    ∀ call u, s.uploads.get? call = some u → u.id ≠ m.id := by
  intro call u hu hid
  have ⟨now, hnow, _⟩ := h.current
  have hnone := (hs.unowned call u hu).2
  rw [hid, hnow] at hnone
  cases hnone

end Agrees

theorem Settled.replaceManifest (h : Settled s)
    (ha : Agrees s m) (hid : next.id = m.id) (hhash : next.blobHash = m.blobHash)
    (hkept : next.contentKept = m.contentKept)
    (hstate : m.contentKept = false → next.state = .committed) : Settled (s.saveManifest next) := by
  constructor
  · refine h.toConsistent.saveManifest ?_ ?_ ?_ ?_
    · intro hk
      exact hhash ▸ ha.blobExists h.toConsistent (hkept.symm.trans hk)
    · intro hk
      exact hstate (hkept.symm.trans hk)
    · intro f hf
      exact (ha.draft_blob h.toConsistent (hid ▸ hf)).trans hhash.symm
    · intro call u hu
      exact hid ▸ ha.unowned h.toConsistent call u hu
  · intro k hk
    have ⟨now, hnow, hnowHash, hnowKept⟩ := ha.current
    refine referenced_of_kept ?_ ?_ (h.covered k hk)
    · intro j old hold hblob hkeptOld
      by_cases hj : j = next.id
      · -- the entry that is replaced: the new one has its blob and keeps it
        rw [hj, hid, hnow] at hold
        have heq := Option.some.inj hold
        subst heq
        exact referenced_of_manifest (s.manifests.get?_set_self next.id next)
          ((hhash.trans hnowHash.symm).trans hblob) ((hkept.trans hnowKept.symm).trans hkeptOld)
      · exact referenced_of_manifest ((s.manifests.get?_set_ne next hj).trans hold) hblob hkeptOld
    · intro j f hf hblob
      exact referenced_of_draft hf hblob

omit [DecidableEq Hash] in
theorem Agrees.saveManifest_ne (h : Agrees s m)
    (hne : m.id ≠ next.id) : Agrees (s.saveManifest next) m :=
  h.of_eq (s.manifests.get?_set_ne next hne)

/-! ## Collection -/

theorem Settled.gcDrafts (h : Settled s) : Settled s.gcDrafts := by
  refine foldlRecOn _ _ h ?_
  intro t ht draft _
  unfold gcDraft
  split
  · exact ht
  · exact ht.removeDraft draft.id

theorem Settled.gcManifest (h : Settled s) (ha : Agrees s m) : Settled (s.gcManifest m) := by
  unfold Store.gcManifest
  split
  · exact h.removeManifest m.id
  split
  · exact h
  rename_i hlive
  have hcommitted : m.state = .committed := by
    by_contra hne
    exact hlive (.inl hne)
  split
  · exact h
  split
  · exact h
  -- the manifest gives up its blob before the blob may go
  constructor
  · refine (h.toConsistent.saveManifest ?_ ?_ ?_ ?_).removeBlobIfUnreferenced _
    · intro hk
      cases hk
    · exact fun _ => hcommitted
    · exact fun f hf => ha.draft_blob h.toConsistent hf
    · exact ha.unowned h.toConsistent
  · have hbut := (h.covered.but m.blobHash).saveManifest
      (m := { m with contentDeletedAt := some s.now }) fun old hold => ha.manifest_blob hold
    exact hbut.removeBlobIfUnreferenced

theorem get?_gcManifest_ne (hne : j ≠ m.id) :
    (s.gcManifest m).manifests.get? j = s.manifests.get? j := by
  unfold gcManifest
  split
  · exact get?_removeManifest_ne hne
  split
  · rfl
  split
  · rfl
  · split
    · rfl
    · rw [manifests_removeBlobIfUnreferenced]
      exact s.manifests.get?_set_ne _ hne

section

variable (h : Settled s)

include h

theorem Settled.gcManifests : Settled s.gcManifests := by
  refine Machine.foldl_invariant (P := Agrees) (fun t m ht ha => ht.gcManifest ha) ?_
    h.values_pairwise h h.agrees_values
  intro t m n hne _ _ hn
  exact hn.of_eq (get?_gcManifest_ne hne.symm)

theorem Settled.gc : Settled s.gc := h.gcDrafts.gcManifests

/-! ## Messages -/

theorem Settled.commitMessage (sessionId messageId : String)
    (turnId : Option String) : Settled (s.commitMessage sessionId messageId turnId) := by
  refine Settled.gc ?_
  refine Machine.foldl_invariant (P := Agrees) ?_ ?_
    (h.messageManifests_pairwise sessionId messageId) h ?_
  · intro t m ht ha
    exact ht.replaceManifest ha rfl rfl rfl fun _ => rfl
  · intro t m n hne _ _ hn
    exact hn.saveManifest_ne hne.symm
  · intro m hm
    exact h.agrees_values m (mem_messageManifests hm)

theorem Settled.rollbackManifest (ha : Agrees s m) : Settled (s.rollbackManifest m) := by
  unfold Store.rollbackManifest
  split
  · exact h
  rename_i hstaged
  have hkept : m.contentKept = true := by
    by_contra hk
    have hcommitted := ha.deleted (Bool.eq_false_iff.mpr hk)
    exact hstaged (by simp [hcommitted])
  unfold restoredUploadDraft
  cases m.draftScope with
  | some scope =>
    refine Settled.removeManifest ⟨?_, ?_⟩ m.id
    · refine h.toConsistent.saveDraft ?_ ?_ ?_
      · exact ha.blobExists h.toConsistent hkept
      · exact fun old hold => (ha.manifest_blob hold).symm
      · exact ha.unowned h.toConsistent
    · refine (h.covered.but _).covered_saveDraft ?_
      exact fun old hold => ha.draft_blob h.toConsistent hold
  | none =>
    refine h.replaceManifest ha rfl rfl rfl ?_
    intro hk
    rw [hkept] at hk
    cases hk

end

theorem get?_rollbackManifest_ne (hne : j ≠ m.id) :
    (s.rollbackManifest m).manifests.get? j = s.manifests.get? j := by
  unfold rollbackManifest
  split
  · rfl
  split
  · exact get?_removeManifest_ne hne
  · exact s.manifests.get?_set_ne _ hne

theorem Settled.rollbackMessage (h : Settled s) (sessionId messageId : String) :
    Settled (s.rollbackMessage sessionId messageId) := by
  refine Machine.foldl_invariant (P := Agrees) (fun t m ht ha => ht.rollbackManifest ha) ?_
    (h.messageManifests_pairwise sessionId messageId) h ?_
  · intro t m n hne _ _ hn
    exact hn.of_eq (get?_rollbackManifest_ne hne.symm)
  · intro m hm
    exact h.agrees_values m (mem_messageManifests hm)

theorem Settled.claimManifest (h : Settled s) (ha : Agrees s m) : Settled (s.claimManifest m) := by
  unfold Store.claimManifest
  split
  next hdraft =>
    refine h.replaceManifest ha rfl rfl rfl ?_
    intro hk
    have hcommitted := ha.deleted hk
    rw [hdraft] at hcommitted
    cases hcommitted
  · exact h

omit [DecidableEq Hash] in
theorem Agrees.claimManifest {m n : AttachmentManifest Hash} (hm : Agrees s m)
    (hn : Agrees s n) : Agrees (s.claimManifest m) n := by
  unfold Store.claimManifest
  split
  · by_cases hid : n.id = m.id
    · have ⟨now, hnow, hhash, hkept⟩ := hm.current
      have ⟨now', hnow', hhash', hkept'⟩ := hn.current
      rw [hid, hnow] at hnow'
      have heq := Option.some.inj hnow'
      subst heq
      constructor
      · refine ⟨{ m with state := .staged }, ?_, hhash.symm.trans hhash', hkept.symm.trans hkept'⟩
        rw [hid]
        exact s.manifests.get?_set_self m.id { m with state := .staged }
      · exact hn.deleted
    · exact hn.saveManifest_ne hid
  · exact hn

theorem mem_of_mapM_get? {κ ν : Type} [DecidableEq κ] {m : OrderedMap κ ν} {ks : List κ}
    {vs : List ν} (h : ks.mapM m.get? = some vs) : ∀ v ∈ vs, ∃ k, m.get? k = some v := by
  induction ks generalizing vs with
  | nil =>
    cases h
    simp
  | cons k ks ih =>
    rw [mapM_cons] at h
    simp only [Option.bind_eq_bind, Option.bind_eq_some_iff, Option.pure_def,
      Option.some.injEq] at h
    obtain ⟨v, hv, rest, hrest, hvs⟩ := h
    subst hvs
    intro w hw
    rcases mem_cons.mp hw with rfl | hw
    · exact ⟨k, hv⟩
    · exact ih hrest w hw

theorem Settled.claimMessageAttachments (h : Settled s) (sessionId messageId : String)
    (ids : List String) : Settled (s.claimMessageAttachments sessionId messageId ids) := by
  unfold Store.claimMessageAttachments
  cases hids : ids.mapM s.manifests.get? with
  | none => exact h
  | some manifests =>
    dsimp only
    split
    · exact h
    refine List.foldlRecOn _ _ ?_ ?_
    · refine Machine.foldl_invariant (P := Agrees) (R := fun _ _ => True)
        (fun t m ht ha => ht.claimManifest ha) ?_ (pairwise_of_forall fun _ _ => trivial)
        h ?_
      · intro t m n _ _ hm hn
        exact hm.claimManifest hn
      · intro m hm
        have ⟨id, hget⟩ := mem_of_mapM_get? hids m hm
        exact h.agrees hget
    · intro t ht m _
      unfold releaseClaimedDraft
      split
      · exact ht.removeDraft m.id
      · exact ht

theorem Settled.releaseSession (h : Settled s) (sessionId : String) :
    Settled (s.releaseSession sessionId) :=
  foldlRecOn _ _ h fun _ ht id _ => ht.removeManifest id

theorem Settled.cancelDraft (h : Settled s) (scope : DraftScope) (id : String) :
    Settled (s.cancelDraft scope id) := by
  unfold Store.cancelDraft
  split
  · exact h
  split
  · exact h
  · exact h.removeDraft id

/-! ## Staging -/

/-- An item that may be saved: its id stands for its blob, or for nothing. -/
structure Stageable (s : Store Hash) (item : StagedItem Hash) : Prop where
  kept : item.manifest.contentKept = true
  blob : item.content = none → s.blobExists item.manifest.blobHash = true
  manifest : ∀ m, s.manifests.get? item.manifest.id = some m → m.blobHash = item.manifest.blobHash
  draft : ∀ f, s.drafts.get? item.manifest.id = some f → f.blobHash = item.manifest.blobHash
  unowned : ∀ call u, s.uploads.get? call = some u → u.id ≠ item.manifest.id

/-- One id stands for one blob. -/
def SameIdSameBlob (a b : StagedItem Hash) : Prop :=
  a.manifest.id = b.manifest.id → a.manifest.blobHash = b.manifest.blobHash

theorem blobExists_writeBlob (s : Store Hash) (hash : Hash) (content : Bytes) :
    (s.writeBlob hash content).blobExists hash = true := by
  unfold writeBlob
  split
  next hexists => exact hexists
  · exact contains_set_self s.disk.blobs hash content

theorem blobExists_writeBlob_of (content : Bytes) (h : s.blobExists k = true) :
    (s.writeBlob hash content).blobExists k = true := by
  unfold writeBlob
  split
  · exact h
  · exact contains_set h

theorem CoveredBut.writeBlob (h : Covered s) (content : Bytes) :
    CoveredBut hash (s.writeBlob hash content) := by
  intro k hne hk
  unfold Store.writeBlob at hk ⊢
  split at hk
  next hexists =>
    rw [if_pos hexists]
    exact h k hk
  next hexists =>
    rw [if_neg hexists]
    exact h k (contains_of_set hk hne)

theorem memory_writeItemBlob (s : Store Hash) (item : StagedItem Hash) :
    (s.writeItemBlob item).manifests = s.manifests ∧
      (s.writeItemBlob item).drafts = s.drafts ∧ (s.writeItemBlob item).uploads = s.uploads := by
  unfold writeItemBlob writeBlob
  split
  · exact ⟨rfl, rfl, rfl⟩
  · split <;> exact ⟨rfl, rfl, rfl⟩

theorem blobExists_writeItemBlob
    (h : s.blobExists k = true) : (s.writeItemBlob item).blobExists k = true := by
  unfold writeItemBlob
  split
  · exact h
  · exact blobExists_writeBlob_of _ h

theorem Consistent.writeItemBlob (h : Consistent s) (item : StagedItem Hash) :
    Consistent (s.writeItemBlob item) := by
  unfold Store.writeItemBlob
  split
  · exact h
  · exact h.writeBlob _ _

theorem Settled.stageItem (h : Settled s) (hi : Stageable s item) : Settled (s.stageItem item) := by
  have ⟨hmanifests, hdrafts, huploads⟩ := memory_writeItemBlob s item
  have hexists : (s.writeItemBlob item).blobExists item.manifest.blobHash = true := by
    unfold writeItemBlob
    cases hcontent : item.content with
    | none => exact hi.blob hcontent
    | some content => exact blobExists_writeBlob s item.manifest.blobHash content
  have hbut : CoveredBut item.manifest.blobHash (s.writeItemBlob item) := by
    unfold writeItemBlob
    cases item.content with
    | none => exact h.covered.but _
    | some content => exact CoveredBut.writeBlob h.covered content
  constructor
  · refine (h.toConsistent.writeItemBlob item).saveManifest (fun _ => hexists) ?_ ?_ ?_
    · intro hk
      rw [hi.kept] at hk
      cases hk
    · rw [hdrafts]
      exact hi.draft
    · rw [huploads]
      exact hi.unowned
  · refine hbut.covered_saveManifest hi.kept ?_
    rw [hmanifests]
    exact hi.manifest

theorem Stageable.stageItem {a b : StagedItem Hash} (hab : SameIdSameBlob a b)
    (hb : Stageable s b) : Stageable (s.stageItem a) b := by
  have ⟨hmanifests, hdrafts, huploads⟩ := memory_writeItemBlob s a
  constructor
  · exact hb.kept
  · exact fun hnone => blobExists_writeItemBlob (hb.blob hnone)
  · intro m hm
    rcases get?_set_eq_some hm with ⟨hid, rfl⟩ | ⟨-, hm⟩
    · exact hab hid.symm
    · rw [hmanifests] at hm
      exact hb.manifest m hm
  · intro f hf
    have hf : (s.writeItemBlob a).drafts.get? b.manifest.id = some f := hf
    rw [hdrafts] at hf
    exact hb.draft f hf
  · intro call u hu
    have hu : (s.writeItemBlob a).uploads.get? call = some u := hu
    rw [huploads] at hu
    exact hb.unowned call u hu

variable {items : List (StagedItem Hash)}

theorem Settled.stageItems (h : Settled s) (hids : items.Pairwise SameIdSameBlob)
    (hitems : ∀ item ∈ items, Stageable s item) : Settled (items.foldl Store.stageItem s) :=
  Machine.foldl_invariant (fun _ _ ht hi => ht.stageItem hi)
    (fun _ _ _ hab _ _ hb => hb.stageItem hab) hids h hitems

theorem Consistent.removeManifest (h : Consistent s) (id : String) :
    Consistent (s.removeManifest id) := by
  unfold Store.removeManifest
  split
  · exact h
  · exact (h.eraseManifest id).removeBlobIfUnreferenced _

theorem Settled.failStage (h : Settled s) (hids : items.Pairwise SameIdSameBlob)
    (hitems : ∀ item ∈ items, Stageable s item) (failure : StageFailure) :
    Settled (s.failStage items failure) := by
  have hsaved : Settled ((items.take failure.completed).foldl Store.stageItem s) := by
    refine h.stageItems (hids.sublist (take_sublist _ _)) ?_
    intro item hitem
    exact hitems item (mem_of_mem_take hitem)
  refine Consistent.cleanupUnreferencedBlobs ?_
  refine List.foldlRecOn _ _ ?_ fun t ht item _ => ht.removeManifest _
  split
  · exact hsaved.toConsistent
  split
  · exact hsaved.toConsistent.writeItemBlob _
  · exact hsaved.toConsistent

theorem Settled.completeStage (h : Settled s) (hids : items.Pairwise SameIdSameBlob)
    (hitems : ∀ item ∈ items, Stageable s item) (drafts : List (DraftManifest Hash)) :
    Settled (s.completeStage items drafts) :=
  foldlRecOn _ _ (h.stageItems hids hitems) fun _ ht draft _ => ht.removeDraft draft.id

/-! ## What the checks of staging found -/

theorem mem_of_mapM_ok {α β ε : Type} {f : α → Except ε β} {as : List α} {bs : List β}
    (h : as.mapM f = .ok bs) : ∀ b ∈ bs, ∃ a, f a = .ok b := by
  induction as generalizing bs with
  | nil =>
    rw [mapM_nil] at h
    cases h
    nofun
  | cons a as ih =>
    rw [mapM_cons] at h
    cases ha : f a with
    | error e => simp [ha, bind, Except.bind] at h
    | ok first =>
      cases hrest : as.mapM f with
      | error e => simp [ha, hrest, bind, Except.bind] at h
      | ok rest =>
        simp only [ha, hrest, bind, Except.bind, pure, Except.pure, Except.ok.injEq] at h
        subst h
        intro b hb
        rcases mem_cons.mp hb with rfl | hb
        · exact ⟨a, ha⟩
        · exact ih hrest b hb

theorem stagePlan_ok {digest : Bytes → Hash} {input : StageInput} {plan : StagePlan Hash}
    (h : s.stagePlan digest input = .ok plan) :
    input.retainedAttachmentIds.mapM (s.findRetained input.sessionId) = .ok plan.retained ∧
      input.draftAttachmentIds.mapM (s.findDraft input.draftScope) = .ok plan.drafts ∧
      input.attachments.mapM snapshot = .ok plan.snapshots := by
  unfold stagePlan at h
  cases hretained : input.retainedAttachmentIds.mapM (s.findRetained input.sessionId) with
  | error e => simp [hretained, bind, Except.bind] at h
  | ok retained =>
    cases hdrafts : input.draftAttachmentIds.mapM (s.findDraft input.draftScope) with
    | error e => simp [hretained, hdrafts, bind, Except.bind] at h
    | ok drafts =>
      cases hsnapshots : input.attachments.mapM snapshot with
      | error e => simp [hretained, hdrafts, hsnapshots, bind, Except.bind] at h
      | ok snapshots =>
        simp only [hretained, hdrafts, hsnapshots, bind, Except.bind] at h
        split at h
        · cases h
        split at h
        · cases h
        split at h
        · cases h
        · cases h
          exact ⟨rfl, rfl, rfl⟩

theorem findRetained_ok (h : s.findRetained sessionId id = .ok m) :
    s.manifests.get? id = some m ∧ s.blobExists m.blobHash = true := by
  unfold findRetained at h
  split at h
  · cases h
  rename_i found hfound
  split at h
  · cases h
  rename_i hbad
  cases h
  refine ⟨hfound, ?_⟩
  have havailable : s.blobAvailable m = true := by
    by_contra hnot
    exact hbad (.inr (by simpa using hnot))
  unfold blobAvailable at havailable
  cases hblob : s.disk.blobs.get? m.blobHash with
  | none => simp [hblob] at havailable
  | some content => simp [blobExists, OrderedMap.contains, hblob]

omit [DecidableEq Hash] in
theorem findDraft_ok {scope : Option DraftScope}
    (h : s.findDraft scope id = .ok f) : s.drafts.get? id = some f := by
  unfold findDraft at h
  split at h
  · cases h
  next found hfound =>
    split at h
    · cases h
    · cases h
      exact hfound

end TaskHandoff.Attachments.Store
