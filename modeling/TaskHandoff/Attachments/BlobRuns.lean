import TaskHandoff.Attachments.Uploads

/-! # Blob references over every run

The directory stays one the store can be started from, through crashes between
any two file writes and through starts that crash themselves. When no upload
waits for its source, every blob is referenced, unless an upload was started
with the id of another one in progress.
-/

namespace TaskHandoff.Attachments

open OrderedMap List

variable {Hash : Type} [DecidableEq Hash] {digest : Bytes → Hash}

namespace Store

variable {s t : Store Hash}

/-! ## Staged items -/

omit [DecidableEq Hash] in
theorem unusedId_spec {id : String} (h : s.unusedId id = true) :
    s.drafts.get? id = none ∧ s.manifests.get? id = none ∧
      ∀ call u, s.uploads.get? call = some u → u.id ≠ id := by
  simp only [unusedId, OrderedMap.contains, Bool.and_eq_true, Bool.not_eq_true',
    Option.isSome_eq_false_iff, Option.isNone_iff_eq_none, all_eq_true,
    decide_eq_true_eq] at h
  obtain ⟨⟨hdrafts, hmanifests⟩, huploads⟩ := h
  refine ⟨hdrafts, hmanifests, ?_⟩
  intro call u hu
  exact huploads u (mem_values.mpr ⟨call, hu⟩)

theorem Stageable.of_unused {item : StagedItem Hash} (hid : s.unusedId item.manifest.id = true)
    (hkept : item.manifest.contentKept = true)
    (hblob : item.content = none → s.blobExists item.manifest.blobHash = true) :
    Stageable s item := by
  have ⟨hdrafts, hmanifests, huploads⟩ := unusedId_spec hid
  constructor
  · exact hkept
  · exact hblob
  · intro m hm
    rw [hmanifests] at hm
    cases hm
  · intro f hf
    rw [hdrafts] at hf
    cases hf
  · exact huploads

variable {input : StageInput} {plan : StagePlan Hash} {ids : List String}

theorem stagedItems_stageable (hs : Consistent s) (hplan : s.stagePlan digest input = .ok plan)
    (hids : s.generatedIds input ids) :
    ∀ item ∈ s.stagedItems digest input plan ids, Stageable s item := by
  have ⟨hretained, hdrafts, _⟩ := stagePlan_ok hplan
  intro item hitem
  rcases mem_append.mp hitem with hitem | hitem
  · rcases mem_append.mp hitem with hitem | hitem
    · have ⟨⟨source, id⟩, hmem, heq⟩ := mem_map.mp hitem
      subst heq
      have ⟨hsource, hid⟩ := of_mem_zip hmem
      have ⟨key, hfound⟩ := mem_of_mapM_ok hretained source hsource
      have ⟨_, hblob⟩ := findRetained_ok hfound
      exact .of_unused (hids.2.2 id (mem_of_mem_take hid)) rfl fun _ => hblob
    · have ⟨draft, hmem, heq⟩ := mem_map.mp hitem
      subst heq
      have ⟨key, hfound⟩ := mem_of_mapM_ok hdrafts draft hmem
      have hget := findDraft_ok hfound
      have hname := hs.draft_id hget
      subst hname
      have hfile := (hs.drafts draft.id).symm.trans hget
      constructor
      · rfl
      · exact fun _ => hs.sound.blobs.draft draft.id draft hfile
      · intro m hm
        exact (hs.sound.sameBlob draft.id draft m hfile ((hs.manifests draft.id).symm.trans hm)).symm
      · intro f hf
        have hf : s.drafts.get? draft.id = some f := hf
        rw [hget] at hf
        cases hf
        rfl
      · intro call u hu hid
        have hnone := (hs.unowned call u hu).1
        rw [hid, show (draftManifest input draft).id = draft.id from rfl, hget] at hnone
        cases hnone
  · have ⟨⟨entry, id⟩, hmem, heq⟩ := mem_map.mp hitem
    subst heq
    have ⟨_, hid⟩ := of_mem_zip hmem
    exact .of_unused (hids.2.2 id (mem_of_mem_drop hid)) rfl nofun

theorem zip_pairwise {α : Type} (as : List α) (hids : ids.Nodup) :
    (as.zip ids).Pairwise fun a b => a.2 ≠ b.2 := by
  induction as generalizing ids with
  | nil => exact List.Pairwise.nil
  | cons a as ih =>
    cases ids with
    | nil => exact List.Pairwise.nil
    | cons id rest =>
      have ⟨hfresh, hrest⟩ := nodup_cons.mp hids
      refine pairwise_cons.mpr ⟨?_, ih hrest⟩
      intro b hb heq
      have heq : id = b.2 := heq
      exact hfresh (heq ▸ (of_mem_zip hb).2)

/-- One id stands for one blob among the items: generated ids differ from each other and
from the ids of drafts, and drafts of one id are one draft. -/
theorem stagedItems_pairwise (hs : Consistent s) (hplan : s.stagePlan digest input = .ok plan)
    (hids : s.generatedIds input ids) :
    (s.stagedItems digest input plan ids).Pairwise SameIdSameBlob := by
  have ⟨_, hdrafts, _⟩ := stagePlan_ok hplan
  have hdraft : ∀ draft ∈ plan.drafts, s.drafts.get? draft.id = some draft := by
    intro draft hmem
    have ⟨key, hfound⟩ := mem_of_mapM_ok hdrafts draft hmem
    have hget := findDraft_ok hfound
    exact (hs.draft_id hget).symm ▸ hget
  have hdrafted : ∀ draft ∈ plan.drafts, draft.id ∉ ids := by
    intro draft hmem hid
    have hnone := (unusedId_spec (hids.2.2 draft.id hid)).1
    rw [hdraft draft hmem] at hnone
    cases hnone
  refine pairwise_append.mpr ⟨pairwise_append.mpr ⟨?_, ?_, ?_⟩, ?_, ?_⟩
  · refine pairwise_map.mpr ?_
    refine (zip_pairwise plan.retained (hids.2.1.sublist (take_sublist _ _))).imp ?_
    intro a b hne heq
    exact absurd heq hne
  · refine pairwise_map.mpr (pairwise_of_forall_mem_list ?_)
    intro a ha b hb heq
    have hget := hdraft a ha
    rw [show a.id = b.id from heq, hdraft b hb] at hget
    cases hget
    rfl
  · intro a ha b hb heq
    have ⟨⟨source, id⟩, hmem, ha⟩ := mem_map.mp ha
    have ⟨draft, hdraftMem, hb⟩ := mem_map.mp hb
    subst ha hb
    have hid := mem_of_mem_take (of_mem_zip hmem).2
    have heq : id = draft.id := heq
    exact absurd (heq ▸ hid) (hdrafted draft hdraftMem)
  · refine pairwise_map.mpr ?_
    refine (zip_pairwise plan.snapshots (hids.2.1.sublist (drop_sublist _ _))).imp ?_
    intro a b hne heq
    exact absurd heq hne
  · intro a ha b hb heq
    have ⟨⟨entry, id⟩, hmem, hb⟩ := mem_map.mp hb
    subst hb
    have hid := (of_mem_zip hmem).2
    rcases mem_append.mp ha with ha | ha
    · have ⟨⟨source, other⟩, hother, ha⟩ := mem_map.mp ha
      subst ha
      have htaken := (of_mem_zip hother).2
      have heq : other = id := heq
      exact absurd hid (heq ▸ disjoint_take_drop hids.2.1 (Nat.le_refl _) htaken)
    · have ⟨draft, hdraftMem, ha⟩ := mem_map.mp ha
      subst ha
      have hdraftId : draft.id = id := heq
      exact absurd (hdraftId ▸ mem_of_mem_drop hid) (hdrafted draft hdraftMem)

theorem Settled.stageMessage (h : Settled s)
    (hids : s.gc.generatedIds input ids) (failure : Option StageFailure) :
    Settled (s.stageMessage digest input ids failure) := by
  unfold Store.stageMessage
  split
  · exact h
  split
  · exact h
  split
  · exact h.gc
  rename_i plan hplan
  have hitems := stagedItems_stageable h.gc.toConsistent hplan hids
  have hpairwise := stagedItems_pairwise h.gc.toConsistent hplan hids
  split
  · exact h.gc.failStage hpairwise hitems _
  · exact h.gc.completeStage hpairwise hitems _

/-! ## Uploads -/

variable {call : Nat} {u : Upload}

theorem Settled.setUpload (h : Settled s) (hdraft : s.drafts.get? u.id = none)
    (hmanifest : s.manifests.get? u.id = none)
    (hother : ∀ c v, c ≠ call → s.uploads.get? c = some v → v.id ≠ u.id) :
    Settled { s with uploads := s.uploads.set call u } where
  __ := h
  unowned c v hv := by
    rcases get?_set_eq_some hv with ⟨-, rfl⟩ | ⟨-, hv⟩
    · exact ⟨hdraft, hmanifest⟩
    · exact h.unowned c v hv
  distinct i j v w hv hw hid := by
    rcases get?_set_eq_some hv with ⟨hi, hv⟩ | ⟨hi, hv⟩
    · rcases get?_set_eq_some hw with ⟨hj, _⟩ | ⟨hj, hw⟩
      · exact hi.trans hj.symm
      · exact absurd (hv ▸ hid).symm (hother j w hj hw)
    rcases get?_set_eq_some hw with ⟨_, hw⟩ | ⟨_, hw⟩
    · exact absurd (hw ▸ hid) (hother i v hi hv)
    · exact h.distinct i j v w hv hw hid

theorem Settled.updateUpload (h : Settled s) {u v : Upload} (hu : s.uploads.get? call = some u)
    (hid : v.id = u.id) : Settled { s with uploads := s.uploads.set call v } := by
  have hfree := h.unowned call u hu
  refine h.setUpload (hid ▸ hfree.1) (hid ▸ hfree.2) ?_
  intro c w hne hw heq
  exact hne (h.distinct c call w u hw hu (heq.trans hid))

theorem Consistent.settle (h : Consistent s) (call : Nat)
    (outcome : Except AttachmentError (DraftManifest Hash)) :
    Consistent (s.settle call outcome) where
  __ := h
  unowned c u hu := h.unowned c u (get?_erase_eq_some hu).2
  distinct i j u v hu hv hid :=
    h.distinct i j u v (get?_erase_eq_some hu).2 (get?_erase_eq_some hv).2 hid

section

variable (h : Settled s)

include h

theorem Settled.settle (call : Nat)
    (outcome : Except AttachmentError (DraftManifest Hash)) : Settled (s.settle call outcome) :=
  ⟨h.toConsistent.settle call outcome, h.covered⟩

theorem Settled.failUpload (call : Nat) (error : AttachmentError) :
    Settled (s.failUpload call error) :=
  (h.toConsistent.unlinkTemporary _).cleanupUnreferencedBlobs.settle call _

/-- No upload in progress has the id. -/
def IdFree (s : Store Hash) (id : String) : Prop :=
  ∀ u ∈ s.uploads.values, u.id ≠ id

instance (s : Store Hash) (id : String) : Decidable (s.IdFree id) :=
  inferInstanceAs (Decidable (∀ u ∈ s.uploads.values, u.id ≠ id))

theorem Settled.createDraft (digest : Bytes → Hash) (call : Nat)
    {input : DraftInput} {generated : String} (hfree : s.IdFree (input.chosenId generated)) :
    Settled (s.createDraft call input generated) := by
  have huploads := (@Frame.gc _ _ digest s).uploads
  unfold Store.createDraft
  dsimp only
  split
  · exact h.gc.settle call _
  rename_i hchecks
  have hnew : s.gc.drafts.contains (input.chosenId generated) = false ∧
      s.gc.manifests.contains (input.chosenId generated) = false := by
    unfold draftError at hchecks
    split at hchecks
    · cases hchecks
    split at hchecks
    · cases hchecks
    split at hchecks
    · cases hchecks
    · split at hchecks
      · cases hchecks
      next hid =>
        simp only [Bool.or_eq_true, not_or, Bool.not_eq_true] at hid
        exact ⟨hid.1.2, hid.2⟩
  simp only [OrderedMap.contains, Option.isSome_eq_false_iff, Option.isNone_iff_eq_none] at hnew
  refine h.gc.setUpload hnew.1 hnew.2 ?_
  intro c v _ hv
  rw [huploads] at hv
  exact hfree v (mem_values.mpr ⟨c, hv⟩)

theorem Settled.openTemporary (hu : s.uploads.get? call = some u) :
    Settled (s.openTemporary call u) := by
  have hwritten : Settled (s.writeTemporary (.upload call) u.received) :=
    ⟨h.toConsistent.writeTemporary _ _, h.covered⟩
  exact hwritten.updateUpload hu rfl

theorem Settled.receiveChunk (hu : s.uploads.get? call = some u) (chunk : Bytes) :
    Settled (s.receiveChunk call u chunk) := by
  unfold Store.receiveChunk
  split
  · exact h.failUpload call _
  unfold appendTemporary
  split
  · exact h.updateUpload hu rfl
  next content _ =>
    have hwritten : Settled (s.writeTemporary (.upload call) (content ++ chunk)) :=
      ⟨h.toConsistent.writeTemporary _ _, h.covered⟩
    exact hwritten.updateUpload hu rfl

theorem Settled.placeBlob (call : Nat) (hash : Hash) (content : Bytes) :
    Consistent (s.placeBlob call hash content) ∧ CoveredBut hash (s.placeBlob call hash content) ∧
      (s.placeBlob call hash content).blobExists hash = true := by
  unfold Store.placeBlob
  split
  next hexists =>
    have hgone := h.unlinkTemporary (.upload call)
    refine ⟨hgone.toConsistent, hgone.covered.but hash, ?_⟩
    unfold blobExists
    rw [(unlinkTemporary_rest s (.upload call)).2.2]
    exact hexists
  · refine ⟨h.toConsistent.renameToBlob _ _ _, ?_, contains_set_self _ _ _⟩
    intro k hne hk
    exact h.covered k (contains_of_set hk hne)

end

theorem placeBlob_memory (s : Store Hash) (call : Nat) (hash : Hash) (content : Bytes) :
    (s.placeBlob call hash content).manifests = s.manifests ∧
      (s.placeBlob call hash content).drafts = s.drafts ∧
      (s.placeBlob call hash content).uploads = s.uploads := by
  unfold placeBlob unlinkTemporary
  split
  · split <;> exact ⟨rfl, rfl, rfl⟩
  · exact ⟨rfl, rfl, rfl⟩

theorem Settled.finishUpload (h : Settled s) (hu : s.uploads.get? call = some u) :
    Settled (s.finishUpload digest call u) := by
  unfold Store.finishUpload
  split
  · exact h.failUpload call _
  split
  · exact h.failUpload call _
  rename_i content _
  obtain ⟨hplaced, hbut, hexists⟩ := h.placeBlob call (digest u.received) content
  obtain ⟨hmanifests, hdrafts, huploads⟩ := placeBlob_memory s call (digest u.received) content
  obtain ⟨hnoDraft, hnoManifest⟩ := h.unowned call u hu
  let draft := s.uploadedDraft u (digest u.received)
  -- the call settles before its draft is saved, so no upload in progress has the id
  have hsettled := hplaced.settle call (.ok draft)
  constructor
  · refine hsettled.saveDraft hexists ?_ ?_
    · intro m hm
      have hm : (s.placeBlob call (digest u.received) content).manifests.get? u.id = some m := hm
      rw [hmanifests, hnoManifest] at hm
      cases hm
    · intro c v hv hid
      obtain ⟨hne, hv⟩ := get?_erase_eq_some hv
      rw [huploads] at hv
      exact hne (h.distinct c call v u hv hu hid)
  · refine CoveredBut.covered_saveDraft (f := draft) hbut ?_
    intro old hold
    have hold : (s.placeBlob call (digest u.received) content).drafts.get? u.id = some old := hold
    rw [hdrafts, hnoDraft] at hold
    cases hold

end Store

/-! ## One operation -/

/-- A `createDraft` that starts has an id of no upload in progress. -/
def FreshId (s : Store Hash) : Operation → Prop
  | .createDraft _ input generated => s.IdFree (input.chosenId generated)
  | _ => True

instance (s : Store Hash) (operation : Operation) : Decidable (FreshId s operation) := by
  cases operation <;> unfold FreshId <;> infer_instance

open Store

variable {s t : Store Hash}

variable {operation : Operation}

theorem Store.Settled.apply (h : Settled s) (hfresh : FreshId s operation)
    (happly : s.apply digest operation = some t) : Settled t := by
  cases operation with
  | createDraft call input generated =>
    obtain ⟨-, happly⟩ := Option.ite_none_left_eq_some.mp happly
    cases happly
    exact h.createDraft digest call hfresh
  | uploadOpened call =>
    simp only [apply] at happly
    split at happly
    · cases happly
    next u hu =>
      split at happly
      · cases happly
      · cases happly
        exact h.openTemporary hu
  | uploadChunk call chunk =>
    obtain ⟨u, hu, ht⟩ := Option.map_eq_some_iff.mp happly
    exact ht ▸ h.receiveChunk hu chunk
  | uploadEnd call =>
    simp only [apply] at happly
    split at happly
    · cases happly
    next u hu =>
      split at happly
      · cases happly
        exact h.finishUpload hu
      · cases happly
  | uploadFailed call =>
    obtain ⟨u, _, ht⟩ := Option.map_eq_some_iff.mp happly
    exact ht ▸ h.failUpload call .failed
  | stageMessage input ids failure =>
    simp only [apply] at happly
    split at happly
    next hids =>
      cases happly
      exact h.stageMessage hids failure
    · cases happly
  | cancelDraft scope id =>
    cases happly
    exact h.cancelDraft scope id
  | commitMessage sessionId messageId turnId =>
    cases happly
    exact h.commitMessage sessionId messageId turnId
  | rollbackMessage sessionId messageId =>
    cases happly
    exact h.rollbackMessage sessionId messageId
  | claimMessageAttachments sessionId messageId ids =>
    cases happly
    exact h.claimMessageAttachments sessionId messageId ids
  | releaseSession sessionId =>
    cases happly
    exact h.releaseSession sessionId
  | gc =>
    cases happly
    exact h.gc
  | setRetentionDays days =>
    cases happly
    have hset : Settled { s with options :=
        { s.options with retentionDays := normalizeRetentionDays days } } :=
      ⟨{ h with }, h.covered⟩
    exact hset.gc
  | setMaxFileAttachmentBytes bytes =>
    obtain ⟨-, happly⟩ := Option.ite_none_left_eq_some.mp happly
    cases happly
    exact ⟨{ h with }, h.covered⟩
  | tick now =>
    cases happly
    exact ⟨{ h with }, h.covered⟩

theorem Store.Settled.perform (h : Settled s)
    (hfresh : FreshId s operation) (hperform : s.perform digest operation = some t) :
    Settled t := by
  have huntraced : Settled s.untraced :=
    ⟨⟨h.sound, h.manifests, h.drafts, nofun, h.unowned, h.distinct⟩, h.covered⟩
  have hfreshUntraced : FreshId s.untraced operation := by cases operation <;> exact hfresh
  exact huntraced.apply hfreshUntraced hperform

/-! ## Restart -/

/-- While the files are read: memory holds some of them, and every write leaves a directory
the store can be started from. -/
structure Restoring (s : Store Hash) : Prop where
  sound : s.disk.Sound
  trace : ∀ d ∈ s.trace, d.Sound
  manifests : ∀ id m, s.manifests.get? id = some m → s.disk.manifestFiles.get? id = some m
  drafts : ∀ id f, s.drafts.get? id = some f → s.disk.draftFiles.get? id = some f
  uploads : s.uploads = .empty

namespace Restoring

variable {f : DraftManifest Hash}

theorem saveDraft (h : Restoring s)
    (hsound : Disk.Sound { s.disk with draftFiles := s.disk.draftFiles.set f.id f }) :
    Restoring (s.saveDraft f) where
  __ := h
  sound := hsound
  trace d hd := by
    rcases mem_concat.mp hd with hd | rfl
    · exact h.trace d hd
    · exact hsound
  drafts id g hg := by
    rcases get?_set_eq_some hg with ⟨rfl, rfl⟩ | ⟨hne, hg⟩
    · exact get?_set_self _ _ _
    · exact (get?_set_ne _ f hne).trans (h.drafts id g hg)

variable {m : AttachmentManifest Hash}

theorem saveManifest (h : Restoring s)
    (hsound : Disk.Sound { s.disk with manifestFiles := s.disk.manifestFiles.set m.id m }) :
    Restoring (s.saveManifest m) where
  __ := h
  sound := hsound
  trace d hd := by
    rcases mem_concat.mp hd with hd | rfl
    · exact h.trace d hd
    · exact hsound
  manifests id n hn := by
    rcases get?_set_eq_some hn with ⟨rfl, rfl⟩ | ⟨hne, hn⟩
    · exact get?_set_self _ _ _
    · exact (get?_set_ne _ m hne).trans (h.manifests id n hn)

omit [DecidableEq Hash] in
theorem restoredUploadDraft_some (h : restoredUploadDraft m = some f) :
    f.id = m.id ∧ f.blobHash = m.blobHash := by
  have ⟨scope, _, hf⟩ := Option.map_eq_some_iff.mp h
  subst hf
  exact ⟨rfl, rfl⟩

theorem restoreManifest (h : Restoring s) (hfile : s.disk.manifestFiles.get? m.id = some m) :
    Restoring (s.restoreManifest m) := by
  unfold Store.restoreManifest
  split
  next hstaged =>
    have hkept : m.contentKept = true := by
      by_contra hk
      have hcommitted := h.sound.deleted m.id m hfile (Bool.eq_false_iff.mpr hk)
      rw [hstaged] at hcommitted
      cases hcommitted
    have hblob := h.sound.blobs.manifest m.id m hfile hkept
    have hretryable : ∀ t : Store Hash, Restoring t →
        t.disk.manifestFiles.get? m.id = some m → t.disk.blobs = s.disk.blobs →
        Restoring (t.saveManifest { m with state := .draft }) := by
      intro t ht hmanifest hblobs
      refine ht.saveManifest (ht.sound.setManifest (fun _ => hblobs ▸ hblob) ?_ ?_)
      · intro hk
        have hk : m.contentKept = false := hk
        rw [hkept] at hk
        cases hk
      · exact fun f hf => ht.sound.sameBlob m.id f m hf hmanifest
    cases hdraft : restoredUploadDraft m with
    | none => exact hretryable s h hfile rfl
    | some f =>
      have ⟨hid, hhash⟩ := restoredUploadDraft_some hdraft
      refine hretryable _ (h.saveDraft (h.sound.setDraft (hhash ▸ hblob) ?_)) hfile rfl
      intro g hg
      rw [hid, hfile] at hg
      cases hg
      exact hhash
  · constructor
    · exact h.sound
    · exact h.trace
    · intro id n hn
      rcases get?_set_eq_some hn with ⟨rfl, rfl⟩ | ⟨-, hn⟩
      · exact hfile
      · exact h.manifests id n hn
    · exact h.drafts
    · exact h.uploads

end Restoring

omit [DecidableEq Hash] in
theorem get?_restoreManifest_ne {m : AttachmentManifest Hash} {id : String} (hne : id ≠ m.id) :
    (s.restoreManifest m).manifests.get? id = s.manifests.get? id ∧
      (s.restoreManifest m).disk.manifestFiles.get? id = s.disk.manifestFiles.get? id := by
  unfold restoreManifest
  split
  · split
    · exact ⟨get?_set_ne _ _ hne, get?_set_ne _ _ hne⟩
    · exact ⟨get?_set_ne _ _ hne, get?_set_ne _ _ hne⟩
  · exact ⟨get?_set_ne _ _ hne, rfl⟩

omit [DecidableEq Hash] in
theorem get?_restoreManifest_self (s : Store Hash) (m : AttachmentManifest Hash) :
    ((s.restoreManifest m).manifests.get? m.id).isSome = true := by
  unfold restoreManifest
  split
  · exact Option.isSome_iff_exists.mpr ⟨_, get?_set_self _ _ _⟩
  · exact Option.isSome_iff_exists.mpr ⟨_, get?_set_self _ _ _⟩

omit [DecidableEq Hash] in
theorem restoreManifests_get? (ms : List (AttachmentManifest Hash)) (s : Store Hash) (id : String) :
    ((∃ m ∈ ms, m.id = id) ∨ (s.manifests.get? id).isSome = true →
        ((ms.foldl restoreManifest s).manifests.get? id).isSome = true) ∧
      ((∀ m ∈ ms, m.id ≠ id) → (ms.foldl restoreManifest s).disk.manifestFiles.get? id =
          s.disk.manifestFiles.get? id) := by
  induction ms generalizing s with
  | nil =>
    refine ⟨?_, fun _ => rfl⟩
    rintro (⟨m, hm, _⟩ | hsome)
    · cases hm
    · exact hsome
  | cons m rest ih =>
    have ⟨hread, hrest⟩ := ih (s.restoreManifest m)
    constructor
    · intro hid
      refine hread ?_
      by_cases heq : id = m.id
      · exact .inr (heq ▸ get?_restoreManifest_self s m)
      rcases hid with ⟨n, hn, hnid⟩ | hsome
      · rcases mem_cons.mp hn with rfl | hn
        · exact absurd hnid.symm heq
        · exact .inl ⟨n, hn, hnid⟩
      · rw [(get?_restoreManifest_ne heq).1]
        exact .inr hsome
    · intro hnone
      have hne : id ≠ m.id := fun heq => hnone m mem_cons_self heq.symm
      rw [foldl_cons, hrest fun n hn => hnone n (mem_cons_of_mem _ hn)]
      exact (get?_restoreManifest_ne hne).2

omit [DecidableEq Hash] in
theorem restoreDrafts_get? (fs : List (DraftManifest Hash)) (s : Store Hash) (id : String) :
    ((∃ f ∈ fs, f.id = id) ∨ (s.drafts.get? id).isSome = true →
        ((fs.foldl restoreDraft s).drafts.get? id).isSome = true) ∧
      (fs.foldl restoreDraft s).disk = s.disk := by
  induction fs generalizing s with
  | nil =>
    refine ⟨?_, rfl⟩
    rintro (⟨f, hf, _⟩ | hsome)
    · cases hf
    · exact hsome
  | cons f rest ih =>
    have ⟨hread, hdisk⟩ := ih (s.restoreDraft f)
    refine ⟨?_, hdisk⟩
    intro hid
    refine hread ?_
    by_cases heq : id = f.id
    · subst heq
      exact .inr (Option.isSome_iff_exists.mpr ⟨f, s.drafts.get?_set_self f.id f⟩)
    rcases hid with ⟨g, hg, hgid⟩ | hsome
    · rcases mem_cons.mp hg with rfl | hg
      · exact absurd hgid.symm heq
      · exact .inl ⟨g, hg, hgid⟩
    have hsame : (s.restoreDraft f).drafts.get? id = s.drafts.get? id :=
      s.drafts.get?_set_ne f heq
    exact .inr (hsame ▸ hsome)

variable {d : Disk Hash}

theorem Disk.Sound.values_pairwise (h : d.Sound) :
    d.manifestFiles.values.Pairwise fun m n => m.id ≠ n.id := by
  have hids : d.manifestFiles.values.map AttachmentManifest.id = d.manifestFiles.keys := by
    unfold values OrderedMap.keys
    rw [map_map]
    refine map_congr_left ?_
    intro e he
    exact h.manifestId e.1 e.2 (get?_eq_some.mpr he)
  have hnodup : (d.manifestFiles.values.map AttachmentManifest.id).Nodup :=
    hids ▸ d.manifestFiles.nodup
  exact pairwise_map.mp hnodup

theorem Restoring.restore (h : d.Sound) (options : Options) (now : Int) :
    Restoring (emptyStore d options now).restore ∧
      ∀ id m, (emptyStore d options now).restore.disk.manifestFiles.get? id = some m →
        (emptyStore d options now).restore.manifests.get? id = some m := by
  have hempty : Restoring (emptyStore d options now) :=
    ⟨h, nofun, fun id m hm => by simp [emptyStore] at hm, fun id f hf => by
      simp [emptyStore] at hf, rfl⟩
  have hrestored : Restoring (emptyStore d options now).restore := by
    refine Machine.foldl_invariant (P := fun t m => t.disk.manifestFiles.get? m.id = some m)
      (fun _ _ ht hm => ht.restoreManifest hm) ?_ h.values_pairwise hempty ?_
    · intro t m n hne _ _ hn
      exact (get?_restoreManifest_ne hne.symm).2.trans hn
    intro m hm
    have ⟨id, hget⟩ := mem_values.mp hm
    have hname := h.manifestId id m hget
    exact hname.symm ▸ hget
  refine ⟨hrestored, ?_⟩
  intro id m hfile
  have ⟨hread, hkept⟩ := restoreManifests_get? d.manifestFiles.values (emptyStore d options now) id
  have hlisted : ∃ n ∈ d.manifestFiles.values, n.id = id := by
    by_contra hnone
    have hsame := hkept fun n hn heq => hnone ⟨n, hn, heq⟩
    have hfile : d.manifestFiles.get? id = some m := hsame.symm.trans hfile
    exact hnone ⟨m, mem_values.mpr ⟨id, hfile⟩, h.manifestId id m hfile⟩
  have ⟨n, hn⟩ := Option.isSome_iff_exists.mp (hread (.inl hlisted))
  have hsame := hrestored.manifests id n hn
  rw [hfile] at hsame
  exact Option.some.inj hsame ▸ hn

theorem Restoring.restoreDrafts (h : Restoring s)
    (hmanifests : ∀ id m, s.disk.manifestFiles.get? id = some m → s.manifests.get? id = some m) :
    Consistent s.restoreDrafts := by
  have hrestored : Restoring s.restoreDrafts ∧ s.restoreDrafts.manifests = s.manifests := by
    refine Machine.foldl_invariant (R := fun _ _ => True)
      (I := fun t => Restoring t ∧ t.manifests = s.manifests)
      (P := fun t f => t.disk.draftFiles.get? f.id = some f) ?_ ?_
      (pairwise_of_forall fun _ _ => trivial) ⟨h, rfl⟩ ?_
    · intro t f ⟨ht, hm⟩ hf
      refine ⟨⟨ht.sound, ht.trace, ht.manifests, ?_, ht.uploads⟩, hm⟩
      intro id g hg
      rcases get?_set_eq_some hg with ⟨rfl, rfl⟩ | ⟨-, hg⟩
      · exact hf
      · exact ht.drafts id g hg
    · intro t f g _ _ _ hg
      exact hg
    · intro f hf
      have ⟨id, hget⟩ := mem_values.mp hf
      exact (h.sound.draftId id f hget).symm ▸ hget
  have ⟨hfinal, hsame⟩ := hrestored
  have hdisk : s.restoreDrafts.disk = s.disk := (restoreDrafts_get? s.disk.draftFiles.values s "").2
  constructor
  · exact hfinal.sound
  · intro id
    rw [hsame, hdisk]
    cases hfile : s.disk.manifestFiles.get? id with
    | some m => exact hmanifests id m hfile
    | none =>
      cases hm : s.manifests.get? id with
      | none => rfl
      | some m =>
        have hfound := h.manifests id m hm
        rw [hfile] at hfound
        cases hfound
  · intro id
    cases hf : s.restoreDrafts.drafts.get? id with
    | some f => exact (hfinal.drafts id f hf).symm
    | none =>
      cases hfile : s.restoreDrafts.disk.draftFiles.get? id with
      | none => rfl
      | some f =>
        have hname := hfinal.sound.draftId id f hfile
        rw [hdisk] at hfile
        have hread := (restoreDrafts_get? s.disk.draftFiles.values s id).1
          (.inl ⟨f, mem_values.mpr ⟨id, hfile⟩, hname⟩)
        rw [show (s.disk.draftFiles.values.foldl restoreDraft s).drafts.get? id = none from hf]
          at hread
        cases hread
  · exact hfinal.trace
  · intro call u hu
    rw [hfinal.uploads] at hu
    cases hu
  · intro i j u v hu
    rw [hfinal.uploads] at hu
    cases hu

theorem Store.Settled.start (h : d.Sound) (options : Options) (now : Int) :
    Settled (Store.start d options now) := by
  have ⟨hrestored, hloaded⟩ := Restoring.restore h options now
  exact (hrestored.restoreDrafts hloaded).cleanupUnreferencedBlobs.gc

/-! ## Every run -/

/-- Every blob is referenced by a draft or by a manifest that keeps its content. -/
def Disk.BlobsReferenced (d : Disk Hash) : Prop :=
  ∀ hash, d.blobs.contains hash = true →
    (∃ id m, d.manifestFiles.get? id = some m ∧ m.blobHash = hash ∧ m.contentKept = true) ∨
      ∃ id f, d.draftFiles.get? id = some f ∧ f.blobHash = hash

/-- Blobs are kept for their references, and for nothing else when no upload is in progress. -/
structure BlobsKept (s : Store Hash) : Prop where
  present : s.disk.BlobsPresent
  manifests : ∀ id, s.manifests.get? id = s.disk.manifestFiles.get? id
  drafts : ∀ id, s.drafts.get? id = s.disk.draftFiles.get? id
  referenced : s.uploads.entries = [] → s.disk.BlobsReferenced
  temporaries : s.uploads.entries = [] → s.disk.temporaries.entries = []

def State.BlobsKept : State Hash → Prop
  | .up s => Attachments.BlobsKept s
  | .down disk => disk.BlobsPresent

/-- No upload is started with the id of one in progress. -/
def FreshStep : State Hash → Action → Prop
  | .up s, .perform operation => FreshId s operation
  | .up s, .crash operation _ => FreshId s operation
  | _, _ => True

instance (s : State Hash) (a : Action) : Decidable (FreshStep s a) := by
  cases s <;> cases a <;> unfold FreshStep <;> infer_instance

/-- What every step keeps. -/
def State.Orderly (digest : Bytes → Hash) : State Hash → Prop
  | .up s => Settled s ∧ Attachments.Orderly digest s
  | .down disk => disk.Sound ∧ disk.Named digest

omit [DecidableEq Hash] in
theorem diskAfter_keeps {P : Disk Hash → Prop} {before disk : Disk Hash} {writes : Nat}
    (hbefore : P before) (htrace : ∀ disk ∈ t.trace, P disk)
    (h : diskAfter before t writes = some disk) : P disk := by
  rcases mem_cons.mp (mem_of_getElem? h) with rfl | hmem
  · exact hbefore
  · exact htrace disk hmem

/-- What every step keeps, whatever the ids of the uploads. -/
def State.Whole (digest : Bytes → Hash) : State Hash → Prop
  | .up s => Attachments.Orderly digest s
  | .down disk => disk.Named digest

theorem State.Whole.step {s t : State Hash} {a : Action} (hstep : step digest s a = some t)
    (h : s.Whole digest) : t.Whole digest := by
  cases s with
  | up s =>
    cases a with
    | perform operation =>
      have ⟨u, hu, ht⟩ := Option.map_eq_some_iff.mp hstep
      exact ht ▸ Attachments.Orderly.perform h hu
    | crash operation writes =>
      have ⟨u, hu, hcrash⟩ := Option.bind_eq_some_iff.mp hstep
      have ⟨disk, hdisk, ht⟩ := Option.map_eq_some_iff.mp hcrash
      exact ht ▸ diskAfter_keeps (Attachments.Orderly.named h).disk
        (Attachments.Orderly.perform h hu).named.trace hdisk
    | restart options now => cases hstep
    | crashAtStart options now writes => cases hstep
  | down disk =>
    cases a with
    | perform operation => cases hstep
    | crash operation writes => cases hstep
    | restart options now =>
      cases hstep
      exact Attachments.Orderly.start h options now
    | crashAtStart options now writes =>
      have ⟨after, hdisk, ht⟩ := Option.map_eq_some_iff.mp hstep
      exact ht ▸ diskAfter_keeps (P := (·.Named digest)) h
        (Attachments.Orderly.start h options now).named.trace hdisk

theorem State.Orderly.step {s t : State Hash} {a : Action} (hstep : step digest s a = some t)
    (hfresh : FreshStep s a) (h : s.Orderly digest) : t.Orderly digest := by
  cases s with
  | up s =>
    have ⟨hs, horderly⟩ := h
    have hwhole : t.Whole digest := State.Whole.step hstep horderly
    cases a with
    | perform operation =>
      have ⟨u, hu, ht⟩ := Option.map_eq_some_iff.mp hstep
      subst ht
      exact ⟨hs.perform hfresh hu, hwhole⟩
    | crash operation writes =>
      have ⟨u, hu, hcrash⟩ := Option.bind_eq_some_iff.mp hstep
      have ⟨disk, hdisk, ht⟩ := Option.map_eq_some_iff.mp hcrash
      subst ht
      exact ⟨diskAfter_keeps hs.sound (hs.perform hfresh hu).trace hdisk, hwhole⟩
    | restart options now => cases hstep
    | crashAtStart options now writes => cases hstep
  | down disk =>
    have ⟨hsound, hnamed⟩ := h
    have hwhole : t.Whole digest := State.Whole.step hstep hnamed
    cases a with
    | perform operation => cases hstep
    | crash operation writes => cases hstep
    | restart options now =>
      cases hstep
      exact ⟨Settled.start hsound options now, hwhole⟩
    | crashAtStart options now writes =>
      have ⟨after, hdisk, ht⟩ := Option.map_eq_some_iff.mp hstep
      subst ht
      exact ⟨diskAfter_keeps hsound (Settled.start hsound options now).trace hdisk, hwhole⟩

theorem BlobsKept.of_orderly (h : Settled s) (horderly : Attachments.Orderly digest s) :
    BlobsKept s where
  __ := h
  present := h.sound.blobs
  referenced _ := by
    intro hash hexists
    rcases referenced_cases (h.covered hash hexists) with ⟨id, m, hm, hrest⟩ | ⟨id, f, hf, hhash⟩
    · exact .inl ⟨id, m, (h.manifests id).symm.trans hm, hrest⟩
    · exact .inr ⟨id, f, (h.drafts id).symm.trans hf, hhash⟩
  temporaries hidle := by
    have hnone : ∀ call, s.uploads.get? call = none := by
      intro call
      have hkeys : s.uploads.keys = [] := by
        unfold OrderedMap.keys
        rw [hidle, map_nil]
      exact get?_eq_none.mpr (hkeys ▸ not_mem_nil)
    refine eq_nil_iff_forall_not_mem.mpr ?_
    intro ⟨name, content⟩ hmem
    have hget := get?_eq_some.mpr hmem
    cases name with
    | upload call =>
      have ⟨u, hu, _⟩ := horderly.files call content hget
      rw [hnone call] at hu
      cases hu
    | snapshot =>
      rw [horderly.snapshot] at hget
      cases hget

/-- In every run that starts no upload with the id of one in progress, references keep their
blobs, also across crashes, and blobs without a reference do not stay. -/
theorem blobs_kept (digest : Bytes → Hash) {as : List Action} {t : State Hash}
    (hrun : Machine.run (step digest) (.down emptyDisk) as = some t)
    (hfresh : Machine.AllSteps (step digest) FreshStep (.down emptyDisk) as) : t.BlobsKept := by
  have hempty : State.Orderly digest (.down emptyDisk) :=
    ⟨emptyDisk_sound, fun hash content hget => by simp [emptyDisk] at hget⟩
  have horderly : t.Orderly digest :=
    Machine.run_invariant_of_steps (fun _ _ _ hstep hs => State.Orderly.step hstep hs) hrun hfresh
      hempty
  cases t with
  | up s => exact .of_orderly horderly.1 horderly.2
  | down disk => exact horderly.1.blobs

/-! ### Uploads of one id -/

def exampleChosenInput : DraftInput := { exampleInput with id := some exampleId }

/-- An upload is staged, its message is rolled back, and the process crashes and starts. -/
def keptActions : List Action :=
  [.restart exampleOptions 0, .perform (.createDraft 0 exampleChosenInput exampleOtherId),
    .perform (.uploadOpened 0), .perform (.uploadChunk 0 [7]), .perform (.uploadEnd 0),
    .perform (.stageMessage ⟨"session", "message", [], [], some ⟨.session, "session"⟩, [exampleId]⟩
      [] none),
    .crash (.rollbackMessage "session" "message") 1, .restart exampleOptions 1]

theorem blobs_kept_example :
    ∃ t : State Bytes, Machine.run (step id) (.down emptyDisk) keptActions = some t ∧
      t.BlobsKept :=
  ⟨_, rfl, @blobs_kept _ _ id keptActions _ rfl (by decide +kernel)⟩

/-- Two uploads of one id: the draft of the second replaces that of the first. -/
def replacedActions : List Action :=
  [.restart exampleOptions 0, .perform (.createDraft 0 exampleChosenInput exampleOtherId),
    .perform (.createDraft 1 exampleChosenInput exampleOtherId), .perform (.uploadOpened 0),
    .perform (.uploadOpened 1), .perform (.uploadChunk 0 [7]), .perform (.uploadChunk 1 [9]),
    .perform (.uploadEnd 0), .perform (.uploadEnd 1)]

theorem Disk.not_referenced (hash : Hash) (hexists : d.blobs.contains hash = true)
    (hmanifests : d.manifestFiles.values.all (fun m => m.blobHash ≠ hash) = true)
    (hdrafts : d.draftFiles.values.all (fun f => f.blobHash ≠ hash) = true) :
    ¬ d.BlobsReferenced := by
  intro h
  rcases h hash hexists with ⟨id, m, hm, hhash, _⟩ | ⟨id, f, hf, hhash⟩
  · have hne := all_eq_true.mp hmanifests m (mem_values.mpr ⟨id, hm⟩)
    exact of_decide_eq_true hne hhash
  · have hne := all_eq_true.mp hdrafts f (mem_values.mpr ⟨id, hf⟩)
    exact of_decide_eq_true hne hhash

/-- The blob of the first upload stays without a reference. -/
theorem blobs_not_kept :
    ∃ t : State Bytes, Machine.run (step id) (.down emptyDisk) replacedActions = some t ∧
      ¬ t.BlobsKept := by
  refine ⟨_, rfl, ?_⟩
  intro h
  exact Disk.not_referenced [7] (by decide +kernel) (by decide +kernel) (by decide +kernel)
    (h.referenced (by decide +kernel))

/-- In every run, across crashes and restarts and whatever the ids of the uploads, a blob has the
digest of its content for a name, and a temporary file has the bytes its upload has received. -/
theorem blobs_named (digest : Bytes → Hash) {as : List Action} {t : State Hash}
    (hrun : Machine.run (step digest) (.down emptyDisk) as = some t) : t.Whole digest := by
  refine Machine.run_invariant (fun _ _ _ hstep hs => State.Whole.step hstep hs) hrun ?_
  exact fun hash content hget => by simp [emptyDisk] at hget

theorem blobs_named_replaced : ∃ t : State Bytes,
    Machine.run (step id) (.down emptyDisk) replacedActions = some t ∧ t.Whole id :=
  ⟨_, rfl, @blobs_named _ _ id replacedActions _ rfl⟩

end TaskHandoff.Attachments
