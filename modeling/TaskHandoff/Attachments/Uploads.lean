import TaskHandoff.Attachments.Frames

/-! # Uploads beside other operations

An upload keeps its temporary file through every operation that does not sweep
the blob directory. What sweeps is the error path of another upload or of a
staging. An upload that is spared ends with a draft whose blob has its bytes.
-/

namespace TaskHandoff.Attachments

open OrderedMap List Option Store Machine

variable {Hash : Type} [DecidableEq Hash] {digest : Bytes → Hash} {s t : Store Hash}

/-! ## Operations that sweep -/

namespace Store

/-- Staging passes its checks and begins to write. -/
def stageReached (digest : Bytes → Hash) (s : Store Hash) (input : StageInput) : Bool :=
  !(maxMessageAttachments < input.count ∨ input.count = 0) &&
    s.messageManifests input.sessionId input.messageId = [] &&
    (s.gc.stagePlan digest input).isOk

/-- The operation ends in its error path. -/
def sweeps (digest : Bytes → Hash) (s : Store Hash) : Operation → Bool
  | .uploadChunk call chunk =>
    match s.uploads.get? call with
    | none => false
    | some upload => upload.exceeds chunk
  | .uploadEnd call =>
    match s.uploads.get? call with
    | none => false
    | some upload => upload.received.length ≠ upload.size ||
        !s.disk.temporaries.contains (.upload call)
  | .uploadFailed _ => true
  | .stageMessage input _ failure => failure.isSome && s.stageReached digest input
  | _ => false

end Store

/-- The operation does not sweep while the upload streams into its temporary file. -/
def Spares (digest : Bytes → Hash) (call : Nat) (s : Store Hash) (operation : Operation) : Prop :=
  s.untraced.sweeps digest operation = true → ∀ u, s.uploads.get? call = some u → u.opened = false

instance (digest : Bytes → Hash) (call : Nat) (s : Store Hash) (operation : Operation) :
    Decidable (Spares digest call s operation) :=
  match h : s.uploads.get? call with
  | none => .isTrue (by simp [Spares, h])
  | some u => decidable_of_iff
      (s.untraced.sweeps digest operation = true → u.opened = false) (by simp [Spares, h])

/-! ## One upload -/

/-- What an operation adds to an upload. -/
def Upload.after (u : Upload) (call : Nat) : Operation → Upload
  | .uploadOpened c => if c = call then { u with opened := true } else u
  | .uploadChunk c chunk => if c = call then { u with received := u.received ++ chunk } else u
  | _ => u

/-- An upload in progress; once it is opened, its file has what it received. -/
structure Streaming (s : Store Hash) (call : Nat) (u : Upload) : Prop where
  upload : s.uploads.get? call = some u
  file : u.opened = true → s.disk.temporaries.get? (.upload call) = some u.received

/-- Neither ended nor failed, and within its size. -/
def Continues (call : Nat) (u : Upload) (operation : Operation) : Prop :=
  operation ≠ .uploadEnd call ∧ operation ≠ .uploadFailed call ∧
    ∀ chunk, operation = .uploadChunk call chunk → u.exceeds chunk = false

namespace Streaming

variable {call : Nat} {u : Upload}

theorem frame (digest : Bytes → Hash) (h : Streaming s call u) (hframe : Frame digest s t) :
    Streaming t call u where
  upload := by
    rw [hframe.uploads]
    exact h.upload
  file hopened := (hframe.temporaries call).trans (h.file hopened)

theorem swept (digest : Bytes → Hash) (h : Streaming s call u) (hswept : Swept digest s t)
    (hclosed : u.opened = false) : Streaming t call u where
  upload := by
    rw [hswept.uploads]
    exact h.upload
  file hopened := by
    rw [hclosed] at hopened
    cases hopened

variable {c : Nat}

omit [DecidableEq Hash] in
theorem settle (h : Streaming s call u) (hne : call ≠ c)
    (outcome : Except AttachmentError (DraftManifest Hash)) :
    Streaming (s.settle c outcome) call u where
  upload := (s.uploads.get?_erase_ne hne).trans h.upload
  file := h.file

omit [DecidableEq Hash] in
theorem setUpload (h : Streaming s call u) (hne : call ≠ c) (v : Upload) :
    Streaming { s with uploads := s.uploads.set c v } call u where
  upload := (s.uploads.get?_set_ne v hne).trans h.upload
  file := h.file

omit [DecidableEq Hash] in
theorem writeTemporary (h : Streaming s call u) (hne : call ≠ c) (content : Bytes) :
    Streaming (s.writeTemporary (.upload c) content) call u where
  upload := h.upload
  file hopened := by
    have hname : TemporaryName.upload call ≠ .upload c := fun heq => hne (by cases heq; rfl)
    exact (s.disk.temporaries.get?_set_ne content hname).trans (h.file hopened)

omit [DecidableEq Hash] in
theorem unlinkTemporary (h : Streaming s call u) (hne : call ≠ c) :
    Streaming (s.unlinkTemporary (.upload c)) call u where
  upload := by
    rw [(unlinkTemporary_rest s (.upload c)).1]
    exact h.upload
  file hopened := by
    rw [get?_unlinkTemporary, if_neg fun heq => hne (by cases heq; rfl)]
    exact h.file hopened

theorem failUpload (digest : Bytes → Hash) (h : Streaming s call u) (hne : call ≠ c)
    (hclosed : u.opened = false) (error : AttachmentError) :
    Streaming (s.failUpload c error) call u :=
  ((h.unlinkTemporary hne).swept digest (cleanupUnreferencedBlobs_swept digest _) hclosed).settle
    hne _

theorem placeBlob (h : Streaming s call u) (hne : call ≠ c) (hash : Hash) (content : Bytes) :
    Streaming (s.placeBlob c hash content) call u := by
  unfold Store.placeBlob
  split
  · exact h.unlinkTemporary hne
  constructor
  · exact h.upload
  intro hopened
  have hname : TemporaryName.upload call ≠ .upload c := fun heq => hne (by cases heq; rfl)
  exact (s.disk.temporaries.get?_erase_ne hname).trans (h.file hopened)

omit [DecidableEq Hash] in
theorem appendTemporary (h : Streaming s call u) (hne : call ≠ c) (chunk : Bytes) :
    Streaming (s.appendTemporary c chunk) call u := by
  unfold Store.appendTemporary
  split
  · exact h
  · exact h.writeTemporary hne _

/-! ## One operation -/

theorem createDraft (digest : Bytes → Hash) (h : Streaming s call u) (hne : call ≠ c)
    (input : DraftInput) (generated : String) :
    Streaming (s.createDraft c input generated) call u := by
  have hgc := h.frame digest (Frame.gc s)
  unfold Store.createDraft
  dsimp only
  split
  · exact hgc.settle hne _
  · exact hgc.setUpload hne _

variable {v : Upload}

omit [DecidableEq Hash] in
theorem openTemporary (h : Streaming s call u) (hv : s.uploads.get? c = some v) :
    Streaming (s.openTemporary c v) call (u.after call (.uploadOpened c)) := by
  by_cases hc : c = call
  · subst hc
    rw [h.upload] at hv
    have heq := some.inj hv
    subst heq
    simp only [Upload.after, if_pos]
    exact ⟨s.uploads.get?_set_self _ _, fun _ => s.disk.temporaries.get?_set_self _ _⟩
  · simp only [Upload.after, if_neg hc]
    exact (h.writeTemporary (Ne.symm hc) v.received).setUpload (Ne.symm hc) _

theorem receiveChunk (digest : Bytes → Hash) (h : Streaming s call u) {chunk : Bytes}
    (hv : s.uploads.get? c = some v) (hspare : v.exceeds chunk = true → u.opened = false)
    (hfits : c = call → u.exceeds chunk = false) :
    Streaming (s.receiveChunk c v chunk) call (u.after call (.uploadChunk c chunk)) := by
  unfold Store.receiveChunk
  by_cases hc : c = call
  · subst hc
    rw [h.upload] at hv
    have heq := Option.some.inj hv
    subst heq
    simp only [Upload.after, if_pos, hfits rfl, Bool.false_eq_true, if_false]
    constructor
    · exact s.uploads.get?_set_self _ _
    intro hopened
    have hfile := h.file hopened
    unfold Store.appendTemporary
    rw [hfile]
    exact s.disk.temporaries.get?_set_self _ _
  · simp only [Upload.after, if_neg hc]
    split
    next hexceeds => exact h.failUpload digest (Ne.symm hc) (hspare hexceeds) _
    · have happend := (h.appendTemporary (Ne.symm hc) chunk).setUpload (Ne.symm hc)
        { v with received := v.received ++ chunk }
      have huploads : (s.appendTemporary c chunk).uploads = s.uploads := by
        unfold Store.appendTemporary
        split <;> rfl
      rw [huploads] at happend
      exact happend

variable (h : Streaming s call u)

include h

theorem finishUpload (hne : call ≠ c) (hspare : (v.received.length ≠ v.size ∨
    s.disk.temporaries.get? (.upload c) = none) → u.opened = false) :
    Streaming (s.finishUpload digest c v) call u := by
  unfold Store.finishUpload
  split
  next hsize => exact h.failUpload digest hne (hspare (.inl hsize)) _
  · split
    next hgone => exact h.failUpload digest hne (hspare (.inr hgone)) _
    next content hfile =>
      have hplaced := h.placeBlob hne (digest v.received) content
      exact (hplaced.frame digest (Frame.saveDraft _ _)).settle hne _

theorem stageMessage (input : StageInput) (ids : List String) (failure : Option StageFailure)
    (hspare : (failure.isSome && s.stageReached digest input) = true → u.opened = false) :
    Streaming (s.stageMessage digest input ids failure) call u := by
  have hgc := h.frame digest (Frame.gc s)
  unfold Store.stageMessage
  split
  · exact h
  rename_i hcount
  split
  · exact h
  rename_i hfirst
  split
  · exact hgc
  rename_i plan hplan
  have hnamed := stagedItems_named digest s.gc input plan ids
  split
  next stop =>
    refine hgc.swept digest (failStage_swept s.gc hnamed stop) (hspare ?_)
    have hempty : s.messageManifests input.sessionId input.messageId = [] := not_not.mp hfirst
    simp only [stageReached, hcount, hplan, hempty, Except.isOk, Except.toBool]
    rfl
  · exact hgc.frame digest (Frame.completeStage s.gc hnamed plan.drafts)

variable {operation : Operation}

theorem apply (hclosed : s.sweeps digest operation = true → u.opened = false)
    (hcontinues : Continues call u operation) (happly : s.apply digest operation = some t) :
    Streaming t call (u.after call operation) := by
  cases operation with
  | createDraft c input generated =>
    simp only [Store.apply] at happly
    split at happly
    · cases happly
    rename_i hguard
    cases happly
    have hne : call ≠ c := by
      rintro rfl
      simp [OrderedMap.contains, h.upload] at hguard
    exact h.createDraft digest hne input generated
  | uploadOpened c =>
    simp only [Store.apply] at happly
    split at happly
    · cases happly
    next v hv =>
      split at happly
      · cases happly
      · cases happly
        exact h.openTemporary hv
  | uploadChunk c chunk =>
    obtain ⟨v, hv, rfl⟩ := map_eq_some_iff.mp happly
    refine h.receiveChunk digest hv ?_ ?_
    · intro hexceeds
      exact hclosed (by simp [sweeps, hv, hexceeds])
    · rintro rfl
      exact hcontinues.2.2 chunk rfl
  | uploadEnd c =>
    simp only [Store.apply] at happly
    split at happly
    · cases happly
    rename_i v hv
    split at happly
    · cases happly
      have hne : call ≠ c := by
        rintro rfl
        exact hcontinues.1 rfl
      refine h.finishUpload hne ?_
      intro hbad
      refine hclosed ?_
      rcases hbad with hsize | hgone
      · simp [sweeps, hv, hsize]
      · simp [sweeps, hv, OrderedMap.contains, hgone]
    · cases happly
  | uploadFailed c =>
    obtain ⟨v, _, rfl⟩ := map_eq_some_iff.mp happly
    have hne : call ≠ c := by
      rintro rfl
      exact hcontinues.2.1 rfl
    exact h.failUpload digest hne (hclosed rfl) _
  | stageMessage input ids failure =>
    obtain ⟨-, happly⟩ := ite_none_right_eq_some.mp happly
    cases happly
    exact h.stageMessage input ids failure hclosed
  | cancelDraft scope id =>
    cases happly
    exact h.frame digest (Frame.cancelDraft s scope id)
  | commitMessage sessionId messageId turnId =>
    cases happly
    exact h.frame digest (Frame.commitMessage s sessionId messageId turnId)
  | rollbackMessage sessionId messageId =>
    cases happly
    exact h.frame digest (Frame.rollbackMessage s sessionId messageId)
  | claimMessageAttachments sessionId messageId ids =>
    cases happly
    exact h.frame digest (Frame.claimMessageAttachments s sessionId messageId ids)
  | releaseSession sessionId =>
    cases happly
    exact h.frame digest (Frame.releaseSession s sessionId)
  | gc =>
    cases happly
    exact h.frame digest (Frame.gc s)
  | setRetentionDays days =>
    cases happly
    have hset : Streaming { s with options :=
        { s.options with retentionDays := normalizeRetentionDays days } } call u :=
      ⟨h.upload, h.file⟩
    exact hset.frame digest (Frame.gc _)
  | setMaxFileAttachmentBytes bytes =>
    obtain ⟨-, happly⟩ := ite_none_left_eq_some.mp happly
    cases happly
    exact ⟨h.upload, h.file⟩
  | tick now =>
    cases happly
    exact ⟨h.upload, h.file⟩

theorem perform (hspares : Spares digest call s operation) (hcontinues : Continues call u operation)
    (hperform : s.perform digest operation = some t) :
    Streaming t call (u.after call operation) := by
  have huntraced : Streaming s.untraced call u := ⟨h.upload, h.file⟩
  exact huntraced.apply (fun hsweeps => hspares hsweeps u h.upload) hcontinues hperform

end Streaming

/-! ## A whole source -/

/-- The bytes the operations bring to an upload. -/
def delivered (call : Nat) : List Operation → Bytes
  | [] => []
  | .uploadChunk c chunk :: rest =>
    if c = call then chunk ++ delivered call rest else delivered call rest
  | _ :: rest => delivered call rest

theorem delivered_cons (call : Nat) (u : Upload) (operation : Operation) (rest : List Operation) :
    (u.after call operation).received ++ delivered call rest =
      u.received ++ delivered call (operation :: rest) := by
  cases operation with
  | uploadChunk c chunk =>
    by_cases hc : c = call
    · simp [Upload.after, delivered, hc]
    · simp [Upload.after, delivered, hc]
  | uploadOpened c =>
    by_cases hc : c = call
    · simp [Upload.after, delivered, hc]
    · simp [Upload.after, delivered, hc]
  | _ => rfl

theorem Upload.after_same (u : Upload) (call : Nat) (operation : Operation) :
    (u.after call operation).id = u.id ∧ (u.after call operation).size = u.size ∧
      (u.opened = true ∨ operation = .uploadOpened call →
        (u.after call operation).opened = true) := by
  cases operation with
  | uploadChunk c chunk =>
    by_cases hc : c = call
    · simp [Upload.after, hc]
    · simp [Upload.after, hc]
  | uploadOpened c =>
    by_cases hc : c = call
    · simp [Upload.after, hc]
    · simp [Upload.after, hc]
  | _ => exact ⟨rfl, rfl, by rintro (hopened | heq) <;> first | exact hopened | cases heq⟩

variable {middle : List Operation} {u : Upload}

theorem Streaming.run {call : Nat} (h : Streaming s call u)
    (hrun : run (Store.perform digest) s middle = some t)
    (hspares : AllSteps (Store.perform digest) (Spares digest call) s middle)
    (hend : .uploadEnd call ∉ middle) (hfailed : .uploadFailed call ∉ middle)
    (hsize : (u.received ++ delivered call middle).length ≤ u.size)
    (hmax : u.size ≤ maxAttachmentBytes) : ∃ v, Streaming t call v ∧ v.id = u.id ∧ v.size = u.size ∧
      v.received = u.received ++ delivered call middle ∧
      (u.opened = true ∨ .uploadOpened call ∈ middle → v.opened = true) := by
  induction middle generalizing s u with
  | nil =>
    cases hrun
    refine ⟨u, h, rfl, rfl, (append_nil _).symm, ?_⟩
    rintro (hopened | hmem)
    · exact hopened
    · cases hmem
  | cons operation rest ih =>
    have ⟨m, hperform, hrest⟩ := run_cons_some hrun
    have hbytes := delivered_cons call u operation rest
    have ⟨hid, hsame, hopens⟩ := u.after_same call operation
    have hcontinues : Continues call u operation := by
      refine ⟨fun heq => hend (heq ▸ mem_cons_self), fun heq => hfailed (heq ▸ mem_cons_self), ?_⟩
      rintro chunk rfl
      simp only [Upload.after, if_pos] at hbytes
      rw [← hbytes, length_append] at hsize
      simp only [Upload.exceeds, Bool.or_eq_false_iff, decide_eq_false_iff_not]
      omega
    have hnext := h.perform hspares.1 hcontinues hperform
    have ⟨v, hv, hvid, hvsize, hvbytes, hvopened⟩ := ih hnext hrest (hspares.tail hperform)
      (fun hmem => hend (mem_cons_of_mem _ hmem))
      (fun hmem => hfailed (mem_cons_of_mem _ hmem))
      (by rw [hbytes, hsame]; exact hsize) (by rw [hsame]; exact hmax)
    refine ⟨v, hv, hvid.trans hid, hvsize.trans hsame, hvbytes.trans hbytes, ?_⟩
    rintro (hopened | hmem)
    · exact hvopened (.inl (hopens (.inl hopened)))
    rcases mem_cons.mp hmem with heq | hmem
    · exact hvopened (.inl (hopens (.inr heq.symm)))
    · exact hvopened (.inr hmem)

/-! ## The blob directory -/

/-- Blobs have the digests of their contents for names, and the temporary files are those of
uploads in progress, with the bytes these received. -/
structure Orderly (digest : Bytes → Hash) (s : Store Hash) : Prop where
  named : s.Named digest
  files : ∀ call content, s.disk.temporaries.get? (.upload call) = some content →
    ∃ u, s.uploads.get? call = some u ∧ u.received = content
  snapshot : s.disk.temporaries.get? .snapshot = none

namespace Orderly

theorem frame (h : Orderly digest s) (hframe : Frame digest s t) : Orderly digest t where
  named := hframe.named h.named
  files call content hfile := by
    rw [hframe.uploads]
    exact h.files call content ((hframe.temporaries call).symm.trans hfile)
  snapshot := hframe.snapshot h.snapshot

theorem of_swept (hnamed : s.Named digest) (hswept : Swept digest s t) : Orderly digest t where
  named := hswept.named hnamed
  files call content hfile := by
    rw [hswept.temporaries] at hfile
    cases hfile
  snapshot := hswept.temporaries .snapshot

variable (h : Orderly digest s)

include h

/-- A call without a temporary file may change its upload. -/
theorem setUploads {call : Nat} {uploads : OrderedMap Nat Upload}
    {outcomes : OrderedMap Nat (Except AttachmentError (DraftManifest Hash))}
    (hnone : s.disk.temporaries.get? (.upload call) = none)
    (hothers : ∀ c, c ≠ call → uploads.get? c = s.uploads.get? c) :
    Orderly digest { s with uploads, outcomes } where
  named := { h.named with }
  files c content hfile := by
    have ⟨u, hu, hbytes⟩ := h.files c content hfile
    have hne : c ≠ call := by
      rintro rfl
      rw [show s.disk.temporaries.get? (.upload c) = some content from hfile] at hnone
      cases hnone
    exact ⟨u, (hothers c hne).trans hu, hbytes⟩
  snapshot := h.snapshot

theorem settle {call : Nat} (hnone : s.disk.temporaries.get? (.upload call) = none)
    (outcome : Except AttachmentError (DraftManifest Hash)) :
    Orderly digest (s.settle call outcome) :=
  h.setUploads hnone fun _ hne => s.uploads.get?_erase_ne hne

theorem failUpload (call : Nat) (error : AttachmentError) :
    Orderly digest (s.failUpload call error) := by
  have hnamed := h.named.unlinkTemporary (.upload call)
  have hswept := cleanupUnreferencedBlobs_swept digest (s.unlinkTemporary (.upload call))
  exact (of_swept hnamed hswept).settle (hswept.temporaries _) _

theorem createDraft {call : Nat} (hnew : s.uploads.get? call = none)
    (input : DraftInput) (generated : String) :
    Orderly digest (s.createDraft call input generated) := by
  have hframe : Frame digest s s.gc := Frame.gc s
  have hgc := h.frame hframe
  have huploads := hframe.uploads
  have hnone : s.gc.disk.temporaries.get? (.upload call) = none := by
    by_contra hsome
    have ⟨content, hfile⟩ := ne_none_iff_exists'.mp hsome
    have ⟨u, hu, _⟩ := hgc.files call content hfile
    rw [huploads, hnew] at hu
    cases hu
  unfold Store.createDraft
  dsimp only
  split
  · exact hgc.settle hnone _
  · exact hgc.setUploads hnone fun _ hne => s.gc.uploads.get?_set_ne _ hne

theorem writeUpload {call : Nat} (v : Upload) :
    Orderly digest { s.writeTemporary (.upload call) v.received with
      uploads := s.uploads.set call v } where
  named := by
    have hdisk : Disk.Named digest { s.disk with
        temporaries := s.disk.temporaries.set (.upload call) v.received } := h.named.disk
    have hwritten := h.named.wrote hdisk
    exact ⟨hwritten.disk, hwritten.trace⟩
  files c content hfile := by
    rcases get?_set_eq_some hfile with ⟨hname, rfl⟩ | ⟨hname, hfile⟩
    · cases hname
      exact ⟨v, s.uploads.get?_set_self _ v, rfl⟩
    have ⟨u, hu, hbytes⟩ := h.files c content hfile
    have hne : c ≠ call := fun heq => hname (heq ▸ rfl)
    exact ⟨u, (s.uploads.get?_set_ne v hne).trans hu, hbytes⟩
  snapshot := by
    have hne : TemporaryName.snapshot ≠ .upload call := by simp
    exact (s.disk.temporaries.get?_set_ne v.received hne).trans h.snapshot

theorem receiveChunk {call : Nat} (hu : s.uploads.get? call = some u) (chunk : Bytes) :
    Orderly digest (s.receiveChunk call u chunk) := by
  unfold Store.receiveChunk
  split
  · exact h.failUpload call _
  unfold Store.appendTemporary
  cases hfile : s.disk.temporaries.get? (.upload call) with
  | none => exact h.setUploads hfile fun _ hne => s.uploads.get?_set_ne _ hne
  | some content =>
    have ⟨v, hv, hbytes⟩ := h.files call content hfile
    rw [hu] at hv
    cases hv
    subst hbytes
    exact h.writeUpload { u with received := u.received ++ chunk }

theorem placeBlob {call : Nat} {content : Bytes} :
    Orderly digest (s.placeBlob call (digest content) content) ∧
      (s.placeBlob call (digest content) content).disk.temporaries.get? (.upload call) = none := by
  unfold Store.placeBlob
  split
  · refine ⟨⟨?_, ?_, ?_⟩, ?_⟩
    · exact h.named.unlinkTemporary _
    · intro c bytes hfile
      rw [get?_unlinkTemporary] at hfile
      split at hfile
      · cases hfile
      · rw [(unlinkTemporary_rest s (.upload call)).1]
        exact h.files c bytes hfile
    · rw [get?_unlinkTemporary]
      exact h.snapshot
    · rw [get?_unlinkTemporary, if_pos rfl]
  · refine ⟨⟨?_, ?_, ?_⟩, ?_⟩
    · exact h.named.wrote (h.named.disk.set _ rfl)
    · intro c bytes hfile
      exact h.files c bytes (get?_erase_eq_some hfile).2
    · have hne : TemporaryName.snapshot ≠ .upload call := by simp
      exact (s.disk.temporaries.get?_erase_ne hne).trans h.snapshot
    · exact s.disk.temporaries.get?_erase_self _

theorem finishUpload {call : Nat} (hu : s.uploads.get? call = some u) :
    Orderly digest (s.finishUpload digest call u) := by
  unfold Store.finishUpload
  split
  · exact h.failUpload call _
  split
  · exact h.failUpload call _
  rename_i content hfile
  have ⟨v, hv, hbytes⟩ := h.files call content hfile
  rw [hu] at hv
  cases hv
  subst hbytes
  have ⟨hplaced, hnone⟩ := @Orderly.placeBlob _ _ _ _ h call u.received
  exact (hplaced.frame (Frame.saveDraft _ _)).settle hnone _

theorem stageMessage (input : StageInput) (ids : List String)
    (failure : Option StageFailure) : Orderly digest (s.stageMessage digest input ids failure) := by
  have hgc := h.frame (Frame.gc s)
  unfold Store.stageMessage
  split
  · exact h
  split
  · exact h
  split
  · exact hgc
  next plan hplan =>
    have hnamed := stagedItems_named digest s.gc input plan ids
    split
    next stop => exact of_swept hgc.named (failStage_swept s.gc hnamed stop)
    · exact hgc.frame (Frame.completeStage s.gc hnamed plan.drafts)

theorem apply (happly : s.apply digest operation = some t) : Orderly digest t := by
  cases operation with
  | createDraft call input generated =>
    simp only [Store.apply] at happly
    split at happly
    · cases happly
    rename_i hguard
    cases happly
    refine h.createDraft ?_ input generated
    cases hu : s.uploads.get? call with
    | none => rfl
    | some u => simp [OrderedMap.contains, hu] at hguard
  | uploadOpened call =>
    simp only [Store.apply] at happly
    split at happly
    · cases happly
    next u hu =>
      split at happly
      · cases happly
      · cases happly
        exact h.writeUpload { u with opened := true }
  | uploadChunk call chunk =>
    obtain ⟨u, hu, ht⟩ := map_eq_some_iff.mp happly
    exact ht ▸ h.receiveChunk hu chunk
  | uploadEnd call =>
    simp only [Store.apply] at happly
    split at happly
    · cases happly
    next u hu =>
      split at happly
      · cases happly
        exact h.finishUpload hu
      · cases happly
  | uploadFailed call =>
    obtain ⟨u, _, ht⟩ := map_eq_some_iff.mp happly
    exact ht ▸ h.failUpload call .failed
  | stageMessage input ids failure =>
    obtain ⟨-, happly⟩ := ite_none_right_eq_some.mp happly
    cases happly
    exact h.stageMessage input ids failure
  | cancelDraft scope id =>
    cases happly
    exact h.frame (Frame.cancelDraft s scope id)
  | commitMessage sessionId messageId turnId =>
    cases happly
    exact h.frame (Frame.commitMessage s sessionId messageId turnId)
  | rollbackMessage sessionId messageId =>
    cases happly
    exact h.frame (Frame.rollbackMessage s sessionId messageId)
  | claimMessageAttachments sessionId messageId ids =>
    cases happly
    exact h.frame (Frame.claimMessageAttachments s sessionId messageId ids)
  | releaseSession sessionId =>
    cases happly
    exact h.frame (Frame.releaseSession s sessionId)
  | gc =>
    cases happly
    exact h.frame (Frame.gc s)
  | setRetentionDays days =>
    cases happly
    have hset : Orderly digest { s with options :=
        { s.options with retentionDays := normalizeRetentionDays days } } :=
      ⟨⟨h.named.disk, h.named.trace⟩, h.files, h.snapshot⟩
    exact hset.frame (Frame.gc _)
  | setMaxFileAttachmentBytes bytes =>
    obtain ⟨-, happly⟩ := ite_none_left_eq_some.mp happly
    cases happly
    exact ⟨⟨h.named.disk, h.named.trace⟩, h.files, h.snapshot⟩
  | tick now =>
    cases happly
    exact ⟨⟨h.named.disk, h.named.trace⟩, h.files, h.snapshot⟩

theorem perform (hperform : s.perform digest operation = some t) : Orderly digest t := by
  have huntraced : Orderly digest s.untraced := ⟨⟨h.named.disk, nofun⟩, h.files, h.snapshot⟩
  exact huntraced.apply hperform

end Orderly

/-! ## Started stores -/

theorem Store.Frame.restore (s : Store Hash) : Frame digest s s.restore := by
  refine Frame.foldl ?_ s
  intro t m _
  unfold restoreManifest
  split
  · refine Frame.trans ?_ (Frame.saveManifest _ _)
    cases restoredUploadDraft m with
    | none => exact Frame.refl digest t
    | some f => exact Frame.saveDraft t f
  · exact (Frame.refl digest t).remember _ _

theorem Store.Frame.restoreDrafts (s : Store Hash) : Frame digest s s.restoreDrafts := by
  refine Frame.foldl ?_ s
  intro t f _
  exact (Frame.refl digest t).remember _ _

theorem Orderly.start {disk : Disk Hash} (h : disk.Named digest) (options : Options)
    (now : Int) : Orderly digest (start disk options now) := by
  have hrestored : Frame digest (emptyStore disk options now)
      (emptyStore disk options now).restore.restoreDrafts :=
    (Frame.restore _).trans (Frame.restoreDrafts _)
  have hswept := hrestored.swept (cleanupUnreferencedBlobs_swept digest _)
  have hnamed : (emptyStore disk options now).Named digest := ⟨h, nofun⟩
  exact (of_swept hnamed hswept).frame (Frame.gc _)

/-! ## Independence -/

/-- An upload that passes the checks at its start and whose source then delivers exactly its
size, beside any operations, in a store started from any directory. -/
structure Delivery (digest : Bytes → Hash) (call : Nat) (input : DraftInput)
    (generated : String) (created t : Store Hash) (middle : List Operation) : Prop where
  started : ∃ disk options now before s, disk.Named digest ∧
    run (Store.perform digest) (start disk options now) before = some s ∧
    s.untraced.gc.draftError input (input.chosenId generated) = none ∧
    s.perform digest (.createDraft call input generated) = some created
  ran : run (Store.perform digest) created middle = some t
  opened : .uploadOpened call ∈ middle
  unfailed : .uploadFailed call ∉ middle
  unended : .uploadEnd call ∉ middle
  bytes : (delivered call middle).length = input.size

theorem Delivery.streaming {call : Nat} {input : DraftInput} {generated : String}
    {created : Store Hash} (h : Delivery digest call input generated created t middle) :
    Orderly digest created ∧ input.size ≤ maxAttachmentBytes ∧
      ∃ u, Streaming created call u ∧ u.id = input.chosenId generated ∧ u.size = input.size ∧
        u.received = [] := by
  obtain ⟨disk, options, now, before, s, hnamed, hbefore, hchecks, hcreate⟩ := h.started
  have horderly : Orderly digest s :=
    run_invariant (fun _ _ _ hstep hs => hs.perform hstep) hbefore
      (Orderly.start hnamed options now)
  refine ⟨horderly.perform hcreate, ?_, ?_⟩
  · by_contra hlarge
    simp [draftError, Nat.lt_of_not_le hlarge] at hchecks
  obtain ⟨-, hcreate⟩ := ite_none_left_eq_some.mp hcreate
  cases hcreate
  simp only [Store.createDraft, hchecks]
  exact ⟨_, ⟨get?_set_self _ _ _, by simp⟩, rfl, rfl, rfl⟩

def exampleOptions : Options where
  retentionDays := retentionDefaultDays
  maxBytes := 1000
  maxFileAttachmentBytes := 1000

def exampleInput : DraftInput where
  id := none
  scope := ⟨.session, "session"⟩
  metadata := ⟨.file, "notes.txt", "text/plain"⟩
  size := 1

def exampleId : String := "att_000000000000000000000000"

def exampleOtherId : String := "att_111111111111111111111111"

end TaskHandoff.Attachments
