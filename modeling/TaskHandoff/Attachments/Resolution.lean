import TaskHandoff.Attachments.Operations

/-! # Resolving the attachments of a message

What a projection stored of a message's attachments is replaced by the message's
manifests: first by id, for ids of an older version by the only manifest with
the same metadata or by position. Greedily, from the left: a fallback can take
the manifest that a later attachment names.
-/

namespace TaskHandoff.Attachments

open List

inductive ContentState where
  | available | expired | missing

structure ConversationAttachment where
  id : String
  metadata : Metadata
  size : Nat
  contentState : ContentState

namespace Store

variable {Hash : Type}

section Resolution

variable (manifests : List (AttachmentManifest Hash))

/-- The map's entry of an id; the last one wins. -/
def publishedById (id : String) : Option (AttachmentManifest Hash) :=
  manifests.reverse.find? fun manifest => manifest.id = id

/-- For the attachment at `index` of `count`: the only unused manifest that looks like it, or the
unused one at its position. -/
def fallback (count : Nat) (used : List String) (index : Nat)
    (attachment : ConversationAttachment) : Option (AttachmentManifest Hash) :=
  match manifests.filter fun manifest =>
    manifest.id ∉ used ∧ manifest.metadata = attachment.metadata with
  | [manifest] => some manifest
  | _ =>
    if manifests.length = count then
      manifests[index]?.filter fun manifest => manifest.id ∉ used
    else none

def resolveFrom (publish : AttachmentManifest Hash → ConversationAttachment) (count : Nat) :
    List String → Nat → List ConversationAttachment → List ConversationAttachment
  | _, _, [] => []
  | used, index, attachment :: rest =>
    match publishedById manifests attachment.id with
    | some exact => publish exact :: resolveFrom publish count (exact.id :: used) (index + 1) rest
    | none =>
      match fallback manifests count used index attachment with
      | none =>
        { attachment with contentState := .missing } ::
          resolveFrom publish count used (index + 1) rest
      | some manifest =>
        publish manifest :: resolveFrom publish count (manifest.id :: used) (index + 1) rest

/-- No fallback takes a manifest that a later attachment names. -/
def Spares (count : Nat) : List String → Nat → List ConversationAttachment → Prop
  | _, _, [] => True
  | used, index, attachment :: rest =>
    match publishedById manifests attachment.id with
    | some exact => Spares count (exact.id :: used) (index + 1) rest
    | none =>
      match fallback manifests count used index attachment with
      | none => Spares count used (index + 1) rest
      | some manifest =>
        manifest.id ∉ rest.map (·.id) ∧ Spares count (manifest.id :: used) (index + 1) rest

end Resolution

/-! ## One attachment -/

section One

variable {manifests : List (AttachmentManifest Hash)} {id : String}
variable {manifest : AttachmentManifest Hash} {used : List String}
  {attachment : ConversationAttachment}

theorem publishedById_some (h : publishedById manifests id = some manifest) :
    manifest ∈ manifests ∧ manifest.id = id := by
  have hid := find?_some h
  exact ⟨mem_reverse.mp (mem_of_find?_eq_some h), of_decide_eq_true hid⟩

theorem publishedById_none : publishedById manifests id = none ↔ id ∉ manifests.map (·.id) := by
  simp [publishedById]

theorem fallback_some {count index : Nat}
    (h : fallback manifests count used index attachment = some manifest) :
    manifest ∈ manifests ∧ manifest.id ∉ used := by
  unfold fallback at h
  split at h
  next found hfound =>
    cases h
    have hmem : manifest ∈ [manifest] := mem_singleton_self _
    rw [← hfound, mem_filter] at hmem
    exact ⟨hmem.1, (of_decide_eq_true hmem.2).1⟩
  · split at h
    · obtain ⟨hget, hunused⟩ := Option.filter_eq_some_iff.mp h
      exact ⟨mem_of_getElem? hget, of_decide_eq_true hunused⟩
    · cases h

end One

/-! ## All attachments -/

section All

variable {manifests : List (AttachmentManifest Hash)} {count : Nat}
variable {publish : AttachmentManifest Hash → ConversationAttachment}

theorem resolveFrom_length (used : List String) (index : Nat)
    (attachments : List ConversationAttachment) :
    (resolveFrom manifests publish count used index attachments).length = attachments.length := by
  induction attachments generalizing used index with
  | nil => rfl
  | cons attachment rest ih =>
    unfold resolveFrom
    split
    · simp [ih]
    · split <;> simp [ih]

theorem resolveFrom_exact {attachments : List ConversationAttachment}
    {manifest : AttachmentManifest Hash} {i : Nat} (hinput : attachments[i]? = some attachment)
    (hown : publishedById manifests attachment.id = some manifest) (used : List String)
    (index : Nat) :
    (resolveFrom manifests publish count used index attachments)[i]? = some (publish manifest) := by
  induction attachments generalizing i used index with
  | nil => cases hinput
  | cons first rest ih =>
    cases i with
    | zero =>
      cases hinput
      simp [resolveFrom, hown]
    | succ i =>
      have hrest := @ih i hinput
      unfold resolveFrom
      split
      · simp [hrest]
      · split <;> simp [hrest]

/-- Without manifests nothing is resolved. -/
theorem resolveFrom_nil (used : List String) (index : Nat)
    (attachments : List ConversationAttachment) :
    resolveFrom [] publish count used index attachments =
      attachments.map fun attachment => { attachment with contentState := .missing } := by
  induction attachments generalizing index with
  | nil => rfl
  | cons attachment rest ih => simp [resolveFrom, publishedById, fallback, ih]

variable (hpublish : ∀ manifest, (publish manifest).id = manifest.id)
include hpublish

/-- An entry has a manifest's id or the one its attachment came with. -/
theorem resolveFrom_ids {id : String} {index : Nat} {attachments : List ConversationAttachment}
    (h : id ∈ (resolveFrom manifests publish count used index attachments).map (·.id)) :
    id ∈ manifests.map (·.id) ∨ id ∈ attachments.map (·.id) := by
  induction attachments generalizing used index with
  | nil => cases h
  | cons attachment rest ih =>
    unfold resolveFrom at h
    split at h
    next exact hown =>
      rw [map_cons, mem_cons, hpublish] at h
      rcases h with rfl | h
      · exact .inl (mem_map_of_mem (publishedById_some hown).1)
      · exact (ih h).imp_right (mem_cons_of_mem _)
    · split at h
      · rcases mem_cons.mp h with rfl | h
        · exact .inr mem_cons_self
        · exact (ih h).imp_right (mem_cons_of_mem _)
      next manifest hfallback =>
        rw [map_cons, mem_cons, hpublish] at h
        rcases h with rfl | h
        · exact .inl (mem_map_of_mem (fallback_some hfallback).1)
        · exact (ih h).imp_right (mem_cons_of_mem _)

/-- By induction on the attachments; what is used already are manifests that none of them names. -/
theorem resolveFrom_nodup (hused : used ⊆ manifests.map (·.id)) (index : Nat)
    {attachments : List ConversationAttachment} (hids : (attachments.map (·.id)).Nodup) :
    ((resolveFrom manifests publish count used index attachments).map (·.id)).Nodup ∧
        Disjoint ((resolveFrom manifests publish count used index attachments).map (·.id)) used ↔
      Spares manifests count used index attachments ∧ Disjoint (attachments.map (·.id)) used := by
  induction attachments generalizing used index with
  | nil => simp [resolveFrom, Spares]
  | cons attachment rest ih =>
    rw [map_cons, nodup_cons] at hids
    obtain ⟨hnew, hids⟩ := hids
    unfold resolveFrom Spares
    cases hown : publishedById manifests attachment.id with
    | some exact =>
      obtain ⟨hmem, hid⟩ := publishedById_some hown
      have hrest := ih (cons_subset.mpr ⟨mem_map_of_mem hmem, hused⟩) (index + 1) hids
      simp only [map_cons, nodup_cons, disjoint_cons_left, disjoint_cons_right, hpublish, hid]
        at hrest ⊢
      tauto
    | none =>
      have hnone := publishedById_none.mp hown
      cases hfallback : fallback manifests count used index attachment with
      | none =>
        have hrest := ih hused (index + 1) hids
        have hapart : attachment.id ∉
            (resolveFrom manifests publish count used (index + 1) rest).map (·.id) :=
          fun h => (resolveFrom_ids hpublish h).elim hnone hnew
        simp only [map_cons, nodup_cons, disjoint_cons_left]
        tauto
      | some manifest =>
        obtain ⟨hmem, hfree⟩ := fallback_some hfallback
        have hrest := ih (cons_subset.mpr ⟨mem_map_of_mem hmem, hused⟩) (index + 1) hids
        simp only [map_cons, nodup_cons, disjoint_cons_left, disjoint_cons_right, hpublish]
          at hrest ⊢
        tauto

end All

variable [DecidableEq Hash]

/-- `expired` tells whether a manifest's `contentDeletionReason` is `expired`. -/
def publicAttachment (s : Store Hash) (expired : AttachmentManifest Hash → Bool)
    (manifest : AttachmentManifest Hash) : ConversationAttachment where
  id := manifest.id
  metadata := manifest.metadata
  size := manifest.size
  contentState :=
    if expired manifest then .expired
    else if s.blobAvailable manifest then .available
    else .missing

def resolveMessageAttachments (s : Store Hash) (expired : AttachmentManifest Hash → Bool)
    (sessionId messageId : String) (attachments : List ConversationAttachment) :
    List ConversationAttachment :=
  let manifests := s.gc.messageManifests sessionId messageId
  if manifests = [] then
    attachments.map fun attachment => { attachment with contentState := .missing }
  else resolveFrom manifests (s.gc.publicAttachment expired) attachments.length [] 0 attachments

/-- There is one entry for each attachment, in their order, and an attachment that names a manifest
of the message gets this one. An entry without a manifest keeps its own id, so no two attachments
get the same manifest exactly when the entries' ids are distinct: when no fallback takes a
manifest that is named behind it. -/
theorem resolveMessageAttachments_nodup_iff (s : Store Hash)
    (expired : AttachmentManifest Hash → Bool) (sessionId messageId : String)
    {attachments : List ConversationAttachment} (hids : (attachments.map (·.id)).Nodup) :
    (s.resolveMessageAttachments expired sessionId messageId attachments).length =
        attachments.length ∧
      (∀ (i : Nat) (attachment : ConversationAttachment), attachments[i]? = some attachment →
        attachment.id ∈ (s.gc.messageManifests sessionId messageId).map (·.id) →
        ∃ manifest ∈ s.gc.messageManifests sessionId messageId, manifest.id = attachment.id ∧
          (s.resolveMessageAttachments expired sessionId messageId attachments)[i]? =
            some (s.gc.publicAttachment expired manifest)) ∧
      (((s.resolveMessageAttachments expired sessionId messageId attachments).map (·.id)).Nodup ↔
        Spares (s.gc.messageManifests sessionId messageId) attachments.length [] 0
          attachments) := by
  have hresolve : s.resolveMessageAttachments expired sessionId messageId attachments =
      resolveFrom (s.gc.messageManifests sessionId messageId) (s.gc.publicAttachment expired)
        attachments.length [] 0 attachments := by
    by_cases hempty : s.gc.messageManifests sessionId messageId = []
    · rw [hempty, resolveFrom_nil]
      exact if_pos hempty
    · exact if_neg hempty
  rw [hresolve]
  refine ⟨resolveFrom_length _ _ _, fun i attachment hinput hnamed => ?_, ?_⟩
  · cases hown : publishedById (s.gc.messageManifests sessionId messageId) attachment.id with
    | none => exact absurd hnamed (publishedById_none.mp hown)
    | some manifest =>
      obtain ⟨hmem, hid⟩ := publishedById_some hown
      exact ⟨manifest, hmem, hid, resolveFrom_exact hinput hown _ _⟩
  · have h := @resolveFrom_nodup _ _ attachments.length (s.gc.publicAttachment expired)
      (fun _ => rfl) [] (nil_subset ((s.gc.messageManifests sessionId messageId).map (·.id))) 0 _ hids
    simpa using h

/-! ## An old id before a new one -/

def twinManifest (id : String) : AttachmentManifest Nat :=
  ⟨id, id, "session", "message", none, ⟨.file, "notes.txt", "text/plain"⟩, 1, 0, .inline, none,
    .committed, 0, some 0, none⟩

def twinStore : Store Nat where
  disk := ⟨.empty, .empty, .empty, .empty⟩
  manifests := .ofList [("att_a", twinManifest "att_a"), ("att_b", twinManifest "att_b")]
  drafts := .empty
  uploads := .empty
  outcomes := .empty
  now := 0
  options := ⟨retentionDefaultDays, 1000, 1000⟩
  trace := []

/-- The id of a provider's part, and the id of the first manifest. -/
def mixedAttachments : List ConversationAttachment :=
  ["prt_1", "att_a"].map fun id => ⟨id, (twinManifest id).metadata, 1, .available⟩

/-- The two manifests look alike, so the old id falls back on the first one, which the second
attachment names. -/
theorem mixed_collides : (mixedAttachments.map (·.id)).Nodup ∧
    (twinStore.resolveMessageAttachments (fun _ => false) "session" "message"
      mixedAttachments).map (·.id) = ["att_a", "att_a"] := by
  decide

theorem mixed_not_spares : ¬ Spares (twinStore.gc.messageManifests "session" "message")
    mixedAttachments.length [] 0 mixedAttachments := fun h =>
  absurd ((resolveMessageAttachments_nodup_iff twinStore (fun _ => false) "session" "message"
    (by decide)).2.2.mpr h) (by decide)

end Store

end TaskHandoff.Attachments
