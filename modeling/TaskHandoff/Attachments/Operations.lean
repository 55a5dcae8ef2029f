import TaskHandoff.Attachments.Store
import TaskHandoff.Lib.Machine

/-! # Operations of the attachment store

Uploads, the life of a message's attachments, and the restart from the
directory. A state is a store, or the directory a crash left. A crash stops an
operation after any number of its file writes.
-/

namespace TaskHandoff.Attachments

variable {Hash : Type} [DecidableEq Hash]

/-! ## Uploads -/

structure DraftInput where
  id : Option String
  scope : DraftScope
  metadata : Metadata
  size : Nat
deriving DecidableEq

def isHexDigit (c : Char) : Bool := c.isDigit || ('a' ≤ c && c ≤ 'f')

/-- `^(?:att|cia)_[a-f0-9]{24}$` -/
def validId (id : String) : Bool :=
  let chars := id.toList
  (chars.take 4 == "att_".toList || chars.take 4 == "cia_".toList) &&
    (chars.drop 4).length == 24 && (chars.drop 4).all isHexDigit

/-- The given id, unless it is missing or empty. -/
def DraftInput.chosenId (input : DraftInput) (generated : String) : String :=
  match input.id with
  | none => generated
  | some id => if id = "" then generated else id

/-- The meter of an upload counts the chunk in before it looks. -/
def Upload.exceeds (upload : Upload) (chunk : Bytes) : Bool :=
  upload.size < (upload.received ++ chunk).length ||
    maxAttachmentBytes < (upload.received ++ chunk).length

namespace Store

variable (s : Store Hash)

def uploadedFileTooLarge (kind : AttachmentKind) (size : Nat) : Bool :=
  kind = .file && s.options.maxFileAttachmentBytes ≤ size

def draftError (input : DraftInput) (id : String) : Option AttachmentError :=
  if input.size = 0 ∨ maxAttachmentBytes < input.size then some .invalid
  else if s.uploadedFileTooLarge input.metadata.kind input.size then some .tooLarge
  else if s.options.maxBytes < s.usedBytes + input.size then some .storageFull
  else if !validId id || s.drafts.contains id || s.manifests.contains id then some .alreadyExists
  else none

variable (call : Nat)

def settle (outcome : Except AttachmentError (DraftManifest Hash)) : Store Hash :=
  { s with uploads := s.uploads.erase call, outcomes := s.outcomes.set call outcome }

/-- The part of `createDraft` before its first wait. -/
def createDraft (input : DraftInput) (generated : String) : Store Hash :=
  let id := input.chosenId generated
  match s.gc.draftError input id with
  | some error => s.gc.settle call (.error error)
  | none =>
    { s.gc with
      uploads := s.gc.uploads.set call
        { id, scope := input.scope, metadata := input.metadata, size := input.size,
          received := [], opened := false } }

/-- The error path of `createDraft`. -/
def failUpload (error : AttachmentError) : Store Hash :=
  ((s.unlinkTemporary (.upload call)).cleanupUnreferencedBlobs).settle call (.error error)

/-- The write stream creates its file; what the meter let through is in it. -/
def openTemporary (upload : Upload) : Store Hash :=
  { s.writeTemporary (.upload call) upload.received with
    uploads := s.uploads.set call { upload with opened := true } }

/-- A file that was unlinked takes the bytes, but is in no directory. -/
def appendTemporary (chunk : Bytes) : Store Hash :=
  match s.disk.temporaries.get? (.upload call) with
  | none => s
  | some content => s.writeTemporary (.upload call) (content ++ chunk)

def receiveChunk (upload : Upload) (chunk : Bytes) : Store Hash :=
  if upload.exceeds chunk then s.failUpload call .sizeMismatch
  else
    { s.appendTemporary call chunk with
      uploads := s.uploads.set call { upload with received := upload.received ++ chunk } }

def uploadedDraft (upload : Upload) (blobHash : Hash) : DraftManifest Hash where
  id := upload.id
  scope := upload.scope
  metadata := upload.metadata
  size := upload.received.length
  blobHash := blobHash
  createdAt := s.now
  expiresAt := s.now + draftRetentionMs

/-- The blob of a complete upload: its file takes the name, or goes when the blob exists. -/
def placeBlob (hash : Hash) (content : Bytes) : Store Hash :=
  if s.blobExists hash then s.unlinkTemporary (.upload call)
  else s.renameToBlob (.upload call) hash content

/-- The end of the source; unlinking and renaming both need the file to be there. -/
def finishUpload (digest : Bytes → Hash) (s : Store Hash) (call : Nat) (upload : Upload) :
    Store Hash :=
  if upload.received.length ≠ upload.size then s.failUpload call .sizeMismatch
  else
    match s.disk.temporaries.get? (.upload call) with
    | none => s.failUpload call .failed
    | some content =>
      let blobHash := digest upload.received
      let draft := s.uploadedDraft upload blobHash
      ((s.placeBlob call blobHash content).saveDraft draft).settle call (.ok draft)

def cancelDraft (scope : DraftScope) (id : String) : Store Hash :=
  match s.drafts.get? id with
  | none => s
  | some draft => if draft.scope ≠ scope then s else s.removeDraft id

end Store

/-! ## Staging -/

/-- An attachment of a message; `content` is what its source yields, if it may be read. -/
structure SnapshotInput where
  id : String
  metadata : Metadata
  size : Nat
  sourceType : SourceType
  content : Option Bytes
deriving DecidableEq

structure StageInput where
  sessionId : String
  messageId : String
  attachments : List SnapshotInput
  retainedAttachmentIds : List String
  draftScope : Option DraftScope
  draftAttachmentIds : List String
deriving DecidableEq

def StageInput.count (input : StageInput) : Nat :=
  input.attachments.length + input.retainedAttachmentIds.length + input.draftAttachmentIds.length

structure Snapshot where
  attachment : SnapshotInput
  content : Bytes

structure StagePlan (Hash : Type) where
  retained : List (AttachmentManifest Hash)
  drafts : List (DraftManifest Hash)
  snapshots : List Snapshot

def snapshot (attachment : SnapshotInput) : Except AttachmentError Snapshot :=
  match attachment.content with
  | none => .error .failed
  | some content =>
    if content.length = 0 ∨ maxAttachmentBytes < content.length then .error .invalid
    else if content.length ≠ attachment.size then
      .error (if attachment.sourceType = .inline then .invalid else .sizeMismatch)
    else .ok ⟨attachment, content⟩

/-- A manifest to save, with the content to write before it. -/
structure StagedItem (Hash : Type) where
  manifest : AttachmentManifest Hash
  content : Option Bytes

/-- Where staging stops with an error: after some items, perhaps with the next one's blob written. -/
structure StageFailure where
  completed : Nat
  blobWritten : Bool
deriving DecidableEq

namespace Store

variable (s : Store Hash)
variable (sessionId messageId : String)

def messageManifests : List (AttachmentManifest Hash) :=
  (s.manifests.values.filter fun manifest =>
    manifest.sessionId = sessionId ∧ manifest.messageId = messageId).insertionSort
    fun left right => left.createdAt < right.createdAt ∨
      (left.createdAt = right.createdAt ∧ left.id ≤ right.id)

def findRetained (sessionId id : String) : Except AttachmentError (AttachmentManifest Hash) :=
  match s.manifests.get? id with
  | none => .error .notFound
  | some manifest =>
    if manifest.sessionId ≠ sessionId ∨ !s.blobAvailable manifest then .error .notFound
    else .ok manifest

def findDraft (scope : Option DraftScope) (id : String) :
    Except AttachmentError (DraftManifest Hash) :=
  match s.drafts.get? id with
  | none => .error .draftNotFound
  | some draft =>
    if some draft.scope ≠ scope ∨ draft.expiresAt ≤ s.now then .error .draftNotFound
    else .ok draft

variable (digest : Bytes → Hash)

def requiredBytes (s : Store Hash) (snapshots : List Snapshot) : Nat :=
  let hashes := OrderedMap.ofList <| snapshots.map fun entry =>
    (digest entry.content, entry.content.length)
  ((hashes.entries.filter fun entry => !s.blobExists entry.1).map Prod.snd).sum

/-- The checks of `stageMessage`, with what they found. -/
def stagePlan (s : Store Hash) (input : StageInput) : Except AttachmentError (StagePlan Hash) := do
  let retained ← input.retainedAttachmentIds.mapM (s.findRetained input.sessionId)
  let drafts ← input.draftAttachmentIds.mapM (s.findDraft input.draftScope)
  let snapshots ← input.attachments.mapM snapshot
  if snapshots.any fun entry => entry.attachment.sourceType = .inline &&
      s.uploadedFileTooLarge entry.attachment.metadata.kind entry.content.length then
    throw .tooLarge
  let total := (drafts.map DraftManifest.size).sum +
    (snapshots.map fun entry => entry.content.length).sum +
    (retained.map AttachmentManifest.size).sum
  if maxMessageAttachmentBytes < total then throw .messageTooLarge
  if s.options.maxBytes < s.usedBytes + s.requiredBytes digest snapshots then throw .storageFull
  return { retained, drafts, snapshots }

def retainedManifest (input : StageInput) (source : AttachmentManifest Hash)
    (id : String) : AttachmentManifest Hash where
  id := id
  inputId := source.inputId
  sessionId := input.sessionId
  messageId := input.messageId
  turnId := none
  metadata := source.metadata
  size := source.size
  blobHash := source.blobHash
  sourceType := source.sourceType
  draftScope := none
  state := .staged
  createdAt := s.now
  committedAt := none
  contentDeletedAt := none

def draftManifest (input : StageInput) (draft : DraftManifest Hash) : AttachmentManifest Hash where
  id := draft.id
  inputId := draft.id
  sessionId := input.sessionId
  messageId := input.messageId
  turnId := none
  metadata := draft.metadata
  size := draft.size
  blobHash := draft.blobHash
  sourceType := .inline
  draftScope := some draft.scope
  state := .staged
  createdAt := draft.createdAt
  committedAt := none
  contentDeletedAt := none

def snapshotManifest (s : Store Hash) (input : StageInput)
    (entry : Snapshot) (id : String) : AttachmentManifest Hash where
  id := id
  inputId := entry.attachment.id
  sessionId := input.sessionId
  messageId := input.messageId
  turnId := none
  metadata := entry.attachment.metadata
  size := entry.content.length
  blobHash := digest entry.content
  sourceType := entry.attachment.sourceType
  draftScope := none
  state := .staged
  createdAt := s.now
  committedAt := none
  contentDeletedAt := none

/-- What staging saves, in order; `ids` are the generated ids. -/
def stagedItems (s : Store Hash) (input : StageInput)
    (plan : StagePlan Hash) (ids : List String) : List (StagedItem Hash) :=
  (plan.retained.zip (ids.take plan.retained.length)).map (fun (source, id) => ⟨s.retainedManifest input source id, none⟩) ++
    plan.drafts.map (fun draft => ⟨draftManifest input draft, none⟩) ++
    (plan.snapshots.zip (ids.drop plan.retained.length)).map fun (entry, id) =>
      ⟨s.snapshotManifest digest input entry id, some entry.content⟩

def writeItemBlob (item : StagedItem Hash) : Store Hash :=
  match item.content with
  | none => s
  | some content => s.writeBlob item.manifest.blobHash content

def stageItem (item : StagedItem Hash) : Store Hash :=
  (s.writeItemBlob item).saveManifest item.manifest

/-- The error path of `stageMessage`. -/
def failStage (items : List (StagedItem Hash)) (failure : StageFailure) : Store Hash :=
  let created := items.take failure.completed
  let saved := created.foldl stageItem s
  let stopped :=
    match items[failure.completed]? with
    | none => saved
    | some item => if failure.blobWritten then saved.writeItemBlob item else saved
  (created.foldl (fun t item => t.removeManifest item.manifest.id) stopped).cleanupUnreferencedBlobs

/-- Draft ownership changes only after every manifest exists. -/
def completeStage (items : List (StagedItem Hash))
    (drafts : List (DraftManifest Hash)) : Store Hash :=
  drafts.foldl (fun t draft => t.removeDraft draft.id) (items.foldl stageItem s)

def stageMessage (s : Store Hash) (input : StageInput)
    (ids : List String) (failure : Option StageFailure) : Store Hash :=
  if maxMessageAttachments < input.count ∨ input.count = 0 then s
  else if s.messageManifests input.sessionId input.messageId ≠ [] then s
  else
    match s.gc.stagePlan digest input with
    | .error _ => s.gc
    | .ok plan =>
      let items := s.gc.stagedItems digest input plan ids
      match failure with
      | some failure => s.gc.failStage items failure
      | none => s.gc.completeStage items plan.drafts

/-! ## Messages -/

def commitManifest (committedAt : Int) (turnId : Option String) (s : Store Hash)
    (manifest : AttachmentManifest Hash) : Store Hash :=
  s.saveManifest { manifest with
    draftScope := none
    state := .committed
    committedAt := some (manifest.committedAt.getD committedAt)
    turnId := turnId <|> manifest.turnId }

def commitMessage (turnId : Option String) : Store Hash :=
  ((s.messageManifests sessionId messageId).foldl (commitManifest s.now turnId) s).gc

variable (manifest : AttachmentManifest Hash)

/-- The restored draft is saved before the manifest goes, so a crash keeps an owner of the blob. -/
def rollbackManifest : Store Hash :=
  if manifest.state ≠ .staged then s
  else
    match restoredUploadDraft manifest with
    | some draft => (s.saveDraft draft).removeManifest manifest.id
    | none => s.saveManifest { manifest with state := .draft }

def rollbackMessage : Store Hash :=
  (s.messageManifests sessionId messageId).foldl rollbackManifest s

def claimManifest : Store Hash :=
  if manifest.state = .draft then s.saveManifest { manifest with state := .staged } else s

def releaseClaimedDraft : Store Hash :=
  if manifest.draftScope.isSome then s.removeDraft manifest.id else s

def claimMessageAttachments (ids : List String) : Store Hash :=
  match ids.mapM s.manifests.get? with
  | none => s
  | some manifests =>
    if manifests = [] ∨ manifests.any (fun manifest =>
        manifest.sessionId ≠ sessionId ∨ manifest.messageId ≠ messageId) then s
    else manifests.foldl releaseClaimedDraft (manifests.foldl claimManifest s)

def releaseSession (sessionId : String) : Store Hash :=
  ((s.manifests.values.filter fun manifest => manifest.sessionId = sessionId).map
    AttachmentManifest.id).foldl removeManifest s

/-! ## Restart -/

/-- A staged provider call has no proof of acceptance; it comes back as a retryable draft. -/
def restoreManifest : Store Hash :=
  if manifest.state = .staged then
    let retryable :=
      match restoredUploadDraft manifest with
      | none => s
      | some draft => s.saveDraft draft
    retryable.saveManifest { manifest with state := .draft }
  else { s with manifests := s.manifests.set manifest.id manifest }

def restore : Store Hash :=
  s.disk.manifestFiles.values.foldl restoreManifest s

def restoreDraft (draft : DraftManifest Hash) : Store Hash :=
  { s with drafts := s.drafts.set draft.id draft }

def restoreDrafts : Store Hash :=
  s.disk.draftFiles.values.foldl restoreDraft s

def emptyStore (disk : Disk Hash) (options : Options) (now : Int) : Store Hash where
  disk := disk
  manifests := .empty
  drafts := .empty
  uploads := .empty
  outcomes := .empty
  now := now
  options := options
  trace := []

def start (disk : Disk Hash) (options : Options) (now : Int) : Store Hash :=
  (emptyStore disk options now).restore.restoreDrafts.cleanupUnreferencedBlobs.gc

end Store

/-! ## The machine -/

inductive Operation where
  | createDraft (call : Nat) (input : DraftInput) (generated : String)
  | uploadOpened (call : Nat)
  | uploadChunk (call : Nat) (chunk : Bytes)
  | uploadEnd (call : Nat)
  | uploadFailed (call : Nat)
  | cancelDraft (scope : DraftScope) (id : String)
  | stageMessage (input : StageInput) (ids : List String) (failure : Option StageFailure)
  | commitMessage (sessionId messageId : String) (turnId : Option String)
  | rollbackMessage (sessionId messageId : String)
  | claimMessageAttachments (sessionId messageId : String) (ids : List String)
  | releaseSession (sessionId : String)
  | gc
  | setRetentionDays (days : Int)
  | setMaxFileAttachmentBytes (bytes : Nat)
  | tick (now : Int)
deriving DecidableEq

namespace Store

variable (s : Store Hash)

/-- A bound outside the range is refused. -/
def setMaxFileAttachmentBytes (bytes : Nat) : Option (Store Hash) :=
  if bytes = 0 ∨ maxAttachmentBytes < bytes then none
  else some { s with options := { s.options with maxFileAttachmentBytes := bytes } }

/-- An id no draft, manifest or upload has; ids are generated after the collection. -/
def unusedId (id : String) : Bool :=
  !s.drafts.contains id && !s.manifests.contains id &&
    s.uploads.values.all fun upload => upload.id ≠ id

def generatedIds (input : StageInput) (ids : List String) : Prop :=
  ids.length = input.retainedAttachmentIds.length + input.attachments.length ∧ ids.Nodup ∧
    ∀ id ∈ ids, s.unusedId id = true

instance (s : Store Hash) (input : StageInput) (ids : List String) :
    Decidable (s.generatedIds input ids) := by
  unfold generatedIds
  infer_instance

/-- The operation in the store, if it is possible there. -/
def apply (digest : Bytes → Hash) (s : Store Hash) : Operation → Option (Store Hash)
  | .createDraft call input generated =>
    if s.uploads.contains call || s.outcomes.contains call || !s.gc.unusedId generated then none
    else some (s.createDraft call input generated)
  | .uploadOpened call =>
    match s.uploads.get? call with
    | none => none
    | some upload => if upload.opened then none else some (s.openTemporary call upload)
  | .uploadChunk call chunk =>
    (s.uploads.get? call).map fun upload => s.receiveChunk call upload chunk
  | .uploadEnd call =>
    match s.uploads.get? call with
    | none => none
    | some upload => if upload.opened then some (s.finishUpload digest call upload) else none
  | .uploadFailed call => (s.uploads.get? call).map fun _ => s.failUpload call .failed
  | .cancelDraft scope id => some (s.cancelDraft scope id)
  | .stageMessage input ids failure =>
    if s.gc.generatedIds input ids then some (s.stageMessage digest input ids failure) else none
  | .commitMessage sessionId messageId turnId => some (s.commitMessage sessionId messageId turnId)
  | .rollbackMessage sessionId messageId => some (s.rollbackMessage sessionId messageId)
  | .claimMessageAttachments sessionId messageId ids =>
    some (s.claimMessageAttachments sessionId messageId ids)
  | .releaseSession sessionId => some (s.releaseSession sessionId)
  | .gc => some s.gc
  | .setRetentionDays days => some (s.setRetentionDays days)
  | .setMaxFileAttachmentBytes bytes => s.setMaxFileAttachmentBytes bytes
  | .tick now => some { s with now }

/-- The store when an operation starts: it has written nothing yet. -/
def untraced : Store Hash := { s with trace := [] }

/-- The operation, with the file writes of its own. -/
def perform (digest : Bytes → Hash) (s : Store Hash) (operation : Operation) :
    Option (Store Hash) :=
  s.untraced.apply digest operation

end Store

inductive State (Hash : Type) where
  | up (s : Store Hash)
  | down (disk : Disk Hash)

inductive Action where
  | perform (operation : Operation)
  | crash (operation : Operation) (writes : Nat)
  | restart (options : Options) (now : Int)
  | crashAtStart (options : Options) (now : Int) (writes : Nat)

/-- The directory after some of the file writes that led from it to the store. -/
def diskAfter (before : Disk Hash) (s : Store Hash) (writes : Nat) : Option (Disk Hash) :=
  (before :: s.trace)[writes]?

def step (digest : Bytes → Hash) : State Hash → Action → Option (State Hash)
  | .up s, .perform operation => (s.perform digest operation).map .up
  | .up s, .crash operation writes =>
    (s.perform digest operation).bind fun t => (diskAfter s.disk t writes).map .down
  | .down disk, .restart options now => some (.up (Store.start disk options now))
  | .down disk, .crashAtStart options now writes =>
    (diskAfter disk (Store.start disk options now) writes).map .down
  | _, _ => none

def emptyDisk : Disk Hash where
  blobs := .empty
  temporaries := .empty
  manifestFiles := .empty
  draftFiles := .empty

end TaskHandoff.Attachments
