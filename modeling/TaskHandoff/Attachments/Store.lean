import TaskHandoff.Lib.OrderedMap
import Mathlib.Data.List.Sort

/-! # The conversation attachment store

Attachments of messages are kept as blob files named by the digest of their
content, shared by the drafts and the message manifests that reference them.
Every operation but an upload runs in one turn; an upload waits for its source
between its start, its chunks and its end. `trace` collects the directory after
every file write of the operation in progress, so a crash can stop it there.

Metadata is what the manifest schemas accept. The digest stands for SHA-256.
-/

namespace TaskHandoff.Attachments

/-! ## Constants -/

def dayMs : Int := 24 * 60 * 60 * 1000
def draftRetentionMs : Int := dayMs
def maxMessageAttachments : Nat := 6
def maxAttachmentBytes : Nat := 20 * 1024 * 1024
def maxMessageAttachmentBytes : Nat := 40 * 1024 * 1024
def retentionDefaultDays : Int := 30

/-! ## Manifests -/

abbrev Bytes : Type := List UInt8

inductive ScopeType where
  | session | createRequest
deriving DecidableEq

inductive AttachmentKind where
  | image | file
deriving DecidableEq

inductive SourceType where
  | inline | runtimePath
deriving DecidableEq

inductive ManifestState where
  | draft | staged | committed
deriving DecidableEq

structure Metadata where
  kind : AttachmentKind
  name : String
  mime : String
deriving DecidableEq

structure DraftScope where
  type : ScopeType
  id : String
deriving DecidableEq

structure AttachmentManifest (Hash : Type) where
  id : String
  inputId : String
  sessionId : String
  messageId : String
  turnId : Option String
  metadata : Metadata
  size : Nat
  blobHash : Hash
  sourceType : SourceType
  draftScope : Option DraftScope
  state : ManifestState
  createdAt : Int
  committedAt : Option Int
  contentDeletedAt : Option Int

structure DraftManifest (Hash : Type) where
  id : String
  scope : DraftScope
  metadata : Metadata
  size : Nat
  blobHash : Hash
  createdAt : Int
  expiresAt : Int

def AttachmentManifest.contentKept {Hash : Type} (manifest : AttachmentManifest Hash) : Bool :=
  manifest.contentDeletedAt.isNone

def restoredUploadDraft {Hash : Type} (manifest : AttachmentManifest Hash) :
    Option (DraftManifest Hash) :=
  manifest.draftScope.map fun scope =>
    { id := manifest.id
      scope
      metadata := manifest.metadata
      size := manifest.size
      blobHash := manifest.blobHash
      createdAt := manifest.createdAt
      expiresAt := manifest.createdAt + draftRetentionMs }

/-! ## The directory and the store -/

/-- The file an upload streams into, or the one a snapshot is written to. -/
inductive TemporaryName where
  | upload (call : Nat)
  | snapshot
deriving DecidableEq

structure Disk (Hash : Type) where
  blobs : OrderedMap Hash Bytes
  temporaries : OrderedMap TemporaryName Bytes
  manifestFiles : OrderedMap String (AttachmentManifest Hash)
  draftFiles : OrderedMap String (DraftManifest Hash)

/-- An upload whose `createDraft` waits for its source. -/
structure Upload where
  id : String
  scope : DraftScope
  metadata : Metadata
  size : Nat
  received : Bytes
  opened : Bool

inductive AttachmentError where
  | invalid | tooLarge | storageFull | alreadyExists | sizeMismatch | failed
  | tooMany | notFound | draftNotFound | messageTooLarge

structure Options where
  retentionDays : Int
  maxBytes : Nat
  maxFileAttachmentBytes : Nat

/-- `uploads` and `outcomes` are the `createDraft` calls by number, waiting and settled. -/
structure Store (Hash : Type) where
  disk : Disk Hash
  manifests : OrderedMap String (AttachmentManifest Hash)
  drafts : OrderedMap String (DraftManifest Hash)
  uploads : OrderedMap Nat Upload
  outcomes : OrderedMap Nat (Except AttachmentError (DraftManifest Hash))
  now : Int
  options : Options
  trace : List (Disk Hash)

variable {Hash : Type} [DecidableEq Hash]

namespace Store

/-! ## File writes -/

variable (s : Store Hash)

def wrote (disk : Disk Hash) : Store Hash :=
  { s with disk, trace := s.trace ++ [disk] }

variable (manifest : AttachmentManifest Hash)

def writeManifestFile : Store Hash :=
  s.wrote { s.disk with manifestFiles := s.disk.manifestFiles.set manifest.id manifest }

def saveManifest : Store Hash :=
  { s.writeManifestFile manifest with manifests := s.manifests.set manifest.id manifest }

def saveDraft (draft : DraftManifest Hash) : Store Hash :=
  { s.wrote { s.disk with draftFiles := s.disk.draftFiles.set draft.id draft } with
    drafts := s.drafts.set draft.id draft }

variable (hash : Hash)

def blobExists : Bool := s.disk.blobs.contains hash

/-- An absent file is no error. -/
def unlinkBlob : Store Hash :=
  if s.blobExists hash then s.wrote { s.disk with blobs := s.disk.blobs.erase hash } else s

def unlinkTemporary (name : TemporaryName) : Store Hash :=
  if s.disk.temporaries.contains name then
    s.wrote { s.disk with temporaries := s.disk.temporaries.erase name }
  else s

def writeTemporary (name : TemporaryName) (content : Bytes) : Store Hash :=
  s.wrote { s.disk with temporaries := s.disk.temporaries.set name content }

/-- Rename a temporary file to the name of a blob. -/
def renameToBlob (name : TemporaryName) (hash : Hash) (content : Bytes) : Store Hash :=
  s.wrote { s.disk with
    temporaries := s.disk.temporaries.erase name
    blobs := s.disk.blobs.set hash content }

def writeBlob (content : Bytes) : Store Hash :=
  if s.blobExists hash then s
  else (s.writeTemporary .snapshot content).renameToBlob .snapshot hash content

/-! ## References -/

def referencedByManifest : Bool :=
  s.manifests.values.any fun manifest => manifest.blobHash == hash && manifest.contentKept

def referencedByDraft : Bool :=
  s.drafts.values.any fun draft => draft.blobHash == hash

def referenced : Bool :=
  s.referencedByManifest hash || s.referencedByDraft hash

def removeBlobIfUnreferenced : Store Hash :=
  if s.referenced hash then s else s.unlinkBlob hash

variable (id : String)

/-- The in-memory entry goes before the file. -/
def eraseManifest : Store Hash :=
  { s.wrote { s.disk with manifestFiles := s.disk.manifestFiles.erase id } with
    manifests := s.manifests.erase id }

def removeManifest : Store Hash :=
  match s.manifests.get? id with
  | none => s
  | some manifest => (s.eraseManifest id).removeBlobIfUnreferenced manifest.blobHash

def eraseDraft : Store Hash :=
  { s.wrote { s.disk with draftFiles := s.disk.draftFiles.erase id } with
    drafts := s.drafts.erase id }

def removeDraft : Store Hash :=
  match s.drafts.get? id with
  | none => s
  | some draft => (s.eraseDraft id).removeBlobIfUnreferenced draft.blobHash

/-- Every file of the blob directory that is not referenced goes, also the temporary ones. -/
def cleanupUnreferencedBlobs : Store Hash :=
  let stale := s.disk.blobs.keys.filter fun hash => !s.referenced hash
  s.disk.temporaries.keys.foldl unlinkTemporary (stale.foldl unlinkBlob s)

def blobAvailable : Bool :=
  manifest.contentKept &&
    match s.disk.blobs.get? manifest.blobHash with
    | none => false
    | some content => content.length == manifest.size

def usedBytes : Nat :=
  (s.disk.blobs.values.map List.length).sum + (s.disk.temporaries.values.map List.length).sum

/-! ## Collection -/

def gcDraft (draft : DraftManifest Hash) : Store Hash :=
  if s.now < draft.expiresAt then s else s.removeDraft draft.id

def gcManifest : Store Hash :=
  if manifest.state ≠ .committed ∧ draftRetentionMs ≤ s.now - manifest.createdAt then
    s.removeManifest manifest.id
  else if manifest.state ≠ .committed ∨ !manifest.contentKept then s
  else
    match manifest.committedAt with
    | none => s
    | some committedAt =>
      if s.now - committedAt < s.options.retentionDays * dayMs then s
      else
        (s.saveManifest { manifest with contentDeletedAt := some s.now }).removeBlobIfUnreferenced
          manifest.blobHash

def gcDrafts : Store Hash :=
  s.drafts.values.foldl gcDraft s

def gcManifests : Store Hash :=
  s.manifests.values.foldl gcManifest s

def gc : Store Hash := s.gcDrafts.gcManifests

def normalizeRetentionDays (value : Int) : Int :=
  if 0 ≤ value ∧ value ≤ 365 then value else retentionDefaultDays

def setRetentionDays (days : Int) : Store Hash :=
  { s with options := { s.options with retentionDays := normalizeRetentionDays days } }.gc

end Store

end TaskHandoff.Attachments
