import TaskHandoff.Lib.JsText
import Mathlib.Logic.Function.Basic

/-! # Documents of a story

`NodeStoryStore` keeps the documents of a story as files of its content directory and as rows of an
index. An operation on a document goes through file and database steps under a mutation record that
says how far it came; `init` recovers from the records a crash leaves. -/

namespace TaskHandoff.Stories

open JsText Option

abbrev StoryPath := String

abbrev Bytes := List UInt8

/-! ## Rows and files -/

structure StoryDocument where
  storyPath : StoryPath
  title : Text
  indexedSequence : Nat
  displayOrder : Nat

/-- What the operations on documents read of the row of a story. -/
structure StoryRow where
  archived : Bool
  nextDocumentSequence : Nat

/-- The names of the content directory; ids in them are new. -/
inductive FileName where
  | document (storyPath : StoryPath)
  | temporary (storyPath : StoryPath) (mutationId : Nat)
  | backup (storyPath : StoryPath) (mutationId : Nat)
  | deleted (storyPath : StoryPath) (id : Nat)
deriving DecidableEq

inductive MutationOperation where
  | write
  | rename
  | delete

inductive MutationPhase where
  | receiving
  | prepared
  | filesStaged
  | databaseCommitted
  | cleanup
deriving DecidableEq

def MutationPhase.committed : MutationPhase → Bool
  | .databaseCommitted | .cleanup => true
  | .receiving | .prepared | .filesStaged => false

structure FileMutation where
  id : Nat
  operation : MutationOperation
  storyPath : StoryPath
  nextStoryPath : Option StoryPath
  title : Option Text
  temporaryName : Option FileName
  backupName : Option FileName
  phase : MutationPhase

structure StoryError where
  code : String
  message : String
  statusCode : Nat

namespace StoryError

def notFound : StoryError := ⟨"STORY_NOT_FOUND", "Story was not found.", 404⟩

def archived : StoryError := ⟨"STORY_ARCHIVED", "Archived Story content is read-only.", 409⟩

def notIndexed : StoryError := ⟨"STORY_CONTENT_NOT_INDEXED", "Story content is not indexed.", 404⟩

def revisionRequired : StoryError :=
  ⟨"STORY_REVISION_REQUIRED", "expectedRevision is required when replacing Story content.", 409⟩

def revisionConflict : StoryError :=
  ⟨"STORY_REVISION_CONFLICT", "Story content changed since it was read.", 409⟩

def titleRequired : StoryError :=
  ⟨"STORY_CONTENT_TITLE_REQUIRED", "A title is required for new Story content.", 400⟩

def pathConflict : StoryError :=
  ⟨"STORY_PATH_CONFLICT", "Story path already exists on disk.", 409⟩

def pathIndexed : StoryError := ⟨"STORY_PATH_CONFLICT", "Story path is already indexed.", 409⟩

def fileTooLarge : StoryError :=
  ⟨"STORY_FILE_TOO_LARGE", "Story content exceeds the node limit.", 413⟩

/-- A file or a database call failed. -/
def storage : StoryError := ⟨"EIO", "storage failure", 500⟩

/-- A file is not there. -/
def missing : StoryError := ⟨"ENOENT", "no such file or directory", 500⟩

end StoryError

/-- The rows and the content directory of one story. -/
structure DocumentStore where
  story : Option StoryRow
  documents : List StoryDocument
  fileMutations : List FileMutation
  files : FileName → Option Bytes

namespace DocumentStore

/-- A story with one document. -/
def oneDocument : DocumentStore where
  story := some { archived := false, nextDocumentSequence := 1 }
  documents := [⟨"notes.md", [78], 0, 0⟩]
  fileMutations := []
  files := Function.update (fun _ => none) (.document "notes.md") (some [1, 2])

variable (s : DocumentStore)

def document? (storyPath : StoryPath) : Option StoryDocument :=
  s.documents.find? fun document => document.storyPath = storyPath

def existsSync (name : FileName) : Bool := (s.files name).isSome

def setFile (name : FileName) (content : Option Bytes) : DocumentStore :=
  { s with files := Function.update s.files name content }

/-! ## Transactions -/

/-- What a transaction does to the index. -/
inductive DocumentChange where
  /-- `writeContent` of an indexed document. -/
  | rewrite (storyPath : StoryPath) (title : Text)
  | index (storyPath : StoryPath) (title : Text)
  /-- `updateDocument` without a new path. -/
  | retitle (storyPath : StoryPath) (title : Text)
  /-- `updateDocument` with a new path. -/
  | replacePath (storyPath : StoryPath) (document : StoryDocument)
  /-- `deleteDocument`, and the repair of the index. -/
  | remove (storyPath : StoryPath)

def retitleDocuments (documents : List StoryDocument) (storyPath : StoryPath) (title : Text) :
    List StoryDocument :=
  documents.map fun document =>
    if document.storyPath = storyPath then { document with title } else document

def removeDocument (documents : List StoryDocument) (storyPath : StoryPath) : List StoryDocument :=
  documents.filter fun document => document.storyPath ≠ storyPath

/-- Insert a row; its path and its sequence are unique, and its story exists. -/
def insertDocument (documents : List StoryDocument)
    (document : StoryDocument) : Option (List StoryDocument) :=
  if s.story.isNone || documents.any fun other =>
      other.storyPath = document.storyPath || other.indexedSequence = document.indexedSequence then
    none
  else some (documents ++ [document])

/-- The transaction with a change, `none` when it is rolled back. -/
def transact : DocumentChange → Option DocumentStore
  | .rewrite storyPath title =>
    s.story.map fun _ => { s with documents := retitleDocuments s.documents storyPath title }
  | .index storyPath title =>
    s.story.bind fun story =>
      (s.insertDocument s.documents
        ⟨storyPath, title, story.nextDocumentSequence, s.documents.length⟩).map fun documents =>
          { s with
            documents
            story := some { story with nextDocumentSequence := story.nextDocumentSequence + 1 } }
  | .retitle storyPath title =>
    some { s with documents := retitleDocuments s.documents storyPath title }
  | .replacePath storyPath document =>
    (s.insertDocument (removeDocument s.documents storyPath) document).map fun documents =>
      { s with documents }
  | .remove storyPath => some { s with documents := removeDocument s.documents storyPath }

def setPhase (id : Nat) (phase : MutationPhase) : DocumentStore :=
  { s with
    fileMutations := s.fileMutations.map fun row =>
      if row.id = id then { row with phase } else row }

/-! ### Lookups behind a change -/

section Lookups

variable {s : DocumentStore}

theorem document?_retitle (documents : List StoryDocument) (storyPath : StoryPath) (title : Text)
    (other : StoryPath) :
    (retitleDocuments documents storyPath title).find? (fun document => document.storyPath = other) =
      (documents.find? fun document => document.storyPath = other).map fun document =>
        if document.storyPath = storyPath then { document with title } else document := by
  rw [retitleDocuments, List.find?_map]
  congr 2
  funext document
  by_cases h : document.storyPath = storyPath <;> simp [h]

variable {documents : List StoryDocument} {document : StoryDocument}

variable {title : Text} {storyPath other : StoryPath}

theorem document?_retitle_self
    (h : (documents.find? fun document => document.storyPath = storyPath) = some document) :
    (retitleDocuments documents storyPath title).find?
        (fun document => document.storyPath = storyPath) = some { document with title } := by
  have hpath : document.storyPath = storyPath := by simpa using List.find?_some h
  rw [document?_retitle, h, map_some, if_pos hpath]

theorem document?_retitle_of_ne (h : other ≠ storyPath) :
    (retitleDocuments documents storyPath title).find? (fun document => document.storyPath = other) =
      documents.find? fun document => document.storyPath = other := by
  rw [document?_retitle]
  cases hfound : documents.find? fun document => document.storyPath = other with
  | none => rfl
  | some document =>
    have hpath : document.storyPath = other := by simpa using List.find?_some hfound
    rw [map_some, if_neg (by rw [hpath]; exact h)]

theorem document?_remove_self (documents : List StoryDocument) (storyPath : StoryPath) :
    (removeDocument documents storyPath).find? (fun document => document.storyPath = storyPath) =
      none := by
  simp [removeDocument, List.find?_eq_none]

theorem document?_remove_of_ne (h : other ≠ storyPath) :
    (removeDocument documents storyPath).find? (fun document => document.storyPath = other) =
      documents.find? fun document => document.storyPath = other := by
  rw [removeDocument, List.find?_filter]
  congr 1
  funext document
  by_cases hpath : document.storyPath = other <;> simp [hpath, h]

theorem insertDocument_eq {documents inserted : List StoryDocument}
    (h : s.insertDocument documents document = some inserted) : inserted = documents ++ [document] ∧
      (documents.find? fun other => other.storyPath = document.storyPath) = none := by
  obtain ⟨hnone, h⟩ := ite_none_left_eq_some.1 h
  have hinserted := (some.inj h).symm
  refine ⟨hinserted, ?_⟩
  rw [List.find?_eq_none]
  intro other hmem heq
  apply hnone
  have hany : documents.any (fun other => other.storyPath = document.storyPath ||
      other.indexedSequence = document.indexedSequence) = true :=
    List.any_eq_true.2 ⟨other, hmem, by simp_all⟩
  simp [hany]

theorem document?_append
    (hnone : (documents.find? fun other => other.storyPath = document.storyPath) = none) :
    (documents ++ [document]).find? (fun other => other.storyPath = document.storyPath) =
      some document := by
  rw [List.find?_append, hnone]
  simp

theorem document?_append_of_ne (h : other ≠ document.storyPath) :
    (documents ++ [document]).find? (fun document => document.storyPath = other) =
      documents.find? fun document => document.storyPath = other := by
  simp [h.symm]

end Lookups

/-! ## File and database steps -/

inductive StoreStep where
  | insertMutation (row : FileMutation)
  | updateMutation (id : Nat) (phase : MutationPhase)
  | deleteMutation (id : Nat)
  /-- A transaction, which also marks its mutation record as committed. -/
  | commit (mutationId : Option Nat) (change : DocumentChange)
  | createFile (name : FileName)
  | appendFile (name : FileName) (chunk : Bytes)
  | openFile (name : FileName)
  | renameFile (source target : FileName)
  | removeFile (name : FileName)
  /-- `fsync` of a file or a directory. -/
  | sync

section Operations

variable (maxFileBytes : Nat)

/-- A step, `none` when it throws. -/
def perform (s : DocumentStore) : StoreStep → Option DocumentStore
  | .insertMutation row => s.story.map fun _ => { s with fileMutations := s.fileMutations ++ [row] }
  | .updateMutation id phase => some (s.setPhase id phase)
  | .deleteMutation id =>
    some { s with fileMutations := s.fileMutations.filter fun row => row.id ≠ id }
  | .commit mutationId change =>
    (s.transact change).map fun s =>
      match mutationId with
      | some id => s.setPhase id .databaseCommitted
      | none => s
  | .createFile name => if s.existsSync name then none else some (s.setFile name (some []))
  | .appendFile name chunk =>
    (s.files name).bind fun content =>
      if maxFileBytes < (content ++ chunk).length then none
      else some (s.setFile name (some (content ++ chunk)))
  | .openFile name =>
    (s.files name).bind fun content => if maxFileBytes < content.length then none else some s
  | .renameFile source target =>
    (s.files source).map fun content => (s.setFile source none).setFile target (some content)
  | .removeFile name => some (s.setFile name none)
  | .sync => some s

/-- Steps one after the other, `none` when one throws. -/
def performAll : List StoreStep → DocumentStore → Option DocumentStore
  | [], s => some s
  | step :: steps, s => (s.perform maxFileBytes step).bind fun s => performAll steps s

/-- Steps one after the other, cut after a number of them. -/
def performCut : Nat → List StoreStep → DocumentStore → DocumentStore
  | 0, _, s => s
  | _, [], s => s
  | n + 1, step :: steps, s =>
    match s.perform maxFileBytes step with
    | some s => performCut n steps s
    | none => s

/-! ## Operations -/

structure StoryWriteInput where
  storyPath : StoryPath
  title : Option Text
  expectedRevision : Option String
  chunks : List Bytes

inductive DocumentOperation where
  | writeContent (input : StoryWriteInput)
  | updateDocument (currentPath : StoryPath) (title : Option Text) (storyPath : Option StoryPath)
  | deleteDocument (storyPath : StoryPath)

/-- A call with the ids it draws. -/
structure DocumentCall where
  operation : DocumentOperation
  mutationId : Nat
  deletedId : Nat

/-- The path the call looks up. -/
def DocumentOperation.path : DocumentOperation → StoryPath
  | .writeContent input => input.storyPath
  | .updateDocument currentPath _ _ => currentPath
  | .deleteDocument storyPath => storyPath

/-- `title?.trim() || previous` -/
def titleOr (title : Option Text) (previous : Text) : Text :=
  match title.map trim with
  | some [] | none => previous
  | some text => text

/-- `storyPath ? … : currentPath`; an empty path is falsy. -/
def nextPath (currentPath : StoryPath) (storyPath : Option StoryPath) : StoryPath :=
  match storyPath with
  | some path => if path = "" then currentPath else path
  | none => currentPath

variable (call : DocumentCall)

def DocumentCall.row : FileMutation :=
  match call.operation with
  | .writeContent input =>
    { id := call.mutationId
      operation := .write
      storyPath := input.storyPath
      nextStoryPath := none
      title := input.title.map trim
      temporaryName := some (.temporary input.storyPath call.mutationId)
      backupName := some (.backup input.storyPath call.mutationId)
      phase := .receiving }
  | .updateDocument currentPath title storyPath =>
    { id := call.mutationId
      operation := .rename
      storyPath := currentPath
      nextStoryPath := some (nextPath currentPath storyPath)
      title := title.map trim
      temporaryName := some (.document currentPath)
      backupName := some (.document (nextPath currentPath storyPath))
      phase := .prepared }
  | .deleteDocument storyPath =>
    { id := call.mutationId
      operation := .delete
      storyPath := storyPath
      nextStoryPath := none
      title := none
      temporaryName := none
      backupName := some (.deleted storyPath call.deletedId)
      phase := .prepared }

def writePlan (input : StoryWriteInput) (existing : Option StoryDocument) : List StoreStep :=
  let id := call.mutationId
  let target : FileName := .document input.storyPath
  let temporary : FileName := .temporary input.storyPath id
  let backup : FileName := .backup input.storyPath id
  let change : DocumentChange :=
    match existing with
    | some document => .rewrite input.storyPath (titleOr input.title document.title)
    | none => .index input.storyPath (titleOr input.title [])
  [.insertMutation call.row, .createFile temporary] ++
    (input.chunks.map fun chunk => .appendFile temporary chunk) ++
    [.sync, .updateMutation id .prepared] ++
    (if existing.isSome then [.renameFile target backup] else []) ++
    [.renameFile temporary target, .sync, .updateMutation id .filesStaged, .commit (some id) change,
      .removeFile backup, .updateMutation id .cleanup, .deleteMutation id]

def updatePlan (currentPath next : StoryPath) (title : Option Text)
    (existing : StoryDocument) : List StoreStep :=
  let id := call.mutationId
  let newTitle := titleOr title existing.title
  if next = currentPath then [.commit none (.retitle currentPath newTitle)]
  else
    [.insertMutation call.row, .renameFile (.document currentPath) (.document next), .sync, .sync,
      .updateMutation id .filesStaged,
      .commit (some id)
        (.replacePath currentPath { existing with storyPath := next, title := newTitle }),
      .updateMutation id .cleanup, .deleteMutation id]

def deletePlan (storyPath : StoryPath) : List StoreStep :=
  let id := call.mutationId
  let target : FileName := .document storyPath
  let backup : FileName := .deleted storyPath call.deletedId
  [.insertMutation call.row, .openFile target, .renameFile target backup, .sync,
    .updateMutation id .filesStaged, .commit (some id) (.remove storyPath), .removeFile backup,
    .updateMutation id .cleanup, .deleteMutation id]

/-- The handler of a throw before the transaction. -/
def undoPlan (call : DocumentCall) (existing : Option StoryDocument) : List StoreStep :=
  let id := call.mutationId
  match call.operation with
  | .writeContent input =>
    let target : FileName := .document input.storyPath
    let backup : FileName := .backup input.storyPath id
    [.removeFile (.temporary input.storyPath id)] ++
      (if existing.isSome && s.existsSync backup then
        [.removeFile target, .renameFile backup target]
      else if existing.isNone then [.removeFile target]
      else []) ++
      [.deleteMutation id]
  | .updateDocument currentPath _ storyPath =>
    let source : FileName := .document currentPath
    let target : FileName := .document (nextPath currentPath storyPath)
    (if s.existsSync target && !s.existsSync source then [.renameFile target source] else []) ++
      [.deleteMutation id]
  | .deleteDocument storyPath =>
    let target : FileName := .document storyPath
    let backup : FileName := .deleted storyPath call.deletedId
    (if s.existsSync backup && !s.existsSync target then [.renameFile backup target] else []) ++
      [.deleteMutation id]

end Operations

/-! ## A call step by step -/

section Calls

variable (maxFileBytes : Nat) (revision : Bytes → String)

/-- How far a call is. -/
inductive CallStage where
  | requiring
  | looking
  | lookingNext (existing : StoryDocument)
  | checking (existing : Option StoryDocument)
  | performing (existing : Option StoryDocument) (remaining : List StoreStep) (committed : Bool)
  | undoing (remaining : List StoreStep) (error : StoryError)
  | finished (result : Except StoryError Bool)

variable (s : DocumentStore)

/-- `openRegularFileWithinRoot` -/
def openRegularFile (storyPath : StoryPath) : Except StoryError Bytes :=
  match s.files (.document storyPath) with
  | none => .error .missing
  | some content =>
    if maxFileBytes < content.length then .error .fileTooLarge else .ok content

variable (call : DocumentCall)

/-- The synchronous checks of a call and the steps they allow. -/
def checkCall (existing : Option StoryDocument) : Except StoryError (List StoreStep) :=
  match call.operation with
  | .writeContent input =>
    match existing with
    | some _ =>
      match input.expectedRevision with
      | none | some "" => .error .revisionRequired
      | some expected => do
          let content ← s.openRegularFile maxFileBytes input.storyPath
          if revision content ≠ expected then .error .revisionConflict
          else .ok (writePlan call input existing)
    | none =>
      if titleOr input.title [] = [] then .error .titleRequired
      else if s.existsSync (.document input.storyPath) then .error .pathConflict
      else .ok (writePlan call input existing)
  | .updateDocument currentPath title storyPath =>
    match existing with
    | none => .error .notIndexed
    | some document =>
      let next := nextPath currentPath storyPath
      if next = currentPath then .ok (updatePlan call currentPath next title document)
      else do
        let _ ← s.openRegularFile maxFileBytes currentPath
        if s.existsSync (.document next) then .error .pathConflict
        else .ok (updatePlan call currentPath next title document)
  | .deleteDocument storyPath => .ok (deletePlan call storyPath)

variable {maxFileBytes revision s call} in
/-- What the checks let through: the plan of the operation, with its target free. -/
theorem checkCall_ok {existing : Option StoryDocument} {plan : List StoreStep}
    (h : s.checkCall maxFileBytes revision call existing = .ok plan) : match call.operation with
    | .writeContent input => plan = writePlan call input existing ∧
      (existing = none → s.files (.document input.storyPath) = none)
    | .updateDocument currentPath title storyPath => ∃ document, existing = some document ∧
      plan = updatePlan call currentPath (nextPath currentPath storyPath) title document ∧
      (nextPath currentPath storyPath ≠ currentPath →
        s.files (.document (nextPath currentPath storyPath)) = none)
    | .deleteDocument storyPath => plan = deletePlan call storyPath := by
  unfold checkCall at h
  split at h
  · split at h
    · split at h
      · cases h
      · cases h
      · simp only [bind, Except.bind] at h
        split at h
        · cases h
        split at h
        · cases h
        · exact ⟨(Except.ok.inj h).symm, nofun⟩
    · split at h
      · cases h
      · split at h
        · cases h
        next hfree => exact ⟨(Except.ok.inj h).symm, fun _ => by simpa [existsSync] using hfree⟩
  · split at h
    · cases h
    next document =>
      simp only at h
      split at h
      next hsame => exact ⟨document, rfl, (Except.ok.inj h).symm, fun hne => absurd hsame hne⟩
      · simp only [bind, Except.bind] at h
        split at h
        · cases h
        split at h
        · cases h
        next hfree =>
          exact ⟨document, rfl, (Except.ok.inj h).symm, fun _ => by simpa [existsSync] using hfree⟩
  · exact (Except.ok.inj h).symm

/-- The stage behind the lookup of the path. -/
def lookedUp (found : Option StoryDocument) : CallStage :=
  match call.operation, found with
  | .writeContent _, _ => .checking found
  | .updateDocument _ _ _, none => .finished (.error .notIndexed)
  | .updateDocument currentPath _ storyPath, some document =>
    if nextPath currentPath storyPath = currentPath then .checking found
    else .lookingNext document
  | .deleteDocument _, none => .finished (.ok false)
  | .deleteDocument _, some _ => .checking found

/-- Whether the code has a handler for a throw in the step. -/
def StoreStep.guarded : StoreStep → Bool
  | .insertMutation _ | .commit none _ => false
  | _ => true

def StoreStep.commits : StoreStep → Bool
  | .commit _ _ => true
  | _ => false

/-- The error of a step that throws. -/
def stepError : StoreStep → StoryError
  | .appendFile _ _ => .fileTooLarge
  | .openFile name => if s.existsSync name then .fileTooLarge else .missing
  | .commit _ _ => if s.story.isNone then .notFound else .storage
  | _ => .storage

/-- The stage behind a throw. -/
def thrown (existing : Option StoryDocument)
    (step : StoreStep) (committed : Bool) (error : StoryError) : CallStage :=
  if step.guarded && !committed then .undoing (s.undoPlan call existing) error
  else .finished (.error error)

/-- What the environment does to a step: it lets it be done, or a file or database call fails. -/
inductive StepChoice where
  | done
  | throws

def advance (call : DocumentCall) (s : DocumentStore) (stage : CallStage) (choice : StepChoice) :
    DocumentStore × CallStage :=
  match stage with
  | .requiring =>
    match choice, s.story with
    | .throws, _ => (s, .finished (.error .storage))
    | .done, none => (s, .finished (.error .notFound))
    | .done, some story =>
      if story.archived then (s, .finished (.error .archived)) else (s, .looking)
  | .looking =>
    match choice with
    | .throws => (s, .finished (.error .storage))
    | .done => (s, lookedUp call (s.document? call.operation.path))
  | .lookingNext existing =>
    match choice, call.operation with
    | .done, .updateDocument currentPath _ storyPath =>
      if (s.document? (nextPath currentPath storyPath)).isSome then
        (s, .finished (.error .pathIndexed))
      else (s, .checking (some existing))
    | _, _ => (s, .finished (.error .storage))
  | .checking existing =>
    match choice with
    | .throws => (s, .finished (.error .storage))
    | .done =>
      match s.checkCall maxFileBytes revision call existing with
      | .error error => (s, .finished (.error error))
      | .ok plan => (s, .performing existing plan false)
  | .performing _ [] _ => (s, .finished (.ok true))
  | .performing existing (step :: steps) committed =>
    match choice, s.perform maxFileBytes step with
    | .done, some t => (t, .performing existing steps (committed || step.commits))
    | .done, none => (s, thrown s call existing step committed (s.stepError step))
    | .throws, _ => (s, thrown s call existing step committed .storage)
  | .undoing [] error => (s, .finished (.error error))
  | .undoing (step :: steps) error =>
    match choice, s.perform maxFileBytes step with
    | .done, some t => (t, .undoing steps error)
    | .done, none | .throws, _ => (s, .finished (.error .storage))
  | .finished result => (s, .finished result)

/-- A call, cut after the steps of a list. -/
def runCall (s : DocumentStore) (choices : List StepChoice) : DocumentStore × CallStage :=
  choices.foldl (fun r choice => advance maxFileBytes revision call r.1 r.2 choice) (s, .requiring)

end Calls

/-! ## Recovery -/

section Recovery

variable (maxFileBytes : Nat)

/-- The steps of `recoverFileMutations` for one record. -/
def recoveryPlan (intent : FileMutation) : List StoreStep :=
  let target : FileName := .document (intent.nextStoryPath.getD intent.storyPath)
  let remove (name : Option FileName) : List StoreStep :=
    match name with
    | some name => [.removeFile name]
    | none => []
  let there (name : Option FileName) : Bool := name.any s.existsSync
  let files : List StoreStep :=
    if intent.phase.committed then
      match intent.operation with
      | .write => remove intent.temporaryName ++ remove intent.backupName
      | .delete => remove intent.backupName
      | .rename => []
    else
      match intent.operation, intent.temporaryName, intent.backupName with
      | .write, temporary, backup =>
        let indexed := (s.document? intent.storyPath).isSome
        let restore : List StoreStep :=
          match backup with
          | some name =>
            if s.existsSync name then [.removeFile target, .renameFile name target] else []
          | none => []
        (if there backup then restore
          else if !indexed && (intent.phase = .filesStaged ||
              (intent.phase = .prepared && !there temporary)) then [.removeFile target]
          else []) ++
          remove temporary
      | .rename, some source, _ =>
        if s.existsSync target && !s.existsSync source then [.renameFile target source] else []
      | .rename, none, _ => []
      | .delete, _, some backup =>
        if s.existsSync backup && !s.existsSync target then [.renameFile backup target] else []
      | .delete, _, none => []
  files ++ [.deleteMutation intent.id]

/-- `recoverFileMutations`, `none` when it throws. -/
def recoverFileMutations (s : DocumentStore) : Option DocumentStore :=
  s.fileMutations.foldlM (fun s intent => performAll maxFileBytes (s.recoveryPlan intent) s) s

/-- `recoverFileMutations` over a list of records, cut after a number of steps. -/
def recoverCut : Nat → List FileMutation → DocumentStore → DocumentStore
  | _, [], s => s
  | n, intent :: intents, s =>
    let plan := s.recoveryPlan intent
    if n < plan.length then performCut maxFileBytes n plan s
    else recoverCut (n - plan.length) intents (performCut maxFileBytes plan.length plan s)

end Recovery

end DocumentStore

end TaskHandoff.Stories
