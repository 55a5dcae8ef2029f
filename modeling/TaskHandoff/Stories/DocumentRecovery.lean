import TaskHandoff.Stories.Documents

/-! # Documents survive a crash

A call on a document is cut behind any step. Recovery then gives the store from before the call or
the one it was to produce, wherever recovery itself is cut and run again. -/

namespace TaskHandoff.Stories.DocumentStore

open JsText List Option Function DocumentOperation DocumentCall

/-! ## Outcomes -/

/-- Nothing is under way: no record, no file but those of documents, and a file for each indexed
document. -/
structure Quiet (s : DocumentStore) : Prop where
  mutations : s.fileMutations = []
  named : ∀ name, (∀ storyPath, name ≠ .document storyPath) → s.files name = none
  indexed : ∀ storyPath, (s.document? storyPath).isSome → (s.files (.document storyPath)).isSome

/-- The index of another document. -/
def SameElsewhere (s t : DocumentStore) (storyPaths : List StoryPath) : Prop :=
  ∀ storyPath, storyPath ∉ storyPaths → t.document? storyPath = s.document? storyPath

/-- What a call is to produce. -/
structure Result (s : DocumentStore) (call : DocumentCall) (t : DocumentStore) : Prop where
  mutations : t.fileMutations = []
  outcome :
    match call.operation with
    | .writeContent input =>
      t.files = Function.update s.files (.document input.storyPath) (some input.chunks.flatten) ∧
        (∃ document, t.document? input.storyPath = some document ∧ document.title =
            titleOr input.title (((s.document? input.storyPath).map (·.title)).getD [])) ∧
        SameElsewhere s t [input.storyPath]
    | .updateDocument currentPath title storyPath =>
      let next := nextPath currentPath storyPath
      t.files = Function.update (Function.update s.files (.document currentPath) none)
          (.document next) (s.files (.document currentPath)) ∧
        (next ≠ currentPath → t.document? currentPath = none) ∧
        (∃ old document, s.document? currentPath = some old ∧ t.document? next = some document ∧
          document.title = titleOr title old.title) ∧
        SameElsewhere s t [currentPath, next]
    | .deleteDocument storyPath =>
      t.files = Function.update s.files (.document storyPath) none ∧
        t.document? storyPath = none ∧ SameElsewhere s t [storyPath]

/-! ## Stores that roll back -/

/-- The files of a write that is undone. -/
structure WriteFiles (s : DocumentStore) (storyPath : StoryPath) (id : Nat) (phase : MutationPhase)
    (files : FileName → Option Bytes) : Prop where
  others : ∀ name, name ≠ .document storyPath → name ≠ .temporary storyPath id →
    name ≠ .backup storyPath id → files name = s.files name
  replaced : (s.document? storyPath).isSome →
    files (.backup storyPath id) = s.files (.document storyPath) ∨
      (files (.backup storyPath id) = none ∧
        files (.document storyPath) = s.files (.document storyPath))
  fresh : s.document? storyPath = none →
    s.files (.document storyPath) = none ∧ files (.backup storyPath id) = none ∧
      (files (.document storyPath) = none ∨ phase = .filesStaged ∨
        (phase = .prepared ∧ files (.temporary storyPath id) = none))

/-- The files of a rename that is undone. -/
structure RenameFiles (s : DocumentStore) (currentPath next : StoryPath)
    (files : FileName → Option Bytes) : Prop where
  ne : next ≠ currentPath
  others : ∀ name, name ≠ .document currentPath → name ≠ .document next → files name = s.files name
  free : s.files (.document next) = none
  there : (s.files (.document currentPath)).isSome
  moved : (files (.document currentPath) = s.files (.document currentPath) ∧
      files (.document next) = none) ∨
    (files (.document currentPath) = none ∧
      files (.document next) = s.files (.document currentPath))

/-- The files of a deletion that is undone. -/
structure DeleteFiles (s : DocumentStore) (storyPath : StoryPath) (id : Nat)
    (files : FileName → Option Bytes) : Prop where
  others : ∀ name, name ≠ .document storyPath → name ≠ .deleted storyPath id →
    files name = s.files name
  there : (s.files (.document storyPath)).isSome
  moved : (files (.document storyPath) = s.files (.document storyPath) ∧
      files (.deleted storyPath id) = none) ∨
    (files (.document storyPath) = none ∧
      files (.deleted storyPath id) = s.files (.document storyPath))

def UndoFiles (s : DocumentStore) (call : DocumentCall) (phase : MutationPhase)
    (files : FileName → Option Bytes) : Prop :=
  match call.operation with
  | .writeContent input => WriteFiles s input.storyPath call.mutationId phase files
  | .updateDocument currentPath _ storyPath =>
    RenameFiles s currentPath (nextPath currentPath storyPath) files
  | .deleteDocument storyPath => DeleteFiles s storyPath call.deletedId files

/-- The store with the record of a call and other files. -/
def during (s : DocumentStore) (call : DocumentCall) (phase : MutationPhase)
    (files : FileName → Option Bytes) : DocumentStore :=
  { s with fileMutations := [{ call.row with phase }], files }

/-- A store from which `s` comes back. -/
def Undoable (s : DocumentStore) (call : DocumentCall) (u : DocumentStore) : Prop :=
  ∃ phase files, phase.committed = false ∧ UndoFiles s call phase files ∧
    u = s.during call phase files

/-- The files a committed call removes. -/
def leftovers (call : DocumentCall) : List FileName :=
  match call.operation with
  | .writeContent input =>
    [.temporary input.storyPath call.mutationId, .backup input.storyPath call.mutationId]
  | .updateDocument _ _ _ => []
  | .deleteDocument storyPath => [.deleted storyPath call.deletedId]

/-- A store that recovery brings to `t`. -/
def Redoable (t : DocumentStore) (call : DocumentCall) (u : DocumentStore) : Prop :=
  ∃ phase files, phase.committed = true ∧ (∀ name, name ∉ leftovers call → files name = t.files name) ∧
    u = t.during call phase files

/-! ## Steps that lead to a store -/

section Steps

variable {maxFileBytes : Nat} {call : DocumentCall} {s t u : DocumentStore}

/-- The steps get through and end in `t`, and `I` holds before each of them. -/
def Leads (maxFileBytes : Nat) (I : DocumentStore → Prop) (t : DocumentStore) :
    List StoreStep → DocumentStore → Prop
  | [], u => u = t
  | step :: steps, u =>
    I u ∧ ∃ v, u.perform maxFileBytes step = some v ∧ Leads maxFileBytes I t steps v

variable {I : DocumentStore → Prop} {steps : List StoreStep}

theorem Leads.performAll (h : Leads maxFileBytes I t steps u) :
    performAll maxFileBytes steps u = some t := by
  induction steps generalizing u with
  | nil => exact congrArg some h
  | cons step steps ih =>
    have ⟨_, v, hv, hrest⟩ := h
    rw [performAll, hv]
    exact ih hrest

theorem Leads.performCut (h : Leads maxFileBytes I t steps u) (n : Nat) :
    I (performCut maxFileBytes n steps u) ∨ performCut maxFileBytes n steps u = t := by
  induction steps generalizing u n with
  | nil =>
    right
    cases n <;> exact h
  | cons step steps ih =>
    have ⟨hu, v, hv, hrest⟩ := h
    cases n with
    | zero => exact .inl hu
    | succ n =>
      rw [performCut, hv]
      exact ih hrest n

theorem Leads.mono {I J : DocumentStore → Prop} (h : Leads maxFileBytes I t steps u)
    (hmono : ∀ v, I v → J v) : Leads maxFileBytes J t steps u := by
  induction steps generalizing u with
  | nil => exact h
  | cons step steps ih =>
    have ⟨hu, v, hv, hrest⟩ := h
    exact ⟨hmono u hu, v, hv, ih hrest⟩

theorem Leads.holds (h : Leads maxFileBytes I t steps u) : I u ∨ u = t := by
  cases steps with
  | nil => exact .inr h
  | cons step steps => exact .inl h.1

/-! ## The store under a record -/

theorem perform_removeFile (s : DocumentStore) (phase : MutationPhase)
    (files : FileName → Option Bytes) (name : FileName) :
    (s.during call phase files).perform maxFileBytes (.removeFile name) =
      some (s.during call phase (update files name none)) := rfl

variable {phase : MutationPhase} {files : FileName → Option Bytes}

variable {content : Bytes} {source target : FileName} {phase' : MutationPhase}

theorem perform_renameFile (h : files source = some content) :
    (s.during call phase files).perform maxFileBytes (.renameFile source target) =
      some (s.during call phase (update (update files source none) target (some content))) := by
  simp [perform, during, setFile, h]

theorem row_id (call : DocumentCall) : call.row.id = call.mutationId := by
  unfold row
  cases call.operation <;> rfl

theorem perform_updateMutation (s : DocumentStore) (phase phase' : MutationPhase)
    (files : FileName → Option Bytes) :
    (s.during call phase files).perform maxFileBytes (.updateMutation call.mutationId phase') =
      some (s.during call phase' files) := by
  simp [perform, during, setPhase, row_id]

theorem perform_deleteMutation (hmutations : t.fileMutations = []) (hfiles : files = t.files) :
    (t.during call phase files).perform maxFileBytes (.deleteMutation call.mutationId) =
      some t := by
  subst hfiles
  obtain ⟨story, documents, mutations, files⟩ := t
  subst hmutations
  simp [perform, during, row_id]

/-! ## Undoing -/

variable {storyPath : StoryPath} {id : Nat}

section

variable (h : WriteFiles s storyPath id phase files)

include h

theorem WriteFiles.removeTemporary :
    WriteFiles s storyPath id phase (update files (.temporary storyPath id) none) := by
  constructor
  · intro name hdocument htemporary hbackup
    rw [update_of_ne htemporary]
    exact h.others name hdocument htemporary hbackup
  · intro hindexed
    have hreplaced := h.replaced hindexed
    simpa using hreplaced
  intro hnew
  have ⟨hfree, hbackup, hphase⟩ := h.fresh hnew
  refine ⟨hfree, by simpa using hbackup, ?_⟩
  rcases hphase with hnone | hstaged | ⟨hprepared, _⟩
  · exact .inl (by simpa using hnone)
  · exact .inr (.inl hstaged)
  · exact .inr (.inr ⟨hprepared, by simp⟩)

theorem WriteFiles.removeTarget
    (hkept : (s.document? storyPath).isSome →
      files (.backup storyPath id) = s.files (.document storyPath)) :
    WriteFiles s storyPath id phase (update files (.document storyPath) none) := by
  constructor
  · intro name hdocument htemporary hbackup
    rw [update_of_ne hdocument]
    exact h.others name hdocument htemporary hbackup
  · intro hindexed
    exact .inl (by simpa using hkept hindexed)
  · intro hnew
    have ⟨hfree, hbackup, _⟩ := h.fresh hnew
    exact ⟨hfree, by simpa using hbackup, .inl (by simp)⟩

theorem WriteFiles.restoreBackup
    (hindexed : (s.document? storyPath).isSome) : WriteFiles s storyPath id phase
      (update (update files (.backup storyPath id) none) (.document storyPath)
        (s.files (.document storyPath))) := by
  constructor
  · intro name hdocument htemporary hbackup
    rw [update_of_ne hdocument, update_of_ne hbackup]
    exact h.others name hdocument htemporary hbackup
  · intro _
    exact .inr ⟨by simp, by simp⟩
  · intro hnew
    rw [hnew] at hindexed
    cases hindexed

end

theorem WriteFiles.settled (hquiet : Quiet s) (h : WriteFiles s storyPath id phase files)
    (htemporary : files (.temporary storyPath id) = none)
    (hbackup : files (.backup storyPath id) = none)
    (htarget : files (.document storyPath) = s.files (.document storyPath)) : files = s.files := by
  funext name
  by_cases hdocument : name = .document storyPath
  · rw [hdocument, htarget]
  by_cases htemp : name = .temporary storyPath id
  · rw [htemp, htemporary, hquiet.named _ (fun _ h => by cases h)]
  by_cases hback : name = .backup storyPath id
  · rw [hback, hbackup, hquiet.named _ (fun _ h => by cases h)]
  · exact h.others name hdocument htemp hback

variable {input : StoryWriteInput}

theorem WriteFiles.undoable (hoperation : call.operation = .writeContent input)
    (hphase : phase.committed = false)
    (h : WriteFiles s input.storyPath call.mutationId phase files) :
    Undoable s call (s.during call phase files) := by
  refine ⟨phase, files, hphase, ?_, rfl⟩
  simpa only [UndoFiles, hoperation] using h

theorem WriteFiles.leads_delete (hquiet : Quiet s)
    (hoperation : call.operation = .writeContent input) (hphase : phase.committed = false)
    (h : WriteFiles s input.storyPath call.mutationId phase files)
    (htemporary : files (.temporary input.storyPath call.mutationId) = none)
    (hbackup : files (.backup input.storyPath call.mutationId) = none)
    (htarget : files (.document input.storyPath) = s.files (.document input.storyPath)) :
    Leads maxFileBytes (Undoable s call) s [.deleteMutation call.mutationId]
      (s.during call phase files) :=
  ⟨h.undoable hoperation hphase, s,
    perform_deleteMutation hquiet.mutations (h.settled hquiet htemporary hbackup htarget), rfl⟩

variable {rest : List StoreStep}

section

variable (hoperation : call.operation = .writeContent input)

include hoperation

variable (hphase : phase.committed = false)

include hphase

theorem WriteFiles.leads_restore
    (h : WriteFiles s input.storyPath call.mutationId phase files)
    (hindexed : (s.document? input.storyPath).isSome)
    (hthere : (files (.backup input.storyPath call.mutationId)).isSome)
    (hrest : ∀ files', WriteFiles s input.storyPath call.mutationId phase files' →
      files' (.temporary input.storyPath call.mutationId) =
        files (.temporary input.storyPath call.mutationId) →
      files' (.backup input.storyPath call.mutationId) = none →
      files' (.document input.storyPath) = s.files (.document input.storyPath) →
      Leads maxFileBytes (Undoable s call) s rest (s.during call phase files')) :
    Leads maxFileBytes (Undoable s call) s ([.removeFile (.document input.storyPath),
        .renameFile (.backup input.storyPath call.mutationId) (.document input.storyPath)] ++ rest)
      (s.during call phase files) := by
  have hkept : files (.backup input.storyPath call.mutationId) =
      s.files (.document input.storyPath) := by
    rcases h.replaced hindexed with hkept | ⟨hnone, _⟩
    · exact hkept
    · rw [hnone] at hthere
      cases hthere
  have ⟨content, hcontent⟩ := isSome_iff_exists.1 hthere
  have hremoved := h.removeTarget fun _ => hkept
  refine ⟨h.undoable hoperation hphase, _, perform_removeFile s phase files _,
    hremoved.undoable hoperation hphase, _, perform_renameFile (by simpa using hcontent), ?_⟩
  have hrestored := hremoved.restoreBackup hindexed
  rw [← hkept, hcontent] at hrestored
  apply hrest _ hrestored
  · simp
  · simp
  · simp [← hkept, hcontent]

theorem WriteFiles.leads_removeTarget
    (h : WriteFiles s input.storyPath call.mutationId phase files)
    (hnew : s.document? input.storyPath = none)
    (hrest : ∀ files', WriteFiles s input.storyPath call.mutationId phase files' →
      files' (.temporary input.storyPath call.mutationId) =
        files (.temporary input.storyPath call.mutationId) →
      files' (.document input.storyPath) = none →
      Leads maxFileBytes (Undoable s call) s rest (s.during call phase files')) :
    Leads maxFileBytes (Undoable s call) s ([.removeFile (.document input.storyPath)] ++ rest)
      (s.during call phase files) := by
  refine ⟨h.undoable hoperation hphase, _, perform_removeFile s phase files _, ?_⟩
  apply hrest _ (h.removeTarget fun hindexed => by rw [hnew] at hindexed; cases hindexed)
  · simp
  · simp

theorem WriteFiles.leads_removeTemporary
    (h : WriteFiles s input.storyPath call.mutationId phase files)
    (hrest : ∀ files', WriteFiles s input.storyPath call.mutationId phase files' →
      files' (.temporary input.storyPath call.mutationId) = none →
      files' (.backup input.storyPath call.mutationId) =
        files (.backup input.storyPath call.mutationId) →
      files' (.document input.storyPath) = files (.document input.storyPath) →
      Leads maxFileBytes (Undoable s call) s rest (s.during call phase files')) :
    Leads maxFileBytes (Undoable s call) s
      ([.removeFile (.temporary input.storyPath call.mutationId)] ++ rest)
      (s.during call phase files) := by
  refine ⟨h.undoable hoperation hphase, _, perform_removeFile s phase files _, ?_⟩
  apply hrest _ h.removeTemporary
  · simp
  · simp
  · simp

end

theorem WriteFiles.document_of_backup (hquiet : Quiet s) (h : WriteFiles s storyPath id phase files)
    (hindexed : (s.document? storyPath).isSome) (hbackup : files (.backup storyPath id) = none) :
    files (.document storyPath) = s.files (.document storyPath) := by
  rcases h.replaced hindexed with hkept | ⟨_, htarget⟩
  · have hthere := hquiet.indexed storyPath hindexed
    rw [← hkept, hbackup] at hthere
    cases hthere
  · exact htarget

theorem WriteFiles.leads_end (hquiet : Quiet s) (hoperation : call.operation = .writeContent input)
    (hphase : phase.committed = false)
    (h : WriteFiles s input.storyPath call.mutationId phase files)
    (hbackup : files (.backup input.storyPath call.mutationId) = none)
    (htarget : files (.document input.storyPath) = s.files (.document input.storyPath)) :
    Leads maxFileBytes (Undoable s call) s
      ([.removeFile (.temporary input.storyPath call.mutationId)] ++
        [.deleteMutation call.mutationId])
      (s.during call phase files) := by
  apply h.leads_removeTemporary hoperation hphase
  intro files' h' htemporary' hbackup' htarget'
  exact h'.leads_delete hquiet hoperation hphase htemporary' (hbackup'.trans hbackup)
    (htarget'.trans htarget)

variable {currentPath : StoryPath} {title : Option Text}

theorem RenameFiles.undoable {storyPath : Option StoryPath}
    (hoperation : call.operation = .updateDocument currentPath title storyPath)
    (hphase : phase.committed = false)
    (h : RenameFiles s currentPath (nextPath currentPath storyPath) files) :
    Undoable s call (s.during call phase files) := by
  refine ⟨phase, files, hphase, ?_, rfl⟩
  simpa only [UndoFiles, hoperation] using h

/-- A file that was moved, or was to be, is moved back. -/
theorem leads_moved {source target : FileName} (hquiet : Quiet s)
    (hfree : s.files target = none) (hthere : (s.files source).isSome)
    (hothers : ∀ name, name ≠ source → name ≠ target → files name = s.files name)
    (hmoved : files source = s.files source ∧ files target = none ∨
      files source = none ∧ files target = s.files source)
    (hundoable : Undoable s call (s.during call phase files))
    (hback : Undoable s call (s.during call phase s.files)) : Leads maxFileBytes (Undoable s call) s
      ((if (s.during call phase files).existsSync target &&
          !(s.during call phase files).existsSync source then [.renameFile target source] else []) ++
        [.deleteMutation call.mutationId])
      (s.during call phase files) := by
  have ⟨content, hcontent⟩ := isSome_iff_exists.1 hthere
  rcases hmoved with ⟨hsource, htarget⟩ | ⟨hsource, htarget⟩
  · have hstill : (s.during call phase files).existsSync target = false := by
      simp [existsSync, during, htarget]
    have hsame : files = s.files := by
      funext name
      by_cases hs : name = source
      · rw [hs, hsource]
      by_cases ht : name = target
      · rw [ht, htarget, hfree]
      · exact hothers name hs ht
    rw [hstill]
    exact ⟨hundoable, s, perform_deleteMutation hquiet.mutations hsame, rfl⟩
  · have htarget' : files target = some content := htarget.trans hcontent
    have hthere : (s.during call phase files).existsSync target = true := by
      simp [existsSync, during, htarget']
    have hnone : (s.during call phase files).existsSync source = false := by
      simp [existsSync, during, hsource]
    have hsame : update (update files target none) source (some content) = s.files := by
      funext name
      by_cases hs : name = source
      · rw [hs, update_self, hcontent]
      rw [update_of_ne hs]
      by_cases ht : name = target
      · rw [ht, update_self, hfree]
      · rw [update_of_ne ht, hothers name hs ht]
    rw [hthere, hnone]
    refine ⟨hundoable, _, perform_renameFile htarget', ?_⟩
    rw [hsame]
    exact ⟨hback, s, perform_deleteMutation hquiet.mutations rfl, rfl⟩

theorem RenameFiles.leads_undo {storyPath : Option StoryPath} (hquiet : Quiet s)
    (hoperation : call.operation = .updateDocument currentPath title storyPath)
    (hphase : phase.committed = false)
    (h : RenameFiles s currentPath (nextPath currentPath storyPath) files) :
    Leads maxFileBytes (Undoable s call) s
      ((if (s.during call phase files).existsSync (.document (nextPath currentPath storyPath)) &&
          !(s.during call phase files).existsSync (.document currentPath) then
        [.renameFile (.document (nextPath currentPath storyPath)) (.document currentPath)] else []) ++
        [.deleteMutation call.mutationId])
      (s.during call phase files) := by
  have hback : RenameFiles s currentPath (nextPath currentPath storyPath) s.files :=
    ⟨h.ne, fun _ _ _ => rfl, h.free, h.there, .inl ⟨rfl, h.free⟩⟩
  exact leads_moved hquiet h.free h.there h.others h.moved
    (h.undoable hoperation hphase) (hback.undoable hoperation hphase)

theorem DeleteFiles.undoable (hoperation : call.operation = .deleteDocument storyPath)
    (hphase : phase.committed = false) (h : DeleteFiles s storyPath call.deletedId files) :
    Undoable s call (s.during call phase files) := by
  refine ⟨phase, files, hphase, ?_, rfl⟩
  simpa only [UndoFiles, hoperation] using h

theorem DeleteFiles.leads_undo (hquiet : Quiet s)
    (hoperation : call.operation = .deleteDocument storyPath) (hphase : phase.committed = false)
    (h : DeleteFiles s storyPath call.deletedId files) : Leads maxFileBytes (Undoable s call) s
      ((if (s.during call phase files).existsSync (.deleted storyPath call.deletedId) &&
          !(s.during call phase files).existsSync (.document storyPath) then
        [.renameFile (.deleted storyPath call.deletedId) (.document storyPath)] else []) ++
        [.deleteMutation call.mutationId])
      (s.during call phase files) := by
  have hfree : s.files (.deleted storyPath call.deletedId) = none :=
    hquiet.named _ fun _ heq => by cases heq
  have hback : DeleteFiles s storyPath call.deletedId s.files :=
    ⟨fun _ _ _ => rfl, h.there, .inl ⟨rfl, hfree⟩⟩
  exact leads_moved hquiet hfree h.there h.others h.moved (h.undoable hoperation hphase)
    (hback.undoable hoperation hphase)

section

variable (hquiet : Quiet s)

include hquiet

theorem undoPlan_leads (h : Undoable s call u) {existing : Option StoryDocument}
    (hexisting : existing.isSome = (s.document? call.operation.path).isSome) :
    Leads maxFileBytes (Undoable s call) s (u.undoPlan call existing) u := by
  obtain ⟨phase, files, hphase, hfiles, rfl⟩ := h
  unfold UndoFiles at hfiles
  unfold undoPlan
  cases hoperation : call.operation with
  | writeContent input =>
    simp only [hoperation, path] at hfiles hexisting ⊢
    apply hfiles.leads_removeTemporary hoperation hphase
    intro files₁ h₁ htemporary hbackup htarget
    have hthere : (s.during call phase files).existsSync (.backup input.storyPath call.mutationId) =
          (files₁ (.backup input.storyPath call.mutationId)).isSome := by
      rw [hbackup]; rfl
    rw [hthere, ← not_isSome, hexisting]
    cases hindexed : (s.document? input.storyPath).isSome with
    | true =>
      cases hkept : (files₁ (.backup input.storyPath call.mutationId)).isSome with
      | true =>
        apply h₁.leads_restore hoperation hphase hindexed hkept
        intro files₂ h₂ htemporary₂ hbackup₂ htarget₂
        exact h₂.leads_delete hquiet hoperation hphase (htemporary₂.trans htemporary)
          hbackup₂ htarget₂
      | false =>
        have hnone := not_isSome_iff_eq_none.1 (Bool.not_eq_true _ ▸ hkept)
        exact h₁.leads_delete hquiet hoperation hphase htemporary hnone
          (h₁.document_of_backup hquiet hindexed hnone)
    | false =>
      have hnew := not_isSome_iff_eq_none.1 (Bool.not_eq_true _ ▸ hindexed)
      apply h₁.leads_removeTarget hoperation hphase hnew
      intro files₂ h₂ htemporary₂ htarget₂
      have ⟨hfree, hnone, _⟩ := h₂.fresh hnew
      exact h₂.leads_delete hquiet hoperation hphase (htemporary₂.trans htemporary) hnone
        (htarget₂.trans hfree.symm)
  | updateDocument currentPath title storyPath =>
    simp only [hoperation] at hfiles
    exact hfiles.leads_undo hquiet hoperation hphase
  | deleteDocument storyPath =>
    simp only [hoperation] at hfiles
    exact hfiles.leads_undo hquiet hoperation hphase

/-! ## Recovery -/

theorem recoveryPlan_undo (hphase : phase.committed = false)
    (hfiles : UndoFiles s call phase files) : Leads maxFileBytes (Undoable s call) s
      ((s.during call phase files).recoveryPlan { call.row with phase })
      (s.during call phase files) := by
  unfold UndoFiles at hfiles
  unfold recoveryPlan row
  cases hoperation : call.operation with
  | writeContent input =>
    simp only [hoperation] at hfiles
    simp only [hphase, any_some, getD_none, Bool.false_eq_true, if_false]
    have hdocument : (s.during call phase files).document? input.storyPath =
        s.document? input.storyPath := rfl
    rw [hdocument]
    cases hkept : (s.during call phase files).existsSync
        (.backup input.storyPath call.mutationId) with
    | true =>
      have hindexed : (s.document? input.storyPath).isSome := by
        by_contra hnew
        have hnew := not_isSome_iff_eq_none.1 hnew
        have ⟨_, hnone, _⟩ := hfiles.fresh hnew
        simp [existsSync, during, hnone] at hkept
      apply hfiles.leads_restore hoperation hphase hindexed hkept
      intro files₁ h₁ _ hbackup₁ htarget₁
      exact h₁.leads_end hquiet hoperation hphase hbackup₁ htarget₁
    | false =>
      have hnone : files (.backup input.storyPath call.mutationId) = none :=
        not_isSome_iff_eq_none.1 (Bool.not_eq_true _ ▸ hkept)
      cases hindexed : (s.document? input.storyPath).isSome with
      | true =>
        exact hfiles.leads_end hquiet hoperation hphase hnone
          (hfiles.document_of_backup hquiet hindexed hnone)
      | false =>
        have hnew := not_isSome_iff_eq_none.1 (Bool.not_eq_true _ ▸ hindexed)
        have ⟨hfree, _, htarget⟩ := hfiles.fresh hnew
        split
        · simp at *
        split
        · apply hfiles.leads_removeTarget hoperation hphase hnew
          intro files₁ h₁ _ htarget₁
          exact h₁.leads_end hquiet hoperation hphase (h₁.fresh hnew).2.1
            (htarget₁.trans hfree.symm)
        rename_i hkeep
        have hgone : files (.document input.storyPath) = none := by
          rcases htarget with hgone | hstaged | ⟨hprepared, htemporary⟩
          · exact hgone
          · simp [hstaged] at hkeep
          · simp [hprepared, existsSync, during, htemporary] at hkeep
        exact hfiles.leads_end hquiet hoperation hphase hnone (hgone.trans hfree.symm)
  | updateDocument currentPath title storyPath =>
    simp only [hoperation] at hfiles
    simp only [hphase]
    exact hfiles.leads_undo hquiet hoperation hphase
  | deleteDocument storyPath =>
    simp only [hoperation] at hfiles
    simp only [hphase]
    exact hfiles.leads_undo hquiet hoperation hphase

end

theorem Redoable.of_files (hphase : phase.committed = true)
    (hfiles : ∀ name, name ∉ leftovers call → files name = t.files name) :
    Redoable t call (t.during call phase files) :=
  ⟨phase, files, hphase, hfiles, rfl⟩

theorem leads_removeFiles (hmutations : t.fileMutations = [])
    (habsent : ∀ name, name ∈ leftovers call → t.files name = none)
    (hphase : phase.committed = true) {names : List FileName}
    (hnames : ∀ name, name ∈ names → name ∈ leftovers call)
    (hfiles : ∀ name, name ∉ names → files name = t.files name) :
    Leads maxFileBytes (Redoable t call) t
      (names.map StoreStep.removeFile ++ [.deleteMutation call.mutationId])
      (t.during call phase files) := by
  induction names generalizing files with
  | nil =>
    have hsame : files = t.files := funext fun name => hfiles name not_mem_nil
    exact ⟨.of_files hphase fun name _ => hfiles name not_mem_nil, t,
      perform_deleteMutation hmutations hsame, rfl⟩
  | cons name names ih =>
    have hname := hnames name mem_cons_self
    have hredoable : Redoable t call (t.during call phase files) := by
      apply Redoable.of_files hphase
      intro other hother
      exact hfiles other fun hmem => hother (hnames other hmem)
    refine ⟨hredoable, _, perform_removeFile t phase files name, ?_⟩
    apply ih fun other hmem => hnames other (mem_cons_of_mem _ hmem)
    intro other hother
    by_cases heq : other = name
    · rw [heq, update_self, habsent name hname]
    · rw [update_of_ne heq]
      exact hfiles other fun hmem => (mem_cons.1 hmem).elim heq hother

theorem recoveryPlan_redo (hmutations : t.fileMutations = [])
    (habsent : ∀ name, name ∈ leftovers call → t.files name = none)
    (hphase : phase.committed = true)
    (hfiles : ∀ name, name ∉ leftovers call → files name = t.files name) :
    Leads maxFileBytes (Redoable t call) t
      ((t.during call phase files).recoveryPlan { call.row with phase })
      (t.during call phase files) := by
  have hplan : (t.during call phase files).recoveryPlan { call.row with phase } =
      (leftovers call).map StoreStep.removeFile ++ [.deleteMutation call.mutationId] := by
    unfold recoveryPlan row leftovers
    cases call.operation <;> simp [hphase]
  rw [hplan]
  exact leads_removeFiles hmutations habsent hphase (fun _ => id) hfiles

theorem Result.quiet (hquiet : Quiet s) (h : Result s call t) : Quiet t := by
  have houtcome := h.outcome
  cases hoperation : call.operation with
  | writeContent input =>
    simp only [hoperation] at houtcome
    have ⟨hfiles, _, hothers⟩ := houtcome
    refine ⟨h.mutations, ?_, ?_⟩
    · intro name hname
      rw [hfiles, update_of_ne (hname _)]
      exact hquiet.named name hname
    intro storyPath hindexed
    by_cases heq : storyPath = input.storyPath
    · simp [hfiles, heq]
    rw [hothers storyPath (by simpa using heq)] at hindexed
    rw [hfiles, update_of_ne (by simpa using heq)]
    exact hquiet.indexed storyPath hindexed
  | updateDocument currentPath title next? =>
    simp only [hoperation] at houtcome
    have ⟨hfiles, hgone, ⟨old, document, hold, _, _⟩, hothers⟩ := houtcome
    refine ⟨h.mutations, ?_, ?_⟩
    · intro name hname
      rw [hfiles, update_of_ne (hname _), update_of_ne (hname _)]
      exact hquiet.named name hname
    intro storyPath hindexed
    by_cases hnext : storyPath = nextPath currentPath next?
    · rw [hfiles, hnext, update_self]
      exact hquiet.indexed currentPath (by rw [hold]; rfl)
    by_cases hcurrent : storyPath = currentPath
    · subst hcurrent
      rw [hgone fun heq => hnext heq.symm] at hindexed
      cases hindexed
    rw [hothers storyPath (by simp [hcurrent, hnext])] at hindexed
    rw [hfiles, update_of_ne (by simpa using hnext), update_of_ne (by simpa using hcurrent)]
    exact hquiet.indexed storyPath hindexed
  | deleteDocument gone =>
    simp only [hoperation] at houtcome
    have ⟨hfiles, hgone, hothers⟩ := houtcome
    refine ⟨h.mutations, ?_, ?_⟩
    · intro name hname
      rw [hfiles, update_of_ne (hname _)]
      exact hquiet.named name hname
    intro storyPath hindexed
    by_cases heq : storyPath = gone
    · rw [heq, hgone] at hindexed
      cases hindexed
    rw [hothers storyPath (by simpa using heq)] at hindexed
    rw [hfiles, update_of_ne (by simpa using heq)]
    exact hquiet.indexed storyPath hindexed

theorem leftovers_absent (hquiet : Quiet t) (name : FileName) (h : name ∈ leftovers call) :
    t.files name = none := by
  apply hquiet.named
  rintro storyPath rfl
  unfold leftovers at h
  cases hoperation : call.operation <;> simp [hoperation] at h

/-! ## Transactions -/

theorem transact_during (s : DocumentStore) (phase : MutationPhase)
    (files : FileName → Option Bytes) (change : DocumentChange) :
    (s.during call phase files).transact change =
      (s.transact change).map fun t => t.during call phase files := by
  cases change with
  | rewrite storyPath title => cases hstory : s.story <;> simp [transact, during, hstory]
  | index storyPath title =>
    cases hstory : s.story with
    | none => simp [transact, during, hstory]
    | some story =>
      simp only [transact, during, insertDocument, hstory, Option.bind_some]
      split <;> rfl
  | retitle storyPath title => rfl
  | replacePath storyPath document =>
    have hinsert : (s.during call phase files).insertDocument
        (removeDocument s.documents storyPath) document =
          s.insertDocument (removeDocument s.documents storyPath) document := rfl
    simp only [transact, Option.map_map]
    exact congrArg _ hinsert
  | remove storyPath => rfl

theorem perform_commit (s : DocumentStore) (phase : MutationPhase)
    (files : FileName → Option Bytes) (change : DocumentChange) :
    (s.during call phase files).perform maxFileBytes (.commit (some call.mutationId) change) =
      (s.transact change).map fun t => t.during call .databaseCommitted files := by
  rw [perform, transact_during, Option.map_map]
  congr 1
  funext t
  simp [during, setPhase, row_id]

/-- The store a committed transaction leads to. -/
def settle (t : DocumentStore) (files : FileName → Option Bytes) : DocumentStore :=
  { t with fileMutations := [], files }

theorem result_write (hoperation : call.operation = .writeContent input) (hcommit : s.transact
      (match s.document? input.storyPath with
        | some document => .rewrite input.storyPath (titleOr input.title document.title)
        | none => .index input.storyPath (titleOr input.title [])) = some t) :
    Result s call (t.settle
      (update s.files (.document input.storyPath) (some input.chunks.flatten))) := by
  refine ⟨rfl, ?_⟩
  simp only [hoperation]
  refine ⟨rfl, ?_⟩
  cases hexisting : s.document? input.storyPath with
  | some document =>
    simp only [hexisting, transact] at hcommit
    cases hstory : s.story with
    | none => simp [hstory] at hcommit
    | some story =>
      simp only [hstory, map_some, some.injEq] at hcommit
      subst hcommit
      refine ⟨⟨_, document?_retitle_self hexisting, rfl⟩, ?_⟩
      intro other hother
      exact document?_retitle_of_ne (by simpa using hother)
  | none =>
    simp only [hexisting, transact] at hcommit
    cases hstory : s.story with
    | none => simp [hstory] at hcommit
    | some story =>
      simp only [hstory, bind_some, map_eq_some_iff] at hcommit
      have ⟨documents, hinsert, ht⟩ := hcommit
      have ⟨hdocuments, hnone⟩ := insertDocument_eq hinsert
      subst ht hdocuments
      refine ⟨⟨_, document?_append hnone, rfl⟩, ?_⟩
      intro other hother
      exact document?_append_of_ne (by simpa using hother)

variable {existing : StoryDocument}

theorem result_rename {storyPath : Option StoryPath}
    (hoperation : call.operation = .updateDocument currentPath title storyPath)
    (hexisting : s.document? currentPath = some existing)
    (hne : nextPath currentPath storyPath ≠ currentPath)
    (hcommit : s.transact (.replacePath currentPath
      { existing with
        storyPath := nextPath currentPath storyPath
        title := titleOr title existing.title }) = some t) : Result s call (t.settle
      (update (update s.files (.document currentPath) none)
        (.document (nextPath currentPath storyPath)) (s.files (.document currentPath)))) := by
  refine ⟨rfl, ?_⟩
  simp only [hoperation]
  simp only [transact, map_eq_some_iff] at hcommit
  have ⟨documents, hinsert, ht⟩ := hcommit
  have ⟨hdocuments, hnone⟩ := insertDocument_eq hinsert
  subst ht hdocuments
  refine ⟨rfl, ?_, ⟨existing, _, hexisting, document?_append hnone, rfl⟩, ?_⟩
  · intro _
    exact (document?_append_of_ne hne.symm).trans (document?_remove_self _ _)
  intro other hother
  simp only [mem_cons, not_mem_nil, or_false, not_or] at hother
  exact (document?_append_of_ne hother.2).trans (document?_remove_of_ne hother.1)

theorem result_retitle {storyPath : Option StoryPath} (hquiet : Quiet s)
    (hoperation : call.operation = .updateDocument currentPath title storyPath)
    (hexisting : s.document? currentPath = some existing)
    (hsame : nextPath currentPath storyPath = currentPath)
    (hcommit : s.transact (.retitle currentPath (titleOr title existing.title)) = some t) :
    Result s call t := by
  have ht := (some.inj hcommit).symm
  subst ht
  refine ⟨hquiet.mutations, ?_⟩
  simp only [hoperation, hsame]
  refine ⟨by simp, absurd rfl, ⟨existing, _, hexisting, document?_retitle_self hexisting, rfl⟩, ?_⟩
  intro other hother
  exact document?_retitle_of_ne (by simpa using hother)

theorem result_delete (hoperation : call.operation = .deleteDocument storyPath)
    (hcommit : s.transact (.remove storyPath) = some t) :
    Result s call (t.settle (update s.files (.document storyPath) none)) := by
  have ht := (some.inj hcommit).symm
  subst ht
  refine ⟨rfl, ?_⟩
  simp only [hoperation]
  refine ⟨rfl, document?_remove_self _ _, ?_⟩
  intro other hother
  exact document?_remove_of_ne (by simpa using hother)

/-! ## The steps of a call -/

/-- Before each step the call comes undone, and behind its transaction it gets through. -/
def Forward (maxFileBytes : Nat) (s : DocumentStore) (call : DocumentCall) :
    List StoreStep → DocumentStore → Prop
  | [], _ => False
  | step :: steps, u =>
    ((u = s ∧ step.guarded = false) ∨ (Undoable s call u ∧ step.guarded = true)) ∧
      ∀ v, u.perform maxFileBytes step = some v →
        if step.commits then
          ∃ t, Result s call t ∧ Leads maxFileBytes (Redoable t call) t steps v
        else Forward maxFileBytes s call steps v

theorem Forward.cons {step : StoreStep} (hundoable : Undoable s call u)
    (hguarded : step.guarded = true) (hcommits : step.commits = false)
    (hnext : ∀ v, u.perform maxFileBytes step = some v → Forward maxFileBytes s call steps v) :
    Forward maxFileBytes s call (step :: steps) u := by
  refine ⟨.inr ⟨hundoable, hguarded⟩, ?_⟩
  intro v hv
  rw [hcommits]
  exact hnext v hv

theorem Forward.mark (hundoable : Undoable s call (s.during call phase files))
    (hnext : Forward maxFileBytes s call steps (s.during call phase' files)) :
    Forward maxFileBytes s call (.updateMutation call.mutationId phase' :: steps)
      (s.during call phase files) := by
  apply Forward.cons hundoable rfl rfl
  intro v hv
  rw [perform_updateMutation, some.injEq] at hv
  exact hv ▸ hnext

theorem Forward.sync (hundoable : Undoable s call u) (hnext : Forward maxFileBytes s call steps u) :
    Forward maxFileBytes s call (.sync :: steps) u := by
  apply Forward.cons hundoable rfl rfl
  intro v hv
  exact some.inj hv ▸ hnext

theorem Forward.rename (hundoable : Undoable s call (s.during call phase files))
    (hsource : files source = some content)
    (hnext : Forward maxFileBytes s call steps (s.during call phase
      (update (update files source none) target (some content)))) :
    Forward maxFileBytes s call (.renameFile source target :: steps) (s.during call phase files) := by
  apply Forward.cons hundoable rfl rfl
  intro v hv
  rw [perform_renameFile hsource, some.injEq] at hv
  exact hv ▸ hnext

theorem Forward.insert (hquiet : Quiet s)
    (hnext : Forward maxFileBytes s call steps (s.during call call.row.phase s.files)) :
    Forward maxFileBytes s call (.insertMutation call.row :: steps) s := by
  refine ⟨.inl ⟨rfl, rfl⟩, ?_⟩
  intro v hv
  simp only [perform, hquiet.mutations, nil_append, map_eq_some_iff] at hv
  have ⟨_, _, hv⟩ := hv
  exact hv ▸ hnext

theorem Forward.commit {change : DocumentChange} {files finalFiles : FileName → Option Bytes}
    (hundoable : Undoable s call (s.during call .filesStaged files))
    (hresult : ∀ t, s.transact change = some t → Result s call (t.settle finalFiles))
    (hnext : ∀ t : DocumentStore, Result s call (t.settle finalFiles) →
      Leads maxFileBytes (Redoable (t.settle finalFiles) call) (t.settle finalFiles) steps
        ((t.settle finalFiles).during call .databaseCommitted files)) :
    Forward maxFileBytes s call (.commit (some call.mutationId) change :: steps)
      (s.during call .filesStaged files) := by
  refine ⟨.inr ⟨hundoable, rfl⟩, ?_⟩
  intro v hv
  rw [perform_commit, map_eq_some_iff] at hv
  have ⟨t, ht, hv⟩ := hv
  exact ⟨t.settle finalFiles, hresult t ht, hv ▸ hnext t (hresult t ht)⟩

theorem leads_cleanup (hmutations : t.fileMutations = []) : Leads maxFileBytes (Redoable t call) t
      [.updateMutation call.mutationId .cleanup, .deleteMutation call.mutationId]
      (t.during call .databaseCommitted t.files) :=
  ⟨.of_files rfl fun _ _ => rfl, _, perform_updateMutation t _ _ _, .of_files rfl fun _ _ => rfl, t,
    perform_deleteMutation hmutations rfl, rfl⟩

theorem leads_removeBackup (hmutations : t.fileMutations = []) {name : FileName}
    (hname : name ∈ leftovers call) (habsent : t.files name = none)
    (hfiles : ∀ other, other ≠ name → files other = t.files other) :
    Leads maxFileBytes (Redoable t call) t
      [.removeFile name, .updateMutation call.mutationId .cleanup, .deleteMutation call.mutationId]
      (t.during call .databaseCommitted files) := by
  have hredoable : Redoable t call (t.during call .databaseCommitted files) := by
    apply Redoable.of_files rfl
    intro other hother
    exact hfiles other fun heq => hother (heq ▸ hname)
  have hremoved : update files name none = t.files := by
    funext other
    by_cases heq : other = name
    · rw [heq, update_self, habsent]
    · rw [update_of_ne heq, hfiles other heq]
  refine ⟨hredoable, _, perform_removeFile t _ files name, ?_⟩
  rw [hremoved]
  exact leads_cleanup hmutations

/-! ### A write -/

theorem WriteFiles.of_temporary (hquiet : Quiet s)
    (hfree : s.document? storyPath = none → s.files (.document storyPath) = none)
    (hfiles : ∀ name, name ≠ .temporary storyPath id → files name = s.files name) :
    WriteFiles s storyPath id phase files := by
  have hbackup : files (.backup storyPath id) = none := by
    rw [hfiles _ (fun h => by cases h)]
    exact hquiet.named _ (fun _ h => by cases h)
  have htarget : files (.document storyPath) = s.files (.document storyPath) :=
    hfiles _ (fun h => by cases h)
  constructor
  · intro name _ htemporary _
    exact hfiles name htemporary
  · intro _
    exact .inr ⟨hbackup, htarget⟩
  · intro hnew
    exact ⟨hfree hnew, hbackup, .inl (htarget.trans (hfree hnew))⟩

theorem WriteFiles.setAside (h : WriteFiles s storyPath id phase files)
    (hindexed : (s.document? storyPath).isSome) : WriteFiles s storyPath id phase
      (update (update files (.document storyPath) none) (.backup storyPath id)
        (s.files (.document storyPath))) := by
  constructor
  · intro name hdocument htemporary hbackup
    rw [update_of_ne hbackup, update_of_ne hdocument]
    exact h.others name hdocument htemporary hbackup
  · intro _
    exact .inl (by simp)
  · intro hnew
    rw [hnew] at hindexed
    cases hindexed

theorem WriteFiles.place (h : WriteFiles s storyPath id phase files)
    (hphase : phase' = .prepared ∨ phase' = .filesStaged) (hkept : (s.document? storyPath).isSome →
      files (.backup storyPath id) = s.files (.document storyPath)) (content : Option Bytes) :
    WriteFiles s storyPath id phase'
      (update (update files (.temporary storyPath id) none) (.document storyPath) content) := by
  constructor
  · intro name hdocument htemporary hbackup
    rw [update_of_ne hdocument, update_of_ne htemporary]
    exact h.others name hdocument htemporary hbackup
  · intro hindexed
    exact .inl (by simpa using hkept hindexed)
  · intro hnew
    have ⟨hfree, hbackup, _⟩ := h.fresh hnew
    refine ⟨hfree, by simpa using hbackup, .inr ?_⟩
    exact hphase.elim (fun hprepared => .inr ⟨hprepared, by simp⟩) .inl

section Write

variable {input : StoryWriteInput}

variable {files : FileName → Option Bytes}

variable (hquiet : Quiet s)

include hquiet

variable (hoperation : call.operation = .writeContent input)

include hoperation

theorem forward_placed
    (hfiles : ∀ phase, phase = .prepared ∨ phase = .filesStaged →
      WriteFiles s input.storyPath call.mutationId phase files)
    (hplaced : files (.document input.storyPath) = some input.chunks.flatten)
    (htemporary : files (.temporary input.storyPath call.mutationId) = none) :
    Forward maxFileBytes s call
      [.sync, .updateMutation call.mutationId .filesStaged, .commit (some call.mutationId)
          (match s.document? input.storyPath with
            | some document => .rewrite input.storyPath (titleOr input.title document.title)
            | none => .index input.storyPath (titleOr input.title [])),
        .removeFile (.backup input.storyPath call.mutationId),
        .updateMutation call.mutationId .cleanup, .deleteMutation call.mutationId]
      (s.during call .prepared files) := by
  have hprepared := (hfiles .prepared (.inl rfl)).undoable hoperation rfl
  apply Forward.sync hprepared
  apply Forward.mark hprepared
  apply Forward.commit ((hfiles .filesStaged (.inr rfl)).undoable hoperation rfl)
    fun t ht => result_write hoperation ht
  intro t hresult
  have hbackup : .backup input.storyPath call.mutationId ∈ leftovers call := by
    simp [leftovers, hoperation]
  apply leads_removeBackup rfl hbackup (leftovers_absent (hresult.quiet hquiet) _ hbackup)
  intro other hother
  change files other = update s.files (.document input.storyPath) _ other
  by_cases hdocument : other = .document input.storyPath
  · rw [hdocument, hplaced, update_self]
  rw [update_of_ne hdocument]
  by_cases htemp : other = .temporary input.storyPath call.mutationId
  · rw [htemp, htemporary, hquiet.named _ (fun _ h => by cases h)]
  · exact (hfiles .prepared (.inl rfl)).others other hdocument htemp hother

theorem forward_prepared
    (hfree : s.document? input.storyPath = none → s.files (.document input.storyPath) = none)
    (hfiles : ∀ name, name ≠ .temporary input.storyPath call.mutationId → files name = s.files name)
    (hcomplete : files (.temporary input.storyPath call.mutationId) = some input.chunks.flatten) :
    Forward maxFileBytes s call ((if (s.document? input.storyPath).isSome then
          [.renameFile (.document input.storyPath) (.backup input.storyPath call.mutationId)]
        else []) ++
        [.renameFile (.temporary input.storyPath call.mutationId) (.document input.storyPath), .sync,
          .updateMutation call.mutationId .filesStaged,
          .commit (some call.mutationId) (match s.document? input.storyPath with
              | some document => .rewrite input.storyPath (titleOr input.title document.title)
              | none => .index input.storyPath (titleOr input.title [])),
          .removeFile (.backup input.storyPath call.mutationId),
          .updateMutation call.mutationId .cleanup, .deleteMutation call.mutationId])
      (s.during call .prepared files) := by
  have hwrite : WriteFiles s input.storyPath call.mutationId .prepared files :=
    .of_temporary hquiet hfree hfiles
  cases hindexed : (s.document? input.storyPath).isSome with
  | true =>
    have ⟨old, hold⟩ := isSome_iff_exists.1 (hquiet.indexed input.storyPath hindexed)
    have hsource : files (.document input.storyPath) = some old :=
      (hfiles _ (fun h => by cases h)).trans hold
    have haside := hwrite.setAside hindexed
    rw [hold] at haside
    apply Forward.rename (hwrite.undoable hoperation rfl) hsource
    apply Forward.rename (haside.undoable hoperation rfl) (by simpa using hcomplete)
    apply forward_placed hquiet hoperation
    · intro phase hphase
      exact haside.place hphase (fun _ => by simp [hold]) _
    · simp
    · simp
  | false =>
    apply Forward.rename (hwrite.undoable hoperation rfl) hcomplete
    apply forward_placed hquiet hoperation
    · intro phase hphase
      exact hwrite.place hphase (fun hthere => by rw [hindexed] at hthere; cases hthere) _
    · simp
    · simp

theorem forward_chunks
    (hfree : s.document? input.storyPath = none → s.files (.document input.storyPath) = none)
    {written : Bytes} {chunks : List Bytes}
    (hchunks : written ++ chunks.flatten = input.chunks.flatten)
    (hnext : ∀ files : FileName → Option Bytes,
      (∀ name, name ≠ .temporary input.storyPath call.mutationId → files name = s.files name) →
      files (.temporary input.storyPath call.mutationId) = some input.chunks.flatten →
      Forward maxFileBytes s call steps (s.during call .receiving files))
    (hfiles : ∀ name, name ≠ .temporary input.storyPath call.mutationId → files name = s.files name)
    (hwritten : files (.temporary input.storyPath call.mutationId) = some written) :
    Forward maxFileBytes s call
      (chunks.map (.appendFile (.temporary input.storyPath call.mutationId)) ++ steps)
      (s.during call .receiving files) := by
  induction chunks generalizing written files with
  | nil =>
    have hcomplete : written = input.chunks.flatten := by simpa using hchunks
    exact hnext files hfiles (hcomplete ▸ hwritten)
  | cons chunk chunks ih =>
    have hwrite : WriteFiles s input.storyPath call.mutationId .receiving files :=
      .of_temporary hquiet hfree hfiles
    apply Forward.cons (hwrite.undoable hoperation rfl) rfl rfl
    intro v hv
    have hcontent : (s.during call .receiving files).files
        (.temporary input.storyPath call.mutationId) = some written := hwritten
    simp only [perform, hcontent, bind_some] at hv
    split at hv
    · cases hv
    cases hv
    have hmore : (written ++ chunk) ++ chunks.flatten = input.chunks.flatten := by
      simpa using hchunks
    apply ih hmore
    · intro name hname
      exact (update_of_ne hname _ _).trans (hfiles name hname)
    · exact update_self ..

theorem forward_write
    (hfree : s.document? input.storyPath = none → s.files (.document input.storyPath) = none) :
    Forward maxFileBytes s call (writePlan call input (s.document? input.storyPath)) s := by
  unfold writePlan
  simp only [append_assoc]
  apply Forward.insert hquiet
  have hphase : call.row.phase = .receiving := by
    unfold row
    rw [hoperation]
  rw [hphase]
  have hstart : WriteFiles s input.storyPath call.mutationId .receiving s.files :=
    .of_temporary hquiet hfree fun _ _ => rfl
  apply Forward.cons (hstart.undoable hoperation rfl) rfl rfl
  intro v hv
  obtain ⟨-, hv⟩ := ite_none_left_eq_some.1 hv
  cases hv
  have hnothing : ([] : Bytes) ++ input.chunks.flatten = input.chunks.flatten := rfl
  apply forward_chunks hquiet hoperation hfree hnothing
  · intro files hfiles hcomplete
    have hwrite : ∀ phase, WriteFiles s input.storyPath call.mutationId phase files :=
      fun _ => .of_temporary hquiet hfree hfiles
    apply Forward.sync ((hwrite .receiving).undoable hoperation rfl)
    apply Forward.mark ((hwrite .receiving).undoable hoperation rfl)
    exact forward_prepared hquiet hoperation hfree hfiles hcomplete
  · intro name hname
    exact update_of_ne hname _ _
  · exact update_self ..

end Write

/-! ### A rename and a deletion -/

variable (hquiet : Quiet s)

include hquiet

theorem forward_update {storyPath : Option StoryPath}
    (hoperation : call.operation = .updateDocument currentPath title storyPath)
    (hexisting : s.document? currentPath = some existing)
    (hfree : nextPath currentPath storyPath ≠ currentPath →
      s.files (.document (nextPath currentPath storyPath)) = none) : Forward maxFileBytes s call
      (updatePlan call currentPath (nextPath currentPath storyPath) title existing) s := by
  unfold updatePlan
  by_cases hsame : nextPath currentPath storyPath = currentPath
  · rw [if_pos hsame]
    refine ⟨.inl ⟨rfl, rfl⟩, ?_⟩
    intro v hv
    simp only [perform, map_eq_some_iff] at hv
    have ⟨t, ht, hv⟩ := hv
    have hresult := result_retitle hquiet hoperation hexisting hsame ht
    exact ⟨t, hresult, hv.symm⟩
  · rw [if_neg hsame]
    have hthere := hquiet.indexed currentPath (by rw [hexisting]; rfl)
    have ⟨content, hcontent⟩ := isSome_iff_exists.1 hthere
    have hphase : call.row.phase = .prepared := by
      unfold row
      rw [hoperation]
    apply Forward.insert hquiet
    rw [hphase]
    have hstart : RenameFiles s currentPath (nextPath currentPath storyPath) s.files :=
      ⟨hsame, fun _ _ _ => rfl, hfree hsame, hthere, .inl ⟨rfl, hfree hsame⟩⟩
    apply Forward.rename (hstart.undoable hoperation rfl) hcontent
    have hmoved : RenameFiles s currentPath (nextPath currentPath storyPath)
        (update (update s.files (.document currentPath) none)
          (.document (nextPath currentPath storyPath)) (some content)) := by
      refine ⟨hsame, ?_, hfree hsame, hthere, .inr ⟨by simp [Ne.symm hsame], by simp [hcontent]⟩⟩
      intro name hcurrent hnext
      rw [update_of_ne hnext, update_of_ne hcurrent]
    have hundoable : ∀ phase : MutationPhase, phase.committed = false →
        Undoable s call (s.during call phase _) :=
      fun phase hphase => hmoved.undoable hoperation hphase
    apply Forward.sync (hundoable .prepared rfl)
    apply Forward.sync (hundoable .prepared rfl)
    apply Forward.mark (hundoable .prepared rfl)
    apply Forward.commit (hundoable .filesStaged rfl)
      fun t ht => result_rename hoperation hexisting hsame ht
    intro t _
    rw [hcontent]
    exact leads_cleanup rfl

theorem forward_delete (hoperation : call.operation = .deleteDocument storyPath)
    (hexisting : (s.document? storyPath).isSome) :
    Forward maxFileBytes s call (deletePlan call storyPath) s := by
  have hthere := hquiet.indexed storyPath hexisting
  have ⟨content, hcontent⟩ := isSome_iff_exists.1 hthere
  have hphase : call.row.phase = .prepared := by
    unfold row
    rw [hoperation]
  apply Forward.insert hquiet
  rw [hphase]
  have hstart : DeleteFiles s storyPath call.deletedId s.files :=
    ⟨fun _ _ _ => rfl, hthere, .inl ⟨rfl, hquiet.named _ (fun _ h => by cases h)⟩⟩
  apply Forward.cons (hstart.undoable hoperation rfl) rfl rfl
  intro v hv
  have hopened : v = s.during call .prepared s.files := by
    have hcontent' : (s.during call .prepared s.files).files (.document storyPath) =
        some content := hcontent
    simp only [perform, hcontent', bind_some] at hv
    split at hv
    · cases hv
    · exact (some.inj hv).symm
  subst hopened
  apply Forward.rename (hstart.undoable hoperation rfl) hcontent
  have hmoved : DeleteFiles s storyPath call.deletedId
      (update (update s.files (.document storyPath) none)
        (.deleted storyPath call.deletedId) (some content)) := by
    refine ⟨?_, hthere, .inr ⟨by simp, by simp [hcontent]⟩⟩
    intro name hdocument hdeleted
    rw [update_of_ne hdeleted, update_of_ne hdocument]
  have hundoable : ∀ phase : MutationPhase, phase.committed = false →
      Undoable s call (s.during call phase _) :=
    fun phase hphase => hmoved.undoable hoperation hphase
  apply Forward.sync (hundoable .prepared rfl)
  apply Forward.mark (hundoable .prepared rfl)
  apply Forward.commit (hundoable .filesStaged rfl) fun t ht => result_delete hoperation ht
  intro t hresult
  have hbackup : .deleted storyPath call.deletedId ∈ leftovers call := by
    simp [leftovers, hoperation]
  apply leads_removeBackup rfl hbackup (leftovers_absent (hresult.quiet hquiet) _ hbackup)
  intro other hother
  exact update_of_ne hother _ _

theorem forward_checkCall {revision : Bytes → String} {plan : List StoreStep}
    (hcheck : s.checkCall maxFileBytes revision call (s.document? call.operation.path) = .ok plan)
    (hdelete : ∀ storyPath, call.operation = .deleteDocument storyPath →
      (s.document? storyPath).isSome) : Forward maxFileBytes s call plan s := by
  have hok := checkCall_ok hcheck
  cases hoperation : call.operation with
  | writeContent input =>
    rw [hoperation] at hok
    rw [hok.1]
    exact forward_write hquiet hoperation hok.2
  | updateDocument currentPath title storyPath =>
    rw [hoperation] at hok
    have ⟨document, hexisting, hplan, hfree⟩ := hok
    rw [hplan]
    exact forward_update hquiet hoperation hexisting hfree
  | deleteDocument storyPath =>
    rw [hoperation] at hok
    rw [show plan = deletePlan call storyPath from hok]
    exact forward_delete hquiet hoperation (hdelete storyPath hoperation)

end Steps

/-! ## The stages of a call -/

section Stages

variable (maxFileBytes : Nat) (revision : Bytes → String) {call : DocumentCall}
  {s u : DocumentStore}

/-- The store of a call that began with `s`, stage by stage. -/
def At (s : DocumentStore) (call : DocumentCall) (u : DocumentStore) : CallStage → Prop
  | .requiring | .looking => u = s
  | .lookingNext existing => u = s ∧ s.document? call.operation.path = some existing
  | .checking existing =>
    u = s ∧ existing = s.document? call.operation.path ∧
      ∀ storyPath, call.operation = .deleteDocument storyPath → existing.isSome
  | .performing existing steps false =>
    existing = s.document? call.operation.path ∧ Forward maxFileBytes s call steps u
  | .performing _ steps true =>
    ∃ t, Result s call t ∧ Leads maxFileBytes (Redoable t call) t steps u
  | .undoing steps _ => Leads maxFileBytes (Undoable s call) s steps u
  | .finished result =>
    u = s ∨ Result s call u ∨
      (result = .error .storage ∧ (Undoable s call u ∨ ∃ t, Result s call t ∧ Redoable t call u))

variable {maxFileBytes}

theorem at_lookedUp : At maxFileBytes s call s
    (lookedUp call (s.document? call.operation.path)) := by
  unfold lookedUp
  cases hoperation : call.operation with
  | writeContent input =>
    refine ⟨rfl, by rw [hoperation], ?_⟩
    intro storyPath hdelete
    rw [hoperation] at hdelete
    cases hdelete
  | updateDocument currentPath title storyPath =>
    cases hfound : s.document? (updateDocument currentPath title storyPath).path with
    | none => exact .inl rfl
    | some document =>
      simp only
      split
      · refine ⟨rfl, by rw [hoperation, hfound], ?_⟩
        intro storyPath hdelete
        rw [hoperation] at hdelete
        cases hdelete
      · exact ⟨rfl, by rw [hoperation, hfound]⟩
  | deleteDocument storyPath =>
    cases hfound : s.document? (deleteDocument storyPath).path with
    | none => exact .inl rfl
    | some document =>
      refine ⟨rfl, by rw [hoperation, hfound], ?_⟩
      intro _ _
      rfl

theorem at_thrown (hquiet : Quiet s) {existing : Option StoryDocument} {step : StoreStep}
    {steps : List StoreStep} {error : StoryError}
    (hexisting : existing = s.document? call.operation.path)
    (h : Forward maxFileBytes s call (step :: steps) u) :
    At maxFileBytes s call u (u.thrown call existing step false error) := by
  unfold thrown
  rcases h.1 with ⟨hsame, hguarded⟩ | ⟨hundoable, hguarded⟩
  · rw [hguarded]
    exact .inl hsame
  · rw [hguarded]
    exact undoPlan_leads hquiet hundoable (by rw [hexisting])

variable {stage : CallStage}

theorem at_advance (hquiet : Quiet s) (h : At maxFileBytes s call u stage) (choice : StepChoice) :
    At maxFileBytes s call (advance maxFileBytes revision call u stage choice).1
      (advance maxFileBytes revision call u stage choice).2 := by
  cases stage with
  | requiring =>
    cases choice with
    | throws => exact .inl h
    | done =>
      simp only [advance]
      split
      · exact .inl h
      · exact .inl h
      · split
        · exact .inl h
        · exact h
  | looking =>
    have hsame : u = s := h
    subst hsame
    cases choice with
    | throws => exact .inl rfl
    | done => exact at_lookedUp
  | lookingNext existing =>
    have ⟨hsame, hexisting⟩ := h
    subst hsame
    simp only [advance]
    split
    · rename_i hoperation
      split
      · exact .inl rfl
      refine ⟨rfl, hexisting.symm, ?_⟩
      intro storyPath hdelete
      rw [hoperation] at hdelete
      cases hdelete
    · exact .inl rfl
  | checking existing =>
    have ⟨hsame, hexisting, hdelete⟩ := h
    subst hsame
    cases choice with
    | throws => exact .inl rfl
    | done =>
      simp only [advance]
      split
      · exact .inl rfl
      rename_i plan hcheck
      refine ⟨hexisting, ?_⟩
      rw [hexisting] at hcheck
      apply forward_checkCall hquiet hcheck
      intro storyPath hoperation
      have hthere := hdelete storyPath hoperation
      rwa [hexisting, hoperation] at hthere
  | performing existing steps committed =>
    cases committed with
    | false =>
      have ⟨hexisting, hforward⟩ := h
      cases steps with
      | nil => exact hforward.elim
      | cons step steps =>
        simp only [advance]
        split
        · rename_i t ht
          have hnext := hforward.2 t ht
          cases hcommits : step.commits with
          | true =>
            rw [if_pos hcommits] at hnext
            exact hnext
          | false =>
            rw [hcommits] at hnext
            exact ⟨hexisting, hnext⟩
        · exact at_thrown hquiet hexisting hforward
        · exact at_thrown hquiet hexisting hforward
    | true =>
      have ⟨t, hresult, hleads⟩ := h
      cases steps with
      | nil =>
        have hdone : u = t := hleads
        exact .inr (.inl (hdone ▸ hresult))
      | cons step steps =>
        have ⟨hredoable, v, hv, hrest⟩ := hleads
        simp only [advance, hv, Bool.true_or]
        cases choice with
        | done => exact ⟨t, hresult, hrest⟩
        | throws =>
          have hfinished : u.thrown call existing step true .storage =
              .finished (.error .storage) := by
            simp [thrown]
          rw [hfinished]
          exact .inr (.inr ⟨rfl, .inr ⟨t, hresult, hredoable⟩⟩)
  | undoing steps error =>
    cases steps with
    | nil => exact .inl h
    | cons step steps =>
      have ⟨hundoable, v, hv, hrest⟩ := h
      simp only [advance, hv]
      cases choice with
      | done => exact hrest
      | throws => exact .inr (.inr ⟨rfl, .inl hundoable⟩)
  | finished result => exact h

variable (maxFileBytes call) in
theorem at_runCall (hquiet : Quiet s) (choices : List StepChoice) :
    At maxFileBytes s call (runCall maxFileBytes revision call s choices).1
      (runCall maxFileBytes revision call s choices).2 := by
  have hrun : ∀ u stage, At maxFileBytes s call u stage → At maxFileBytes s call
        (choices.foldl (fun r choice => advance maxFileBytes revision call r.1 r.2 choice)
          (u, stage)).1
        (choices.foldl (fun r choice => advance maxFileBytes revision call r.1 r.2 choice)
          (u, stage)).2 := by
    induction choices with
    | nil => exact fun _ _ h => h
    | cons choice choices ih => exact fun u stage h => ih _ _ (at_advance revision hquiet h choice)
  exact hrun s .requiring rfl

/-- A store that is left by a crash: nothing done, undone by recovery, done, or redone. -/
def Left (s : DocumentStore) (call : DocumentCall) (r u : DocumentStore) : Prop :=
  u = r ∨ (r = s ∧ Undoable s call u) ∨ (Result s call r ∧ Redoable r call u)

theorem left_of_at (h : At maxFileBytes s call u stage) :
    ∃ r, (r = s ∨ Result s call r) ∧ Left s call r u := by
  cases stage with
  | requiring => exact ⟨s, .inl rfl, .inl h⟩
  | looking => exact ⟨s, .inl rfl, .inl h⟩
  | lookingNext existing => exact ⟨s, .inl rfl, .inl h.1⟩
  | checking existing => exact ⟨s, .inl rfl, .inl h.1⟩
  | performing existing steps committed =>
    cases committed with
    | false =>
      cases steps with
      | nil => exact h.2.elim
      | cons step steps =>
        rcases h.2.1 with ⟨hsame, _⟩ | ⟨hundoable, _⟩
        · exact ⟨s, .inl rfl, .inl hsame⟩
        · exact ⟨s, .inl rfl, .inr (.inl ⟨rfl, hundoable⟩)⟩
    | true =>
      have ⟨t, hresult, hleads⟩ := h
      rcases hleads.holds with hredoable | hdone
      · exact ⟨t, .inr hresult, .inr (.inr ⟨hresult, hredoable⟩)⟩
      · exact ⟨t, .inr hresult, .inl hdone⟩
  | undoing steps error =>
    rcases Leads.holds h with hundoable | hdone
    · exact ⟨s, .inl rfl, .inr (.inl ⟨rfl, hundoable⟩)⟩
    · exact ⟨s, .inl rfl, .inl hdone⟩
  | finished result =>
    rcases h with hsame | hresult | ⟨_, hundoable | ⟨t, hresult, hredoable⟩⟩
    · exact ⟨s, .inl rfl, .inl hsame⟩
    · exact ⟨u, .inr hresult, .inl rfl⟩
    · exact ⟨s, .inl rfl, .inr (.inl ⟨rfl, hundoable⟩)⟩
    · exact ⟨t, .inr hresult, .inr (.inr ⟨hresult, hredoable⟩)⟩

theorem recover_quiet (hquiet : Quiet s) : recoverFileMutations maxFileBytes s = some s := by
  rw [recoverFileMutations, hquiet.mutations]
  rfl

variable {r : DocumentStore}

variable (maxFileBytes) in
theorem Left.leads (hquiet : Quiet s) (h : Left s call r u) (hr : Quiet r) :
    u = r ∨ ∃ row, u.fileMutations = [row] ∧
      Leads maxFileBytes (Left s call r) r (u.recoveryPlan row) u := by
  rcases h with hsame | ⟨hr', phase, files, hphase, hfiles, hu⟩ |
    ⟨hresult, phase, files, hphase, hfiles, hu⟩
  · exact .inl hsame
  · subst hr' hu
    refine .inr ⟨_, rfl, ?_⟩
    exact (recoveryPlan_undo hquiet hphase hfiles).mono fun v hv => .inr (.inl ⟨rfl, hv⟩)
  · subst hu
    refine .inr ⟨_, rfl, ?_⟩
    exact (recoveryPlan_redo hr.mutations (fun name hname => leftovers_absent hr name hname) hphase
      hfiles).mono fun v hv => .inr (.inr ⟨hresult, hv⟩)

theorem Left.recover (hquiet : Quiet s) (h : Left s call r u) (hr : Quiet r) :
    recoverFileMutations maxFileBytes u = some r := by
  rcases h.leads maxFileBytes hquiet hr with hsame | ⟨row, hrow, hleads⟩
  · rw [hsame, recover_quiet hr]
  · simp [recoverFileMutations, hrow, hleads.performAll]

theorem Left.cut (hquiet : Quiet s) (h : Left s call r u) (hr : Quiet r) (n : Nat) :
    Left s call r (recoverCut maxFileBytes n u.fileMutations u) := by
  rcases h.leads maxFileBytes hquiet hr with hsame | ⟨row, hrow, hleads⟩
  · subst hsame
    rw [hr.mutations]
    exact .inl rfl
  have hcut : ∀ m, Left s call r (performCut maxFileBytes m (u.recoveryPlan row) u) :=
    fun m => (hleads.performCut m).elim id .inl
  rw [hrow, recoverCut]
  split
  · exact hcut n
  · exact hcut _

/-- A call on a document is cut behind any step; recovery gives the store from before it or the one
it was to produce, also when it is cut itself, any number of times. -/
theorem crash_recovers (hquiet : Quiet s) (call : DocumentCall) (choices : List StepChoice) :
    ∃ r, (r = s ∨ Result s call r) ∧ Quiet r ∧
      recoverFileMutations maxFileBytes (runCall maxFileBytes revision call s choices).1 = some r ∧
      recoverFileMutations maxFileBytes r = some r ∧
      ∀ cuts : List Nat, recoverFileMutations maxFileBytes
          (cuts.foldl (fun u n => recoverCut maxFileBytes n u.fileMutations u)
            (runCall maxFileBytes revision call s choices).1) = some r := by
  have hat := at_runCall maxFileBytes revision call hquiet choices
  have ⟨r, hr, hleft⟩ := left_of_at hat
  have hquiet' : Quiet r := hr.elim (fun hsame => hsame ▸ hquiet) fun hresult => hresult.quiet hquiet
  refine ⟨r, hr, hquiet', hleft.recover hquiet hquiet', recover_quiet hquiet', ?_⟩
  intro cuts
  generalize (runCall maxFileBytes revision call s choices).1 = u at hleft
  induction cuts generalizing u with
  | nil => exact hleft.recover hquiet hquiet'
  | cons n cuts ih => exact ih _ (hleft.cut hquiet hquiet' n)

theorem oneDocument_quiet : Quiet oneDocument := by
  refine ⟨rfl, ?_, ?_⟩
  · intro name hname
    exact update_of_ne (hname "notes.md") (some ([1, 2] : Bytes)) fun _ => none
  intro storyPath hindexed
  by_cases heq : storyPath = "notes.md"
  · subst heq
    rfl
  · simp [document?, oneDocument, Ne.symm heq] at hindexed

/-- A crash behind the rename of a file. -/
theorem crash_recovers_example :
    let call : DocumentCall := ⟨.updateDocument "notes.md" none (some "log.md"), 0, 1⟩
    let u := (runCall 100 (fun _ => "") call oneDocument (replicate 6 .done)).1
    u.existsSync (.document "notes.md") = false ∧
      ∃ r, (r = oneDocument ∨ Result oneDocument call r) ∧ Quiet r ∧
        recoverFileMutations 100 u = some r ∧ recoverFileMutations 100 r = some r ∧
        ∀ cuts : List Nat, recoverFileMutations 100
            (cuts.foldl (fun u n => recoverCut 100 n u.fileMutations u) u) = some r :=
  ⟨by decide +kernel, crash_recovers (fun _ => "") oneDocument_quiet _ _⟩

end Stages

end TaskHandoff.Stories.DocumentStore
