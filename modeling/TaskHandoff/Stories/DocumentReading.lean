import TaskHandoff.Stories.Documents

/-! # Reading beside the operations on documents

`project` looks at the files of a story outside its lock and removes the index entry of a file that
is not there. It meets operations that have set a file aside or put it anew. -/

namespace TaskHandoff.Stories

open DocumentStore JsText List Option Function DocumentOperation

/-! ## Operations under the lock and readers beside it -/

/-- What a projection is to do next. -/
inductive ReaderTask where
  /-- `documents.list` -/
  | list
  /-- Open the file of a listed document. -/
  | openFile (storyPath : StoryPath)
  /-- The lookup of `removeMissingDocument`. -/
  | repair (storyPath : StoryPath)
  /-- The transaction of `removeMissingDocument`. -/
  | remove (storyPath : StoryPath)

/-- How far a `readContent` is. -/
inductive ContentStage where
  | requiring
  | looking
  | opening
  | streaming

/-- Who holds the lock of the story. -/
inductive StoryLock where
  | free
  /-- A call, and whether its last step was synchronous. -/
  | writing (call : DocumentCall) (stage : CallStage) (synchronous : Bool)
  | reading (storyPath : StoryPath) (stage : ContentStage)

structure StoryTraffic where
  store : DocumentStore
  lock : StoryLock
  readers : List (List ReaderTask)
  /-- The documents whose last operation that went through wrote or renamed them. -/
  live : List StoryPath

/-- A step without `await` behind it. -/
def DocumentStore.StoreStep.synchronous : StoreStep → Bool
  | .openFile _ | .renameFile _ _ | .removeFile _ | .sync => true
  | .insertMutation _ | .updateMutation _ _ | .deleteMutation _ | .commit _ _ | .createFile _
  | .appendFile _ _ => false

def DocumentStore.CallStage.next : CallStage → Option StoreStep
  | .performing _ (step :: _) _ | .undoing (step :: _) _ => some step
  | _ => none

/-- The paths that live once an operation has gone through. -/
def DocumentStore.DocumentOperation.live (operation : DocumentOperation) (live : List StoryPath) :
    List StoryPath :=
  match operation with
  | .writeContent input => input.storyPath :: live
  | .updateDocument currentPath _ storyPath =>
    nextPath currentPath storyPath :: live.filter (· ≠ currentPath)
  | .deleteDocument storyPath => live.filter (· ≠ storyPath)

inductive StoryAction where
  | begin (call : DocumentCall)
  | advance (choice : StepChoice)
  | beginContent (storyPath : StoryPath)
  | advanceContent (choice : StepChoice)
  | beginProjection
  | advanceReader (reader : Nat) (choice : StepChoice)

namespace StoryTraffic

section Machine

variable (maxFileBytes : Nat) (revision : Bytes → String)
variable (σ : StoryTraffic)

/-- The call is between two synchronous steps. -/
def busy : Bool :=
  match σ.lock with
  | .writing _ stage synchronous => synchronous && stage.next.any StoreStep.synchronous
  | .free | .reading _ _ => false

/-- The call commits in its next step. -/
def commits (stage : CallStage) (choice : StepChoice) : Bool :=
  match stage, choice with
  | .performing _ (step :: _) _, .done => step.commits
  | _, _ => false

/-- The lock behind a step of a call. -/
def lockBehind (call : DocumentCall) (stage : CallStage) (synchronous : Bool) : StoryLock :=
  match stage with
  | .finished _ => .free
  | _ => .writing call stage synchronous

def advanceCall (call : DocumentCall) (stage : CallStage) (choice : StepChoice) : StoryTraffic :=
  let r := DocumentStore.advance maxFileBytes revision call σ.store stage choice
  { σ with
    store := r.1
    lock := lockBehind call r.2 (stage.next.any StoreStep.synchronous)
    live :=
      if commits stage choice && (σ.store.perform maxFileBytes (stage.next.getD .sync)).isSome then
        call.operation.live σ.live
      else σ.live }

def advanceContent (storyPath : StoryPath) (stage : ContentStage)
    (choice : StepChoice) : StoryTraffic :=
  match stage, choice with
  | .streaming, _ | _, .throws => { σ with lock := .free }
  | .requiring, .done =>
    if σ.store.story.isSome then { σ with lock := .reading storyPath .looking }
    else { σ with lock := .free }
  | .looking, .done =>
    if (σ.store.document? storyPath).isSome then { σ with lock := .reading storyPath .opening }
    else { σ with lock := .free }
  | .opening, .done =>
    match σ.store.files (.document storyPath) with
    | none => { σ with lock := .free, readers := σ.readers ++ [[.repair storyPath]] }
    | some content =>
      if maxFileBytes < content.length then { σ with lock := .free }
      else { σ with lock := .reading storyPath .streaming }

/-- One task of a reader. -/
def performTask (s : DocumentStore) (task : ReaderTask) (rest : List ReaderTask) :
    DocumentStore × List ReaderTask :=
  match task with
  | .list => (s, s.documents.map (fun document => .openFile document.storyPath) ++ rest)
  | .openFile storyPath =>
    match s.files (.document storyPath) with
    | none => (s, .repair storyPath :: rest)
    | some content => (s, if maxFileBytes < content.length then [] else rest)
  | .repair storyPath =>
    (s, if (s.document? storyPath).isSome then .remove storyPath :: rest else rest)
  | .remove storyPath =>
    ({ s with documents := removeDocument s.documents storyPath }, .list :: rest)

def advanceReader (reader : Nat) (choice : StepChoice) : Option StoryTraffic :=
  match σ.readers[reader]?, choice with
  | some (_ :: _), .throws => some { σ with readers := σ.readers.set reader [] }
  | some (task :: rest), .done =>
    let r := performTask maxFileBytes σ.store task rest
    some { σ with store := r.1, readers := σ.readers.set reader r.2 }
  | _, _ => none

/-- One action, `none` when it cannot happen. A handler's own steps do not fail. -/
def turn (action : StoryAction) : Option StoryTraffic :=
  match action, σ.lock with
  | .begin call, .free => some { σ with lock := .writing call .requiring false }
  | .advance .throws, .writing _ (.undoing _ _) _ => none
  | .advance choice, .writing call stage _ =>
    some (σ.advanceCall maxFileBytes revision call stage choice)
  | .beginContent storyPath, .free => some { σ with lock := .reading storyPath .requiring }
  | .advanceContent choice, .reading storyPath stage =>
    some (σ.advanceContent maxFileBytes storyPath stage choice)
  | .beginProjection, _ =>
    if σ.busy then none else some { σ with readers := σ.readers ++ [[.list]] }
  | .advanceReader reader choice, _ =>
    if σ.busy then none else σ.advanceReader maxFileBytes reader choice
  | _, _ => none

end Machine

/-! ## Runs -/

/-- A repair removes no entry whose file is there, and a handler puts no file back whose entry a
repair has removed. -/
def Cautious (σ : StoryTraffic) : StoryAction → Prop
  | .advanceReader reader .done =>
    match σ.readers[reader]? with
    | some (.remove storyPath :: _) =>
      (σ.store.document? storyPath).isSome → σ.store.files (.document storyPath) = none
    | _ => True
  | .advance .done =>
    match σ.lock with
    | .writing _ (.undoing (.renameFile _ (.document storyPath) :: _) _) _ =>
      (σ.store.document? storyPath).isSome
    | _ => True
  | _ => True

instance (σ : StoryTraffic) (action : StoryAction) : Decidable (Cautious σ action) := by
  unfold Cautious
  split
  · split <;> infer_instance
  · split <;> infer_instance
  · infer_instance

/-- A run of actions each of which meets a condition. -/
inductive Run (maxFileBytes : Nat) (revision : Bytes → String)
    (condition : StoryTraffic → StoryAction → Prop) : StoryTraffic → StoryTraffic → Prop where
  | refl (σ : StoryTraffic) : Run maxFileBytes revision condition σ σ
  | step {σ τ υ : StoryTraffic} {action : StoryAction} :
      Run maxFileBytes revision condition σ τ → condition τ action →
        τ.turn maxFileBytes revision action = some υ → Run maxFileBytes revision condition σ υ

/-- No operation runs. -/
def Idle (σ : StoryTraffic) : Prop := σ.lock = .free ∧ ∀ reader, reader ∈ σ.readers → reader = []

/-- No operation runs and each indexed document has its file. -/
structure Started (σ : StoryTraffic) : Prop where
  free : σ.lock = .free
  readers : σ.readers = []
  live : ∀ storyPath, storyPath ∈ σ.live ↔ (σ.store.document? storyPath).isSome
  there : ∀ storyPath, (σ.store.document? storyPath).isSome →
    (σ.store.files (.document storyPath)).isSome

/-! ## The store between two steps -/

/-- The document whose file the call in progress has set aside: readers may have removed its entry,
or have not been let in since. -/
inductive Aside where
  | nothing
  | away (storyPath : StoryPath)
  | held (storyPath : StoryPath)

def Aside.path : Aside → Option StoryPath
  | .nothing => none
  | .away storyPath | .held storyPath => some storyPath

structure Steady (live : List StoryPath) (aside : Aside) (s : DocumentStore) : Prop where
  indexed : ∀ storyPath, storyPath ∈ live → aside.path ≠ some storyPath →
    (s.document? storyPath).isSome
  there : ∀ storyPath, storyPath ∈ live → aside.path ≠ some storyPath →
    (s.files (.document storyPath)).isSome
  live : ∀ storyPath, (s.document? storyPath).isSome → storyPath ∈ live
  held : ∀ storyPath, aside = .held storyPath → (s.document? storyPath).isSome

section Steps

variable {maxFileBytes : Nat} {revision : Bytes → String} {live : List StoryPath} {aside aside' : Aside}
  {s t : DocumentStore} {call : DocumentCall} {storyPath : StoryPath}

theorem setFile_documents (s : DocumentStore) (name : FileName) (content : Option Bytes) :
    (s.setFile name content).documents = s.documents := rfl

section

variable (h : Steady live aside s)

include h

section

variable (hdocuments : t.documents = s.documents)

include hdocuments

theorem Steady.files
    (hthere : ∀ storyPath, storyPath ∈ live → aside'.path ≠ some storyPath →
      (s.files (.document storyPath)).isSome ∨ aside.path = some storyPath →
      (t.files (.document storyPath)).isSome)
    (hback : ∀ storyPath, aside.path = some storyPath → aside'.path ≠ some storyPath →
      (s.document? storyPath).isSome)
    (hheld : ∀ storyPath, aside' = .held storyPath → (s.document? storyPath).isSome) :
    Steady live aside' t := by
  have hdocument : ∀ storyPath, t.document? storyPath = s.document? storyPath := by
    intro storyPath
    rw [document?, document?, hdocuments]
  constructor
  · intro storyPath hlive haside'
    rw [hdocument]
    by_cases haside : aside.path = some storyPath
    · exact hback storyPath haside haside'
    · exact h.indexed storyPath hlive haside
  · intro storyPath hlive haside'
    apply hthere storyPath hlive haside'
    by_cases haside : aside.path = some storyPath
    · exact .inr haside
    · exact .inl (h.there storyPath hlive haside)
  · intro storyPath hindexed
    rw [hdocument] at hindexed
    exact h.live storyPath hindexed
  · intro storyPath heq
    rw [hdocument]
    exact hheld storyPath heq

theorem Steady.same
    (hfiles : ∀ storyPath, t.files (.document storyPath) = s.files (.document storyPath)) :
    Steady live aside t := by
  apply h.files hdocuments
  · intro storyPath hlive haside hthere
    rw [hfiles]
    rcases hthere with hthere | hin
    · exact hthere
    · exact absurd hin haside
  · intro storyPath hin hout
    exact absurd hin hout
  · exact h.held

theorem Steady.unindexed
    (hdead : storyPath ∉ live) (hfiles : ∀ other, other ≠ storyPath →
      t.files (.document other) = s.files (.document other)) : Steady live aside t := by
  apply h.files hdocuments
  · intro other hlive haside hthere
    have hne : other ≠ storyPath := fun heq => hdead (heq ▸ hlive)
    rw [hfiles other hne]
    rcases hthere with hthere | hin
    · exact hthere
    · exact absurd hin haside
  · intro other hin hout
    exact absurd hin hout
  · exact h.held

theorem Steady.setAside
    (hpath : aside'.path = some storyPath) (hfrom : aside = .nothing ∨ aside = .held storyPath)
    (hindexed : storyPath ∈ live) (hfiles : ∀ other, other ∈ live → other ≠ storyPath →
      t.files (.document other) = s.files (.document other)) : Steady live aside' t := by
  have hnamed : ∀ other, aside.path = some other → other = storyPath := by
    intro other hother
    rcases hfrom with hnothing | hheld
    · rw [hnothing] at hother
      cases hother
    · rw [hheld] at hother
      exact (some.inj hother).symm
  apply h.files hdocuments
  · intro other hlive haside' hthere
    have hne : other ≠ storyPath := fun heq => haside' (by rw [hpath, heq])
    rw [hfiles other hlive hne]
    rcases hthere with hthere | hin
    · exact hthere
    · exact absurd (hnamed other hin) hne
  · intro other hin hout
    rw [hnamed other hin] at hout
    exact absurd hpath hout
  · intro other hheld
    have heq : other = storyPath := by
      rw [hheld] at hpath
      exact some.inj hpath
    rw [heq]
    rcases hfrom with hnothing | hheld
    · exact h.indexed storyPath hindexed (by rw [hnothing]; nofun)
    · exact h.held storyPath hheld

theorem Steady.restore
    (hpath : aside.path = some storyPath) (hindexed : (s.document? storyPath).isSome)
    (hback : (t.files (.document storyPath)).isSome)
    (hfiles : ∀ other, other ∈ live → other ≠ storyPath →
      t.files (.document other) = s.files (.document other)) : Steady live .nothing t := by
  apply h.files hdocuments
  · intro other hlive _ hthere
    by_cases heq : other = storyPath
    · rw [heq]
      exact hback
    rw [hfiles other hlive heq]
    rcases hthere with hthere | hin
    · exact hthere
    · rw [hpath, some.injEq] at hin
      exact absurd hin.symm heq
  · intro other hin _
    rw [hpath, some.injEq] at hin
    exact hin ▸ hindexed
  · intro other hheld
    cases hheld

end

theorem Steady.remove (hheld : ∀ other, aside ≠ .held other)
    (hcautious : (s.document? storyPath).isSome → s.files (.document storyPath) = none) :
    Steady live aside { s with documents := removeDocument s.documents storyPath } := by
  have hother : ∀ other, other ≠ storyPath →
      document? { s with documents := removeDocument s.documents storyPath } other =
        s.document? other := fun other hne => document?_remove_of_ne hne
  constructor
  · intro other hlive haside
    have hindexed := h.indexed other hlive haside
    have hthere := h.there other hlive haside
    have hne : other ≠ storyPath := by
      rintro rfl
      rw [hcautious hindexed] at hthere
      cases hthere
    rw [hother other hne]
    exact hindexed
  · exact h.there
  · intro other hindexed
    by_cases heq : other = storyPath
    · have hgone : document? { s with documents := removeDocument s.documents storyPath } storyPath =
          none := document?_remove_self _ _
      rw [heq, hgone] at hindexed
      cases hindexed
    · rw [hother other heq] at hindexed
      exact h.live other hindexed
  · intro other heq
    exact absurd heq (hheld other)

end

/-! ## What a step touches -/

/-- The files a step changes. -/
def names : StoreStep → List FileName
  | .createFile name | .appendFile name _ | .removeFile name => [name]
  | .renameFile source target => [source, target]
  | .insertMutation _ | .updateMutation _ _ | .deleteMutation _ | .commit _ _ | .openFile _ | .sync =>
    []

variable {step : StoreStep}

theorem perform_frame (hcommits : step.commits = false)
    (h : s.perform maxFileBytes step = some t) : t.documents = s.documents ∧
      ∀ name, name ∉ names step → t.files name = s.files name := by
  cases step with
  | insertMutation row =>
    have ⟨_, _, ht⟩ := map_eq_some_iff.1 h
    rw [← ht]
    exact ⟨rfl, fun _ _ => rfl⟩
  | updateMutation id phase | deleteMutation id | sync =>
    cases h
    exact ⟨rfl, fun _ _ => rfl⟩
  | commit id change => cases hcommits
  | createFile created =>
    obtain ⟨-, h⟩ := ite_none_left_eq_some.1 h
    cases h
    exact ⟨rfl, fun _ hname => update_of_ne (by simpa [names] using hname) _ _⟩
  | appendFile appended chunk =>
    have ⟨content, _, ht⟩ := bind_eq_some_iff.1 h
    split at ht
    · cases ht
    · cases ht
      exact ⟨rfl, fun _ hname => update_of_ne (by simpa [names] using hname) _ _⟩
  | openFile opened =>
    have ⟨content, _, ht⟩ := bind_eq_some_iff.1 h
    split at ht
    · cases ht
    · cases ht
      exact ⟨rfl, fun _ _ => rfl⟩
  | renameFile source target =>
    have ⟨content, _, ht⟩ := map_eq_some_iff.1 h
    rw [← ht]
    refine ⟨rfl, fun name hname => ?_⟩
    simp only [names, mem_cons, not_mem_nil, or_false, not_or] at hname
    exact (update_of_ne hname.2 _ _).trans (update_of_ne hname.1 _ _)
  | removeFile removed =>
    cases h
    exact ⟨rfl, fun _ hname => update_of_ne (by simpa [names] using hname) _ _⟩

theorem perform_documents (hcommits : step.commits = false)
    (h : s.perform maxFileBytes step = some t) : t.documents = s.documents :=
  (perform_frame hcommits h).1

theorem perform_others (hcommits : step.commits = false) (h : s.perform maxFileBytes step = some t)
    (name : FileName) (hname : name ∉ names step) : t.files name = s.files name :=
  (perform_frame hcommits h).2 name hname

theorem perform_renamed {source target : FileName}
    (h : s.perform maxFileBytes (.renameFile source target) = some t) :
    ∃ content, s.files source = some content ∧
      t.files = update (update s.files source none) target (some content) := by
  have ⟨content, hcontent, ht⟩ := map_eq_some_iff.1 h
  exact ⟨content, hcontent, by rw [← ht]; rfl⟩

/-- A step that leaves the files of the documents and the index alone. -/
def Indirect (step : StoreStep) : Prop :=
  step.commits = false ∧ ∀ storyPath, .document storyPath ∉ names step

theorem Steady.indirect (hindirect : Indirect step) (h : Steady live aside s)
    (hstep : s.perform maxFileBytes step = some t) : Steady live aside t :=
  h.same (perform_documents hindirect.1 hstep) fun storyPath =>
    perform_others hindirect.1 hstep _ (hindirect.2 storyPath)

/-! ## The rest of a handler and of a call -/

/-- The steps of a handler get through and leave nothing aside. -/
def Undoing (maxFileBytes : Nat) (live : List StoryPath) :
    List StoreStep → Aside → (FileName → Option Bytes) → Prop
  | [], aside, _ => aside = .nothing
  | step :: steps, aside, files =>
    step.commits = false ∧ (∀ storyPath, aside = .held storyPath → step.synchronous = true) ∧
      ∀ s : DocumentStore, s.files = files → ∃ t, s.perform maxFileBytes step = some t ∧
          (Steady live aside s →
            (∀ source storyPath, step = .renameFile source (.document storyPath) →
              (s.document? storyPath).isSome) →
            ∃ aside', (∀ storyPath, aside' = .held storyPath → step.synchronous = true) ∧
              Steady live aside' t ∧ Undoing maxFileBytes live steps aside' t.files)

/-- Before each step of a call its handler could take over, and its transaction leaves nothing
aside. -/
def Going (maxFileBytes : Nat) (live : List StoryPath) (call : DocumentCall)
    (existing : Option StoryDocument) : List StoreStep → Aside → (FileName → Option Bytes) → Prop
  | [], _, _ => False
  | step :: steps, aside, files =>
    (∀ storyPath, aside = .held storyPath → step.synchronous = true) ∧
      (if step.guarded then
        ∀ s : DocumentStore, s.files = files →
          Undoing maxFileBytes live (s.undoPlan call existing) aside files
      else aside = .nothing) ∧
      ∀ s t : DocumentStore, s.files = files → s.perform maxFileBytes step = some t →
        Steady live aside s →
        if step.commits then
          Steady (call.operation.live live) .nothing t ∧ ∀ later, later ∈ steps → Indirect later
        else
          ∃ aside', (∀ storyPath, aside' = .held storyPath → step.synchronous = true) ∧
            Steady live aside' t ∧ Going maxFileBytes live call existing steps aside' t.files

variable {files : FileName → Option Bytes} {existing : Option StoryDocument}

variable {steps : List StoreStep}

theorem Undoing.indirect (hindirect : Indirect step)
    (haside : ∀ storyPath, aside = .held storyPath → step.synchronous = true)
    (hnext : ∀ s : DocumentStore, s.files = files → ∃ t, s.perform maxFileBytes step = some t ∧
      Undoing maxFileBytes live steps aside t.files) :
    Undoing maxFileBytes live (step :: steps) aside files := by
  refine ⟨hindirect.1, haside, ?_⟩
  intro s hfiles
  have ⟨t, ht, hrest⟩ := hnext s hfiles
  exact ⟨t, ht, fun hsteady _ => ⟨aside, haside, hsteady.indirect hindirect ht, hrest⟩⟩

theorem Undoing.deleteMutation (id : Nat) :
    Undoing maxFileBytes live [.deleteMutation id] .nothing files := by
  apply Undoing.indirect ⟨rfl, fun _ => not_mem_nil⟩
  · intro storyPath hheld
    cases hheld
  · intro s _
    exact ⟨_, rfl, rfl⟩

variable {id : Nat} {source : FileName} {σ : StoryTraffic}

theorem Undoing.removeTemporary (hnext : Undoing maxFileBytes live steps aside
      (update files (.temporary storyPath id) none)) :
    Undoing maxFileBytes live (.removeFile (.temporary storyPath id) :: steps) aside files := by
  apply Undoing.indirect ⟨rfl, fun other => by simp [names]⟩ fun _ _ => rfl
  rintro s rfl
  exact ⟨_, rfl, hnext⟩

theorem Undoing.restore (hpath : aside.path = some storyPath)
    (hsource : (files source).isSome) (hlive : ∀ other, other ∈ live → source ≠ .document other) :
    Undoing maxFileBytes live [.renameFile source (.document storyPath), .deleteMutation id] aside
      files := by
  refine ⟨rfl, fun _ _ => rfl, ?_⟩
  rintro s rfl
  have ⟨content, hcontent⟩ := isSome_iff_exists.1 hsource
  have hstep : s.perform maxFileBytes (.renameFile source (.document storyPath)) =
      some ((s.setFile source none).setFile (.document storyPath) (some content)) := by
    simp [perform, hcontent]
  refine ⟨_, hstep, ?_⟩
  intro hsteady hindexed
  refine ⟨.nothing, (fun _ heq => by cases heq), ?_, Undoing.deleteMutation id⟩
  apply hsteady.restore (perform_documents rfl hstep) hpath (hindexed source storyPath rfl)
  · simp [setFile]
  intro other hother hne
  apply perform_others rfl hstep
  simp [names, hne, Ne.symm (hlive other hother)]

/-! ### A write -/

theorem undoing_write {input : StoryWriteInput} (hoperation : call.operation = .writeContent input)
    (hexisting : existing.isSome ↔ input.storyPath ∈ live)
    (haside : aside = .nothing ∨ (aside = .held input.storyPath ∧
      (files (.backup input.storyPath call.mutationId)).isSome ∧ input.storyPath ∈ live))
    (hfiles : s.files = files) :
    Undoing maxFileBytes live (s.undoPlan call existing) aside files := by
  subst hfiles
  unfold undoPlan
  simp only [hoperation, cons_append]
  apply Undoing.removeTemporary
  cases hthere : existing.isSome with
  | true =>
    have hlive := hexisting.1 hthere
    cases hbackup : s.existsSync (.backup input.storyPath call.mutationId) with
    | true =>
      have hpath : (Aside.held input.storyPath).path = some input.storyPath := rfl
      refine ⟨rfl, fun _ _ => rfl, ?_⟩
      intro u hu
      refine ⟨_, rfl, ?_⟩
      intro hsteady _
      refine ⟨.held input.storyPath, fun _ _ => rfl, ?_, ?_⟩
      · apply hsteady.setAside (setFile_documents ..) hpath (haside.imp id And.left) hlive
        intro other _ hne
        exact update_of_ne (by simpa using hne) _ _
      apply Undoing.restore hpath
      · simpa [setFile, hu, existsSync] using hbackup
      · intro other _
        exact fun h => by cases h
    | false =>
      rcases haside with hnothing | ⟨_, hkept, _⟩
      · rw [hnothing]
        have hrest : existing.isNone = false := by
          rw [← not_isSome, hthere]
          rfl
        simpa [hrest] using Undoing.deleteMutation call.mutationId
      · rw [existsSync, hkept] at hbackup
        cases hbackup
  | false =>
    have hdead : input.storyPath ∉ live := fun hlive => by
      rw [hexisting.2 hlive] at hthere
      cases hthere
    have hnothing : aside = .nothing := haside.elim id fun h => absurd h.2.2 hdead
    have hnone : existing.isNone = true := by
      rw [← not_isSome, hthere]
      rfl
    subst hnothing
    simp only [hnone, Bool.false_and, Bool.false_eq_true, if_false, if_true]
    refine ⟨rfl, fun _ _ => rfl, ?_⟩
    intro u _
    refine ⟨_, rfl, ?_⟩
    intro hsteady _
    refine ⟨.nothing, (fun _ heq => by cases heq), ?_, Undoing.deleteMutation call.mutationId⟩
    apply hsteady.unindexed (setFile_documents ..) hdead
    intro other hne
    exact update_of_ne (by simpa using hne) _ _

theorem Going.indirect (hindirect : Indirect step)
    (hundo : step.guarded = true → ∀ s : DocumentStore, s.files = files →
      Undoing maxFileBytes live (s.undoPlan call existing) aside files)
    (hfirst : step.guarded = false → aside = .nothing)
    (haside : ∀ storyPath, aside = .held storyPath → step.synchronous = true)
    (hnext : ∀ s t : DocumentStore, s.files = files → s.perform maxFileBytes step = some t →
      Going maxFileBytes live call existing steps aside t.files) :
    Going maxFileBytes live call existing (step :: steps) aside files := by
  refine ⟨haside, ?_, ?_⟩
  · split
    · exact hundo ‹_›
    · exact hfirst (Bool.not_eq_true _ ▸ ‹_›)
  intro s t hfiles hstep hsteady
  rw [hindirect.1]
  exact ⟨aside, haside, hsteady.indirect hindirect hstep, hnext s t hfiles hstep⟩

theorem Going.indirect_nothing (hindirect : Indirect step)
    (hundo : ∀ s : DocumentStore, s.files = files →
      Undoing maxFileBytes live (s.undoPlan call existing) .nothing files)
    (hnext : ∀ s t : DocumentStore, s.files = files → s.perform maxFileBytes step = some t →
      Going maxFileBytes live call existing steps .nothing t.files) :
    Going maxFileBytes live call existing (step :: steps) .nothing files :=
  .indirect hindirect (fun _ => hundo) (fun _ => rfl) (fun _ h => by cases h) hnext

theorem Going.still (hnames : names step = []) (hcommits : step.commits = false)
    (hguarded : step.guarded = true) (haside : ∀ storyPath, aside ≠ .held storyPath)
    (hundo : ∀ s : DocumentStore, s.files = files →
      Undoing maxFileBytes live (s.undoPlan call existing) aside files)
    (hnext : Going maxFileBytes live call existing steps aside files) :
    Going maxFileBytes live call existing (step :: steps) aside files := by
  apply Going.indirect ⟨hcommits, fun _ => by simp [hnames]⟩ (fun _ => hundo)
  · intro hunguarded
    rw [hguarded] at hunguarded
    cases hunguarded
  · intro storyPath heq
    exact absurd heq (haside storyPath)
  intro s t hs ht
  have hsame : t.files = files := by
    funext name
    rw [perform_others hcommits ht name (by simp [hnames]), hs]
  rw [hsame]
  exact hnext

theorem Going.commit {id : Option Nat} {change : DocumentChange}
    (haside : ∀ storyPath, aside ≠ .held storyPath) (hnothing : id = none → aside = .nothing)
    (hundo : id ≠ none → ∀ s : DocumentStore, s.files = files →
      Undoing maxFileBytes live (s.undoPlan call existing) aside files)
    (hcommit : ∀ s t : DocumentStore, s.files = files → s.transact change = some t →
      Steady live aside s → Steady (call.operation.live live) .nothing t)
    (hlater : ∀ later, later ∈ steps → Indirect later) :
    Going maxFileBytes live call existing (.commit id change :: steps) aside files := by
  refine ⟨fun storyPath heq => absurd heq (haside storyPath), ?_, ?_⟩
  · cases id with
    | none => exact hnothing rfl
    | some id => exact hundo nofun
  intro s t hfiles hstep hsteady
  have ⟨u, hu, ht⟩ := map_eq_some_iff.1 hstep
  have hcommitted := hcommit s u hfiles hu hsteady
  refine ⟨?_, hlater⟩
  rw [← ht]
  cases id with
  | none => exact hcommitted
  | some id => exact hcommitted.same rfl fun _ => rfl

section Write

variable {input : StoryWriteInput}

variable {title : Text} {change : DocumentChange}

theorem Steady.retitle {live' : List StoryPath} (hsteady : Steady live .nothing s)
    (hlive : ∀ other, other ∈ live' ↔ other ∈ live) :
    Steady live' .nothing { s with documents := retitleDocuments s.documents storyPath title } := by
  have hdocument : ∀ other,
      document? { s with documents := retitleDocuments s.documents storyPath title } other =
        (s.document? other).map fun document =>
          if document.storyPath = storyPath then { document with title } else document :=
    fun other => document?_retitle _ _ _ _
  constructor
  · intro other hother haside
    rw [hdocument, isSome_map]
    exact hsteady.indexed other ((hlive other).1 hother) haside
  · intro other hother haside
    exact hsteady.there other ((hlive other).1 hother) haside
  · intro other hindexed
    rw [hdocument, isSome_map] at hindexed
    exact (hlive other).2 (hsteady.live other hindexed)
  · intro other heq
    cases heq

theorem steady_rewrite (hsteady : Steady live .nothing s)
    (hlive : storyPath ∈ live) (hcommit : s.transact (.rewrite storyPath title) = some t) :
    Steady (storyPath :: live) .nothing t := by
  have ⟨_, _, ht⟩ := map_eq_some_iff.1 hcommit
  subst ht
  apply hsteady.retitle
  intro other
  rw [mem_cons]
  exact ⟨fun h => h.elim (fun heq => heq ▸ hlive) id, .inr⟩

theorem document?_insert {documents inserted : List StoryDocument} {document : StoryDocument}
    (h : s.insertDocument documents document = some inserted) (other : StoryPath) :
    (inserted.find? fun document => document.storyPath = other).isSome =
      (decide (other = document.storyPath) ||
        (documents.find? fun document => document.storyPath = other).isSome) := by
  have ⟨hinserted, hnone⟩ := insertDocument_eq h
  subst hinserted
  by_cases heq : other = document.storyPath
  · subst heq
    simp
  · rw [document?_append_of_ne heq]
    simp [heq]

theorem steady_index (hsteady : Steady live .nothing s)
    (hthere : (s.files (.document storyPath)).isSome)
    (hcommit : s.transact (.index storyPath title) = some t) :
    Steady (storyPath :: live) .nothing t := by
  have ⟨_, _, hcommit⟩ := bind_eq_some_iff.1 hcommit
  have ⟨documents, hinsert, ht⟩ := map_eq_some_iff.1 hcommit
  subst ht
  have hdocument := document?_insert hinsert
  constructor
  · intro other hother haside
    rw [document?, hdocument, Bool.or_eq_true, decide_eq_true_eq]
    rcases mem_cons.1 hother with heq | hother
    · exact .inl heq
    · exact .inr (hsteady.indexed other hother haside)
  · intro other hother haside
    rcases mem_cons.1 hother with heq | hother
    · rw [heq]; exact hthere
    · exact hsteady.there other hother haside
  · intro other hindexed
    rw [document?, hdocument, Bool.or_eq_true, decide_eq_true_eq] at hindexed
    rcases hindexed with heq | hindexed
    · rw [heq]; exact mem_cons_self
    · exact mem_cons_of_mem _ (hsteady.live other hindexed)
  · intro other heq
    cases heq

variable (hoperation : call.operation = .writeContent input)

include hoperation

variable (hexisting : existing.isSome ↔ input.storyPath ∈ live)

include hexisting

theorem going_placed
    (hcommit : ∀ s t : DocumentStore, Steady live .nothing s →
      (s.files (.document input.storyPath)).isSome → s.transact change = some t →
      Steady (input.storyPath :: live) .nothing t)
    (hplaced : (files (.document input.storyPath)).isSome) : Going maxFileBytes live call existing
      [.sync, .updateMutation call.mutationId .filesStaged,
        .commit (some call.mutationId) change, .removeFile (.backup input.storyPath call.mutationId),
        .updateMutation call.mutationId .cleanup, .deleteMutation call.mutationId]
      .nothing files := by
  have hundo : ∀ s : DocumentStore, s.files = files →
      Undoing maxFileBytes live (s.undoPlan call existing) .nothing files :=
    fun s hfiles => undoing_write hoperation hexisting (.inl rfl) hfiles
  apply Going.indirect_nothing ⟨rfl, fun _ => not_mem_nil⟩ hundo
  intro s t hs ht
  have hfiles : t.files = files := by rw [← some.inj ht, hs]
  rw [hfiles]
  apply Going.indirect_nothing ⟨rfl, fun _ => not_mem_nil⟩ hundo
  intro u v hu hv
  have hfiles' : v.files = files := by rw [← some.inj hv]; exact hu
  rw [hfiles']
  apply Going.commit (fun _ heq => by cases heq) (fun heq => by cases heq) fun _ => hundo
  · intro w x hw hx hsteady
    rw [hoperation]
    exact hcommit w x hsteady (by rw [hw]; exact hplaced) hx
  intro later hlater
  simp only [mem_cons, not_mem_nil, or_false] at hlater
  rcases hlater with rfl | rfl | rfl <;> exact ⟨rfl, fun _ => by simp [names]⟩

theorem going_prepared
    (hcommit : ∀ s t : DocumentStore, Steady live .nothing s →
      (s.files (.document input.storyPath)).isSome → s.transact change = some t →
      Steady (input.storyPath :: live) .nothing t) : Going maxFileBytes live call existing
      ((if existing.isSome then
          [.renameFile (.document input.storyPath) (.backup input.storyPath call.mutationId)]
        else []) ++
        [.renameFile (.temporary input.storyPath call.mutationId) (.document input.storyPath), .sync,
          .updateMutation call.mutationId .filesStaged, .commit (some call.mutationId) change,
          .removeFile (.backup input.storyPath call.mutationId),
          .updateMutation call.mutationId .cleanup, .deleteMutation call.mutationId])
      .nothing files := by
  have hundo : ∀ s : DocumentStore, s.files = files →
      Undoing maxFileBytes live (s.undoPlan call existing) .nothing files :=
    fun s hfiles => undoing_write hoperation hexisting (.inl rfl) hfiles
  cases hthere : existing.isSome with
  | true =>
    have hlive := hexisting.1 hthere
    refine ⟨fun _ _ => rfl, hundo, ?_⟩
    intro s t hs ht hsteady
    have ⟨content, _, hfiles⟩ := perform_renamed ht
    have hkept : (t.files (.backup input.storyPath call.mutationId)).isSome := by
      rw [hfiles, update_self]
      rfl
    refine ⟨.held input.storyPath, fun _ _ => rfl, ?_, fun _ _ => rfl, ?_, ?_⟩
    · apply hsteady.setAside (perform_documents rfl ht) rfl (.inl rfl) hlive
      intro other _ hne
      exact perform_others rfl ht _ (by simp [names, hne])
    · intro u hu
      exact undoing_write hoperation hexisting (.inr ⟨rfl, by exact hkept, hlive⟩) hu
    intro u v hu hv hheld
    have ⟨content', _, hfiles'⟩ := perform_renamed hv
    have hplaced : (v.files (.document input.storyPath)).isSome := by
      rw [hfiles', update_self]
      rfl
    refine ⟨.nothing, (fun _ heq => by cases heq), ?_,
      going_placed hoperation hexisting hcommit hplaced⟩
    apply hheld.restore (perform_documents rfl hv) rfl (hheld.held _ rfl) hplaced
    intro other _ hne
    exact perform_others rfl hv _ (by simp [names, hne])
  | false =>
    have hdead : input.storyPath ∉ live := fun hlive => by
      rw [hexisting.2 hlive] at hthere
      cases hthere
    refine ⟨(fun _ heq => by cases heq), hundo, ?_⟩
    intro s t hs ht hsteady
    have ⟨content, _, hfiles⟩ := perform_renamed ht
    have hplaced : (t.files (.document input.storyPath)).isSome := by
      rw [hfiles, update_self]
      rfl
    refine ⟨.nothing, (fun _ heq => by cases heq), ?_,
      going_placed hoperation hexisting hcommit hplaced⟩
    apply hsteady.unindexed (perform_documents rfl ht) hdead
    intro other hne
    exact perform_others rfl ht _ (by simp [names, hne])

theorem going_chunks
    (hnext : ∀ files, Going maxFileBytes live call existing steps .nothing files)
    (chunks : List Bytes) (files : FileName → Option Bytes) : Going maxFileBytes live call existing
      (chunks.map (.appendFile (.temporary input.storyPath call.mutationId)) ++
        steps) .nothing files := by
  induction chunks generalizing files with
  | nil => exact hnext files
  | cons chunk chunks ih =>
    apply Going.indirect_nothing ⟨rfl, fun _ => by simp [names]⟩
    · exact fun s hfiles => undoing_write hoperation hexisting (.inl rfl) hfiles
    · exact fun _ t _ _ => ih t.files

theorem going_write :
    Going maxFileBytes live call existing (writePlan call input existing) .nothing files := by
  have hundo : ∀ files, ∀ s : DocumentStore, s.files = files →
      Undoing maxFileBytes live (s.undoPlan call existing) .nothing files :=
    fun _ s hfiles => undoing_write hoperation hexisting (.inl rfl) hfiles
  unfold writePlan
  simp only [append_assoc]
  apply Going.indirect ⟨rfl, fun _ => not_mem_nil⟩ (fun heq => by cases heq) (fun _ => rfl)
    (fun _ heq => by cases heq)
  intro _ t _ _
  apply Going.indirect_nothing ⟨rfl, fun _ => by simp [names]⟩ (hundo _)
  intro _ u _ _
  apply going_chunks hoperation hexisting
  intro files
  apply Going.indirect_nothing ⟨rfl, fun _ => not_mem_nil⟩ (hundo _)
  intro _ v _ _
  apply Going.indirect_nothing ⟨rfl, fun _ => not_mem_nil⟩ (hundo _)
  intro _ w _ _
  apply going_prepared hoperation hexisting
  intro s t hsteady hthere hcommit
  cases existing with
  | some document => exact steady_rewrite hsteady (hexisting.1 rfl) hcommit
  | none => exact steady_index hsteady hthere hcommit

end Write

/-! ### A rename -/

section Rename

variable {currentPath : StoryPath} {title : Option Text} {next? : Option StoryPath}

variable {document : StoryDocument}

theorem steady_replacePath (hsteady : Steady live (.away currentPath) s)
    (hthere : (s.files (.document document.storyPath)).isSome)
    (hcommit : s.transact (.replacePath currentPath document) = some t) :
    Steady (document.storyPath :: live.filter (· ≠ currentPath)) .nothing t := by
  have ⟨documents, hinsert, ht⟩ := map_eq_some_iff.1 hcommit
  subst ht
  have hdocument := document?_insert hinsert
  have hmem : ∀ other, other ∈ live.filter (· ≠ currentPath) ↔ other ∈ live ∧ other ≠ currentPath := by
    simp
  constructor
  · intro other hother _
    rw [document?, hdocument, Bool.or_eq_true, decide_eq_true_eq]
    rcases mem_cons.1 hother with heq | hother
    · exact .inl heq
    have ⟨hlive, hne⟩ := (hmem other).1 hother
    right
    rw [document?_remove_of_ne hne]
    exact hsteady.indexed other hlive (by simp [Aside.path, Ne.symm hne])
  · intro other hother _
    rcases mem_cons.1 hother with heq | hother
    · rw [heq]; exact hthere
    · have ⟨hlive, hne⟩ := (hmem other).1 hother
      exact hsteady.there other hlive (by simp [Aside.path, Ne.symm hne])
  · intro other hindexed
    rw [document?, hdocument, Bool.or_eq_true, decide_eq_true_eq] at hindexed
    rcases hindexed with heq | hindexed
    · rw [heq]; exact mem_cons_self
    by_cases heq : other = currentPath
    · rw [heq, document?_remove_self] at hindexed
      cases hindexed
    · rw [document?_remove_of_ne heq] at hindexed
      exact mem_cons_of_mem _ ((hmem other).2 ⟨hsteady.live other hindexed, heq⟩)
  · intro other heq
    cases heq

variable (hoperation : call.operation = .updateDocument currentPath title next?)

include hoperation

theorem undoing_rename
    (hdead : nextPath currentPath next? ∉ live)
    (haside : (aside = .nothing ∧ files (.document (nextPath currentPath next?)) = none) ∨
      (aside = .away currentPath ∧ (files (.document (nextPath currentPath next?))).isSome ∧
        files (.document currentPath) = none)) (hfiles : s.files = files) :
    Undoing maxFileBytes live (s.undoPlan call existing) aside files := by
  subst hfiles
  unfold undoPlan
  simp only [hoperation]
  rcases haside with ⟨hnothing, hfree⟩ | ⟨haway, hmoved, hgone⟩
  · have hstill : s.existsSync (.document (nextPath currentPath next?)) = false := by
      rw [existsSync, hfree]
      rfl
    rw [hstill, hnothing]
    exact Undoing.deleteMutation call.mutationId
  have hthere : s.existsSync (.document (nextPath currentPath next?)) = true := hmoved
  have hnone : s.existsSync (.document currentPath) = false := by
    rw [existsSync, hgone]
    rfl
  rw [hthere, hnone, haway]
  apply Undoing.restore rfl hmoved
  intro other hother heq
  exact hdead (FileName.document.inj heq ▸ hother)

theorem going_update
    (hlive : currentPath ∈ live) (hfree : nextPath currentPath next? ≠ currentPath →
      nextPath currentPath next? ∉ live ∧ files (.document (nextPath currentPath next?)) = none) :
    Going maxFileBytes live call existing
      (updatePlan call currentPath (nextPath currentPath next?) title document) .nothing files := by
  unfold updatePlan
  by_cases hsame : nextPath currentPath next? = currentPath
  · rw [if_pos hsame]
    apply Going.commit (fun _ heq => by cases heq) (fun _ => rfl) (absurd rfl)
    · intro s t _ hcommit hsteady
      rw [← some.inj hcommit, hoperation]
      apply hsteady.retitle
      intro other
      simp only [DocumentOperation.live, hsame, mem_cons, mem_filter, decide_eq_true_eq]
      by_cases heq : other = currentPath
      · simp [heq, hlive]
      · simp [heq]
    · intro later hlater
      cases hlater
  · rw [if_neg hsame]
    have ⟨hdead, hnone⟩ := hfree hsame
    have hne : (FileName.document (nextPath currentPath next?)) ≠ .document currentPath := by
      simpa using hsame
    apply Going.indirect ⟨rfl, fun _ => not_mem_nil⟩ (fun heq => by cases heq) (fun _ => rfl)
      (fun _ heq => by cases heq)
    intro s t hs ht
    have htfiles : t.files = files := by
      have ⟨_, _, ht⟩ := map_eq_some_iff.1 ht
      rw [← ht, ← hs]
    rw [htfiles]
    refine ⟨(fun _ heq => by cases heq),
      fun _ hu => undoing_rename hoperation hdead (.inl ⟨rfl, hnone⟩) hu, ?_⟩
    intro u v hu hv hsteady
    have ⟨content, _, hmoved⟩ := perform_renamed hv
    have hplaced : (v.files (.document (nextPath currentPath next?))).isSome := by
      rw [hmoved, update_self]
      rfl
    have hgone : v.files (.document currentPath) = none := by
      rw [hmoved, update_of_ne hne.symm, update_self]
    have hundo : ∀ s : DocumentStore, s.files = v.files →
        Undoing maxFileBytes live (s.undoPlan call existing) (.away currentPath) v.files :=
      fun s hs => undoing_rename hoperation hdead (.inr ⟨rfl, hplaced, hgone⟩) hs
    refine ⟨.away currentPath, (fun _ heq => by cases heq), ?_, ?_⟩
    · apply hsteady.setAside (perform_documents rfl hv) rfl (.inl rfl) hlive
      intro other hother hother'
      apply perform_others rfl hv
      have hnext : other ≠ nextPath currentPath next? := fun heq => hdead (heq ▸ hother)
      simp [names, hother', hnext]
    have haside : ∀ storyPath, Aside.away currentPath ≠ .held storyPath :=
      fun _ heq => by cases heq
    apply Going.still rfl rfl rfl haside hundo
    apply Going.still rfl rfl rfl haside hundo
    apply Going.still rfl rfl rfl haside hundo
    apply Going.commit haside (fun heq => by cases heq) fun _ => hundo
    · intro w x hw hcommit haway
      rw [hoperation]
      apply steady_replacePath haway _ hcommit
      rw [hw]
      exact hplaced
    · intro later hlater
      simp only [mem_cons, not_mem_nil, or_false] at hlater
      rcases hlater with rfl | rfl <;> exact ⟨rfl, fun _ => not_mem_nil⟩

end Rename

/-! ### A deletion -/

theorem steady_remove (hsteady : Steady live (.away storyPath) s)
    (hcommit : s.transact (.remove storyPath) = some t) :
    Steady (live.filter (· ≠ storyPath)) .nothing t := by
  have ht := (some.inj hcommit).symm
  subst ht
  have hmem : ∀ other, other ∈ live.filter (· ≠ storyPath) ↔ other ∈ live ∧ other ≠ storyPath := by
    simp
  constructor
  · intro other hother _
    have ⟨hlive, hne⟩ := (hmem other).1 hother
    rw [document?, document?_remove_of_ne hne]
    exact hsteady.indexed other hlive (by simp [Aside.path, Ne.symm hne])
  · intro other hother _
    have ⟨hlive, hne⟩ := (hmem other).1 hother
    exact hsteady.there other hlive (by simp [Aside.path, Ne.symm hne])
  · intro other hindexed
    by_cases heq : other = storyPath
    · rw [heq, document?, document?_remove_self] at hindexed
      cases hindexed
    · rw [document?, document?_remove_of_ne heq] at hindexed
      exact (hmem other).2 ⟨hsteady.live other hindexed, heq⟩
  · intro other heq
    cases heq

section

variable (hoperation : call.operation = .deleteDocument storyPath)

include hoperation

theorem undoing_delete
    (haside : (aside = .nothing ∧ (files (.document storyPath)).isSome) ∨
      (aside = .away storyPath ∧ (files (.deleted storyPath call.deletedId)).isSome ∧
        files (.document storyPath) = none)) (hfiles : s.files = files) :
    Undoing maxFileBytes live (s.undoPlan call existing) aside files := by
  subst hfiles
  unfold undoPlan
  simp only [hoperation]
  rcases haside with ⟨hnothing, hthere⟩ | ⟨haway, hkept, hgone⟩
  · have hstill : s.existsSync (.document storyPath) = true := hthere
    rw [hstill, hnothing, Bool.not_true, Bool.and_false]
    exact Undoing.deleteMutation call.mutationId
  have hbackup : s.existsSync (.deleted storyPath call.deletedId) = true := hkept
  have hnone : s.existsSync (.document storyPath) = false := by
    rw [existsSync, hgone]
    rfl
  rw [hbackup, hnone, haway]
  apply Undoing.restore rfl hkept
  intro other _ heq
  cases heq

theorem going_delete
    (hlive : storyPath ∈ live) (hthere : (files (.document storyPath)).isSome) :
    Going maxFileBytes live call existing (deletePlan call storyPath) .nothing files := by
  have hundo : ∀ s : DocumentStore, s.files = files →
      Undoing maxFileBytes live (s.undoPlan call existing) .nothing files :=
    fun _ hs => undoing_delete hoperation (.inl ⟨rfl, hthere⟩) hs
  have hnothing : ∀ storyPath, Aside.nothing ≠ .held storyPath := fun _ heq => by cases heq
  apply Going.indirect ⟨rfl, fun _ => not_mem_nil⟩ (fun heq => by cases heq) (fun _ => rfl)
    (fun _ heq => by cases heq)
  intro s t hs ht
  have htfiles : t.files = files := by
    have ⟨_, _, ht⟩ := map_eq_some_iff.1 ht
    rw [← ht, ← hs]
  rw [htfiles]
  apply Going.still rfl rfl rfl hnothing hundo
  refine ⟨fun _ _ => rfl, hundo, ?_⟩
  intro u v hu hv hsteady
  have ⟨content, _, hmoved⟩ := perform_renamed hv
  have hkept : (v.files (.deleted storyPath call.deletedId)).isSome := by
    rw [hmoved, update_self]
    rfl
  have hgone : v.files (.document storyPath) = none := by
    rw [hmoved, update_of_ne (fun heq => by cases heq), update_self]
  have hundo' : ∀ s : DocumentStore, s.files = v.files →
      Undoing maxFileBytes live (s.undoPlan call existing) (.away storyPath) v.files :=
    fun _ hs => undoing_delete hoperation (.inr ⟨rfl, hkept, hgone⟩) hs
  have haside : ∀ other, Aside.away storyPath ≠ .held other := fun _ heq => by cases heq
  refine ⟨.away storyPath, (fun _ heq => by cases heq), ?_, ?_⟩
  · apply hsteady.setAside (perform_documents rfl hv) rfl (.inl rfl) hlive
    intro other _ hne
    exact perform_others rfl hv _ (by simp [names, hne])
  apply Going.still rfl rfl rfl haside hundo'
  apply Going.still rfl rfl rfl haside hundo'
  apply Going.commit haside (fun heq => by cases heq) fun _ => hundo'
  · intro w x _ hcommit haway
    rw [hoperation]
    exact steady_remove haway hcommit
  intro later hlater
  simp only [mem_cons, not_mem_nil, or_false] at hlater
  rcases hlater with rfl | rfl | rfl <;> exact ⟨rfl, fun _ => by simp [names]⟩

end

/-! ## The invariant -/

/-- What holds at a stage of a call. -/
def StageHolds (maxFileBytes : Nat) (live : List StoryPath) (call : DocumentCall) (aside : Aside)
    (s : DocumentStore) : CallStage → Prop
  | .requiring | .looking | .finished _ => aside = .nothing
  | .lookingNext _ => aside = .nothing ∧ (s.document? call.operation.path).isSome
  | .checking existing =>
    aside = .nothing ∧ existing.isSome = (s.document? call.operation.path).isSome ∧
      (∀ currentPath title next?, call.operation = .updateDocument currentPath title next? →
        nextPath currentPath next? ≠ currentPath →
        s.document? (nextPath currentPath next?) = none) ∧
      ∀ storyPath, call.operation = .deleteDocument storyPath → existing.isSome
  | .performing existing steps false => Going maxFileBytes live call existing steps aside s.files
  | .performing _ steps true => aside = .nothing ∧ ∀ later, later ∈ steps → Indirect later
  | .undoing steps _ => Undoing maxFileBytes live steps aside s.files

def CallHolds (maxFileBytes : Nat) (live : List StoryPath) (s : DocumentStore)
    (call : DocumentCall) (stage : CallStage) (synchronous : Bool) : Prop :=
  ∃ aside, Steady live aside s ∧ (∀ storyPath, aside = .held storyPath → synchronous = true) ∧
    StageHolds maxFileBytes live call aside s stage

variable {stage : CallStage} {synchronous : Bool}

theorem CallHolds.of_nothing (hsteady : Steady live .nothing s)
    (hstage : StageHolds maxFileBytes live call .nothing s stage) :
    CallHolds maxFileBytes live s call stage synchronous :=
  ⟨.nothing, hsteady, (fun _ heq => by cases heq), hstage⟩

theorem lookedUp_holds (hsteady : Steady live .nothing s) :
    CallHolds maxFileBytes live s call (lookedUp call (s.document? call.operation.path))
      synchronous := by
  apply CallHolds.of_nothing hsteady
  unfold lookedUp
  cases hoperation : call.operation with
  | writeContent input =>
    refine ⟨rfl, by rw [hoperation], ?_, ?_⟩
    · intro _ _ _ heq
      rw [hoperation] at heq
      cases heq
    intro _ heq
    rw [hoperation] at heq
    cases heq
  | updateDocument currentPath title next? =>
    cases hfound : s.document? (updateDocument currentPath title next?).path with
    | none => rfl
    | some document =>
      simp only
      split
      · rename_i hsame
        refine ⟨rfl, by rw [hoperation, hfound], ?_, ?_⟩
        · intro currentPath' title' next' heq hne
          rw [hoperation] at heq
          cases heq
          exact absurd hsame hne
        · intro _ _
          rfl
      · exact ⟨rfl, by rw [hoperation, hfound]; rfl⟩
  | deleteDocument storyPath =>
    cases hfound : s.document? (deleteDocument storyPath).path with
    | none => rfl
    | some document =>
      refine ⟨rfl, by rw [hoperation, hfound], ?_, fun _ _ => rfl⟩
      intro _ _ _ heq
      rw [hoperation] at heq
      cases heq

theorem Steady.isSome_iff (h : Steady live .nothing s) :
    (s.document? storyPath).isSome ↔ storyPath ∈ live :=
  ⟨h.live storyPath, fun hlive => h.indexed storyPath hlive nofun⟩

theorem going_checkCall (hsteady : Steady live .nothing s) {plan : List StoreStep}
    (hstage : StageHolds maxFileBytes live call .nothing s (.checking existing))
    (hcheck : s.checkCall maxFileBytes revision call existing = .ok plan) :
    Going maxFileBytes live call existing plan .nothing s.files := by
  have ⟨_, hexisting, hnext, hdelete⟩ := hstage
  have hok := checkCall_ok hcheck
  cases hoperation : call.operation with
  | writeContent input =>
    rw [hoperation] at hexisting hok
    have hlive : existing.isSome ↔ input.storyPath ∈ live := by
      rw [hexisting]
      exact hsteady.isSome_iff
    rw [hok.1]
    exact going_write hoperation hlive
  | updateDocument currentPath title next? =>
    rw [hoperation, path] at hexisting
    rw [hoperation] at hok
    have ⟨document, hfound, hplan, hfree⟩ := hok
    have hlive : currentPath ∈ live := by
      apply hsteady.live
      rw [← hexisting, hfound]
      rfl
    rw [hplan]
    apply going_update hoperation hlive
    intro hne
    refine ⟨?_, hfree hne⟩
    intro hmem
    have hindexed := hsteady.isSome_iff.2 hmem
    rw [hnext currentPath title next? hoperation hne] at hindexed
    cases hindexed
  | deleteDocument storyPath =>
    rw [hoperation, path] at hexisting
    rw [hoperation] at hok
    have hlive : storyPath ∈ live := by
      apply hsteady.live
      rw [← hexisting]
      exact hdelete storyPath hoperation
    rw [show plan = deletePlan call storyPath from hok]
    exact going_delete hoperation hlive (hsteady.there storyPath hlive nofun)

theorem thrown_holds {error : StoryError} (hsteady : Steady live aside s)
    (hgoing : Going maxFileBytes live call existing (step :: steps) aside s.files) :
    CallHolds maxFileBytes live s call (s.thrown call existing step false error)
      step.synchronous := by
  unfold thrown
  have ⟨hheld, hundo, _⟩ := hgoing
  cases hguarded : step.guarded with
  | true =>
    rw [hguarded] at hundo
    exact ⟨aside, hsteady, hheld, hundo s rfl⟩
  | false =>
    rw [hguarded] at hundo
    have hnothing : aside = .nothing := hundo
    subst hnothing
    exact .of_nothing hsteady rfl

theorem advanceCall_live (σ : StoryTraffic) (call : DocumentCall) (stage : CallStage)
    (choice : StepChoice) (hcommits : commits stage choice = false) :
    (σ.advanceCall maxFileBytes revision call stage choice).live = σ.live := by
  simp [advanceCall, hcommits]

theorem performing_advance (hsteady : Steady σ.live aside σ.store)
    (hgoing : Going maxFileBytes σ.live call existing (step :: steps) aside σ.store.files)
    (choice : StepChoice) : let stage : CallStage := .performing existing (step :: steps) false
    let τ := σ.advanceCall maxFileBytes revision call stage choice
    CallHolds maxFileBytes τ.live τ.store call
      (advance maxFileBytes revision call σ.store stage choice).2 step.synchronous := by
  intro stage τ
  cases choice with
  | throws => exact thrown_holds hsteady hgoing
  | done =>
    cases hstep : σ.store.perform maxFileBytes step with
    | none =>
      have hlive : τ.live = σ.live := by simp [τ, stage, advanceCall, CallStage.next, hstep]
      have hstore : τ.store = σ.store := by simp [τ, stage, advanceCall, advance, hstep]
      rw [hlive, hstore]
      simp only [stage, advance, hstep]
      exact thrown_holds hsteady hgoing
    | some t =>
      have hstore : τ.store = t := by simp [τ, stage, advanceCall, advance, hstep]
      have hnext := hgoing.2.2 σ.store t rfl hstep hsteady
      simp only [stage, advance, hstep, Bool.false_or]
      rw [hstore]
      cases hcommits : step.commits with
      | true =>
        rw [hcommits] at hnext
        have hlive : τ.live = call.operation.live σ.live := by
          simp [τ, stage, advanceCall, CallStage.next, commits, hstep, hcommits]
        rw [hlive]
        exact .of_nothing hnext.1 ⟨rfl, hnext.2⟩
      | false =>
        rw [hcommits] at hnext
        have ⟨aside', hheld, hsteady', hgoing'⟩ := hnext
        have hlive : τ.live = σ.live := advanceCall_live σ call stage .done hcommits
        rw [hlive]
        exact ⟨aside', hsteady', hheld, hgoing'⟩

variable (revision) in
theorem call_advance {choice : StepChoice} (hlock : σ.lock = .writing call stage synchronous)
    (hchoice : choice = .throws → ∀ steps error, stage ≠ .undoing steps error)
    (hcautious : Cautious σ (.advance choice))
    (h : CallHolds maxFileBytes σ.live σ.store call stage synchronous) :
    let τ := σ.advanceCall maxFileBytes revision call stage choice
    CallHolds maxFileBytes τ.live τ.store call
      (advance maxFileBytes revision call σ.store stage choice).2
      (stage.next.any StoreStep.synchronous) := by
  have ⟨aside, hsteady, hheld, hstage⟩ := h
  intro τ
  have hlive (hcommits : commits stage choice = false) : τ.live = σ.live :=
    advanceCall_live σ call stage choice hcommits
  cases stage with
  | requiring =>
    have hnothing : aside = .nothing := hstage
    subst hnothing
    rw [hlive rfl]
    cases choice with
    | throws => exact .of_nothing hsteady rfl
    | done =>
      simp only [τ, advanceCall, advance]
      split
      · exact .of_nothing hsteady rfl
      · exact .of_nothing hsteady rfl
      · split
        · exact .of_nothing hsteady rfl
        · exact .of_nothing hsteady rfl
  | looking =>
    have hnothing : aside = .nothing := hstage
    subst hnothing
    rw [hlive rfl]
    cases choice with
    | throws => exact .of_nothing hsteady rfl
    | done => exact lookedUp_holds hsteady
  | lookingNext existing =>
    have ⟨hnothing, hindexed⟩ := hstage
    subst hnothing
    rw [hlive rfl]
    simp only [τ, advanceCall, advance]
    split
    · rename_i currentPath title next? hoperation
      split
      · exact .of_nothing hsteady rfl
      rename_i hnone
      refine .of_nothing hsteady ⟨rfl, hindexed.symm, ?_, fun _ _ => rfl⟩
      intro currentPath' title' next' heq _
      rw [hoperation] at heq
      cases heq
      exact not_isSome_iff_eq_none.1 hnone
    · exact .of_nothing hsteady rfl
  | checking existing =>
    have hnothing : aside = .nothing := hstage.1
    subst hnothing
    rw [hlive rfl]
    cases choice with
    | throws => exact .of_nothing hsteady rfl
    | done =>
      simp only [τ, advanceCall, advance]
      split
      · exact .of_nothing hsteady rfl
      · rename_i plan hcheck
        exact .of_nothing hsteady (going_checkCall hsteady hstage hcheck)
  | performing existing steps committed =>
    cases committed with
    | false =>
      cases steps with
      | nil => exact hstage.elim
      | cons step steps => exact performing_advance hsteady hstage choice
    | true =>
      have ⟨hnothing, hindirect⟩ := hstage
      subst hnothing
      cases steps with
      | nil =>
        rw [hlive rfl]
        exact .of_nothing hsteady rfl
      | cons step steps =>
        have hstep := hindirect step mem_cons_self
        have hcommits : commits (.performing existing (step :: steps) true) choice = false := by
          cases choice with
          | done => exact hstep.1
          | throws => rfl
        rw [hlive hcommits]
        have hthrown : ∀ error, σ.store.thrown call existing step true error =
            .finished (.error error) := by
          intro error
          simp [thrown]
        simp only [τ, advanceCall, advance]
        split
        · rename_i t ht
          refine .of_nothing (hsteady.indirect hstep ht) ⟨rfl, ?_⟩
          intro later hlater
          exact hindirect later (mem_cons_of_mem _ hlater)
        · rw [hthrown]
          exact .of_nothing hsteady rfl
        · rw [hthrown]
          exact .of_nothing hsteady rfl
  | undoing steps error =>
    cases choice with
    | throws => exact absurd rfl (hchoice rfl steps error)
    | done =>
      cases steps with
      | nil =>
        have hnothing : aside = .nothing := hstage
        subst hnothing
        rw [hlive rfl]
        exact .of_nothing hsteady rfl
      | cons step steps =>
        have ⟨hcommits, _, hundoing⟩ := hstage
        have ⟨t, ht, hrest⟩ := hundoing σ.store rfl
        have hstore : τ.store = t := by simp [τ, advanceCall, advance, ht]
        have hback : ∀ source storyPath, step = .renameFile source (.document storyPath) →
            (σ.store.document? storyPath).isSome := by
          intro source storyPath heq
          subst heq
          simpa only [Cautious, hlock] using hcautious
        have ⟨aside', hheld', hsteady', hundoing'⟩ := hrest hsteady hback
        rw [hlive rfl, hstore]
        simp only [advance, ht]
        exact ⟨aside', hsteady', hheld', hundoing'⟩
  | finished result =>
    have hnothing : aside = .nothing := hstage
    subst hnothing
    rw [hlive rfl]
    exact .of_nothing hsteady rfl

/-! ### Readers -/

theorem remove_nothing (hsteady : Steady live .nothing s)
    (hcautious : (s.document? storyPath).isSome → s.files (.document storyPath) = none) :
    { s with documents := removeDocument s.documents storyPath } = s := by
  have habsent : s.document? storyPath = none := by
    by_contra hfound
    have hindexed := isSome_iff_ne_none.2 hfound
    have hthere := hsteady.there storyPath (hsteady.live storyPath hindexed) nofun
    rw [hcautious hindexed] at hthere
    cases hthere
  have hsame : removeDocument s.documents storyPath = s.documents := by
    rw [removeDocument, filter_eq_self]
    intro document hmem
    have hne := find?_eq_none.1 habsent document hmem
    simpa using hne
  rw [hsame]

theorem stage_remove (hsteady : Steady live aside s)
    (hcautious : (s.document? storyPath).isSome → s.files (.document storyPath) = none)
    (h : StageHolds maxFileBytes live call aside s stage) : StageHolds maxFileBytes live call aside
      { s with documents := removeDocument s.documents storyPath } stage := by
  cases stage with
  | requiring => exact h
  | looking => exact h
  | lookingNext existing =>
    have hnothing : aside = .nothing := h.1
    subst hnothing
    rw [remove_nothing hsteady hcautious]
    exact h
  | checking existing =>
    have hnothing : aside = .nothing := h.1
    subst hnothing
    rw [remove_nothing hsteady hcautious]
    exact h
  | performing existing steps committed => cases committed <;> exact h
  | undoing steps error => exact h
  | finished result => exact h

theorem stage_held (h : StageHolds maxFileBytes live call aside s stage)
    (hheld : aside = .held storyPath) : stage.next.any StoreStep.synchronous = true := by
  subst hheld
  cases stage with
  | requiring => cases h
  | looking => cases h
  | lookingNext existing => cases h.1
  | checking existing => cases h.1
  | performing existing steps committed =>
    cases committed with
    | false =>
      cases steps with
      | nil => exact h.elim
      | cons step steps => exact h.1 storyPath rfl
    | true => cases h.1
  | undoing steps error =>
    cases steps with
    | nil => cases h
    | cons step steps => exact h.2.1 storyPath rfl
  | finished result => cases h

end Steps

/-! ## Every run -/

section Runs

variable {maxFileBytes : Nat} {revision : Bytes → String} {σ τ : StoryTraffic}

/-- Whoever holds the lock, each live document has its entry and its file, but for the one the call
in progress has set aside. -/
def Inv (maxFileBytes : Nat) (σ : StoryTraffic) : Prop :=
  match σ.lock with
  | .free | .reading _ _ => Steady σ.live .nothing σ.store
  | .writing call stage synchronous => CallHolds maxFileBytes σ.live σ.store call stage synchronous

theorem Inv.of_steady (hlock : ∀ call stage synchronous, σ.lock ≠ .writing call stage synchronous)
    (h : Steady σ.live .nothing σ.store) : Inv maxFileBytes σ := by
  unfold Inv
  cases hlocked : σ.lock with
  | free => exact h
  | reading storyPath stage => exact h
  | writing call stage synchronous => exact absurd hlocked (hlock call stage synchronous)

variable {choice : StepChoice}

theorem Inv.advanceCall {call : DocumentCall} {stage : CallStage} {synchronous : Bool}
    (h : Inv maxFileBytes σ) (hlock : σ.lock = .writing call stage synchronous)
    (hchoice : choice = .throws → ∀ steps error, stage ≠ .undoing steps error)
    (hcautious : Cautious σ (.advance choice)) :
    Inv maxFileBytes (σ.advanceCall maxFileBytes revision call stage choice) := by
  unfold Inv at h
  rw [hlock] at h
  have hnext := call_advance revision hlock hchoice hcautious h
  change match lockBehind call (advance maxFileBytes revision call σ.store stage choice).2
    (stage.next.any StoreStep.synchronous) with
    | .free | .reading _ _ => _
    | .writing call stage synchronous => _
  generalize (advance maxFileBytes revision call σ.store stage choice).2 = stage' at hnext ⊢
  cases stage' with
  | finished result =>
    have ⟨aside, hsteady, _, hnothing⟩ := hnext
    exact hnothing ▸ hsteady
  | requiring => exact hnext
  | looking => exact hnext
  | lookingNext existing => exact hnext
  | checking existing => exact hnext
  | performing existing steps committed => exact hnext
  | undoing steps error => exact hnext

variable {storyPath : StoryPath}

section

variable (h : Inv maxFileBytes σ)

include h

theorem Inv.advanceContent {stage : ContentStage} (hlock : σ.lock = .reading storyPath stage) :
    Inv maxFileBytes (σ.advanceContent maxFileBytes storyPath stage choice) := by
  unfold Inv at h
  rw [hlock] at h
  have hsame : (σ.advanceContent maxFileBytes storyPath stage choice).store = σ.store ∧
      (σ.advanceContent maxFileBytes storyPath stage choice).live = σ.live ∧
      ∀ call stage' synchronous, (σ.advanceContent maxFileBytes storyPath stage choice).lock ≠
          .writing call stage' synchronous := by
    unfold StoryTraffic.advanceContent
    split <;> (try split) <;> (try split) <;> exact ⟨rfl, rfl, fun _ _ _ => nofun⟩
  have ⟨hstore, hlive, hlocked⟩ := hsame
  apply Inv.of_steady hlocked
  rw [hstore, hlive]
  exact h

theorem Inv.remove {readers : List (List ReaderTask)} (hbusy : σ.busy = false)
    (hcautious : (σ.store.document? storyPath).isSome →
      σ.store.files (.document storyPath) = none) : Inv maxFileBytes { σ with
      store := { σ.store with documents := removeDocument σ.store.documents storyPath }
      readers } := by
  unfold Inv at h ⊢
  unfold busy at hbusy
  cases hlock : σ.lock with
  | free =>
    rw [hlock] at h
    exact h.remove (fun _ heq => by cases heq) hcautious
  | reading path stage =>
    rw [hlock] at h
    exact h.remove (fun _ heq => by cases heq) hcautious
  | writing call stage synchronous =>
    rw [hlock] at h hbusy
    have ⟨aside, hsteady, hheld, hstage⟩ := h
    have hlet : ∀ other, aside ≠ .held other := by
      intro other heq
      have hsynchronous := hheld other heq
      have hnext := stage_held hstage heq
      simp [hsynchronous, hnext] at hbusy
    exact ⟨aside, hsteady.remove hlet hcautious, hheld, stage_remove hsteady hcautious hstage⟩

theorem Inv.readers (readers : List (List ReaderTask)) : Inv maxFileBytes { σ with readers } := h

theorem Inv.advanceReader {reader : Nat} (hbusy : σ.busy = false)
    (hcautious : Cautious σ (.advanceReader reader choice))
    (hstep : σ.advanceReader maxFileBytes reader choice = some τ) : Inv maxFileBytes τ := by
  unfold StoryTraffic.advanceReader at hstep
  split at hstep
  · cases hstep
    exact h.readers _
  · rename_i task rest hreader
    cases hstep
    cases task with
    | list => exact h.readers _
    | openFile storyPath =>
      simp only [performTask]
      split <;> exact h.readers _
    | repair storyPath => exact h.readers _
    | remove storyPath =>
      simp only [Cautious, hreader] at hcautious
      exact h.remove hbusy hcautious
  · cases hstep

theorem Inv.turn {action : StoryAction} (hcautious : Cautious σ action)
    (hturn : σ.turn maxFileBytes revision action = some τ) : Inv maxFileBytes τ := by
  cases action with
  | begin call =>
    cases hlock : σ.lock <;> simp only [StoryTraffic.turn, hlock, reduceCtorEq] at hturn
    cases hturn
    unfold Inv at h
    rw [hlock] at h
    exact CallHolds.of_nothing h rfl
  | advance choice =>
    cases hlock : σ.lock with
    | free => cases choice <;> simp [StoryTraffic.turn, hlock] at hturn
    | reading storyPath stage => cases choice <;> simp [StoryTraffic.turn, hlock] at hturn
    | writing call stage synchronous =>
      cases choice with
      | done =>
        simp only [StoryTraffic.turn, hlock, some.injEq] at hturn
        rw [← hturn]
        exact h.advanceCall hlock nofun hcautious
      | throws =>
        cases stage <;> simp only [StoryTraffic.turn, hlock, some.injEq, reduceCtorEq]
          at hturn
        all_goals
          rw [← hturn]
          exact h.advanceCall hlock (fun _ _ _ => nofun) hcautious
  | beginContent storyPath =>
    cases hlock : σ.lock <;> simp only [StoryTraffic.turn, hlock, reduceCtorEq] at hturn
    cases hturn
    unfold Inv at h
    rw [hlock] at h
    exact h
  | advanceContent choice =>
    cases hlock : σ.lock <;> simp only [StoryTraffic.turn, hlock, reduceCtorEq] at hturn
    cases hturn
    exact h.advanceContent hlock
  | beginProjection =>
    obtain ⟨-, hturn⟩ := ite_none_left_eq_some.1 hturn
    cases hturn
    exact h.readers _
  | advanceReader reader choice =>
    obtain ⟨hbusy, hturn⟩ := ite_none_left_eq_some.1 hturn
    exact h.advanceReader (Bool.not_eq_true _ ▸ hbusy) hcautious hturn

end

theorem Started.inv (h : Started σ) : Inv maxFileBytes σ := by
  unfold Inv
  rw [h.free]
  constructor
  · intro storyPath hlive _
    exact (h.live storyPath).1 hlive
  · intro storyPath hlive _
    exact h.there storyPath ((h.live storyPath).1 hlive)
  · intro storyPath hindexed
    exact (h.live storyPath).2 hindexed
  · intro storyPath heq
    cases heq

theorem Run.inv (h : Run maxFileBytes revision Cautious σ τ) (hinv : Inv maxFileBytes σ) :
    Inv maxFileBytes τ := by
  induction h with
  | refl => exact hinv
  | step _ hcautious hturn ih => exact ih.turn hcautious hturn

/-- In a run whose repairs remove no entry of a file that is there and whose handlers put no file
back without its entry, each live document is indexed with its file whenever no operation runs. -/
theorem live_indexed (hrun : Run maxFileBytes revision Cautious σ τ) (hstarted : Started σ)
    (hfree : τ.lock = .free) (storyPath : StoryPath) (hlive : storyPath ∈ τ.live) :
    (τ.store.document? storyPath).isSome ∧ (τ.store.files (.document storyPath)).isSome := by
  have hinv := hrun.inv hstarted.inv
  unfold Inv at hinv
  rw [hfree] at hinv
  exact ⟨hinv.indexed storyPath hlive nofun, hinv.there storyPath hlive nofun⟩

/-! ## Runs over one document -/

def undisturbed : StoryTraffic := ⟨oneDocument, .free, [], ["notes.md"]⟩

theorem undisturbed_started : Started undisturbed := by
  have hdocument : ∀ storyPath, (oneDocument.document? storyPath).isSome ↔ storyPath = "notes.md" := by
    intro storyPath
    by_cases heq : "notes.md" = storyPath
    · simp [document?, oneDocument, heq]
    · simp [document?, oneDocument, heq, Ne.symm heq]
  refine ⟨rfl, rfl, ?_, ?_⟩
  · intro storyPath
    rw [undisturbed, hdocument, mem_singleton]
  intro storyPath hindexed
  rw [undisturbed, hdocument] at hindexed
  subst hindexed
  rfl

theorem free_of_check {lock : StoryLock}
    (h : (match lock with | .free => true | _ => false) = true) : lock = .free := by
  cases lock with
  | free => rfl
  | writing call stage synchronous => cases h
  | reading storyPath stage => cases h

/-- The actions of a list, one after the other, as long as each meets a condition. -/
def turnAll (condition : StoryTraffic → StoryAction → Prop) [∀ σ a, Decidable (condition σ a)]
    (σ : StoryTraffic) (actions : List StoryAction) : Option StoryTraffic :=
  actions.foldlM (fun σ action =>
    if condition σ action then σ.turn 100 (fun _ => "") action else none) σ

theorem turnAll_run {condition : StoryTraffic → StoryAction → Prop}
    [∀ σ a, Decidable (condition σ a)] {actions : List StoryAction}
    (h : turnAll condition σ actions = some τ) : Run 100 (fun _ => "") condition σ τ := by
  have hrun : ∀ υ, Run 100 (fun _ => "") condition σ υ →
      turnAll condition υ actions = some τ → Run 100 (fun _ => "") condition σ τ := by
    clear h
    induction actions with
    | nil =>
      intro υ hυ h
      exact some.inj h ▸ hυ
    | cons action actions ih =>
      intro υ hυ h
      have ⟨ω, hω, hrest⟩ := bind_eq_some_iff.1 h
      have ⟨hmet, hturn⟩ := ite_none_right_eq_some.1 hω
      exact ih ω (hυ.step hmet hturn) hrest
  exact hrun σ (.refl σ) h

/-- A renaming, and a listing that begins before it and finds the file gone. -/
def listedWhileRenamed : List StoryAction :=
  .begin ⟨.updateDocument "notes.md" none (some "log.md"), 0, 1⟩ ::
    List.replicate 5 (.advance .done) ++ .beginProjection :: List.replicate 3 (.advance .done) ++
    List.replicate 2 (.advanceReader 0 .done) ++
    [.advance .done, .advanceReader 0 .done, .advance .done, .advanceReader 0 .done, .advance .done] ++
    List.replicate 2 (.advanceReader 0 .done) ++ List.replicate 2 (.advance .done)

theorem live_indexed_example : ∃ τ, turnAll Cautious undisturbed listedWhileRenamed = some τ ∧
    (τ.store.document? "log.md").isSome ∧ (τ.store.files (.document "log.md")).isSome := by
  have hcheck : (turnAll Cautious undisturbed listedWhileRenamed).any (fun τ =>
      (match τ.lock with | .free => true | _ => false) && τ.readers.all (·.isEmpty) &&
        decide ("log.md" ∈ τ.live)) = true := by decide +kernel
  cases hrun : turnAll Cautious undisturbed listedWhileRenamed with
  | none => simp [hrun] at hcheck
  | some τ =>
    simp only [hrun, any_some, Bool.and_eq_true, decide_eq_true_eq] at hcheck
    have ⟨⟨hlock, _⟩, hlive⟩ := hcheck
    refine ⟨τ, rfl, live_indexed (turnAll_run hrun) undisturbed_started ?_ "log.md" hlive⟩
    exact free_of_check hlock

/-- A deletion whose record cannot be updated, and a listing that begins before it, finds the file
aside and removes its entry behind the handler's renaming. -/
def listedWhileAside : List StoryAction :=
  .begin ⟨.deleteDocument "notes.md", 0, 1⟩ :: List.replicate 4 (.advance .done) ++
    .beginProjection :: List.replicate 3 (.advance .done) ++
    List.replicate 2 (.advanceReader 0 .done) ++
    [.advance .throws, .advance .done, .advanceReader 0 .done, .advance .done,
      .advanceReader 0 .done, .advance .done, .advanceReader 0 .done]

/-- The listing removes the entry of a document whose deletion is rolled back. -/
theorem listing_unindexes_restored :
    ∃ τ, Run 100 (fun _ => "") (fun _ _ => True) undisturbed τ ∧ Idle τ ∧ "notes.md" ∈ τ.live ∧
      (τ.store.files (.document "notes.md")).isSome ∧ τ.store.document? "notes.md" = none := by
  have hrun : (turnAll (fun _ _ => True) undisturbed listedWhileAside).isSome := by decide +kernel
  have ⟨τ, hτ⟩ := isSome_iff_exists.1 hrun
  refine ⟨τ, turnAll_run hτ, ?_⟩
  have hcheck : (turnAll (fun _ _ => True) undisturbed listedWhileAside).any (fun τ =>
      (match τ.lock with | .free => true | _ => false) && τ.readers.all (·.isEmpty) &&
        decide ("notes.md" ∈ τ.live) && (τ.store.files (.document "notes.md")).isSome &&
        (τ.store.document? "notes.md").isNone) = true := by decide +kernel
  rw [hτ] at hcheck
  simp only [any_some, Bool.and_eq_true, List.all_eq_true, decide_eq_true_eq,
    isNone_iff_eq_none, List.isEmpty_iff] at hcheck
  have ⟨⟨⟨⟨hlock, hreaders⟩, hlive⟩, hfile⟩, hgone⟩ := hcheck
  exact ⟨⟨free_of_check hlock, hreaders⟩, hlive, hfile, hgone⟩

end Runs

end StoryTraffic

end TaskHandoff.Stories
