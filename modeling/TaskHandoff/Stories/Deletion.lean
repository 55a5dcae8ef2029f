import TaskHandoff.Lib.Machine
import TaskHandoff.Lib.OrderedMap
import Mathlib.Logic.Function.Basic

/-! # Deleting a story

`StoryCommandService.delete` moves the content directory of a story into the trash, deletes its
rows in one transaction and removes the trash copy. An intent in the database says how far it came,
and `init` finishes or undoes what a crash interrupted. -/

namespace TaskHandoff.Stories

open Function OrderedMap

abbrev StoryId := String

inductive DeletionPhase where
  | prepared
  | filesStaged
  | databaseCommitted
  | cleanup

structure DeletionIntent where
  phase : DeletionPhase
  trashName : Option String

inductive StoryAutomationRunStatus where
  | queued
  | dispatching
  | running
  | completed
  | failed
  | skipped
deriving DecidableEq

def StoryAutomationRunStatus.isTerminal : StoryAutomationRunStatus → Bool
  | .completed | .failed | .skipped => true
  | .queued | .dispatching | .running => false

/-- What a deletion reads and deletes of an automation. -/
structure OwnedAutomation where
  id : Nat
  storyId : StoryId

structure OwnedRun where
  id : Nat
  automationId : Nat
  status : StoryAutomationRunStatus

/-- The tables and directories a deletion works on. A story record stands for the row of the story
and the rows that the database deletes with it. -/
structure DeletionStore (ρ κ : Type) where
  stories : OrderedMap StoryId ρ
  automations : List OwnedAutomation
  runs : List OwnedRun
  intents : OrderedMap StoryId DeletionIntent
  storyRoot : StoryId → Option κ
  storyTrash : String → Option κ

namespace DeletionStore

variable {ρ κ : Type}

def ownsRun (s : DeletionStore ρ κ) (storyId : StoryId) (run : OwnedRun) : Bool :=
  s.automations.any fun automation => automation.id = run.automationId && automation.storyId = storyId

def activeForStory (s : DeletionStore ρ κ) (storyId : StoryId) : List OwnedRun :=
  s.runs.filter fun run => s.ownsRun storyId run && !run.status.isTerminal

def putIntent (s : DeletionStore ρ κ) (storyId : StoryId) (phase : DeletionPhase)
    (trashName : Option String) : DeletionStore ρ κ :=
  { s with intents := s.intents.set storyId ⟨phase, trashName⟩ }

def deleteIntent (s : DeletionStore ρ κ) (storyId : StoryId) : DeletionStore ρ κ :=
  { s with intents := s.intents.erase storyId }

/-- Rename the content directory to a trash name. -/
def stage (s : DeletionStore ρ κ) (storyId : StoryId) (trashName : String) : DeletionStore ρ κ :=
  { s with
    storyRoot := Function.update s.storyRoot storyId none
    storyTrash := Function.update s.storyTrash trashName (s.storyRoot storyId) }

/-- Rename the trash copy back, when there is one and its place is free. -/
def restore (s : DeletionStore ρ κ) (storyId : StoryId) (trashName : String) : DeletionStore ρ κ :=
  if (s.storyTrash trashName).isSome && (s.storyRoot storyId).isNone then
    { s with
      storyRoot := Function.update s.storyRoot storyId (s.storyTrash trashName)
      storyTrash := Function.update s.storyTrash trashName none }
  else s

def setTrash (s : DeletionStore ρ κ) (trashName : String) (content : Option κ) :
    DeletionStore ρ κ :=
  { s with storyTrash := Function.update s.storyTrash trashName content }

/-- Delete the automations of the story with their runs, and the story. -/
def deleteRows (s : DeletionStore ρ κ) (storyId : StoryId) : DeletionStore ρ κ :=
  { s with
    automations := s.automations.filter fun automation => automation.storyId ≠ storyId
    runs := s.runs.filter fun run => !s.ownsRun storyId run
    stories := s.stories.erase storyId }

/-! ## The steps of a deletion -/

/-- The next file or database step. -/
inductive DeletePc where
  | putPrepared
  | stageFiles
  | syncRoot
  | syncTrash
  | putStaged
  | commit
  | removeTrash
  | putCleanup
  | dropIntent
  | lookup
  | restoreFiles
  | dropRestored
  | finished
deriving DecidableEq

structure Deletion (ρ κ : Type) where
  store : DeletionStore ρ κ
  pc : DeletePc
  staged : Bool

/-- What happens to a step: it is done, it throws, or a removal gets through a part of the
directory. -/
inductive DeleteChoice (κ : Type) where
  | done
  | throws
  | partly (rest : κ)

variable (storyId : StoryId) (trashName : String)

/-- The trash name the intent records. -/
def recordedName (staged : Bool) : Option String := if staged then some trashName else none

/-- Where a throw in a step leads: into the handler, or out of the call. -/
def DeletePc.thrown : DeletePc → DeletePc
  | .putPrepared | .lookup | .restoreFiles | .dropRestored | .finished => .finished
  | .stageFiles | .syncRoot | .syncTrash | .putStaged | .commit | .removeTrash | .putCleanup
  | .dropIntent => .lookup

def doneStep (d : Deletion ρ κ) : Deletion ρ κ :=
  let s := d.store
  match d.pc with
  | .putPrepared => { d with store := s.putIntent storyId .prepared none, pc := .stageFiles }
  | .stageFiles =>
    if (s.storyRoot storyId).isSome then
      { store := s.stage storyId trashName, pc := .syncRoot, staged := true }
    else { d with pc := .putStaged }
  | .syncRoot => { d with pc := .syncTrash }
  | .syncTrash => { d with pc := .putStaged }
  | .putStaged =>
    { d with
      store := s.putIntent storyId .filesStaged (recordedName trashName d.staged)
      pc := .commit }
  | .commit =>
    if s.activeForStory storyId = [] then
      { d with
        store := (s.deleteRows storyId).putIntent storyId .databaseCommitted
          (recordedName trashName d.staged)
        pc := .removeTrash }
    else { d with pc := .lookup }
  | .removeTrash =>
    { d with
      store := if d.staged then s.setTrash trashName none else s
      pc := .putCleanup }
  | .putCleanup =>
    { d with
      store := s.putIntent storyId .cleanup (recordedName trashName d.staged)
      pc := .dropIntent }
  | .dropIntent => { d with store := s.deleteIntent storyId, pc := .finished }
  | .lookup => { d with pc := if s.stories.contains storyId then .restoreFiles else .finished }
  | .restoreFiles => { d with store := s.restore storyId trashName, pc := .dropRestored }
  | .dropRestored => { d with store := s.deleteIntent storyId, pc := .finished }
  | .finished => d

def deleteStep (d : Deletion ρ κ) : DeleteChoice κ → Deletion ρ κ
  | .done => doneStep storyId trashName d
  | .throws => { d with pc := d.pc.thrown }
  | .partly rest =>
    match d.pc, d.staged with
    | .removeTrash, true => { d with store := d.store.setTrash trashName (some rest) }
    | _, _ => d

/-- `deleteCoordinated` of a story, cut after the steps of a list. -/
def deleteCoordinated (s : DeletionStore ρ κ) (choices : List (DeleteChoice κ)) : Deletion ρ κ :=
  choices.foldl (deleteStep storyId trashName) ⟨s, .putPrepared, false⟩

/-! ## Recovery -/

/-- Finish or undo one interrupted deletion. -/
def recoverIntent (s : DeletionStore ρ κ) (entry : StoryId × DeletionIntent) : DeletionStore ρ κ :=
  let files :=
    match entry.2.trashName with
    | none => s
    | some trashName =>
      if s.stories.contains entry.1 then s.restore entry.1 trashName
      else s.setTrash trashName none
  files.deleteIntent entry.1

def init (s : DeletionStore ρ κ) : DeletionStore ρ κ := s.intents.entries.foldl recoverIntent s

/-! ## What a deletion may leave -/

/-- The story with its automations and its content directory is as it was. -/
structure Kept (before after : DeletionStore ρ κ) : Prop where
  record : after.stories.get? storyId = before.stories.get? storyId
  automations : after.automations = before.automations
  runs : after.runs = before.runs
  content : after.storyRoot storyId = before.storyRoot storyId

/-- Nothing of the story is left, and no trash copy of it. -/
structure Gone (before after : DeletionStore ρ κ) : Prop where
  record : after.stories.get? storyId = none
  automations : ∀ automation ∈ after.automations, automation.storyId ≠ storyId
  runs : ∀ run ∈ after.runs, before.ownsRun storyId run = false
  content : after.storyRoot storyId = none
  trash : after.storyTrash trashName = none

/-- All of the story or nothing, and no intent. -/
def AllOrNothing (before after : DeletionStore ρ κ) : Prop :=
  (Kept storyId before after ∨ Gone storyId trashName before after) ∧ after.intents = .empty

/-- The content directory lies in the trash, and the intent does not say where. -/
def Unrecorded (s : DeletionStore ρ κ) : Prop :=
  (s.storyTrash trashName).isSome ∧ (s.intents.get? storyId).any (·.trashName.isNone)

instance (s : DeletionStore ρ κ) : Decidable (s.Unrecorded storyId trashName) :=
  inferInstanceAs (Decidable (_ ∧ _))

/-- The rows and the content directory deleted, with a rest of the trash copy. -/
def gone (s : DeletionStore ρ κ) (rest : Option κ) : DeletionStore ρ κ :=
  ((s.stage storyId trashName).setTrash trashName rest).deleteRows storyId

/-! ## The states of a deletion -/

section Shapes

variable {storyId trashName} {s₀ s : DeletionStore ρ κ}

/-- The name that the later intents of a deletion record. -/
def finalName (storyId : StoryId) (trashName : String) (s₀ : DeletionStore ρ κ) : Option String :=
  recordedName trashName (s₀.storyRoot storyId).isSome

/-- What the tables and directories are while the intent is there. -/
inductive Shape (storyId : StoryId) (trashName : String) (s₀ : DeletionStore ρ κ) :
    DeletionStore ρ κ → Prop where
  | marked (phase : DeletionPhase) (name : Option String)
      (hname : name = none ∨ name = some trashName) :
      Shape storyId trashName s₀ (s₀.putIntent storyId phase name)
  | moved : Shape storyId trashName s₀
      ((s₀.stage storyId trashName).putIntent storyId .prepared none)
  | staged : Shape storyId trashName s₀
      ((s₀.stage storyId trashName).putIntent storyId .filesStaged
        (finalName storyId trashName s₀))
  | committed (phase : DeletionPhase) (rest : Option κ)
      (hrest : s₀.storyRoot storyId = none → rest = none) :
      Shape storyId trashName s₀
        ((s₀.gone storyId trashName rest).putIntent storyId phase (finalName storyId trashName s₀))

/-- What a deletion starts from: the story is there, no intent is, and the trash name is new. -/
structure Ready (storyId : StoryId) (trashName : String) (s₀ : DeletionStore ρ κ) : Prop where
  story : s₀.stories.contains storyId = true
  intents : s₀.intents = .empty
  fresh : s₀.storyTrash trashName = none

section

variable (h : Ready storyId trashName s₀)

include h

theorem Ready.stage_eq (hroot : s₀.storyRoot storyId = none) : s₀.stage storyId trashName = s₀ := by
  unfold stage
  rw [hroot]
  have hsame : update s₀.storyRoot storyId none = s₀.storyRoot := by
    rw [← hroot]
    exact update_eq_self storyId s₀.storyRoot
  have htrash : update s₀.storyTrash trashName none = s₀.storyTrash := by
    rw [← h.fresh]
    exact update_eq_self trashName s₀.storyTrash
  rw [hsame, htrash]

theorem Ready.restore_stage (intents : OrderedMap StoryId DeletionIntent) :
    restore { s₀.stage storyId trashName with intents } storyId trashName = { s₀ with intents } := by
  cases hroot : s₀.storyRoot storyId with
  | none =>
    rw [h.stage_eq hroot]
    simp [restore, h.fresh]
  | some content =>
    have hback : update (update s₀.storyRoot storyId none) storyId
        (some content) = s₀.storyRoot := by
      rw [update_idem, ← hroot]
      exact update_eq_self storyId s₀.storyRoot
    have htrash : update (update s₀.storyTrash trashName (some content))
        trashName none = s₀.storyTrash := by
      rw [update_idem, ← h.fresh]
      exact update_eq_self trashName s₀.storyTrash
    simp [restore, stage, hroot, hback, htrash]

theorem Ready.restore_marked
    (intents : OrderedMap StoryId DeletionIntent) :
    restore { s₀ with intents } storyId trashName = { s₀ with intents } := by
  simp [restore, h.fresh]

end

variable {base : DeletionStore ρ κ}

theorem deleteIntent_put (hintents : base.intents = .empty) (phase : DeletionPhase)
    (name : Option String) : (base.putIntent storyId phase name).deleteIntent storyId = base := by
  have hempty : (base.intents.set storyId ⟨phase, name⟩).erase storyId = base.intents := by
    rw [hintents]
    simp [OrderedMap.set, OrderedMap.erase, OrderedMap.empty, OrderedMap.setEntries,
      OrderedMap.eraseEntries]
  unfold putIntent deleteIntent
  rw [hempty]

/-- What holds before each step. -/
def Expected (storyId : StoryId) (trashName : String) (s₀ : DeletionStore ρ κ)
    (d : Deletion ρ κ) : Prop :=
  let name := finalName storyId trashName s₀
  let hasRoot := (s₀.storyRoot storyId).isSome
  match d.pc with
  | .putPrepared => d.store = s₀ ∧ d.staged = false
  | .stageFiles => d.store = s₀.putIntent storyId .prepared none ∧ d.staged = false
  | .syncRoot | .syncTrash | .putStaged =>
    d.store = (s₀.stage storyId trashName).putIntent storyId .prepared none ∧ d.staged = hasRoot
  | .commit =>
    d.store = (s₀.stage storyId trashName).putIntent storyId .filesStaged name ∧
      d.staged = hasRoot
  | .removeTrash =>
    (∃ rest, (s₀.storyRoot storyId = none → rest = none) ∧
      d.store = (s₀.gone storyId trashName rest).putIntent storyId .databaseCommitted name) ∧
      d.staged = hasRoot
  | .putCleanup =>
    d.store = (s₀.gone storyId trashName none).putIntent storyId .databaseCommitted name ∧
      d.staged = hasRoot
  | .dropIntent => d.store = (s₀.gone storyId trashName none).putIntent storyId .cleanup name
  | .lookup => Shape storyId trashName s₀ d.store
  | .restoreFiles => Shape storyId trashName s₀ d.store ∧ d.store.stories.contains storyId = true
  | .dropRestored =>
    ∃ phase name, (name = none ∨ name = some trashName) ∧
      d.store = s₀.putIntent storyId phase name
  | .finished =>
    d.store = s₀ ∨ d.store = s₀.gone storyId trashName none ∨ Shape storyId trashName s₀ d.store

theorem putIntent_putIntent (s : DeletionStore ρ κ) (phase phase' : DeletionPhase)
    (name name' : Option String) : (s.putIntent storyId phase name).putIntent storyId phase' name' =
      s.putIntent storyId phase' name' := by
  unfold putIntent
  simp only [set_set]

theorem gone_stories (storyId : StoryId) (trashName : String) (s₀ : DeletionStore ρ κ)
    (rest : Option κ) : (s₀.gone storyId trashName rest).stories.contains storyId = false := by
  simp [gone, deleteRows, contains]

theorem gone_setTrash (s₀ : DeletionStore ρ κ) (rest rest' : Option κ) (phase : DeletionPhase)
    (name : Option String) :
    ((s₀.gone storyId trashName rest).putIntent storyId phase name).setTrash trashName rest' =
      (s₀.gone storyId trashName rest').putIntent storyId phase name := by
  simp only [gone, setTrash, deleteRows, putIntent, update_idem]
  rfl

theorem deleteRows_staged (s₀ : DeletionStore ρ κ) (phase : DeletionPhase) (name : Option String) :
    ((s₀.stage storyId trashName).putIntent storyId phase name).deleteRows storyId =
      (s₀.gone storyId trashName (s₀.storyRoot storyId)).putIntent storyId phase name := by
  simp only [gone, setTrash, stage, deleteRows, putIntent, update_idem]
  rfl

theorem finalName_cases (storyId : StoryId) (trashName : String) (s₀ : DeletionStore ρ κ) :
    finalName storyId trashName s₀ = none ∨ finalName storyId trashName s₀ = some trashName := by
  unfold finalName recordedName
  split
  · exact .inr rfl
  · exact .inl rfl

theorem Ready.restored (h : Ready storyId trashName s₀) (hshape : Shape storyId trashName s₀ s)
    (hstory : s.stories.contains storyId = true) :
    ∃ phase name, (name = none ∨ name = some trashName) ∧
      s.restore storyId trashName = s₀.putIntent storyId phase name := by
  cases hshape with
  | marked phase name hname => exact ⟨phase, name, hname, h.restore_marked _⟩
  | moved => exact ⟨.prepared, none, .inl rfl, h.restore_stage _⟩
  | staged => exact ⟨.filesStaged, _, finalName_cases storyId trashName s₀, h.restore_stage _⟩
  | committed phase rest =>
    have hgone := gone_stories storyId trashName s₀ rest
    have hstory : (s₀.gone storyId trashName rest).stories.contains storyId = true := hstory
    rw [hgone] at hstory
    cases hstory

variable {d : Deletion ρ κ}

theorem Expected.thrown (hd : Expected storyId trashName s₀ d) :
    Expected storyId trashName s₀ { d with pc := d.pc.thrown } := by
  obtain ⟨store, pc, staged⟩ := d
  cases pc with
  | putPrepared => exact .inl hd.1
  | stageFiles =>
    obtain ⟨rfl, _⟩ := hd
    exact .marked .prepared none (.inl rfl)
  | syncRoot | syncTrash | putStaged =>
    obtain ⟨rfl, _⟩ := hd
    exact .moved
  | commit =>
    obtain ⟨rfl, _⟩ := hd
    exact .staged
  | removeTrash =>
    obtain ⟨⟨rest, hrest, rfl⟩, _⟩ := hd
    exact .committed _ rest hrest
  | putCleanup =>
    obtain ⟨rfl, _⟩ := hd
    exact .committed _ none fun _ => rfl
  | dropIntent =>
    subst hd
    exact .committed _ none fun _ => rfl
  | lookup => exact .inr (.inr hd)
  | restoreFiles => exact .inr (.inr hd.1)
  | dropRestored =>
    obtain ⟨phase, name, hname, rfl⟩ := hd
    exact .inr (.inr (.marked phase name hname))
  | finished => exact hd

section

variable (h : Ready storyId trashName s₀)

include h

theorem Expected.done (hd : Expected storyId trashName s₀ d) :
    Expected storyId trashName s₀ (doneStep storyId trashName d) := by
  obtain ⟨store, pc, staged⟩ := d
  cases pc with
  | putPrepared =>
    obtain ⟨rfl, hstaged⟩ := hd
    exact ⟨rfl, hstaged⟩
  | stageFiles =>
    obtain ⟨hstore, hstaged⟩ := hd
    subst hstore hstaged
    unfold doneStep
    simp only
    cases hroot : s₀.storyRoot storyId with
    | none =>
      have hsame := h.stage_eq hroot
      rw [if_neg (by simp [putIntent, hroot])]
      exact ⟨by rw [hsame], by rw [hroot]; rfl⟩
    | some content =>
      rw [if_pos (by simp [putIntent, hroot])]
      exact ⟨rfl, by rw [hroot]; rfl⟩
  | syncRoot | syncTrash => exact hd
  | putStaged =>
    obtain ⟨hstore, hstaged⟩ := hd
    subst hstore hstaged
    exact ⟨putIntent_putIntent _ _ _ _ _, rfl⟩
  | commit =>
    obtain ⟨hstore, hstaged⟩ := hd
    subst hstore hstaged
    unfold doneStep
    simp only
    split
    · refine ⟨⟨s₀.storyRoot storyId, id, ?_⟩, rfl⟩
      rw [deleteRows_staged, putIntent_putIntent]
      rfl
    · exact .staged
  | removeTrash =>
    obtain ⟨⟨rest, hrest, hstore⟩, hstaged⟩ := hd
    subst hstore hstaged
    refine ⟨?_, rfl⟩
    cases hroot : s₀.storyRoot storyId with
    | none =>
      rw [hrest hroot]
      rfl
    | some content => exact gone_setTrash s₀ rest none _ _
  | putCleanup =>
    obtain ⟨hstore, hstaged⟩ := hd
    subst hstore hstaged
    exact putIntent_putIntent _ _ _ _ _
  | dropIntent =>
    have hstore : store = _ := hd
    subst hstore
    right
    left
    have hintents : (s₀.gone storyId trashName none).intents = .empty := h.intents
    exact deleteIntent_put hintents .cleanup _
  | lookup =>
    unfold doneStep
    simp only
    by_cases hstory : store.stories.contains storyId = true
    · rw [if_pos hstory]
      exact ⟨hd, hstory⟩
    · rw [if_neg hstory]
      exact .inr (.inr hd)
  | restoreFiles => exact h.restored hd.1 hd.2
  | dropRestored =>
    obtain ⟨phase, name, _, hstore⟩ := hd
    subst hstore
    exact .inl (deleteIntent_put h.intents phase name)
  | finished => exact hd

theorem Expected.step (hd : Expected storyId trashName s₀ d) (choice : DeleteChoice κ) :
    Expected storyId trashName s₀ (deleteStep storyId trashName d choice) := by
  cases choice with
  | done => exact hd.done h
  | throws => exact hd.thrown
  | partly rest =>
    simp only [deleteStep]
    split
    next hpc hstaged =>
      obtain ⟨store, pc, staged⟩ := d
      subst hpc hstaged
      obtain ⟨⟨rest', _, hstore⟩, hroot⟩ := hd
      subst hstore
      refine ⟨⟨some rest, fun hnone => ?_, gone_setTrash s₀ rest' (some rest) _ _⟩, hroot⟩
      rw [hnone] at hroot
      cases hroot
    · exact hd

theorem deleteCoordinated_expected
    (choices : List (DeleteChoice κ)) :
    Expected storyId trashName s₀ (deleteCoordinated storyId trashName s₀ choices) := by
  unfold deleteCoordinated
  have hstart : Expected storyId trashName s₀ ⟨s₀, .putPrepared, false⟩ := ⟨rfl, rfl⟩
  generalize (⟨s₀, .putPrepared, false⟩ : Deletion ρ κ) = d at hstart
  induction choices generalizing d with
  | nil => exact hstart
  | cons choice choices ih => exact ih _ (hstart.step h choice)

end

theorem Expected.shape (hd : Expected storyId trashName s₀ d) :
    d.store = s₀ ∨ d.store = s₀.gone storyId trashName none ∨
      Shape storyId trashName s₀ d.store := by
  have hthrown := hd.thrown
  obtain ⟨store, pc, staged⟩ := d
  cases pc with
  | putPrepared => exact .inl hd.1
  | stageFiles | syncRoot | syncTrash | putStaged | commit | removeTrash | putCleanup | dropIntent =>
    exact .inr (.inr hthrown)
  | lookup | restoreFiles | dropRestored | finished => exact hthrown

/-! ## What recovery makes of them -/

theorem init_put (hintents : base.intents = .empty) (phase : DeletionPhase) (name : Option String) :
    (base.putIntent storyId phase name).init =
      (base.putIntent storyId phase name).recoverIntent (storyId, ⟨phase, name⟩) := by
  have hentries : (base.putIntent storyId phase name).intents.entries =
      [(storyId, ⟨phase, name⟩)] := by
    unfold putIntent
    rw [hintents]
    rfl
  unfold init
  rw [hentries]
  rfl

variable (h : Ready storyId trashName s₀)

include h

theorem Ready.init_marked (phase : DeletionPhase)
    {name : Option String} (hname : name = none ∨ name = some trashName) :
    (s₀.putIntent storyId phase name).init = s₀ := by
  rw [init_put h.intents]
  have hstory : (s₀.putIntent storyId phase name).stories.contains storyId = true := h.story
  rcases hname with rfl | rfl
  · exact deleteIntent_put h.intents phase none
  unfold recoverIntent
  simp only [hstory, if_true]
  have hrestore := h.restore_marked (s₀.intents.set storyId ⟨phase, some trashName⟩)
  have hrestore : (s₀.putIntent storyId phase (some trashName)).restore storyId trashName =
      s₀.putIntent storyId phase (some trashName) := hrestore
  rw [hrestore]
  exact deleteIntent_put h.intents phase _

theorem Ready.init_moved : ((s₀.stage storyId trashName).putIntent storyId .prepared none).init =
      s₀.stage storyId trashName := by
  have hintents : (s₀.stage storyId trashName).intents = .empty := h.intents
  rw [init_put hintents]
  exact deleteIntent_put hintents .prepared none

theorem Ready.init_staged : ((s₀.stage storyId trashName).putIntent storyId .filesStaged
      (finalName storyId trashName s₀)).init = s₀ := by
  have hintents : (s₀.stage storyId trashName).intents = .empty := h.intents
  cases hroot : s₀.storyRoot storyId with
  | none =>
    rw [h.stage_eq hroot]
    exact h.init_marked .filesStaged (finalName_cases storyId trashName s₀)
  | some content =>
    have hname : finalName storyId trashName s₀ = some trashName := by
      simp [finalName, recordedName, hroot]
    rw [hname, init_put hintents]
    have hstory : ((s₀.stage storyId trashName).putIntent storyId .filesStaged
        (some trashName)).stories.contains storyId = true := h.story
    unfold recoverIntent
    simp only [hstory, if_true]
    have hrestore := h.restore_stage (s₀.intents.set storyId ⟨.filesStaged, some trashName⟩)
    have hrestore : ((s₀.stage storyId trashName).putIntent storyId .filesStaged
        (some trashName)).restore storyId trashName =
          s₀.putIntent storyId .filesStaged (some trashName) := hrestore
    rw [hrestore]
    exact deleteIntent_put h.intents .filesStaged _

theorem Ready.init_committed (phase : DeletionPhase)
    {rest : Option κ} (hrest : s₀.storyRoot storyId = none → rest = none) :
    ((s₀.gone storyId trashName rest).putIntent storyId phase
      (finalName storyId trashName s₀)).init = s₀.gone storyId trashName none := by
  have hintents (rest : Option κ) : (s₀.gone storyId trashName rest).intents = .empty := h.intents
  rw [init_put (hintents rest)]
  cases hroot : s₀.storyRoot storyId with
  | none =>
    have hname : finalName storyId trashName s₀ = none := by simp [finalName, recordedName, hroot]
    rw [hname, hrest hroot]
    exact deleteIntent_put (hintents none) phase none
  | some content =>
    have hname : finalName storyId trashName s₀ = some trashName := by
      simp [finalName, recordedName, hroot]
    have hstory : ((s₀.gone storyId trashName rest).putIntent storyId phase
        (some trashName)).stories.contains storyId = false := gone_stories storyId trashName s₀ rest
    rw [hname]
    unfold recoverIntent
    simp only [hstory, Bool.false_eq_true, if_false]
    rw [gone_setTrash]
    exact deleteIntent_put (hintents none) phase _

theorem Ready.kept : AllOrNothing storyId trashName s₀ s₀ := ⟨.inl ⟨rfl, rfl, rfl, rfl⟩, h.intents⟩

theorem Ready.gone : AllOrNothing storyId trashName s₀ (s₀.gone storyId trashName none) := by
  refine ⟨.inr ⟨?_, ?_, ?_, ?_, ?_⟩, h.intents⟩
  · exact get?_erase_self s₀.stories storyId
  · intro automation hmem
    exact of_decide_eq_true (List.mem_filter.mp hmem).2
  · intro run hmem
    have hnot : (!s₀.ownsRun storyId run) = true := (List.mem_filter.mp hmem).2
    simpa using hnot
  · simp [DeletionStore.gone, deleteRows, setTrash, stage]
  · simp [DeletionStore.gone, deleteRows, setTrash]

end Shapes

/-- Behind a crash of the deletion at any step, `init` leaves all of the story or nothing of it,
unless the crash finds the content directory in the trash while the intent does not record the
name there; then it leaves the story without its content. -/
theorem deletion_all_or_nothing {storyId : StoryId} {trashName : String} {s₀ : DeletionStore ρ κ}
    (h : Ready storyId trashName s₀) (choices : List (DeleteChoice κ)) :
    AllOrNothing storyId trashName s₀ (deleteCoordinated storyId trashName s₀ choices).store.init ↔
      ¬ (deleteCoordinated storyId trashName s₀ choices).store.Unrecorded storyId trashName := by
  have hshape := (deleteCoordinated_expected h choices).shape
  generalize (deleteCoordinated storyId trashName s₀ choices).store = s at hshape
  have hunmarked {s : DeletionStore ρ κ} (hintents : s.intents = .empty) :
      s.init = s ∧ ¬ s.Unrecorded storyId trashName := by
    constructor
    · unfold init
      rw [hintents]
      rfl
    intro hlost
    have hany := hlost.2
    rw [hintents] at hany
    cases hany
  rcases hshape with rfl | rfl | hshape
  · have ⟨hinit, hnot⟩ := hunmarked h.intents
    rw [hinit]
    exact ⟨fun _ => hnot, fun _ => h.kept⟩
  · have hintents : (s₀.gone storyId trashName none).intents = .empty := h.intents
    have ⟨hinit, hnot⟩ := hunmarked hintents
    rw [hinit]
    exact ⟨fun _ => hnot, fun _ => h.gone⟩
  cases hshape with
  | marked phase name hname =>
    rw [h.init_marked phase hname]
    refine ⟨fun _ hlost => ?_, fun _ => h.kept⟩
    have htrash : (s₀.storyTrash trashName).isSome := hlost.1
    rw [h.fresh] at htrash
    cases htrash
  | moved =>
    rw [h.init_moved]
    cases hroot : s₀.storyRoot storyId with
    | none =>
      rw [h.stage_eq hroot]
      refine ⟨fun _ hlost => ?_, fun _ => h.kept⟩
      have htrash : (s₀.storyTrash trashName).isSome := hlost.1
      rw [h.fresh] at htrash
      cases htrash
    | some content =>
      have hmoved : (s₀.stage storyId trashName).storyRoot storyId = none := by simp [stage]
      constructor
      · rintro ⟨hkept | hgone, _⟩
        · have hcontent := hkept.content
          rw [hmoved, hroot] at hcontent
          cases hcontent
        · have hrecord : s₀.stories.get? storyId = none := hgone.record
          have hstory := h.story
          rw [contains, hrecord] at hstory
          cases hstory
      · intro hrecorded
        refine absurd ⟨?_, ?_⟩ hrecorded
        · simp [putIntent, stage, hroot]
        · simp [putIntent]
  | staged =>
    rw [h.init_staged]
    refine ⟨fun _ hlost => ?_, fun _ => h.kept⟩
    have hname := hlost.2
    simp only [putIntent, get?_set_self, Option.any_some] at hname
    have htrash := hlost.1
    simp only [putIntent, stage, update_self] at htrash
    simp [finalName, recordedName, htrash] at hname
  | committed phase rest hrest =>
    rw [h.init_committed phase hrest]
    refine ⟨fun _ hlost => ?_, fun _ => h.gone⟩
    have htrash : rest.isSome = true := by
      have hsome := hlost.1
      simpa [putIntent, gone, deleteRows, setTrash] using hsome
    have hname := hlost.2
    simp only [putIntent, get?_set_self, Option.any_some] at hname
    cases hroot : s₀.storyRoot storyId with
    | none =>
      rw [hrest hroot] at htrash
      cases htrash
    | some content => simp [finalName, recordedName, hroot] at hname

/-- A story with a content directory and an automation. -/
def exampleStore : DeletionStore String String where
  stories := .ofList [("story", "record")]
  automations := [⟨1, "story"⟩]
  runs := [⟨2, 1, .completed⟩]
  intents := .empty
  storyRoot := Function.update (fun _ => none) "story" (some "documents")
  storyTrash := fun _ => none

theorem exampleStore_ready : Ready "story" "story-1" exampleStore := ⟨by decide, rfl, rfl⟩

theorem deletion_all_or_nothing_example : AllOrNothing "story" "story-1" exampleStore
      (deleteCoordinated "story" "story-1" exampleStore
        [.done, .done, .done, .done, .done, .done, .partly "rest"]).store.init :=
  (deletion_all_or_nothing exampleStore_ready _).mpr (by decide)

/-- A crash between the rename and the record of the trash name loses the content. -/
theorem crash_behind_rename_loses_content :
    let crashed := (deleteCoordinated "story" "story-1" exampleStore [.done, .done]).store
    crashed.init.stories.get? "story" = some "record" ∧
      crashed.init.storyRoot "story" = none ∧ exampleStore.storyRoot "story" = some "documents" ∧
      ¬ AllOrNothing "story" "story-1" exampleStore crashed.init := by
  refine ⟨by decide, by decide, by decide, ?_⟩
  rintro ⟨hkept | hgone, _⟩
  · exact absurd hkept.content (by decide)
  · exact absurd hgone.record (by decide)

end DeletionStore

end TaskHandoff.Stories
