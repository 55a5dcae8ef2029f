import TaskHandoff.Lib.TextFields

/-! # Replays of a git provisioning

The projector of the control plane parses the terminal of a git provisioning. A replay begins a new
tail, but the parser keeps its partial line, and the state its stage and its sequence. -/

namespace TaskHandoff.Provisioning.GitProgress

open JsText TextFields List Function

abbrev InstanceId := String

def CR : UInt16 := 0x0d
def LF : UInt16 := 0x0a

/-! ## The terminal parser -/

inductive GitProvisioningStage where
  | cloning
  | checkingOut
  | submodules
  | lfs
  | finalizing
deriving DecidableEq

def GitProvisioningStage.text : GitProvisioningStage → String
  | .cloning => "cloning"
  | .checkingOut => "checking-out"
  | .submodules => "submodules"
  | .lfs => "lfs"
  | .finalizing => "finalizing"

def stageOf (name : Text) : Option GitProvisioningStage :=
  [.cloning, .checkingOut, .submodules, .lfs, .finalizing].find? fun stage =>
    text stage.text = name

inductive GitProvisioningMarker where
  | stage (stage : GitProvisioningStage)
  | commit (commit : Text)
  | errorCode (errorCode : Text)

def parseGitProvisioningMarker (line : Text) : Option GitProvisioningMarker :=
  let trimmed := trim line
  match dropStart "TASK_HANDOFF_GIT_PROVISIONING_STAGE=" trimmed with
  | some stage => (stageOf (trim stage)).map .stage
  | none =>
    match dropStart "TASK_HANDOFF_GIT_PROVISIONING_COMMIT=" trimmed with
    | some commit => if trim commit = [] then none else some (.commit (trim commit))
    | none =>
      match dropStart "TASK_HANDOFF_GIT_PROVISIONING_ERROR=" trimmed with
      | some errorCode => if trim errorCode = [] then none else some (.errorCode (trim errorCode))
      | none => none

def MAX_PENDING_CHARS : Nat := 8192

/-- `split(/(\r\n|\n|\r)/)` behind a part of a line: the lines with their delimiters, and what is
behind the last of them. -/
def splitLines (line : Text) : Text → List (Text × Text) × Text
  | [] => ([], line)
  | 0x0d :: 0x0a :: rest => ((line, [CR, LF]) :: (splitLines [] rest).1, (splitLines [] rest).2)
  | c :: rest =>
    if c = LF ∨ c = CR then ((line, [c]) :: (splitLines [] rest).1, (splitLines [] rest).2)
    else splitLines (line ++ [c]) rest

structure TerminalChunk where
  display : Text
  stage : Option GitProvisioningStage
  commit : Option Text
  errorCode : Option Text

def TerminalChunk.assign (chunk : TerminalChunk) : GitProvisioningMarker → TerminalChunk
  | .stage stage => { chunk with stage := some stage }
  | .commit commit => { chunk with commit := some commit }
  | .errorCode errorCode => { chunk with errorCode := some errorCode }

def TerminalChunk.line (chunk : TerminalChunk) (line : Text × Text) : TerminalChunk :=
  match parseGitProvisioningMarker line.1 with
  | some marker => chunk.assign marker
  | none => { chunk with display := chunk.display ++ (line.1 ++ line.2) }

/-- `GitProvisioningTerminalParser.push`: the new partial line, and the chunk. -/
def push (pending chunk : Text) : Text × TerminalChunk :=
  let (lines, remainder) := splitLines [] (pending ++ chunk)
  let overflow := MAX_PENDING_CHARS < remainder.length
  (if overflow then [] else remainder,
    lines.foldl .line ⟨if overflow then remainder else [], none, none, none⟩)

def flush (pending : Text) : Text :=
  if (parseGitProvisioningMarker pending).isSome then [] else pending

/-! ## The projector -/

def MAX_TERMINAL_TAIL : Nat := 256 * 1024

structure ProvisioningState where
  generation : Nat
  sequence : Nat
  pending : Text
  terminalTail : Text
  terminalTruncated : Bool
  stage : Option GitProvisioningStage
deriving DecidableEq

structure Output where
  generation : Nat
  sequence : Nat
  data : Text
  replay : Bool

/-- What happens to the state of one instance; a deletion or the end of its provisioning takes it
away. -/
inductive Event where
  | output (output : Output)
  | finished (generation sequence : Nat)
  | deleted

def newState (generation sequence : Nat) : ProvisioningState :=
  ⟨generation, sequence, [], [], false, none⟩

def requireState (current : Option ProvisioningState) (generation sequence : Nat) :
    ProvisioningState :=
  match current with
  | some state => if state.generation = generation then state else newState generation sequence
  | none => newState generation sequence

def applyOutput (state : ProvisioningState) (output : Output) : ProvisioningState :=
  let (pending, parsed) := push state.pending output.data
  let combined := (if output.replay then [] else state.terminalTail) ++ parsed.display
  { state with
    sequence := max state.sequence output.sequence
    pending
    terminalTail := lastUnits MAX_TERMINAL_TAIL combined
    terminalTruncated := (!output.replay && state.terminalTruncated) ||
      MAX_TERMINAL_TAIL < combined.length
    stage := parsed.stage.or state.stage }

def applyFinished (state : ProvisioningState) (sequence : Nat) : ProvisioningState :=
  { state with
    sequence := max state.sequence sequence
    pending := []
    terminalTail := if flush state.pending = [] then state.terminalTail
      else lastUnits MAX_TERMINAL_TAIL (state.terminalTail ++ flush state.pending) }

def ignores (current : Option ProvisioningState) (generation sequence : Nat) (replay : Bool) :
    Bool :=
  current.any fun state => generation < state.generation ||
    (generation = state.generation && !replay && sequence ≤ state.sequence)

def apply (current : Option ProvisioningState) : Event → Option ProvisioningState
  | .output output =>
    if ignores current output.generation output.sequence output.replay then current
    else some (applyOutput (requireState current output.generation output.sequence) output)
  | .finished generation sequence =>
    if ignores current generation sequence false then current
    else some (applyFinished (requireState current generation sequence) sequence)
  | .deleted => none

abbrev GitProvisioningProgressProjector := InstanceId → Option ProvisioningState

def handle (states : GitProvisioningProgressProjector) (event : InstanceId × Event) :
    GitProvisioningProgressProjector :=
  update states event.1 (apply (states event.1) event.2)

/-- The states behind events from a new projector. -/
def project (states : GitProvisioningProgressProjector) (events : List (InstanceId × Event)) :
    GitProvisioningProgressProjector :=
  events.foldl handle states

theorem project_cons (states : GitProvisioningProgressProjector) (instanceId : InstanceId)
    (event : Event) (rest : List (InstanceId × Event)) :
    project states ((instanceId, event) :: rest) =
      project (update states instanceId (apply (states instanceId) event)) rest := rfl

theorem project_pair (states : GitProvisioningProgressProjector) (instanceId : InstanceId)
    (event event' : Event) :
    project states [(instanceId, event), (instanceId, event')] instanceId =
      apply (apply (states instanceId) event) event' := by
  simp [project, handle]

theorem project_single (states : GitProvisioningProgressProjector) (instanceId : InstanceId)
    (event : Event) :
    project states [(instanceId, event)] instanceId = apply (states instanceId) event :=
  update_self ..

variable {states : GitProvisioningProgressProjector} {instanceId : InstanceId}

/-- The events of other instances do not matter. -/
theorem project_congr {states' : GitProvisioningProgressProjector}
    (h : states instanceId = states' instanceId) (events : List (InstanceId × Event)) :
    project states events instanceId = project states' events instanceId := by
  induction events generalizing states states' with
  | nil => exact h
  | cons event events ih =>
    apply ih
    by_cases hid : instanceId = event.1
    · subst hid
      simp [handle, h]
    · simp [handle, hid, h]

/-! ## Partial lines -/

def Partial (pending : Text) : Prop := CR ∉ pending ∧ LF ∉ pending

theorem partial_remainder {line : Text} (h : Partial line) (t : Text) :
    Partial (splitLines line t).2 := by
  fun_induction splitLines line t with
  | case1 => exact h
  | case2 line rest ih => exact ih ⟨not_mem_nil, not_mem_nil⟩
  | case3 line c rest _ _ ih => exact ih ⟨not_mem_nil, not_mem_nil⟩
  | case4 line c rest _ hc ih =>
    obtain ⟨hLF, hCR⟩ := not_or.mp hc
    apply ih
    simp [Partial, h.1, h.2, Ne.symm hLF, Ne.symm hCR]

theorem partial_push (pending chunk : Text) : Partial (push pending chunk).1 := by
  simp only [push]
  split
  · exact ⟨not_mem_nil, not_mem_nil⟩
  · exact partial_remainder ⟨not_mem_nil, not_mem_nil⟩ _

theorem project_partial (events : List (InstanceId × Event))
    (h : ∀ state ∈ states instanceId, Partial state.pending) :
    ∀ state ∈ project states events instanceId, Partial state.pending := by
  induction events generalizing states with
  | nil => exact h
  | cons event events ih =>
    apply ih
    by_cases hid : instanceId = event.1
    swap
    · simpa [handle, hid] using h
    subst hid
    rw [handle, update_self]
    cases event.2 with
    | output output =>
      simp only [apply]
      split
      · exact h
      · rintro state ⟨⟩
        exact partial_push _ _
    | finished generation sequence =>
      simp only [apply]
      split
      · exact h
      · rintro state ⟨⟩
        exact ⟨not_mem_nil, not_mem_nil⟩
    | deleted => exact fun state hstate => by cases hstate

theorem splitLines_newline {line t : Text} (h : Partial t) :
    splitLines line (t ++ [LF]) = ([(line ++ t, [LF])], []) := by
  induction t generalizing line with
  | nil => simp [splitLines]
  | cons c t ih =>
    have hCR : c ≠ CR := fun heq => h.1 (heq ▸ mem_cons_self)
    have hLF : c ≠ LF := fun heq => h.2 (heq ▸ mem_cons_self)
    have ht : Partial t := ⟨fun hmem => h.1 (mem_cons_of_mem c hmem),
      fun hmem => h.2 (mem_cons_of_mem c hmem)⟩
    rw [cons_append, splitLines, if_neg (not_or.mpr ⟨hLF, hCR⟩), ih ht, append_assoc, singleton_append]
    exact fun _ heq _ => hCR heq

theorem display_newline {pending : Text} (h : Partial pending) :
    (push pending [LF]).2.display =
      if (parseGitProvisioningMarker pending).isSome then [] else pending ++ [LF] := by
  simp only [push, splitLines_newline h, nil_append, foldl_cons, foldl_nil, TerminalChunk.line]
  cases parseGitProvisioningMarker pending with
  | none => rfl
  | some marker => cases marker <;> rfl

/-! ## Replays -/

def shown (state : Option ProvisioningState) : Option (Text × Option GitProvisioningStage) :=
  state.map fun state => (state.terminalTail, state.stage)

/-- The state is of an earlier provisioning, or has nothing a replay would leave. -/
def Resets (current : Option ProvisioningState) (generation sequence : Nat) : Prop :=
  ∀ state ∈ current, state.generation < generation ∨
    state.generation = generation ∧ state.pending = [] ∧ state.stage = none ∧
      state.sequence ≤ sequence

theorem apply_replay {current : Option ProvisioningState} {output : Output}
    (hreplay : output.replay = true) (h : Resets current output.generation output.sequence) :
    apply current (.output output) = apply none (.output output) := by
  cases current with
  | none => rfl
  | some state =>
    have hnew : ignores (some state) output.generation output.sequence output.replay = false := by
      rcases h state rfl with hlt | ⟨heq, -⟩
      · simp [ignores, hreplay, hlt.le]
      · simp [ignores, hreplay, heq]
    simp only [apply, hnew]
    rcases h state rfl with hlt | ⟨heq, hpending, hstage, hle⟩
    · simp [requireState, hlt.ne, ignores]
    · simp [applyOutput, requireState, newState, heq, ignores, hpending, hstage, hreplay, hle]

theorem lastUnits_of_le {t : Text} (h : t.length ≤ MAX_TERMINAL_TAIL) :
    lastUnits MAX_TERMINAL_TAIL t = t := by
  rw [lastUnits, Nat.sub_eq_zero_of_le h, drop_zero]

/-- What a new state makes of one line end, of two, and of another one behind the first. -/
theorem apply_newlines (generation sequence : Nat) :
    apply none (.output ⟨generation, sequence, [LF], true⟩) =
        some ⟨generation, sequence, [], [LF], false, none⟩ ∧
      apply none (.output ⟨generation, sequence, [LF, LF], true⟩) =
        some ⟨generation, sequence, [], [LF, LF], false, none⟩ ∧
      ∀ later, sequence < later → apply (some ⟨generation, sequence, [], [LF], false, none⟩)
          (.output ⟨generation, later, [LF], false⟩) =
        some ⟨generation, later, [], [LF, LF], false, none⟩ := by
  have hone : push [] [LF] = ([], ⟨[LF], none, none, none⟩) := rfl
  have htwo : push [] [LF, LF] = ([], ⟨[LF, LF], none, none, none⟩) := rfl
  have hlast : lastUnits MAX_TERMINAL_TAIL [LF] = [LF] := lastUnits_of_le (by decide)
  have hlasts : lastUnits MAX_TERMINAL_TAIL [LF, LF] = [LF, LF] := lastUnits_of_le (by decide)
  refine ⟨?_, ?_, fun later hlt => ?_⟩
  · simp [apply, ignores, applyOutput, requireState, newState, hone, hlast]
    decide
  · simp [apply, ignores, applyOutput, requireState, newState, htwo, hlasts]
    decide
  · simp [apply, ignores, applyOutput, requireState, hone, hlasts, Nat.not_le.mpr hlt, hlt.le]
    decide

theorem resets_of_agree {state : ProvisioningState} {generation sequence : Nat}
    (hstate : states instanceId = some state) ( hpartial : Partial state.pending) (h : ∀ data rest,
      shown (project states
        ((instanceId, .output ⟨generation, sequence, data, true⟩) :: rest) instanceId) =
      shown (project (fun _ => none)
        ((instanceId, .output ⟨generation, sequence, data, true⟩) :: rest) instanceId)) :
    state.generation < generation ∨ state.generation = generation ∧ state.pending = [] ∧
      state.stage = none ∧ state.sequence ≤ sequence := by
  obtain ⟨hfresh, hfreshTwo, hfreshLater⟩ := apply_newlines generation sequence
  have hone := h [LF] []
  rw [project_single, project_single, hstate, hfresh] at hone
  rcases Nat.lt_trichotomy generation state.generation with hlt | heq | hlt
  · -- The whole replay is of a generation that is over.
    have htwo := h [LF, LF] []
    rw [project_single, project_single, hstate, hfreshTwo] at htwo
    have hignored : ignores (some state) generation sequence true = true := by simp [ignores, hlt]
    simp only [apply, hignored, if_true] at hone htwo
    cases hone.symm.trans htwo
  · subst heq
    have hfirst : apply (some state) (.output ⟨state.generation, sequence, [LF], true⟩) =
        some (applyOutput state ⟨state.generation, sequence, [LF], true⟩) := by
      simp [apply, ignores, requireState]
    rw [hfirst] at hone
    have hshown := hone
    simp only [shown, Option.map_some, Option.some_inj, applyOutput, if_true, nil_append,
      Prod.mk.injEq, display_newline hpartial] at hone
    have hpending : state.pending = [] := by
      have hlength := congrArg length hone.1
      rw [lastUnits, length_drop] at hlength
      split at hlength
      · cases hlength
      · rw [length_append, length_singleton, MAX_TERMINAL_TAIL] at hlength
        exact length_eq_zero_iff.mp (by omega)
    have hstage : state.stage = none := by
      rw [hpending] at hone
      exact hone.2
    refine .inr ⟨rfl, hpending, hstage, Nat.le_of_not_lt fun hlt => ?_⟩
    -- A later output of the new terminal counts as seen.
    have hlater := h [LF] [(instanceId, .output ⟨state.generation, state.sequence, [LF], false⟩)]
    rw [project_pair, project_pair, hstate, hfresh, hfreshLater _ hlt, hfirst] at hlater
    have hseen : ignores (some (applyOutput state ⟨state.generation, sequence, [LF], true⟩))
        state.generation state.sequence false = true := by
      simp only [ignores, applyOutput, Option.any_some, Nat.le_max_left, decide_true,
        Bool.not_false, Bool.and_self, Bool.or_true]
    rw [apply, hseen] at hlater
    cases hshown.symm.trans hlater
  · exact .inl hlt

theorem replay_resets_iff (history : List (InstanceId × Event)) (instanceId : InstanceId)
    (generation sequence : Nat) :
    (∀ data rest,
      shown (project (project (fun _ => none) history)
        ((instanceId, .output ⟨generation, sequence, data, true⟩) :: rest) instanceId) =
      shown (project (fun _ => none)
        ((instanceId, .output ⟨generation, sequence, data, true⟩) :: rest) instanceId)) ↔
      Resets (project (fun _ => none) history instanceId) generation sequence := by
  constructor
  · intro h state hstate
    have hpartial := project_partial history (by simp) state hstate
    exact resets_of_agree hstate hpartial h
  intro h data rest
  rw [project_cons, project_cons]
  apply congrArg shown
  apply project_congr
  rw [update_self, update_self]
  exact apply_replay rfl h

/-- A connection breaks within a line, and the node replays the terminal. -/
theorem replay_behind_partial :
    shown (project (project (fun _ => none)
        [("a", .output ⟨1, 1, text "Cloning", false⟩)])
        [("a", .output ⟨1, 2, text "Cloning into 'a'...\n", true⟩)] "a") =
      some (text "CloningCloning into 'a'...\n", none) ∧
    shown (project (fun _ => none) [("a", .output ⟨1, 2, text "Cloning into 'a'...\n", true⟩)] "a") =
      some (text "Cloning into 'a'...\n", none) := by
  decide

end TaskHandoff.Provisioning.GitProgress
