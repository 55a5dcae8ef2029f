import TaskHandoff.Lib.JsText
import TaskHandoff.Lib.OrderedMap

/-! # The terminal of an image pull

A request that joins a pull gets the retained tail as a replay, which the node agent publishes in
chunks. The projector of the control plane and the memory of the forwarder begin anew at a replay. -/

namespace TaskHandoff.Provisioning.ImagePull

open JsText List Option

abbrev InstanceId := String

def MAX_TERMINAL_TAIL : Nat := 256 * 1024

/-! ## The pull on the node -/

structure DockerImageTerminalOutput where
  sequence : Nat
  data : Text
  replay : Bool

structure InFlightImage where
  terminalSequence : Nat
  terminalTail : Text

def InFlightImage.notifyTerminal (entry : InFlightImage) (data : Text) : InFlightImage where
  terminalSequence := entry.terminalSequence + 1
  terminalTail := lastUnits MAX_TERMINAL_TAIL (entry.terminalTail ++ data)

/-- What `ensure` hands to a listener that joins. -/
def InFlightImage.joined (entry : InFlightImage) : Option DockerImageTerminalOutput :=
  if entry.terminalTail = [] then none else some ⟨entry.terminalSequence, entry.terminalTail, true⟩

/-- `splitTerminalOutput` and `splitTerminalReplay`. -/
def splitTerminal (data : Text) (maxLength : Nat) : List Text :=
  (List.range ((data.length + maxLength - 1) / maxLength)).map fun i =>
    (data.drop (i * maxLength)).take maxLength

def MAX_CHUNK : Nat := 60000

/-! ## Events -/

structure ImagePullTerminalOutput where
  instanceId : InstanceId
  generation : Nat
  requestedReference : Text
  observedAt : Text
  sequence : Nat
  data : Text
  replay : Bool

/-- The check of the schema on the data. -/
def ImagePullTerminalOutput.valid (output : ImagePullTerminalOutput) : Bool :=
  1 ≤ output.data.length && output.data.length ≤ 65536

/-- The identity of the events of a provisioning. -/
structure EventBase where
  instanceId : InstanceId
  generation : Nat
  requestedReference : Text
  observedAt : Text

def publishTerminalOutput (base : EventBase) (output : DockerImageTerminalOutput) :
    List ImagePullTerminalOutput :=
  (splitTerminal output.data MAX_CHUNK).mapIdx fun index data =>
    { base with sequence := output.sequence * 1000 + index, data, replay := output.replay }

/-! ## The memory of the forwarder -/

structure ImagePullTerminal where
  output : ImagePullTerminalOutput
  tail : Text

abbrev Memory := OrderedMap InstanceId ImagePullTerminal

def rememberImagePullTerminal (memory : Memory) (output : ImagePullTerminalOutput) : Memory :=
  if !output.valid then memory
  else
    match memory.get? output.instanceId with
    | none => memory.set output.instanceId ⟨output, output.data⟩
    | some current =>
      if output.generation < current.output.generation then memory
      else
        memory.set output.instanceId ⟨output,
          if output.replay || current.output.generation ≠ output.generation then output.data
          else lastUnits MAX_TERMINAL_TAIL (current.tail ++ output.data)⟩

/-- What a new event output gets of an instance. The flag of the last output is spread over every
chunk. -/
def replayTerminal (memory : Memory) (instanceId : InstanceId) : List ImagePullTerminalOutput :=
  match memory.get? instanceId with
  | none => []
  | some terminal =>
    (splitTerminal terminal.tail MAX_CHUNK).mapIdx fun index data =>
      { terminal.output with
        sequence := terminal.output.sequence + index
        data
        replay := index = 0 || terminal.output.replay }

/-! ## The projector of the control plane -/

structure PullState where
  instanceId : InstanceId
  generation : Nat
  requestedReference : Text
  sequence : Nat
  observedAt : Text
  terminalTail : Text
  terminalTruncated : Bool

abbrev ImagePullProgressProjector := OrderedMap InstanceId PullState

variable (states : ImagePullProgressProjector) {data : Text}

def requireState (output : ImagePullTerminalOutput) : PullState :=
  let state : PullState :=
    { output with terminalTail := [], terminalTruncated := false }
  match states.get? output.instanceId with
  | none => state
  | some existing => if existing.generation = output.generation then existing else state

def PullState.write (state : PullState) (output : ImagePullTerminalOutput) : PullState :=
  let state := if output.replay then { state with terminalTail := [], terminalTruncated := false }
    else state
  let combined := state.terminalTail ++ output.data
  { state with
    sequence := max state.sequence output.sequence
    observedAt := output.observedAt
    terminalTruncated := state.terminalTruncated || MAX_TERMINAL_TAIL < combined.length
    terminalTail := lastUnits MAX_TERMINAL_TAIL combined }

def PullState.ignores (current : PullState) (output : ImagePullTerminalOutput) : Bool :=
  output.generation < current.generation ||
    (output.generation = current.generation && !output.replay && output.sequence ≤ current.sequence)

def applyOutput (output : ImagePullTerminalOutput) : ImagePullProgressProjector :=
  if (states.get? output.instanceId).any (·.ignores output) then states
  else states.set output.instanceId ((requireState states output).write output)

def handle (output : ImagePullTerminalOutput) : ImagePullProgressProjector :=
  if output.valid then applyOutput states output else states

def shownTail (instanceId : InstanceId) : Option Text :=
  (states.get? instanceId).map (·.terminalTail)

/-! ## Chunks -/

theorem splitTerminal_one {n : Nat} (hne : data ≠ []) (hshort : data.length ≤ n) :
    splitTerminal data n = [data] := by
  have hpos := length_pos_iff.mpr hne
  have hcount : (data.length + n - 1) / n = 1 := by
    rw [Nat.div_eq_iff (by omega)]
    omega
  simp [splitTerminal, hcount, take_of_length_le hshort]

theorem splitTerminal_ne_nil {n : Nat} (hne : data ≠ []) (hn : 0 < n) :
    splitTerminal data n ≠ [] := by
  have hpos := length_pos_iff.mpr hne
  have hcount : 0 < (data.length + n - 1) / n := Nat.div_pos (by omega) hn
  simp [splitTerminal, Nat.ne_of_gt hcount]

theorem splitTerminal_length {chunk : Text} {n : Nat} (h : chunk ∈ splitTerminal data n) :
    0 < chunk.length ∧ chunk.length ≤ n := by
  have ⟨i, hi, hchunk⟩ := mem_map.mp h
  have hn : 0 < n := Nat.pos_of_ne_zero fun hzero => by simp [hzero] at hi
  rw [mem_range, ← Nat.add_one_le_iff, Nat.le_div_iff_mul_le hn, Nat.add_one_mul] at hi
  rw [← hchunk, length_take, length_drop]
  omega

theorem lastUnits_of_short (h : data.length ≤ MAX_CHUNK) :
    lastUnits MAX_TERMINAL_TAIL data = data := by
  have hle : data.length ≤ MAX_TERMINAL_TAIL := Nat.le_trans h (by decide)
  rw [lastUnits, Nat.sub_eq_zero_of_le hle, drop_zero]

/-! ## Replays -/

variable {instanceId : InstanceId} {generation : Nat} {output : ImagePullTerminalOutput}
  {outputs : List ImagePullTerminalOutput} {states : ImagePullProgressProjector} {memory : Memory}

/-- A replay of at most one chunk. -/
structure Replays (instanceId : InstanceId) (generation : Nat) (output : ImagePullTerminalOutput) :
    Prop where
  instanceId : output.instanceId = instanceId
  generation : output.generation = generation
  replay : output.replay = true
  nonempty : 0 < output.data.length
  short : output.data.length ≤ MAX_CHUNK

theorem Replays.valid (h : Replays instanceId generation output) : output.valid = true := by
  have hshort := h.short
  have hnonempty := h.nonempty
  simp only [MAX_CHUNK] at hshort
  simp only [ImagePullTerminalOutput.valid, Bool.and_eq_true, decide_eq_true_eq]
  omega

/-- No later provisioning of the instance has begun. -/
def Current (instanceId : InstanceId) (generation : Nat) (states : ImagePullProgressProjector) : Prop :=
  ∀ state ∈ states.get? instanceId, state.generation ≤ generation

theorem handle_replay (h : Replays instanceId generation output)
    (hcurrent : Current instanceId generation states) :
    Current instanceId generation (handle states output) ∧
      shownTail (handle states output) instanceId = some output.data := by
  have hkept : (states.get? instanceId).any (·.ignores output) = false := by
    rw [Option.any_eq_false]
    intro state hstate
    have hle := hcurrent state hstate
    simp [PullState.ignores, h.replay, h.generation, hle]
  have hgeneration : (requireState states output).generation = generation := by
    unfold requireState
    rw [← h.generation]
    split
    · rfl
    split
    · assumption
    · rfl
  have hwritten : handle states output =
      states.set instanceId ((requireState states output).write output) := by
    simp only [handle, h.valid, applyOutput, hkept, h.instanceId, if_true, Bool.false_eq_true, if_false]
  rw [hwritten, shownTail, Current, OrderedMap.get?_set]
  constructor
  · simp [PullState.write, h.replay, hgeneration]
  · simp [PullState.write, h.replay, lastUnits_of_short h.short]

/-- Every replay begins anew, so only the last one of them is shown. -/
theorem handle_replays (h : ∀ output ∈ outputs, Replays instanceId generation output)
    (hcurrent : Current instanceId generation states) (hne : outputs ≠ []) :
    shownTail (outputs.foldl handle states) instanceId = some (outputs.getLast hne).data := by
  induction outputs generalizing states with
  | nil => exact absurd rfl hne
  | cons output outputs ih =>
    have ⟨hnext, htail⟩ := handle_replay (h output mem_cons_self) hcurrent
    cases outputs with
    | nil => exact htail
    | cons _ _ => exact ih (fun o ho => h o (mem_cons_of_mem _ ho)) hnext (cons_ne_nil _ _)

def MemoryCurrent (instanceId : InstanceId) (generation : Nat) (memory : Memory) : Prop :=
  ∀ terminal ∈ memory.get? instanceId, terminal.output.generation ≤ generation

theorem remember_replay (h : Replays instanceId generation output)
    (hcurrent : MemoryCurrent instanceId generation memory) :
    rememberImagePullTerminal memory output = memory.set instanceId ⟨output, output.data⟩ := by
  unfold rememberImagePullTerminal
  rw [h.valid, h.instanceId]
  cases hfound : memory.get? instanceId with
  | none => rfl
  | some current =>
    have hle := hcurrent current hfound
    simp [h.generation, h.replay, Nat.not_lt.mpr hle]

theorem remember_replays (h : ∀ output ∈ outputs, Replays instanceId generation output)
    (hcurrent : MemoryCurrent instanceId generation memory) (hne : outputs ≠ []) :
    (outputs.foldl rememberImagePullTerminal memory).get? instanceId =
      some ⟨outputs.getLast hne, (outputs.getLast hne).data⟩ := by
  induction outputs generalizing memory with
  | nil => exact absurd rfl hne
  | cons output outputs ih =>
    rw [foldl_cons, remember_replay (h output mem_cons_self) hcurrent]
    cases outputs with
    | nil => exact OrderedMap.get?_set_self _ _ _
    | cons _ _ =>
      apply ih (fun o ho => h o (mem_cons_of_mem _ ho))
      intro terminal hterminal
      rw [OrderedMap.get?_set, if_pos rfl] at hterminal
      cases hterminal
      exact Nat.le_of_eq (h output mem_cons_self).generation

/-! ## Joining a pull -/

variable {base : EventBase}

variable (base) in
theorem published_replays (sequence : Nat) (tail : Text) :
    ∀ output ∈ publishTerminalOutput base ⟨sequence, tail, true⟩,
      Replays base.instanceId base.generation output := by
  intro output houtput
  have ⟨index, hlt, heq⟩ := mem_mapIdx.mp houtput
  have ⟨hpos, hshort⟩ := splitTerminal_length (getElem_mem hlt)
  rw [← heq]
  exact ⟨rfl, rfl, rfl, hpos, hshort⟩

/-- The events that a request for the base causes by joining the pull. -/
def joinEvents (base : EventBase) (entry : InFlightImage) : List ImagePullTerminalOutput :=
  entry.joined.toList.flatMap (publishTerminalOutput base)

/-- The projector shows the retained tail within its limit, and so does every projector that is
replayed to from the memory of the forwarder. -/
def ShowsTail (base : EventBase) (entry : InFlightImage) (states : ImagePullProgressProjector)
    (memory : Memory) : Prop :=
  shownTail ((joinEvents base entry).foldl handle states) base.instanceId =
      some (lastUnits MAX_TERMINAL_TAIL entry.terminalTail) ∧
    ∀ states', Current base.instanceId base.generation states' →
      shownTail ((replayTerminal ((joinEvents base entry).foldl rememberImagePullTerminal memory)
        base.instanceId).foldl handle states') base.instanceId =
          some (lastUnits MAX_TERMINAL_TAIL entry.terminalTail)

theorem showsTail_iff (entry : InFlightImage) (htail : entry.terminalTail ≠ [])
    (hstates : Current base.instanceId base.generation states)
    (hmemory : MemoryCurrent base.instanceId base.generation memory) :
    ShowsTail base entry states memory ↔ entry.terminalTail.length ≤ MAX_CHUNK := by
  have hevents : joinEvents base entry =
      publishTerminalOutput base ⟨entry.terminalSequence, entry.terminalTail, true⟩ := by
    simp [joinEvents, InFlightImage.joined, htail]
  have hreplays := published_replays base entry.terminalSequence entry.terminalTail
  rw [← hevents] at hreplays
  have hne : joinEvents base entry ≠ [] := by
    simp [hevents, publishTerminalOutput, splitTerminal_ne_nil htail (by decide : 0 < MAX_CHUNK)]
  have hshown := handle_replays hreplays hstates hne
  have hkept := remember_replays hreplays hmemory hne
  have hlast := hreplays _ (getLast_mem hne)
  constructor
  · intro h
    have heq := h.1.symm.trans hshown
    have hlength := congrArg length (some.inj heq)
    have hshort := hlast.short
    simp only [lastUnits, length_drop, MAX_CHUNK, MAX_TERMINAL_TAIL] at hlength hshort ⊢
    omega
  · intro hshort
    have hone : joinEvents base entry = [{ base with
        sequence := entry.terminalSequence * 1000
        data := entry.terminalTail
        replay := true }] := by
      rw [hevents, publishTerminalOutput, splitTerminal_one htail hshort, mapIdx_cons,
        mapIdx_nil, Nat.add_zero]
    simp only [hone, getLast_singleton] at hshown hkept hlast
    rw [ShowsTail, lastUnits_of_short hshort, hone]
    refine ⟨hshown, fun states' hcurrent => ?_⟩
    rw [replayTerminal, hkept]
    simp only [splitTerminal_one htail hshort, mapIdx_cons, mapIdx_nil, Nat.add_zero,
      decide_true, Bool.true_or, foldl_cons, foldl_nil]
    exact (handle_replay hlast hcurrent).2

/-- A retained tail is shown if and only if it fits one chunk. -/
theorem join_shows_tail_iff (data : List Text)
    (htail : (data.foldl InFlightImage.notifyTerminal ⟨0, []⟩).terminalTail ≠ [])
    (hstates : Current base.instanceId base.generation states)
    (hmemory : MemoryCurrent base.instanceId base.generation memory) :
    ShowsTail base (data.foldl InFlightImage.notifyTerminal ⟨0, []⟩) states memory ↔
      (data.foldl InFlightImage.notifyTerminal ⟨0, []⟩).terminalTail.length ≤ MAX_CHUNK :=
  showsTail_iff _ htail hstates hmemory

/-- A projector that shows the pull before this one. -/
def earlierStates : ImagePullProgressProjector :=
  .set .empty "i" ⟨"i", 1, [], 7, [], [0x7a], true⟩

/-- A memory of the pull before this one. -/
def earlierMemory : Memory :=
  .set .empty "i" ⟨⟨"i", 1, [], [], 7, [0x7a], false⟩, [0x79, 0x7a]⟩

theorem join_shows_tail_of_short :
    ShowsTail ⟨"i", 2, [], []⟩ (([[0x61, 0x62], [0x63]] : List Text).foldl
      InFlightImage.notifyTerminal ⟨0, []⟩) earlierStates earlierMemory :=
  (join_shows_tail_iff [[0x61, 0x62], [0x63]] (by decide) (by unfold Current; decide)
    (by unfold MemoryCurrent; decide)).mpr (by decide)

/-- The second chunk of a tail of 60001 code units replaces the first. -/
theorem long_tail_not_shown : ∃ data : List Text,
    ¬ ShowsTail ⟨"i", 1, [], []⟩ (data.foldl InFlightImage.notifyTerminal ⟨0, []⟩) .empty .empty := by
  obtain ⟨data, hdata⟩ : ∃ data : Text, data.length = MAX_CHUNK + 1 :=
    ⟨List.replicate _ 0x78, length_replicate⟩
  have hlength : (InFlightImage.notifyTerminal ⟨0, []⟩ data).terminalTail.length = MAX_CHUNK + 1 := by
    simp only [InFlightImage.notifyTerminal, lastUnits, nil_append, length_drop, hdata,
      MAX_CHUNK, MAX_TERMINAL_TAIL]
  have hne := ne_nil_of_length_pos (Nat.lt_of_lt_of_eq (Nat.succ_pos _) hlength.symm)
  refine ⟨[data], fun h => ?_⟩
  have hshort := (showsTail_iff (InFlightImage.notifyTerminal ⟨0, []⟩ data) hne
    (fun _ h => absurd h (not_mem_none _)) fun _ h => absurd h (not_mem_none _)).mp h
  omega

end TaskHandoff.Provisioning.ImagePull
