import TaskHandoff.RelaySession.ResponseLaws

/-! # Runs of response transfers

Every operation ends with a pump or leaves the transfers as they are. A closing session pumps no
more, so that what it still registers is never sent and waits for the socket's close event; behind
that event nothing is left to settle it. -/

namespace TaskHandoff.RelaySession

open Machine List

namespace Responses

/-- What holds of the tables between the operations. -/
structure Held (link : Link) (r : Responses) : Prop where
  core : Core r
  armed : Armed r
  idle : link.closing = false → Idle r
  /-- A closing session sends nothing. -/
  parked : link.closing = true → ∀ t ∈ r.responses, t.nextOffset = 0

variable {link : Link} {r : Responses}

theorem Held.pump (h : Core r) (fails : List Bool)
    (hparked : link.closing = true → ∀ t ∈ r.responses, t.nextOffset = 0) :
    Held link (pumpResponses link fails r) := by
  by_cases hclosing : link.closing = true
  · unfold pumpResponses
    rw [if_pos hclosing]
    refine ⟨h, ?_, fun hopen => absurd hclosing (by simp [hopen]), hparked⟩
    intro t ht hunacked
    have hnone := hparked hclosing t ht
    omega
  · have hopen : link.closing = false := by simpa using hclosing
    have hpumped := h.pumpResponses fails hopen
    exact ⟨hpumped.1, hpumped.2.1, fun _ => hpumped.2.2, fun hc => absurd hc hclosing⟩

theorem Held.abortResponse (h : Held link r) (fails : List Bool) (t : Transfer) :
    Held link (abortResponse link fails t r) := by
  unfold Responses.abortResponse
  split
  next hfound =>
    cases hfind : r.find t.responseId with
    | none => simp [hfind] at hfound
    | some u =>
      have hmem := find_mem hfind
      have hid : t.responseId ∈ r.responses.map (·.responseId) := hmem.2 ▸ mem_map_of_mem hmem.1
      refine Held.pump (h.core.remove hid false) fails ?_
      intro hclosing u hu
      exact h.parked hclosing u (mem_filter.mp hu).1
  · exact h

theorem Core.number (h : Core r) : Core { r with nextResponseId := r.nextResponseId + 1 } :=
  { h with
    numbered := fun b hb => Nat.le_succ_of_le (h.numbered b hb)
    framed := fun f hf => Nat.le_succ_of_le (h.framed f hf) }

theorem Held.number (h : Held link r) :
    Held link { r with nextResponseId := r.nextResponseId + 1 } :=
  ⟨h.core.number, h.armed, h.idle, h.parked⟩

theorem Held.sendBinaryResponse (h : Held link r) (fails : List Bool) (requestId : String)
    (details : Bool) (data : List UInt8) :
    Held link (sendBinaryResponse link fails requestId details data r) := by
  have hregister : ∀ fails, Held link (pumpResponses link fails { r with
      nextResponseId := r.nextResponseId + 1
      responses := r.responses ++ [⟨r.nextResponseId + 1, requestId, data, 0, 0, false⟩]
      responseByRequest := r.responseByRequest.set requestId (r.nextResponseId + 1)
      begun := r.begun ++ [(r.nextResponseId + 1, data)] }) := by
    intro fails
    refine Held.pump (h.core.register requestId data _) fails ?_
    intro hclosing t ht
    cases mem_append.mp ht with
    | inl hold => exact h.parked hclosing t hold
    | inr hnew => rw [mem_singleton.mp hnew]
  unfold Responses.sendBinaryResponse
  split
  · split
    · split
      · exact h.number
      · exact hregister fails
    · split
      · exact h.number
      · split
        · exact h.number
        · exact hregister _
  · exact h.number

theorem Held.acceptResponseAck (h : Held link r) (fails : List Bool) (responseId offset : Nat) :
    Held link (acceptResponseAck link fails responseId offset r) := by
  unfold Responses.acceptResponseAck
  cases hfind : r.find responseId with
  | none => exact h
  | some t =>
    have hmem := find_mem hfind
    dsimp only
    split
    · exact h.abortResponse fails t
    rename_i hvalid
    split
    · exact h.abortResponse fails t
    rename_i hsent
    have hgrows : t.acked < offset := by omega
    have hupdated : Core (r.update responseId fun u =>
        { u with acked := offset, timer := false }) := by
      refine h.core.map _ ?_ ?_ ?_ ?_
      · intro u
        split
        · rfl
        · rfl
      · intro u
        split
        · rfl
        · rfl
      · intro u
        split
        · rfl
        · rfl
      · intro u hu
        split
        next hid =>
          have hsame := h.core.same hu hmem.1 (hid.trans hmem.2.symm)
          rw [hsame]
          exact ⟨Nat.le_of_lt hgrows, Nat.not_lt.mp hsent⟩
        · exact ⟨Nat.le_refl _, (h.core.offsets u hu).1⟩
    have hparked : link.closing = true → ∀ u ∈ (r.update responseId fun u =>
        { u with acked := offset, timer := false }).responses, u.nextOffset = 0 := by
      intro hclosing u _
      have hnone := h.parked hclosing t hmem.1
      omega
    split
    · unfold finishResponse
      split
      next hfound =>
        cases hthere : (r.update responseId fun u =>
            { u with acked := offset, timer := false }).find t.responseId with
        | none => simp [hthere] at hfound
        | some u =>
          have humem := find_mem hthere
          refine Held.pump (hupdated.remove ?_ true) fails ?_
          · exact humem.2 ▸ mem_map_of_mem humem.1
          · intro hclosing v hv
            exact hparked hclosing v (mem_filter.mp hv).1
      · exact Held.pump hupdated fails hparked
    · exact Held.pump hupdated fails hparked

theorem Held.cancel (h : Held link r) (fails : List Bool) (requestId : String) :
    Held link (cancel link fails requestId r) := by
  unfold Responses.cancel
  split
  · exact h
  · exact h.abortResponse fails _

theorem Held.stall {r r' : Responses} (h : Held link r) {fails : List Bool} {responseId : Nat}
    (hstall : stall link fails responseId r = some r') : Held link r' := by
  unfold Responses.stall at hstall
  split at hstall
  · cases hstall
  split at hstall
  · cases hstall
    exact h.abortResponse fails _
  · cases hstall

theorem abortResponse_closing (hclosing : link.closing = true) (fails : List Bool) (t : Transfer)
    (r : Responses) : abortResponse link fails t r =
      if (r.find t.responseId).isSome then r.remove t false else r := by
  unfold abortResponse pumpResponses
  rw [if_pos hclosing]

theorem Core.abortAll (h : Core r) (hclosing : link.closing = true) :
    Core (abortAll link r) ∧ (abortAll link r).responses = [] ∧ (abortAll link r).begun = r.begun := by
  have hloop : ∀ (l : List Transfer) (r : Responses), Core r → (∀ t ∈ r.responses, t ∈ l) →
      Core (l.foldl (fun r t => Responses.abortResponse link [] t r) r) ∧
        (l.foldl (fun r t => Responses.abortResponse link [] t r) r).responses = [] ∧
        (l.foldl (fun r t => Responses.abortResponse link [] t r) r).begun = r.begun := by
    intro l
    induction l with
    | nil =>
      intro r hr hall
      refine ⟨hr, ?_, rfl⟩
      exact eq_nil_iff_forall_not_mem.mpr fun t ht => absurd (hall t ht) not_mem_nil
    | cons t l ih =>
      intro r hr hall
      rw [foldl_cons]
      rw [abortResponse_closing hclosing]
      split
      next hfound =>
        cases hfind : r.find t.responseId with
        | none => simp [hfind] at hfound
        | some u =>
          have hmem := find_mem hfind
          have hid : t.responseId ∈ r.responses.map (·.responseId) := hmem.2 ▸ mem_map_of_mem hmem.1
          have hrest := ih (r.remove t false) (hr.remove hid false) ?_
          · exact hrest
          intro v hv
          have hkept := mem_filter.mp hv
          cases mem_cons.mp (hall v hkept.1) with
          | inl heq => simp [heq] at hkept
          | inr hin => exact hin
      next hgone =>
        refine ih r hr ?_
        intro v hv
        cases mem_cons.mp (hall v hv) with
        | inl heq => exact absurd (find_of_mem (heq ▸ hv)) hgone
        | inr hin => exact hin
  exact hloop r.responses r h fun _ => id

theorem Core.all_settled (h : Core r) (hempty : r.responses = []) :
    ∀ b ∈ r.begun, b.1 ∈ r.settled.map Prod.fst := by
  intro b hb
  have hmem := h.split.symm.subset (mem_map_of_mem hb)
  rw [hempty] at hmem
  exact hmem

end Responses

namespace Transfers

open Responses

theorem step_held {s t : State} {a : Action} (hstep : step s a = some t)
    (h : Held s.link s.tables) : Held t.link t.tables := by
  have hclosed : ∀ link : Link, link.closing = true → Held link (s.tables.abortAll link) := by
    intro link hclosing
    have haborted := h.core.abortAll hclosing
    refine ⟨haborted.1, ?_, fun hopen => absurd hclosing (by simp [hopen]), ?_⟩
    · intro u hu
      rw [haborted.2.1] at hu
      cases hu
    intro _ u hu
    rw [haborted.2.1] at hu
    cases hu
  cases a with
  | ready requestId details data fails =>
    cases hstep
    exact h.sendBinaryResponse fails requestId details data
  | ack responseId offset fails =>
    obtain ⟨-, hstep⟩ := Option.ite_none_left_eq_some.mp hstep
    cases hstep
    exact h.acceptResponseAck fails responseId offset
  | cancel requestId fails =>
    obtain ⟨-, hstep⟩ := Option.ite_none_left_eq_some.mp hstep
    cases hstep
    exact h.cancel fails requestId
  | stall responseId fails =>
    have ⟨tables, hstall, ht⟩ := Option.map_eq_some_iff.mp hstep
    rw [← ht]
    exact h.stall hstall
  | socketClosing =>
    cases hstep
    exact { h with }
  | close =>
    cases hstep
    exact hclosed _ rfl
  | closeEvent =>
    obtain ⟨-, hstep⟩ := Option.ite_none_left_eq_some.mp hstep
    cases hstep
    exact hclosed _ rfl

/-- No response with bytes becomes ready behind the socket's close event. -/
def InTime (s : State) : Action → Prop
  | .ready _ details data _ =>
    s.link.closed = true → data = [] ∨ s.tables.metadataFits details data = false
  | _ => True

instance (s : State) (a : Action) : Decidable (InTime s a) := by
  cases a <;> unfold InTime <;> infer_instance

/-- Behind the close event no transfer is left. -/
def Emptied (s : State) : Prop := s.link.closed = true → s.link.closing = true ∧ s.tables.responses = []

theorem step_emptied {s t : State} {a : Action} (hstep : step s a = some t) (htime : InTime s a)
    (h : Held s.link s.tables ∧ Emptied s) : Held t.link t.tables ∧ Emptied t := by
  refine ⟨step_held hstep h.1, ?_⟩
  cases a with
  | ready requestId details data fails =>
    cases hstep
    intro hclosed
    have hold := h.2 hclosed
    refine ⟨hold.1, ?_⟩
    dsimp only [sendBinaryResponse]
    cases htime hclosed with
    | inl hempty =>
      rw [hold.1]
      split
      · exact hold.2
      · exact hold.2
    | inr hunfit =>
      rw [if_neg (by simp [hunfit])]
      exact hold.2
  | ack responseId offset fails =>
    simp only [step] at hstep
    split at hstep
    · cases hstep
    next hopen =>
      cases hstep
      exact fun hclosed => absurd hclosed hopen
  | cancel requestId fails =>
    simp only [step] at hstep
    split at hstep
    · cases hstep
    next hopen =>
      cases hstep
      exact fun hclosed => absurd hclosed hopen
  | stall responseId fails =>
    have ⟨tables, hstall, ht⟩ := Option.map_eq_some_iff.mp hstep
    cases ht
    intro hclosed
    have hold := h.2 hclosed
    simp [Responses.stall, Responses.find, hold.2] at hstall
  | socketClosing =>
    cases hstep
    exact h.2
  | close =>
    cases hstep
    exact fun _ => ⟨rfl, (h.1.core.abortAll rfl).2.1⟩
  | closeEvent =>
    obtain ⟨-, hstep⟩ := Option.ite_none_left_eq_some.mp hstep
    cases hstep
    exact fun _ => ⟨rfl, (h.1.core.abortAll rfl).2.1⟩

theorem Core_empty : Core .empty :=
  ⟨nodup_nil, nodup_nil, List.Perm.nil, nofun, nofun, nofun, nofun, nofun, nofun, Nat.zero_le _⟩

theorem held_initial : Held State.initial.link State.initial.tables :=
  ⟨Core_empty, nofun, fun _ => nofun, fun _ => nofun⟩

/-- The laws of the transfers of one session. -/
structure Law (s : State) : Prop where
  window : s.tables.inFlightBytes ≤ globalWindow
  chunks : ∀ b ∈ s.tables.begun, Contiguous b.2 0 (s.tables.framesOf b.1)
  stalls : ∀ t ∈ s.tables.responses, t.acked < t.nextOffset → t.timer = true
  idle : s.link.closing = false → ∀ t ∈ s.tables.responses, t.nextOffset < t.size →
    responseWindow ≤ t.inFlight ∨ globalWindow ≤ s.tables.inFlightBytes
  settledOnce : (s.tables.settled.map Prod.fst).Nodup
  /-- Calling `close` settles what has begun. -/
  closes : ∀ t, step s .close = some t → ∀ b ∈ s.tables.begun, b.1 ∈ t.tables.settled.map Prod.fst

theorem law_of_held {s : State} (h : Held s.link s.tables) : Law s where
  window := h.core.window
  chunks := h.core.contiguous
  stalls := h.armed
  idle := h.idle
  settledOnce := by
    have hall := h.core.split.symm.nodup h.core.begunOnce
    exact (nodup_append.mp hall).2.1
  closes t hstep := by
    cases hstep
    have hclosing : s.link.close.closing = true := rfl
    have haborted := h.core.abortAll hclosing
    have hsettled := haborted.1.all_settled haborted.2.1
    rw [haborted.2.2] at hsettled
    exact hsettled

/-- The transfers of every run keep their laws, and when no response comes too late each of them
is settled behind the close event. -/
theorem transfers_settle {actions : List Action} {s : State}
    (hrun : run step .initial actions = some s) (hsteps : AllSteps step InTime .initial actions) :
    Law s ∧ (s.link.closed = true → ∀ b ∈ s.tables.begun, b.1 ∈ s.tables.settled.map Prod.fst) := by
  have hheld : Held s.link s.tables ∧ Emptied s := by
    have hempty : Emptied State.initial := fun hclosed => by cases hclosed
    exact run_invariant_of_steps (I := fun s => Held s.link s.tables ∧ Emptied s)
      (fun _ _ _ => step_emptied) hrun hsteps ⟨held_initial, hempty⟩
  refine ⟨law_of_held hheld.1, ?_⟩
  intro hclosed
  exact hheld.1.core.all_settled (hheld.2 hclosed).2

theorem transfers_settle_example :
    ∃ s, run step .initial [.ready "r" true [1, 2] [], .ack 1 2 [], .ready "q" true [3] [],
        .closeEvent] = some s ∧ s.tables.settled = [(1, true), (2, false)] ∧
      ∀ b ∈ s.tables.begun, b.1 ∈ s.tables.settled.map Prod.fst := by
  have hsteps : AllSteps step InTime .initial
      [.ready "r" true [1, 2] [], .ack 1 2 [], .ready "q" true [3] [], .closeEvent] := by decide
  exact ⟨_, rfl, rfl, (transfers_settle rfl hsteps).2 rfl⟩

/-- An answer behind the close event has a promise that nothing settles. -/
theorem late_response_pending :
    ∃ s, run step .initial [.closeEvent, .ready "r" true [7] []] = some s ∧
      s.link.closed = true ∧ ∃ b ∈ s.tables.begun, b.1 ∉ s.tables.settled.map Prod.fst := by
  exact ⟨_, rfl, rfl, (1, [7]), by decide, by decide⟩

end Transfers

end TaskHandoff.RelaySession
