import TaskHandoff.Stories.DecisionService

/-! # Recorded and delivered decisions

The reply is sent before it is recorded, so a run can store another reply than
the session received, or store a cancellation of a reply that was sent. The
runs in which that cannot happen are those whose steps are `Coherent`: what
reaches the session agrees with what reached it before, and a decision is
withdrawn only while nothing has reached it.
-/

namespace TaskHandoff.Stories

open Machine List Option

/-! ## The property -/

/-- The message delivered under the decision's own request id. -/
def keyedDelivery (record : StoryDecisionRecord) (session : SessionClient) : Option String :=
  session.deliveredUnder record.id

def recordedReply (record : StoryDecisionRecord) : String :=
  composeDecisionResponse record.options record.selectedOptionId record.response

/-- Nothing was ever delivered for the decision. -/
def Silent (record : StoryDecisionRecord) (session : SessionClient) : Prop :=
  keyedDelivery record session = none ∧ session.unkeyed = []

instance (record : StoryDecisionRecord) (session : SessionClient) :
    Decidable (Silent record session) :=
  inferInstanceAs (Decidable (_ ∧ _))

/-- A decided decision was delivered as recorded, and no other message under its
request id; a withdrawn one was never delivered. -/
def RecordedIsDelivered (record : StoryDecisionRecord) (session : SessionClient) : Prop :=
  match record.status with
  | .pending => True
  | .decided =>
    (∀ message ∈ keyedDelivery record session, message = recordedReply record) ∧
      (keyedDelivery record session = some (recordedReply record) ∨
        recordedReply record ∈ session.unkeyed)
  | .cancelled => Silent record session
  | .expired => Silent record session

instance (record : StoryDecisionRecord) (session : SessionClient) :
    Decidable (RecordedIsDelivered record session) := by
  unfold RecordedIsDelivered
  split <;> infer_instance

/-! ## The condition -/

/-- The decision has not been withdrawn. -/
def Standing (record : StoryDecisionRecord) : Prop :=
  record.status = .pending ∨ record.status = .decided

instance (record : StoryDecisionRecord) : Decidable (Standing record) :=
  inferInstanceAs (Decidable (_ ∨ _))

def SessionVerdict.accepts : SessionVerdict → Bool
  | .accept _ => true
  | .reject _ _ => false

/-- What a request must meet when it reaches the session: it delivers only while
the decision stands and only what agrees with the deliveries before it, and no
first answer to another message comes back for a pending decision. -/
def Agrees (record : StoryDecisionRecord) (session : SessionClient) (policy : RepeatPolicy)
    (request : SendRequest) (verdict : SessionVerdict) : Prop :=
  match request.clientRequestId with
  | none =>
    verdict.accepts = true → Standing record ∧ (record.status = .pending →
        ∀ message ∈ keyedDelivery record session, message = request.message)
  | some key =>
    match session.deliveredUnder key with
    | none =>
      verdict.accepts = true →
        Standing record ∧ ∀ message ∈ session.unkeyed, message = request.message
    | some message => policy = .answerFirst → record.status = .pending → message = request.message

instance (record : StoryDecisionRecord) (session : SessionClient) (policy : RepeatPolicy)
    (request : SendRequest) (verdict : SessionVerdict) :
    Decidable (Agrees record session policy request verdict) := by
  unfold Agrees
  split
  · infer_instance
  · split <;> infer_instance

namespace World

/-- The steps that cannot part the record from the delivery. -/
def Coherent (policy : RepeatPolicy) (w : World) : Action → Prop
  | .reachSession index verdict _ =>
    ∀ request ∈ w.decides[index]?.bind OpenDecide.inFlight,
      Agrees w.record w.session policy request verdict
  | .commitCancel index _ =>
    ∀ expectedRevision ∈ w.cancels[index]?,
      w.record.revision = expectedRevision → Silent w.record w.session
  | .expireForSession sessionId _ _ =>
    w.record.sessionId = sessionId ∧ w.record.status = .pending → Silent w.record w.session
  | .commitExpire index _ =>
    ∀ expiry ∈ w.expiries[index]?, w.record.revision = expiry.revision → Silent w.record w.session
  | .decide .. | .markResuming .. | .send .. | .hangUp .. | .clearResuming ..
  | .commitDecide .. | .cancel .. | .expireForStory .. => True

instance (policy : RepeatPolicy) (w : World) (a : Action) : Decidable (w.Coherent policy a) := by
  unfold Coherent
  split <;> infer_instance

end World

/-! ## The session client -/

theorem SessionClient.deliveredUnder_set (session : SessionClient) (key k message : String)
    (response : SendResponse) : SessionClient.deliveredUnder
      { session with completed := session.completed.set key (message, response) } k =
      if k = key then some message else session.deliveredUnder k := by
  unfold deliveredUnder
  rw [OrderedMap.get?_set]
  split <;> rfl

/-- A request repeats what its key delivered, or delivers, or changes nothing;
success is answered only to the first two. -/
theorem SessionClient.sendMessage_cases (session : SessionClient) (policy : RepeatPolicy)
    (request : SendRequest) (verdict : SessionVerdict) :
    ((session.sendMessage policy request verdict).1 = session ∧
      ((session.sendMessage policy request verdict).2.ok = true →
        ∃ key message, request.clientRequestId = some key ∧
          session.deliveredUnder key = some message ∧
          (message = request.message ∨ policy = .answerFirst))) ∨
    (verdict.accepts = true ∧ request.clientRequestId = none ∧
      (session.sendMessage policy request verdict).1 =
        { session with unkeyed := session.unkeyed ++ [request.message] }) ∨
    (∃ key response, verdict.accepts = true ∧ request.clientRequestId = some key ∧
      session.deliveredUnder key = none ∧
      (session.sendMessage policy request verdict).1 =
        { session with completed := session.completed.set key (request.message, response) }) := by
  unfold sendMessage
  cases hkey : request.clientRequestId with
  | none =>
    cases verdict with
    | accept response => exact Or.inr (Or.inl ⟨rfl, rfl, rfl⟩)
    | reject response notOk => exact Or.inl ⟨rfl, fun hok => absurd hok (by simp [notOk])⟩
  | some key =>
    simp only
    cases hfirst : session.completed.get? key with
    | none =>
      have hnone : session.deliveredUnder key = none := by simp [deliveredUnder, hfirst]
      cases verdict with
      | accept response => exact Or.inr (Or.inr ⟨key, response, rfl, rfl, hnone, rfl⟩)
      | reject response notOk => exact Or.inl ⟨rfl, fun hok => absurd hok (by simp [notOk])⟩
    | some served =>
      obtain ⟨message, first⟩ := served
      have hsome : session.deliveredUnder key = some message := by simp [deliveredUnder, hfirst]
      by_cases hsame : message = request.message
      · simp only [if_pos hsame]
        exact Or.inl ⟨trivial, fun _ => ⟨key, message, rfl, hsome, Or.inl hsame⟩⟩
      cases policy with
      | refuseOther =>
        simp only [if_neg hsame]
        exact Or.inl ⟨trivial, fun hok => absurd hok (by decide)⟩
      | answerFirst =>
        simp only [if_neg hsame]
        exact Or.inl ⟨trivial, fun _ => ⟨key, message, rfl, hsome, Or.inr trivial⟩⟩

variable {turnId : Option String} {next : StoryDecisionRecord}

theorem readSendResponse_ok {response : SendResponse}
    (h : readSendResponse response = .ok turnId) : response.ok = true := by
  unfold readSendResponse at h
  by_cases hok : response.ok = true
  · exact hok
  · simp [hok] at h

/-! ## The invariant -/

/-- A call that will record its reply has delivered it, as far as its path can tell. -/
def Dispatched (record : StoryDecisionRecord) (session : SessionClient) (call : DecideCall) : Prop :=
  (call.idempotentSend = true → keyedDelivery record session = some call.message) ∧
    (call.idempotentSend = false → call.message ∈ session.unkeyed ∧
      ∀ message ∈ keyedDelivery record session, message = call.message)

structure CallOk (record : StoryDecisionRecord) (session : SessionClient) (entry : OpenDecide) :
    Prop where
  decision : entry.call.decision.id = record.id
  message : entry.call.message =
    composeDecisionResponse record.options entry.call.input.optionId entry.call.input.response
  request : ∀ request ∈ entry.inFlight, request.message = entry.call.message ∧
    request.clientRequestId = if entry.call.idempotentSend then some record.id else none
  committing : ∀ turnId, entry.phase = .committing turnId → record.status = .pending →
    Dispatched record session entry.call

structure Coupled (record : StoryDecisionRecord) (session : SessionClient)
    (decides : List OpenDecide) : Prop where
  unanswered : record.status = .pending → record.response = none ∧ record.selectedOptionId = none
  calls : ∀ entry ∈ decides, CallOk record session entry
  delivered : RecordedIsDelivered record session

/-- A row of the same decision that is still pending only if it was. -/
structure Follows (record next : StoryDecisionRecord) : Prop where
  id : next.id = record.id
  options : next.options = record.options
  pending : next.status = .pending → record.status = .pending

variable {session : SessionClient}

theorem CallOk.follow {record next : StoryDecisionRecord} {entry : OpenDecide}
    (h : CallOk record session entry) (hnext : Follows record next) :
    CallOk next session entry := by
  refine ⟨?_, ?_, ?_, ?_⟩
  · rw [hnext.id]
    exact h.decision
  · rw [hnext.options]
    exact h.message
  · rw [hnext.id]
    exact h.request
  · intro turnId hphase hpending
    have hsent := h.committing turnId hphase (hnext.pending hpending)
    unfold Dispatched keyedDelivery at hsent ⊢
    rw [hnext.id]
    exact hsent

variable {record : StoryDecisionRecord}

theorem CallOk.idle {entry : OpenDecide} (h : CallOk record session entry) (phase : DecidePhase)
    (hphase : ∀ turnId, phase ≠ .committing turnId) :
    CallOk record session { entry with phase := phase } :=
  ⟨h.decision, h.message, h.request, fun turnId hp => (hphase turnId hp).elim⟩

variable {decides : List OpenDecide}

section

variable (h : Coupled record session decides)

include h

variable {entry : OpenDecide}

theorem Coupled.set (index : Nat) (hentry : CallOk record session entry) :
    Coupled record session (decides.set index entry) := by
  refine ⟨h.unanswered, ?_, h.delivered⟩
  intro e he
  obtain hold | rfl := mem_or_eq_of_mem_set he
  · exact h.calls e hold
  · exact hentry

theorem Coupled.ledger (resumeState : Option ResumeState) (resumeAttemptedAt : Option String) :
    Coupled { record with resumeState := resumeState, resumeAttemptedAt := resumeAttemptedAt }
      session decides :=
  ⟨h.unanswered, fun e he => (h.calls e he).follow ⟨rfl, rfl, id⟩, h.delivered⟩

theorem Coupled.withdraw
    (hid : next.id = record.id) (hoptions : next.options = record.options)
    (hstatus : next.status = .cancelled ∨ next.status = .expired) (hsilent : Silent record session)
    : Coupled next session decides := by
  have hpending : next.status ≠ .pending := by
    rcases hstatus with hstatus | hstatus <;> simp [hstatus]
  have hnext : Silent next session := by
    unfold Silent keyedDelivery at hsilent ⊢
    rwa [hid]
  refine ⟨fun hp => (hpending hp).elim, ?_, ?_⟩
  · intro e he
    exact (h.calls e he).follow ⟨hid, hoptions, fun hp => (hpending hp).elim⟩
  · unfold RecordedIsDelivered
    rcases hstatus with hstatus | hstatus <;> simpa only [hstatus] using hnext

theorem Coupled.decide (hentry : CallOk record session entry)
    (hphase : entry.phase = .committing turnId) (hpending : record.status = .pending)
    (timestamp : String) :
    Coupled (decidePatch entry.call.input turnId timestamp record) session decides := by
  obtain ⟨hresponse, hoption⟩ := h.unanswered hpending
  have hreply : recordedReply (decidePatch entry.call.input turnId timestamp record) =
      entry.call.message := by
    rw [hentry.message]
    simp [recordedReply, decidePatch, hresponse, hoption]
  have hkeyed : keyedDelivery (decidePatch entry.call.input turnId timestamp record) session =
      keyedDelivery record session := rfl
  obtain ⟨hsent, hunkeyed⟩ := hentry.committing turnId hphase hpending
  refine ⟨fun hp => ?_, fun e he => ?_, ?_⟩
  · cases hp
  · exact (h.calls e he).follow ⟨rfl, rfl, fun hp => by cases hp⟩
  show _ ∧ _
  rw [hkeyed, hreply]
  cases hidem : entry.call.idempotentSend with
  | true =>
    rw [hsent hidem]
    exact ⟨fun m hm => (some.inj hm).symm, Or.inl rfl⟩
  | false =>
    obtain ⟨hmem, hall⟩ := hunkeyed hidem
    exact ⟨hall, Or.inr hmem⟩

/-! ## A request reaches the session -/

theorem Coupled.deliverUnkeyed (message : String) (hstanding : Standing record) :
    Coupled record { session with unkeyed := session.unkeyed ++ [message] } decides := by
  refine ⟨h.unanswered, fun e he => ?_, ?_⟩
  · obtain ⟨hdecision, hmessage, hrequest, hcommitting⟩ := h.calls e he
    refine ⟨hdecision, hmessage, hrequest, fun turnId hphase hpending => ?_⟩
    obtain ⟨hkeyed, hunkeyed⟩ := hcommitting turnId hphase hpending
    refine ⟨hkeyed, fun hidem => ?_⟩
    obtain ⟨hmem, hall⟩ := hunkeyed hidem
    exact ⟨mem_append_left _ hmem, hall⟩
  · have hdelivered := h.delivered
    unfold RecordedIsDelivered at hdelivered ⊢
    rcases hstanding with hstatus | hstatus
    · simp only [hstatus]
    simp only [hstatus] at hdelivered ⊢
    obtain ⟨hall, hsent⟩ := hdelivered
    exact ⟨hall, hsent.imp id (mem_append_left _)⟩

theorem Coupled.deliverKeyed (message : String)
    (response : SendResponse) (hstanding : Standing record)
    (hfirst : session.deliveredUnder record.id = none)
    (hunkeyed : ∀ other ∈ session.unkeyed, other = message) : Coupled record
      { session with completed := session.completed.set record.id (message, response) }
      decides := by
  have hnow : keyedDelivery record
      { session with completed := session.completed.set record.id (message, response) } =
      some message := by
    unfold keyedDelivery
    rw [SessionClient.deliveredUnder_set, if_pos rfl]
  refine ⟨h.unanswered, fun e he => ?_, ?_⟩
  · obtain ⟨hdecision, hmessage, hrequest, hcommitting⟩ := h.calls e he
    refine ⟨hdecision, hmessage, hrequest, fun turnId hphase hpending => ?_⟩
    obtain ⟨hkeyedSent, hunkeyedSent⟩ := hcommitting turnId hphase hpending
    refine ⟨fun hidem => ?_, fun hidem => ?_⟩
    · -- A keyed call that will commit has been served before.
      have hserved := hkeyedSent hidem
      unfold keyedDelivery at hserved
      rw [hfirst] at hserved
      cases hserved
    · obtain ⟨hmem, -⟩ := hunkeyedSent hidem
      refine ⟨hmem, fun m hm => ?_⟩
      rw [hnow] at hm
      rw [hunkeyed _ hmem]
      exact (some.inj hm).symm
  · have hdelivered := h.delivered
    unfold RecordedIsDelivered at hdelivered ⊢
    rcases hstanding with hstatus | hstatus
    · simp only [hstatus]
    simp only [hstatus] at hdelivered ⊢
    have hsame : recordedReply record = message := by
      rcases hdelivered.2 with hsent | hsent
      · unfold keyedDelivery at hsent
        rw [hfirst] at hsent
        cases hsent
      · exact hunkeyed _ hsent
    rw [hnow, hsame]
    exact ⟨fun m hm => (some.inj hm).symm, Or.inl rfl⟩

variable {verdict : SessionVerdict}

/-- Whatever the session does with a request that agrees with its deliveries,
and a success it answers has delivered the call's message. -/
theorem Coupled.reach {request : SendRequest} (hentry : CallOk record session entry)
    (hflight : entry.inFlight = some request) {policy : RepeatPolicy}
    (hagrees : Agrees record session policy request verdict) :
    Coupled record (session.sendMessage policy request verdict).1 decides ∧
      ((session.sendMessage policy request verdict).2.ok = true → record.status = .pending →
        Dispatched record (session.sendMessage policy request verdict).1 entry.call) := by
  obtain ⟨hmessage, hkey⟩ := hentry.request request hflight
  rcases session.sendMessage_cases policy request verdict with
    ⟨hsame, hserved⟩ | ⟨haccepts, hnone, hnext⟩ | ⟨key, response, haccepts, hsome, hfirst, hnext⟩
  · rw [hsame]
    refine ⟨h, fun hok hpending => ?_⟩
    obtain ⟨key, message, hsome, hdelivered, hmatch⟩ := hserved hok
    have hequal : message = request.message := by
      rcases hmatch with hmatch | hpolicy
      · exact hmatch
      unfold Agrees at hagrees
      simp only [hsome, hdelivered] at hagrees
      exact hagrees hpolicy hpending
    rw [hsome] at hkey
    cases hidem : entry.call.idempotentSend with
    | false => simp [hidem] at hkey
    | true =>
      simp only [hidem, if_true, some.injEq] at hkey
      refine ⟨fun _ => ?_, fun hfalse => by simp [hidem] at hfalse⟩
      unfold keyedDelivery
      rw [← hkey, hdelivered, hequal, hmessage]
  · unfold Agrees at hagrees
    simp only [hnone] at hagrees
    obtain ⟨hstanding, hkeyed⟩ := hagrees haccepts
    rw [hnext]
    refine ⟨h.deliverUnkeyed request.message hstanding, fun _ hpending => ?_⟩
    cases hidem : entry.call.idempotentSend with
    | true => simp [hidem, hnone] at hkey
    | false =>
      refine ⟨fun htrue => by simp [hidem] at htrue, fun _ => ?_⟩
      rw [← hmessage]
      exact ⟨by simp, hkeyed hpending⟩
  · unfold Agrees at hagrees
    simp only [hsome, hfirst] at hagrees
    obtain ⟨hstanding, hunkeyed⟩ := hagrees haccepts
    rw [hsome] at hkey
    cases hidem : entry.call.idempotentSend with
    | false => simp [hidem] at hkey
    | true =>
      simp only [hidem, if_true, some.injEq] at hkey
      subst hkey
      rw [hnext]
      refine ⟨h.deliverKeyed request.message response hstanding hfirst hunkeyed,
        fun _ _ => ⟨fun _ => ?_, fun hfalse => by simp [hidem] at hfalse⟩⟩
      unfold keyedDelivery
      rw [SessionClient.deliveredUnder_set, if_pos rfl, hmessage]

end

/-! ## One step -/

variable {instances : List ControlledInstance} {input : StoryDecisionDecideInput}

theorem checkDecide_dispatch {story : Option Story} {storyId decisionId : String}
    {call : DecideCall}
    (h : checkDecide story record storyId decisionId input instances = .ok (.dispatch call)) :
    call.decision = record ∧ call.input = input ∧
      call.message = composeDecisionResponse record.options input.optionId input.response := by
  unfold checkDecide requireDecision at h
  cases hstory : assertStoryMutable story with
  | some error => simp [hstory] at h
  | none =>
    simp only [hstory] at h
    by_cases hfound : record.id = decisionId ∧ record.storyId = storyId
    · simp only [if_pos hfound] at h
      split_ifs at h
      all_goals try cases h
      split at h
      · cases h
      rename_i target htarget
      split_ifs at h
      cases h
      exact ⟨rfl, rfl, rfl⟩
    · simp [hfound] at h

theorem commitDecide_cases (record : StoryDecisionRecord) (input : StoryDecisionDecideInput)
    (turnId : Option String) (timestamp : String) :
    (commitDecide record input turnId timestamp).1 = record ∨ (record.status = .pending ∧
        (commitDecide record input turnId timestamp).1 =
          decidePatch input turnId timestamp record) := by
  unfold commitDecide updateIfRevision
  by_cases hcheck : record.status ≠ .pending ∨ record.revision ≠ input.expectedRevision
  · left
    rw [if_pos hcheck]
  right
  obtain ⟨hpending, hrevision⟩ := not_or.mp hcheck
  rw [if_neg hcheck, if_pos (not_not.mp hrevision)]
  refine ⟨not_not.mp hpending, ?_⟩
  simp only
  split <;> rfl

namespace World

def Inv (w : World) : Prop :=
  Coupled w.record w.session w.decides

theorem init_inv (id : String) (caller : StoryDecisionCaller) (input : StoryDecisionCreateInput)
    (timestamp : String) : (init (newDecision id caller input timestamp)).Inv :=
  ⟨fun _ => ⟨rfl, rfl⟩, fun _ h => (not_mem_nil h).elim, trivial⟩

variable {index : Nat} {w w' : World}

theorem Inv.entry (h : w.Inv) {entry : OpenDecide}
    (hget : w.decides[index]? = some entry) : CallOk w.record w.session entry :=
  h.calls entry (mem_of_getElem? hget)

theorem Inv.failDecide (h : w.Inv) (index : Nat) {entry : OpenDecide}
    (hentry : CallOk w.record w.session entry) (failure : DecideFailure) :
    (w.failDecide index entry failure).Inv := by
  unfold World.failDecide
  split
  · exact h.set index (hentry.idle .settled (by simp))
  · exact h.set index (hentry.idle (.clearing failure) (by simp))

theorem Inv.conclude {result : StoryDecisionRecord × Option StoryDecisionRecord}
    (h : Coupled result.1 w.session w.decides) (change : StoryDecisionChange)
    {missing : World → World} (hmissing : ∀ v : World, v.Inv → (missing v).Inv) :
    (w.conclude change result missing).Inv := by
  unfold World.conclude
  cases result.2 with
  | none => exact hmissing _ h
  | some updated => exact h

/-- A withdrawal at a revision is right when nothing was delivered or the row has moved on. -/
theorem Inv.withdrawAt (h : w.Inv) {expectedRevision : Nat}
    {patch : StoryDecisionRecord → StoryDecisionRecord} (hid : (patch w.record).id = w.record.id)
    (hoptions : (patch w.record).options = w.record.options)
    (hstatus : (patch w.record).status = .cancelled ∨ (patch w.record).status = .expired)
    (hsilent : w.record.revision = expectedRevision → Silent w.record w.session) :
    Coupled (updateIfRevision w.record expectedRevision patch).1 w.session w.decides := by
  unfold updateIfRevision
  by_cases hrevision : w.record.revision = expectedRevision
  · simp only [if_pos hrevision]
    exact Coupled.withdraw h hid hoptions hstatus (hsilent hrevision)
  · simp only [if_neg hrevision]
    exact h

variable {policy : RepeatPolicy}

theorem Inv.decide (h : w.Inv) {story : Option Story} {storyId decisionId : String}
    (hstep : w.step policy (.decide story storyId decisionId input instances) = some w') :
    w'.Inv := by
  simp only [step] at hstep
  cases hcheck : checkDecide story w.record storyId decisionId input instances with
  | error error =>
    simp only [hcheck, some.injEq] at hstep
    exact hstep ▸ h
  | ok check =>
    cases check with
    | answer decision =>
      simp only [hcheck, some.injEq] at hstep
      exact hstep ▸ h
    | dispatch call =>
      obtain ⟨hdecision, hinput, hmessage⟩ := checkDecide_dispatch hcheck
      have hnew : ∀ phase, (∀ turnId, phase ≠ DecidePhase.committing turnId) →
          Inv { w with decides := w.decides ++ [{ call := call, phase := phase }] } := by
        intro phase hphase
        refine ⟨h.unanswered, fun e he => ?_, h.delivered⟩
        rcases mem_concat.mp he with hold | rfl
        · exact h.calls e hold
        exact ⟨by rw [hdecision], by rw [hmessage, hinput], (by simp),
          fun turnId hp => (hphase turnId hp).elim⟩
      simp only [hcheck] at hstep
      split_ifs at hstep
      · exact some.inj hstep ▸ hnew .sending (by simp)
      · exact some.inj hstep ▸ h
      · exact some.inj hstep ▸ hnew .marking (by simp)

theorem Inv.reachSession (h : w.Inv) {answered : Bool}
    (hcoherent : w.Coherent policy (.reachSession index verdict answered))
    (hstep : w.step policy (.reachSession index verdict answered) = some w') : w'.Inv := by
  simp only [step] at hstep
  cases hget : w.decides[index]? with
  | none => simp [hget] at hstep
  | some entry =>
    simp only [hget] at hstep
    have hentry := h.entry hget
    cases hflight : entry.inFlight with
    | none => simp [hflight] at hstep
    | some request =>
      simp only [hflight] at hstep
      have hagrees : Agrees w.record w.session policy request verdict :=
        hcoherent request (by simp [hget, hflight])
      obtain ⟨hreached, hsent⟩ := Coupled.reach h hentry hflight hagrees
      have hlanded := hreached.calls entry (mem_of_getElem? hget)
      have hclear : CallOk w.record (w.session.sendMessage policy request verdict).1
          { entry with inFlight := none } :=
        ⟨hlanded.decision, hlanded.message, by simp, hlanded.committing⟩
      by_cases hwaits : answered = true ∧ entry.phase = .waiting
      · simp only [if_pos hwaits] at hstep
        cases hread : readSendResponse (w.session.sendMessage policy request verdict).2 with
        | error failure =>
          simp only [hread, some.injEq] at hstep
          have hsettled : Inv { w with session := (w.session.sendMessage policy request verdict).1 } :=
            hreached
          exact hstep ▸ hsettled.failDecide index hclear failure
        | ok turnId =>
          simp only [hread, some.injEq] at hstep
          refine hstep ▸ hreached.set index ⟨hclear.decision, hclear.message,
            hclear.request, fun _ _ hpending => ?_⟩
          exact hsent (readSendResponse_ok hread) hpending
      · simp only [if_neg hwaits, some.injEq] at hstep
        exact hstep ▸ hreached.set index hclear

theorem Inv.commitDecide (h : w.Inv) {timestamp : String}
    (hstep : w.step policy (.commitDecide index timestamp) = some w') : w'.Inv := by
  simp only [step] at hstep
  split at hstep
  · cases hstep
  rename_i entry hget
  cases hphase : entry.phase with
  | committing turnId =>
    simp only [hphase] at hstep
    have hentry := h.entry hget
    have hrow : Coupled (Stories.commitDecide w.record entry.call.input turnId timestamp).1
        w.session w.decides := by
      rcases commitDecide_cases w.record entry.call.input turnId timestamp with
        hsame | ⟨hpending, hnext⟩
      · rw [hsame]
        exact h
      · rw [hnext]
        exact Coupled.decide h hentry hphase hpending timestamp
    have hdone := hrow.set index
      ((hrow.calls entry (mem_of_getElem? hget)).idle .settled (by simp))
    split at hstep
    · exact some.inj hstep ▸ hdone
    · exact some.inj hstep ▸ hdone
  | _ => simp [hphase] at hstep

theorem step_inv (policy : RepeatPolicy) (w : World) (a : Action) (w' : World)
    (hstep : w.step policy a = some w') (hcoherent : w.Coherent policy a) (h : w.Inv) : w'.Inv := by
  cases a with
  | decide story storyId decisionId input instances => exact h.decide hstep
  | markResuming index timestamp =>
    simp only [step] at hstep
    split at hstep
    · cases hstep
    rename_i entry hget
    split_ifs at hstep
    have hmarked := Coupled.ledger h (some .resuming) (some timestamp)
    exact some.inj hstep ▸ hmarked.set index
      ((hmarked.calls entry (mem_of_getElem? hget)).idle .sending (by simp))
  | send index =>
    simp only [step] at hstep
    split at hstep
    · cases hstep
    rename_i entry hget
    have hentry := h.entry hget
    split_ifs at hstep
    unfold DecideCall.request at hstep
    by_cases htoken : (orUndefined entry.call.target.registrationToken).isNone = true
    · simp only [if_pos htoken, some.injEq] at hstep
      exact hstep ▸ h.failDecide index hentry _
    simp only [if_neg htoken, some.injEq] at hstep
    refine hstep ▸ Coupled.set h index ⟨hentry.decision, hentry.message, ?_, by simp⟩
    intro request hrequest
    cases hrequest
    rw [hentry.decision]
    exact ⟨rfl, rfl⟩
  | reachSession index verdict answered => exact h.reachSession hcoherent hstep
  | hangUp index =>
    simp only [step] at hstep
    split at hstep
    · cases hstep
    rename_i entry hget
    split_ifs at hstep
    exact some.inj hstep ▸ h.failDecide index (h.entry hget) _
  | clearResuming index =>
    simp only [step] at hstep
    split at hstep
    · cases hstep
    rename_i entry hget
    cases hphase : entry.phase with
    | clearing failure =>
      simp only [hphase, some.injEq] at hstep
      have hcleared := Coupled.ledger h none none
      exact hstep ▸ hcleared.set index
        ((hcleared.calls entry (mem_of_getElem? hget)).idle .settled (by simp))
    | _ => simp [hphase] at hstep
  | commitDecide index timestamp => exact h.commitDecide hstep
  | cancel story storyId decisionId input =>
    simp only [step] at hstep
    split at hstep
    · exact some.inj hstep ▸ h
    · exact some.inj hstep ▸ h
  | commitCancel index timestamp =>
    simp only [step] at hstep
    split at hstep
    · cases hstep
    rename_i expectedRevision hget
    refine some.inj hstep ▸ Inv.conclude ?_ .cancelled fun _ => id
    exact h.withdrawAt rfl rfl (Or.inl rfl) (hcoherent expectedRevision hget)
  | expireForSession sessionId reason timestamp =>
    simp only [step, some.injEq] at hstep
    refine hstep ▸ Inv.conclude ?_ .expired fun _ => id
    unfold expirePendingForSession
    by_cases hmatch : w.record.sessionId = sessionId ∧ w.record.status = .pending
    · simp only [if_pos hmatch]
      exact Coupled.withdraw h rfl rfl (Or.inr rfl) (hcoherent hmatch)
    · simp only [if_neg hmatch]
      exact h
  | expireForStory story storyId reason =>
    simp only [step] at hstep
    cases story with
    | none => exact some.inj hstep ▸ h
    | some _ =>
      split_ifs at hstep
      · exact some.inj hstep ▸ h
      · exact some.inj hstep ▸ h
  | commitExpire index timestamp =>
    simp only [step] at hstep
    split at hstep
    · cases hstep
    rename_i expiry hget
    refine some.inj hstep ▸ Inv.conclude ?_ .expired fun _ => id
    exact h.withdrawAt rfl rfl (Or.inr rfl) (hcoherent expiry hget)

/-! ## Every run -/

/-- In every run of coherent steps, from the registration of a decision on, what
is recorded is what was delivered. -/
theorem recorded_is_delivered (policy : RepeatPolicy) (id : String) (caller : StoryDecisionCaller)
    (input : StoryDecisionCreateInput) (timestamp : String) (as : List Action) (w : World)
    (hrun : run (step policy) (init (newDecision id caller input timestamp)) as = some w)
    (hcoherent : AllSteps (step policy) (Coherent policy)
      (init (newDecision id caller input timestamp)) as) :
    RecordedIsDelivered w.record w.session := by
  have hinv : w.Inv := run_invariant_of_steps (step_inv policy) hrun hcoherent
    (init_inv id caller input timestamp)
  exact hinv.delivered

/-! ## Runs on one decision -/

def shipCaller : StoryDecisionCaller := ⟨"story_1", "session_1", "turn_1"⟩

def shipInput : StoryDecisionCreateInput where
  question := "Ship or hold?"
  options := [⟨"ship", "Ship", none⟩, ⟨"hold", "Hold", none⟩]
  allowFreeText := true
  context := none

def shipDecision : StoryDecisionRecord :=
  newDecision "story_decision_1" shipCaller shipInput "2026-09-28T00:00:00.000Z"

def story : Story := ⟨"story_1", none⟩

def targetInstance : ControlledInstance :=
  ⟨"instance_1", some "token_1", true, [⟨"session_1", some "story_1"⟩]⟩

def decideAction (optionId : String) (h : optionId ≠ "") : Action :=
  .decide (some story) "story_1" "story_decision_1"
    { optionId := some optionId
      response := none
      expectedRevision := 1
      optionId_ne := by simpa using h
      answered := by simp } [targetInstance]

def accepted : SessionVerdict := .accept { status := 200, turnId := some (some "turn_new") }

/-- A reply whose answer is lost, and its retry. -/
def retriedActions : List Action :=
  [decideAction "ship" (by decide), .send 0, .reachSession 0 accepted false, .hangUp 0,
    decideAction "ship" (by decide), .send 1, .reachSession 1 accepted true,
    .commitDecide 1 "2026-09-28T00:01:00.000Z"]

def retriedWorld : World :=
  (run (step .answerFirst) (init shipDecision) retriedActions).getD (init shipDecision)

theorem recorded_is_delivered_retried : retriedWorld.record.status = .decided ∧
      keyedDelivery retriedWorld.record retriedWorld.session =
        some "Selected decision option: Ship" ∧
      RecordedIsDelivered retriedWorld.record retriedWorld.session :=
  ⟨rfl, by decide, recorded_is_delivered .answerFirst "story_decision_1" shipCaller
    shipInput "2026-09-28T00:00:00.000Z" retriedActions retriedWorld rfl (by decide)⟩

/-- A cancellation checked while the decision was pending, expecting the revision
that the reply then reaches. -/
def withdrawnActions : List Action :=
  [.cancel (some story) "story_1" "story_decision_1" ⟨2⟩, decideAction "ship" (by decide),
    .send 0, .reachSession 0 accepted true, .commitDecide 0 "2026-09-28T00:01:00.000Z",
    .commitCancel 0 "2026-09-28T00:02:00.000Z"]

/-- A reply that arrived but whose answer was lost, then another reply. -/
def overriddenActions : List Action :=
  [decideAction "ship" (by decide), .send 0, .reachSession 0 accepted false, .hangUp 0,
    decideAction "hold" (by decide), .send 1, .reachSession 1 accepted true,
    .commitDecide 1 "2026-09-28T00:01:00.000Z"]

theorem recorded_differs_from_delivered :
    (∀ policy, ∃ w, run (step policy) (init shipDecision) withdrawnActions = some w ∧
      w.record.status = .cancelled ∧
      keyedDelivery w.record w.session = some "Selected decision option: Ship" ∧
      ¬ RecordedIsDelivered w.record w.session) ∧
    ∃ w, run (step .answerFirst) (init shipDecision) overriddenActions = some w ∧
      w.record.status = .decided ∧
      recordedReply w.record = "Selected decision option: Hold" ∧
      keyedDelivery w.record w.session = some "Selected decision option: Ship" ∧
      ¬ RecordedIsDelivered w.record w.session := by
  refine ⟨fun policy => ?_, ⟨_, rfl, by decide, by decide, by decide, by decide⟩⟩
  cases policy with
  | refuseOther => exact ⟨_, rfl, by decide, by decide, by decide⟩
  | answerFirst => exact ⟨_, rfl, by decide, by decide, by decide⟩

end World

end TaskHandoff.Stories
