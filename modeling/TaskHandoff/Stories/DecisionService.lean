import TaskHandoff.Lib.Machine
import TaskHandoff.Lib.OrderedMap

/-! # The story decision service

A decision is registered by an agent session, and a person rules on it: `decide`
sends the composed reply to the session and then records it, `cancel` and the
two expiry paths record that no reply will come. Every method awaits the
repository or the session between its reads and its writes, so each is split at
its awaits and the parts are steps of `World`.
-/

namespace TaskHandoff.Stories

/-! ## Records -/

structure StoryDecisionOption where
  id : String
  label : String
  description : Option String := none

inductive StoryDecisionStatus where
  | pending
  | decided
  | cancelled
  | expired
deriving DecidableEq

structure StoryDecisionExpiredReason where
  code : String
  message : String

structure StoryDecision where
  id : String
  storyId : String
  sessionId : String
  turnId : Option String
  question : String
  options : List StoryDecisionOption
  allowFreeText : Bool
  context : Option String
  status : StoryDecisionStatus
  revision : Nat
  response : Option String
  selectedOptionId : Option String
  decidedTurnId : Option String
  expiredReason : Option StoryDecisionExpiredReason
  createdAt : String
  updatedAt : String
  decidedAt : Option String

inductive ResumeState where
  | resuming
deriving DecidableEq

/-- The stored row: the decision and the private ledger of the reply being sent. -/
structure StoryDecisionRecord extends StoryDecision where
  resumeState : Option ResumeState
  resumeAttemptedAt : Option String

/-- `value || undefined` on an optional string. -/
def orUndefined (value : Option String) : Option String :=
  value.filter fun text => text ≠ ""

variable (record : StoryDecisionRecord)

def projectDecision : StoryDecision :=
  { record.toStoryDecision with
    turnId := orUndefined record.turnId
    context := orUndefined record.context
    response := orUndefined record.response
    selectedOptionId := orUndefined record.selectedOptionId
    decidedTurnId := orUndefined record.decidedTurnId
    decidedAt := orUndefined record.decidedAt }

/-- The parsed input of `decide`: its schema trims the strings, refuses empty
ones and asks for at least one of the two. -/
structure StoryDecisionDecideInput where
  optionId : Option String
  response : Option String
  expectedRevision : Nat
  retry : Bool := false
  optionId_ne : optionId ≠ some "" := by decide
  response_ne : response ≠ some "" := by decide
  answered : optionId.isSome ∨ response.isSome := by decide

structure StoryDecisionCancelInput where
  expectedRevision : Nat

/-- The parsed input of `register`. -/
structure StoryDecisionCreateInput where
  question : String
  options : List StoryDecisionOption
  allowFreeText : Bool
  context : Option String

structure StoryDecisionCaller where
  storyId : String
  sessionId : String
  turnId : String

/-- The row `register` inserts. -/
def newDecision (id : String) (caller : StoryDecisionCaller) (input : StoryDecisionCreateInput)
    (timestamp : String) : StoryDecisionRecord where
  id := id
  storyId := caller.storyId
  sessionId := caller.sessionId
  turnId := some caller.turnId
  question := input.question
  options := input.options
  allowFreeText := input.allowFreeText
  context := input.context
  status := .pending
  revision := 1
  response := none
  selectedOptionId := none
  decidedTurnId := none
  expiredReason := none
  createdAt := timestamp
  updatedAt := timestamp
  decidedAt := none
  resumeState := none
  resumeAttemptedAt := none

def sameDecisionReply (input : StoryDecisionDecideInput) : Bool :=
  orUndefined record.selectedOptionId = orUndefined input.optionId &&
    orUndefined record.response = orUndefined input.response

/-- The text of an option: its label, or the id asked for when there is none. -/
def optionText (options : List StoryDecisionOption) (optionId : String) : String :=
  match options.find? fun option => option.id = optionId with
  | some option => if option.label = "" then optionId else option.label
  | none => optionId

def composeDecisionResponse (options : List StoryDecisionOption)
    (optionId response : Option String) : String :=
  String.intercalate "\n\n"
    ((orUndefined optionId).toList.map (fun id =>
        "Selected decision option: " ++ optionText options id) ++
      (orUndefined response).toList)

/-! ## Errors -/

structure ResumePendingDetails where
  targetTag : String
  reason : String
  resumeAttemptedAt : Option String
deriving DecidableEq

structure DecisionError where
  code : String
  message : String
  statusCode : Nat
  retryable : Option Bool := none
  details : Option ResumePendingDetails := none
deriving DecidableEq

namespace DecisionError

def storyNotFound : DecisionError where
  code := "STORY_NOT_FOUND"
  message := "Story was not found."
  statusCode := 404

def storyArchived : DecisionError where
  code := "STORY_DECISION_STORY_ARCHIVED"
  message := "Archived Story decisions are read-only."
  statusCode := 409

def notFound : DecisionError where
  code := "STORY_DECISION_NOT_FOUND"
  message := "Story decision was not found."
  statusCode := 404

def terminal : DecisionError where
  code := "STORY_DECISION_TERMINAL"
  message := "The decision is no longer pending."
  statusCode := 409

def revisionConflict : DecisionError where
  code := "STORY_DECISION_REVISION_CONFLICT"
  message := "The decision was modified by another request."
  statusCode := 409

def optionUnknown : DecisionError where
  code := "STORY_DECISION_OPTION_UNKNOWN"
  message := "The selected decision option does not exist."
  statusCode := 400

def freeTextForbidden : DecisionError where
  code := "STORY_DECISION_FREE_TEXT_FORBIDDEN"
  message := "This decision does not accept a free-text response."
  statusCode := 400

def sessionUnavailable : DecisionError where
  code := "STORY_DECISION_SESSION_UNAVAILABLE"
  message := "The AI Session that raised the decision is unavailable."
  statusCode := 409

def instanceUnavailable : DecisionError where
  code := "STORY_DECISION_SESSION_UNAVAILABLE"
  message := "The AI Session instance is unavailable."
  statusCode := 503

def resumePending (resumeAttemptedAt : Option String) : DecisionError where
  code := "STORY_DECISION_RESUME_PENDING"
  message := "A previous decision reply may already have reached the AI Session. " ++
    "Confirm an explicit retry to send it again."
  statusCode := 409
  retryable := some true
  details := some
    { targetTag := "v0.0.33"
      reason := "TARGET_INSTANCE_WITHOUT_SEND_IDEMPOTENCY"
      resumeAttemptedAt := orUndefined resumeAttemptedAt }

def dispatchUnavailable : DecisionError where
  code := "STORY_DECISION_DISPATCH_UNAVAILABLE"
  message := "The AI Session instance is temporarily unavailable."
  statusCode := 503

end DecisionError

/-- What a call throws: an error of the service, or the schema error of a send
result that does not parse. -/
inductive DecideFailure where
  | decision (error : DecisionError)
  | invalidSendResult
deriving DecidableEq

/-! ## The repository -/

structure Story where
  id : String
  archivedAt : Option String

/-- `updateIfRevision` on the row: the patch applies when the revision is the
expected one, and the answer is the row whenever its revision is another one
afterwards, whoever moved it. -/
def updateIfRevision (expectedRevision : Nat) (patch : StoryDecisionRecord → StoryDecisionRecord) :
    StoryDecisionRecord × Option StoryDecisionRecord :=
  let stored := if record.revision = expectedRevision then patch record else record
  (stored, if stored.revision ≠ expectedRevision then some stored else none)

/-- `expirePendingForSession` on the row, which it also selects when an earlier
call expired it at the same timestamp. -/
def expirePendingForSession (sessionId : String)
    (reason : StoryDecisionExpiredReason) (timestamp : String) :
    StoryDecisionRecord × Option StoryDecisionRecord :=
  let stored :=
    if record.sessionId = sessionId ∧ record.status = .pending then
      { record with
        status := .expired
        revision := record.revision + 1
        expiredReason := some reason
        updatedAt := timestamp }
    else record
  (stored,
    if stored.sessionId = sessionId ∧ stored.status = .expired ∧ stored.updatedAt = timestamp then
      some stored
    else none)

/-! ## The target instance -/

structure AiSessionSummary where
  id : String
  storyId : Option String

structure ControlledInstance where
  id : String
  registrationToken : Option String
  aiSessionSendIdempotency : Bool
  sessions : List AiSessionSummary

def findSessionInstance (instances : List ControlledInstance) (storyId sessionId : String) :
    Option ControlledInstance :=
  instances.find? fun entry =>
    (orUndefined entry.registrationToken).isSome &&
      entry.sessions.any fun session => session.id = sessionId && session.storyId = some storyId

structure SendRequest where
  message : String
  clientRequestId : Option String

/-- The answer to the message post: its status and what its payload parses to.
`turnId` is `none` when the data fails the send result schema. -/
structure SendResponse where
  status : Nat
  turnId : Option (Option String) := some none
  errorCode : Option String := none
  errorMessage : Option String := none

def SendResponse.ok (response : SendResponse) : Bool :=
  200 ≤ response.status && response.status < 300

/-- The tail of `dispatchResponse`, once the answer has arrived. -/
def readSendResponse (response : SendResponse) : Except DecideFailure (Option String) :=
  if response.ok then
    match response.turnId with
    | some turnId => .ok turnId
    | none => .error .invalidSendResult
  else
    .error (.decision
      { code := (orUndefined response.errorCode).getD "STORY_DECISION_DISPATCH_FAILED"
        message := (orUndefined response.errorMessage).getD
          ("AI Session send failed with HTTP " ++ toString response.status ++ ".")
        statusCode := response.status })

/-! ## The methods between their awaits -/

structure DecideCall where
  decision : StoryDecisionRecord
  input : StoryDecisionDecideInput
  target : ControlledInstance
  message : String
  idempotentSend : Bool

inductive DecideCheck where
  | answer (decision : StoryDecision)
  | dispatch (call : DecideCall)

def assertStoryMutable (story : Option Story) : Option DecisionError :=
  match story with
  | none => some .storyNotFound
  | some story => if (orUndefined story.archivedAt).isSome then some .storyArchived else none

def requireDecision (storyId decisionId : String) : Except DecisionError StoryDecisionRecord :=
  if record.id = decisionId ∧ record.storyId = storyId then .ok record else .error .notFound

/-- `decide` up to the dispatch, on the story, the row and the instances it reads. -/
def checkDecide (story : Option Story) (record : StoryDecisionRecord) (storyId decisionId : String)
    (input : StoryDecisionDecideInput) (instances : List ControlledInstance) :
    Except DecisionError DecideCheck :=
  match assertStoryMutable story with
  | some error => .error error
  | none =>
    match requireDecision record storyId decisionId with
    | .error error => .error error
    | .ok decision =>
      if decision.status = .decided ∧ sameDecisionReply decision input then
        .ok (.answer (projectDecision decision))
      else if decision.status ≠ .pending then .error .terminal
      else if decision.revision ≠ input.expectedRevision then .error .revisionConflict
      else if input.optionId.any fun id => decision.options.all fun option => option.id ≠ id then
        .error .optionUnknown
      else if input.optionId.isNone && input.response.isSome && !decision.allowFreeText then
        .error .freeTextForbidden
      else
        match findSessionInstance instances decision.storyId decision.sessionId with
        | none => .error .sessionUnavailable
        | some target =>
          if (orUndefined target.registrationToken).isNone then .error .instanceUnavailable
          else .ok (.dispatch
            { decision := decision
              input := input
              target := target
              message := composeDecisionResponse decision.options input.optionId input.response
              idempotentSend := target.aiSessionSendIdempotency })

/-- The request `dispatchResponse` posts; the old path sends no idempotency key. -/
def DecideCall.request (call : DecideCall) : Except DecisionError SendRequest :=
  if (orUndefined call.target.registrationToken).isNone then .error .instanceUnavailable
  else .ok
    { message := call.message
      clientRequestId := if call.idempotentSend then some call.decision.id else none }

/-- Unset fields of a patch leave their columns as they are. -/
def decidePatch (input : StoryDecisionDecideInput) (turnId : Option String) (timestamp : String)
    (record : StoryDecisionRecord) : StoryDecisionRecord :=
  { record with
    status := .decided
    revision := input.expectedRevision + 1
    response := input.response.or record.response
    selectedOptionId := input.optionId.or record.selectedOptionId
    decidedTurnId := turnId.or record.decidedTurnId
    decidedAt := some timestamp
    updatedAt := timestamp
    resumeState := none
    resumeAttemptedAt := none }

/-- The transaction of `decide`: the row is read and checked again before the update. -/
def commitDecide (input : StoryDecisionDecideInput) (turnId : Option String) (timestamp : String) :
    StoryDecisionRecord × Except DecisionError StoryDecisionRecord :=
  if record.status ≠ .pending ∨ record.revision ≠ input.expectedRevision then
    (record, .error .revisionConflict)
  else
    let (stored, updated) :=
      updateIfRevision record input.expectedRevision (decidePatch input turnId timestamp)
    match updated with
    | none => (stored, .error .revisionConflict)
    | some row => (stored, .ok row)

def checkCancel (story : Option Story) (record : StoryDecisionRecord)
    (storyId decisionId : String) : Option DecisionError :=
  match assertStoryMutable story with
  | some error => some error
  | none =>
    match requireDecision record storyId decisionId with
    | .error error => some error
    | .ok decision => if decision.status ≠ .pending then some .terminal else none

/-- The transaction of `cancel`, which reads nothing before the update. -/
def commitCancel (expectedRevision : Nat) (timestamp : String) :
    StoryDecisionRecord × Option StoryDecisionRecord :=
  updateIfRevision record expectedRevision fun row =>
    { row with
      status := .cancelled
      revision := expectedRevision + 1
      updatedAt := timestamp }

/-- One update of `expireForStory`, at the revision the listing read. -/
def commitExpire (revision : Nat) (reason : StoryDecisionExpiredReason) (timestamp : String) :
    StoryDecisionRecord × Option StoryDecisionRecord :=
  updateIfRevision record revision fun row =>
    { row with
      status := .expired
      revision := revision + 1
      expiredReason := some reason
      updatedAt := timestamp }

/-! ## The session client -/

/-- What the session does with a request whose key it has already served with
another message. -/
inductive RepeatPolicy where
  | refuseOther
  | answerFirst
deriving DecidableEq

/-- The session's own answer to a message it has not served before. A message it
rejects is not answered with success. -/
inductive SessionVerdict where
  | accept (response : SendResponse)
  | reject (response : SendResponse) (notOk : response.ok = false)

/-- The messages a session received: under each key at most one, kept with the
answer it was given, and those that came without a key. -/
structure SessionClient where
  completed : OrderedMap String (String × SendResponse) := OrderedMap.empty
  unkeyed : List String := []

def sendRequestConflict : SendResponse where
  status := 409
  errorCode := some "AI_SESSION_SEND_REQUEST_CONFLICT"
  errorMessage := some "The clientRequestId was already used for a different message."

namespace SessionClient

def deliveredUnder (session : SessionClient) (clientRequestId : String) : Option String :=
  (session.completed.get? clientRequestId).map Prod.fst

def sendMessage (session : SessionClient) (policy : RepeatPolicy) (request : SendRequest)
    (verdict : SessionVerdict) : SessionClient × SendResponse :=
  match request.clientRequestId with
  | none =>
    match verdict with
    | .accept response => ({ session with unkeyed := session.unkeyed ++ [request.message] }, response)
    | .reject response _ => (session, response)
  | some key =>
    match session.completed.get? key with
    | some (message, first) =>
      if message = request.message then (session, first)
      else
        match policy with
        | .refuseOther => (session, sendRequestConflict)
        | .answerFirst => (session, first)
    | none =>
      match verdict with
      | .accept response =>
        ({ session with
          completed := session.completed.set key (request.message, response) }, response)
      | .reject response _ => (session, response)

end SessionClient

/-! ## One decision in its environment -/

inductive StoryDecisionChange where
  | decided
  | cancelled
  | expired

structure StoryDecisionChangedEvent where
  storyId : String
  decisionId : String
  revision : Nat
  change : StoryDecisionChange
  decision : StoryDecision

/-- Where a `decide` call stands; `clearing` is about to reset the ledger and throw. -/
inductive DecidePhase where
  | marking
  | sending
  | waiting
  | clearing (failure : DecideFailure)
  | committing (turnId : Option String)
  | settled
deriving DecidableEq

/-- A `decide` call past its checks. Its request can still be on its way to the
session after the call has given up waiting. -/
structure OpenDecide where
  call : DecideCall
  phase : DecidePhase
  inFlight : Option SendRequest := none

structure StoryExpiry where
  revision : Nat
  reason : StoryDecisionExpiredReason

structure World where
  record : StoryDecisionRecord
  session : SessionClient := {}
  decides : List OpenDecide := []
  cancels : List Nat := []
  expiries : List StoryExpiry := []
  answers : List (Except DecideFailure StoryDecision) := []
  published : List StoryDecisionChangedEvent := []

inductive Action where
  | decide (story : Option Story) (storyId decisionId : String) (input : StoryDecisionDecideInput)
      (instances : List ControlledInstance)
  | markResuming (index : Nat) (timestamp : String)
  | send (index : Nat)
  | reachSession (index : Nat) (verdict : SessionVerdict) (answered : Bool)
  | hangUp (index : Nat)
  | clearResuming (index : Nat)
  | commitDecide (index : Nat) (timestamp : String)
  | cancel (story : Option Story) (storyId decisionId : String) (input : StoryDecisionCancelInput)
  | commitCancel (index : Nat) (timestamp : String)
  | expireForSession (sessionId : String) (reason : StoryDecisionExpiredReason) (timestamp : String)
  | expireForStory (story : Option Story) (storyId : String) (reason : StoryDecisionExpiredReason)
  | commitExpire (index : Nat) (timestamp : String)

namespace World

def init (record : StoryDecisionRecord) : World where
  record := record

variable (w : World)

def answer (result : Except DecideFailure StoryDecision) : World :=
  { w with answers := w.answers ++ [result] }

def emit (change : StoryDecisionChange) (decision : StoryDecision) : World :=
  { w with
    published := w.published ++
      [{ storyId := decision.storyId
         decisionId := decision.id
         revision := decision.revision
         change := change
         decision := decision }] }

def setDecide (index : Nat) (entry : OpenDecide) : World :=
  { w with decides := w.decides.set index entry }

/-- A dispatch that threw: the old path first resets its ledger, unless the
transport left open whether the message arrived. -/
def failDecide (index : Nat) (entry : OpenDecide) (failure : DecideFailure) : World :=
  if entry.call.idempotentSend ∨ failure = .decision .dispatchUnavailable then
    (w.setDecide index { entry with phase := .settled }).answer (.error failure)
  else w.setDecide index { entry with phase := .clearing failure }

/-- The end of `cancel` and of each expiry. -/
def conclude (change : StoryDecisionChange)
    (result : StoryDecisionRecord × Option StoryDecisionRecord) (missing : World → World) : World :=
  let w := { w with record := result.1 }
  match result.2 with
  | none => missing w
  | some updated => (w.emit change (projectDecision updated)).answer (.ok (projectDecision updated))

def step (policy : RepeatPolicy) (w : World) : Action → Option World
  | .decide story storyId decisionId input instances =>
    match checkDecide story w.record storyId decisionId input instances with
    | .error error => some (w.answer (.error (.decision error)))
    | .ok (.answer decision) => some (w.answer (.ok decision))
    | .ok (.dispatch call) =>
      if call.idempotentSend then
        some { w with decides := w.decides ++ [{ call := call, phase := .sending }] }
      else if call.decision.resumeState = some .resuming ∧ input.retry = false then
        some (w.answer (.error (.decision (.resumePending call.decision.resumeAttemptedAt))))
      else some { w with decides := w.decides ++ [{ call := call, phase := .marking }] }
  | .markResuming index timestamp =>
    match w.decides[index]? with
    | none => none
    | some entry =>
      if entry.phase = .marking then
        some ({ w with
          record := { w.record with
            resumeState := some .resuming
            resumeAttemptedAt := some timestamp } }.setDecide index
              { entry with phase := .sending })
      else none
  | .send index =>
    match w.decides[index]? with
    | none => none
    | some entry =>
      if entry.phase = .sending then
        match entry.call.request with
        | .error error => some (w.failDecide index entry (.decision error))
        | .ok request =>
          some (w.setDecide index { entry with phase := .waiting, inFlight := some request })
      else none
  | .reachSession index verdict answered =>
    match w.decides[index]? with
    | none => none
    | some entry =>
      match entry.inFlight with
      | none => none
      | some request =>
        let (session, response) := w.session.sendMessage policy request verdict
        let w := { w with session := session }
        let entry := { entry with inFlight := none }
        if answered ∧ entry.phase = .waiting then
          match readSendResponse response with
          | .error failure => some (w.failDecide index entry failure)
          | .ok turnId => some (w.setDecide index { entry with phase := .committing turnId })
        else some (w.setDecide index entry)
  | .hangUp index =>
    match w.decides[index]? with
    | none => none
    | some entry =>
      if entry.phase = .sending ∨ entry.phase = .waiting then
        some (w.failDecide index entry (.decision .dispatchUnavailable))
      else none
  | .clearResuming index =>
    match w.decides[index]? with
    | none => none
    | some entry =>
      match entry.phase with
      | .clearing failure =>
        some (({ w with
          record := { w.record with
            resumeState := none
            resumeAttemptedAt := none } }.setDecide index
              { entry with phase := .settled }).answer (.error failure))
      | _ => none
  | .commitDecide index timestamp =>
    match w.decides[index]? with
    | none => none
    | some entry =>
      match entry.phase with
      | .committing turnId =>
        let (record, result) := Stories.commitDecide w.record entry.call.input turnId timestamp
        let w := { w with record := record }.setDecide index { entry with phase := .settled }
        match result with
        | .error error => some (w.answer (.error (.decision error)))
        | .ok updated =>
          some ((w.emit .decided (projectDecision updated)).answer
            (.ok (projectDecision updated)))
      | _ => none
  | .cancel story storyId decisionId input =>
    match checkCancel story w.record storyId decisionId with
    | some error => some (w.answer (.error (.decision error)))
    | none => some { w with cancels := w.cancels ++ [input.expectedRevision] }
  | .commitCancel index timestamp =>
    match w.cancels[index]? with
    | none => none
    | some expectedRevision =>
      some ({ w with cancels := w.cancels.eraseIdx index }.conclude .cancelled
        (Stories.commitCancel w.record expectedRevision timestamp)
        fun w => w.answer (.error (.decision .revisionConflict)))
  | .expireForSession sessionId reason timestamp =>
    some (w.conclude .expired (expirePendingForSession w.record sessionId reason timestamp) id)
  | .expireForStory story storyId reason =>
    match story with
    | none => some w
    | some _ =>
      if w.record.storyId = storyId ∧ w.record.status = .pending then
        some { w with expiries := w.expiries ++ [⟨w.record.revision, reason⟩] }
      else some w
  | .commitExpire index timestamp =>
    match w.expiries[index]? with
    | none => none
    | some expiry =>
      some ({ w with expiries := w.expiries.eraseIdx index }.conclude .expired
        (Stories.commitExpire w.record expiry.revision expiry.reason timestamp) id)

end World

end TaskHandoff.Stories
