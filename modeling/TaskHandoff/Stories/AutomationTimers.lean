import TaskHandoff.Stories.AutomationRuns
import Mathlib.Logic.Function.Basic

/-! # Timers of automations

`StoryScheduler` keeps one timer for each enabled automation that nothing blocks. Its operations
await the database between reading an automation and setting its timer, so that an operation may
set a timer for an automation that is no longer stored as it has read it. -/

namespace TaskHandoff.Stories.Timers

abbrev StoryId := Nat

abbrev ActionId := Nat

abbrev InstanceId := Nat

/-! ## Schedules -/

inductive SchedulerSchedule where
  | interval (intervalMs : Nat) (positive : 0 < intervalMs)
  | daily (timeOfDay timezone : String)
  | weekly (weekdays : List Nat) (timeOfDay timezone : String)
  | monthly (dayOfMonth : Int) (timeOfDay timezone : String)

/-- The largest time a `Date` holds. -/
def maxDate : Int := 8640000000000000

/-- The next time of a calendar schedule, by the cron library and for monthly ones by
`nextRelativeMonthlyTime`; `none` when it throws. -/
abbrev Calendar := SchedulerSchedule → Int → Option Int

/-- `nextSchedulerTime`, `none` when it throws or gives no valid date. -/
def nextSchedulerTime (calendar : Calendar) (schedule : SchedulerSchedule) (now anchor : Int) :
    Option Int :=
  match schedule with
  | .interval intervalMs _ =>
    let elapsed := max 0 (now - anchor)
    let slots := elapsed / intervalMs + 1
    let next := anchor + slots * intervalMs
    if next ≤ maxDate then some next else none
  | .daily _ _ | .weekly _ _ _ | .monthly _ _ _ => calendar schedule now

def timeoutMax : Int := 2147483647

/-- The delay `setTimeout` uses for a requested one. -/
def timeoutDelay (delay : Int) : Int :=
  if 1 ≤ delay ∧ delay ≤ timeoutMax then delay else 1

/-! ## The stored rows and the timers -/

structure StoryAction where
  id : ActionId
  /-- `none` for a stored null. -/
  targetInstanceId : Option InstanceId

structure Story where
  id : StoryId
  archived : Bool
  /-- A deletion intent is stored. -/
  deleting : Bool
  actions : List StoryAction

structure Automation where
  id : AutomationId
  storyId : StoryId
  actionId : ActionId
  schedule : SchedulerSchedule
  enabled : Bool
  scheduleAnchorAt : Int

structure ControlledInstance where
  id : InstanceId
  nodeId : Nat

structure NodeAgentState where
  nodeId : Nat
  controlledInstances : List ControlledInstance

/-- The codes of `blockedReason`. -/
inductive BlockedReason where
  | storyArchived
  | storyDeleting
  | storyNotFound
  | storyActionNotFound
  | storyActionTargetRequired
  | nodeInstanceNotFound
  | storyNodeMismatch

/-- The error of `resolve` for an action of a story, where its code is one of these. -/
def NodeAgentState.resolve (state : NodeAgentState) (actionId : ActionId) :
    Option Story → Option BlockedReason
  | none => some .storyNotFound
  | some story =>
    if story.deleting then some .storyDeleting
    -- `StoryActionSchema` refuses a null target; its error has no code.
    else if story.actions.any (·.targetInstanceId.isNone) then none
    else if story.archived then some .storyArchived
    else match story.actions.find? (·.id = actionId) with
      | none => some .storyActionNotFound
      | some action =>
        match action.targetInstanceId with
        | none => some .storyActionTargetRequired
        | some targetInstanceId =>
          match state.controlledInstances.find? (·.id = targetInstanceId) with
          | none => some .nodeInstanceNotFound
          | some found => if found.nodeId = state.nodeId then none else some .storyNodeMismatch

structure Timer where
  next : Int
  setAt : Int
  firesAt : Int
  /-- It has not fired. -/
  armed : Bool

inductive RegisterStage where
  /-- Awaits `blockedReason`. -/
  | checking
  /-- Awaits `stored`. -/
  | storing
  | setting (scheduleAnchorAt : Int)

/-- Where an operation of the scheduler is. -/
inductive Operation where
  /-- A `refresh` that has not begun. -/
  | refreshing
  /-- Awaits the list of all automations. -/
  | listing
  /-- Registers automations one after the other. -/
  | looping (rest : List Automation)
  | registering (automation : Automation) (stage : RegisterStage) (rest : List Automation)
  /-- An `activateCreated` that awaits its automation. -/
  | activating (id : AutomationId)
  /-- A `handleTimer` that awaits its automation. -/
  | handling (id : AutomationId)
  /-- A `handleTimer` that awaits `blockedReason`. -/
  | handlingBlocked (automation : Automation)
  /-- A `handleTimer` that awaits `prepareRun`. -/
  | preparing (automation : Automation)
  /-- A `handleTimer` that awaits `publishStatus`, as `prepareRun` has thrown. -/
  | reporting (automation : Automation)
  /-- A `delete` that has deleted its automation. -/
  | deleting (id : AutomationId)
  /-- A `clearStory` that awaits the list of its automations. -/
  | clearing (storyId : StoryId)
  | clearingListed (storyId : StoryId) (ids : List AutomationId)
  /-- A story deletion about to store its intent. -/
  | cleared (storyId : StoryId)
  /-- A story deletion about to commit. -/
  | staged (storyId : StoryId)
  /-- A story deletion that has thrown, about to take its intent back. -/
  | failing (storyId : StoryId)

/-- The story an operation is to delete; the coordinator of its story runs one at a time. -/
def Operation.deletes : Operation → Option StoryId
  | .clearing storyId | .clearingListed storyId _ | .cleared storyId | .staged storyId
  | .failing storyId => some storyId
  | _ => none

def replaceAt (operations : List Operation) (operation : Nat) : Option Operation → List Operation
  | some next => operations.set operation next
  | none => operations.eraseIdx operation

/-- The database, and the timers with the operations in progress. -/
structure TimerScheduler where
  state : NodeAgentState
  stories : List Story
  automations : List Automation
  nextAutomation : AutomationId
  timers : AutomationId → Option Timer
  registeredAutomationIds : AutomationId → Bool
  nextRunAt : AutomationId → Option Int
  operations : List Operation

inductive TimerAction where
  | createStory (id : StoryId) (actions : List StoryAction)
  | create (storyId : StoryId) (actionId : ActionId) (schedule : SchedulerSchedule) (enabled : Bool)
      (now : Int)
  /-- `createAutomationWithAction` has committed; it writes the actions back as it has read them. -/
  | createWithAction (storyId : StoryId) (read : List StoryAction) (action : StoryAction)
      (schedule : SchedulerSchedule) (enabled : Bool) (now : Int)
  /-- `update` or `setEnabled`. -/
  | update (id : AutomationId) (actionId : Option ActionId) (schedule : Option SchedulerSchedule)
      (enabled : Option Bool) (timestamp : Int)
  | delete (id : AutomationId)
  | refresh
  /-- An update of a story with its actions. -/
  | updateActions (storyId : StoryId) (actions : List StoryAction)
  /-- `archive` or `restore`. -/
  | setArchived (storyId : StoryId) (archived : Bool)
  | deleteStory (storyId : StoryId)
  | fire (id : AutomationId) (now : Int)
  /-- The next continuation of an operation; `completes` when nothing in it throws. -/
  | proceed (operation : Nat) (completes : Bool) (now : Int)

namespace TimerScheduler

/-- A scheduler at the start of `start`. -/
def boot (state : NodeAgentState) (stories : List Story) (automations : List Automation)
    (nextAutomation : AutomationId) : TimerScheduler where
  state := state
  stories := stories
  automations := automations
  nextAutomation := nextAutomation
  timers _ := none
  registeredAutomationIds _ := false
  nextRunAt _ := none
  operations := [.listing]

variable (σ : TimerScheduler)

def automation? (id : AutomationId) : Option Automation :=
  σ.automations.find? fun automation => automation.id = id

def story? (id : StoryId) : Option Story :=
  σ.stories.find? fun story => story.id = id

def blockedReason (automation : Automation) : Option BlockedReason :=
  σ.state.resolve automation.actionId (σ.story? automation.storyId)

def blocked (automation : Automation) : Bool :=
  (σ.blockedReason automation).isSome

/-- An operation goes on as another one or ends. -/
def replace (operation : Nat) (next : Option Operation) : TimerScheduler :=
  { σ with operations := replaceAt σ.operations operation next }

/-- The first lines of `refresh`. -/
def clearRegistered : TimerScheduler :=
  { σ with
    timers := fun id => if σ.registeredAutomationIds id then none else σ.timers id
    registeredAutomationIds := fun _ => false
    nextRunAt := fun _ => none }

def arm (id : AutomationId) (now next : Int) : TimerScheduler :=
  { σ with
    timers := Function.update σ.timers id
      (some ⟨next, now, now + timeoutDelay (max 1 (next - now)), true⟩)
    registeredAutomationIds := Function.update σ.registeredAutomationIds id true
    nextRunAt := Function.update σ.nextRunAt id (some next) }

def clearTimers (ids : List AutomationId) : TimerScheduler :=
  { σ with
    timers := fun id => if id ∈ ids then none else σ.timers id
    nextRunAt := fun id => if id ∈ ids then none else σ.nextRunAt id }

/-- The loop of `clearStory`. -/
def clearListed (ids : List AutomationId) : TimerScheduler :=
  { σ.clearTimers ids with
    registeredAutomationIds := fun id => if id ∈ ids then false else σ.registeredAutomationIds id }

def updateStory (id : StoryId) (update : Story → Story) : TimerScheduler :=
  { σ with stories := σ.stories.map fun story => if story.id = id then update story else story }

/-- The deletion intent of a story is put or deleted. -/
def setDeleting (storyId : StoryId) (deleting : Bool) : TimerScheduler :=
  σ.updateStory storyId fun story => { story with deleting }

def proceed (calendar : Calendar) (σ : TimerScheduler) (operation : Nat) (completes : Bool)
    (now : Int) : Operation → TimerScheduler
  | .refreshing => σ.clearRegistered.replace operation (some .listing)
  | .listing => σ.replace operation (some (.looping σ.automations))
  | .looping [] => σ.replace operation none
  | .looping (automation :: rest) =>
    if automation.enabled then
      σ.replace operation (some (.registering automation .checking rest))
    else σ.replace operation (some (.looping rest))
  | .registering automation .checking rest =>
    if σ.blocked automation then σ.replace operation (some (.looping rest))
    else σ.replace operation (some (.registering automation .storing rest))
  | .registering automation .storing rest =>
    match σ.automation? automation.id with
    | none => σ.replace operation (some (.looping rest))
    | some stored =>
      σ.replace operation
        (some (.registering automation (.setting stored.scheduleAnchorAt) rest))
  | .registering automation (.setting scheduleAnchorAt) rest =>
    match nextSchedulerTime calendar automation.schedule now scheduleAnchorAt with
    | none => σ.replace operation none
    | some next => (σ.arm automation.id now next).replace operation (some (.looping rest))
  | .activating id =>
    match σ.automation? id with
    | none => σ.replace operation none
    | some automation => σ.replace operation (some (.looping [automation]))
  | .handling id =>
    match σ.automation? id with
    | none => σ.replace operation none
    | some automation =>
      if automation.enabled then σ.replace operation (some (.handlingBlocked automation))
      else σ.replace operation none
  | .handlingBlocked automation =>
    if σ.blocked automation then σ.replace operation none
    else σ.replace operation (some (.preparing automation))
  | .preparing automation =>
    if completes then σ.replace operation (some (.looping [automation]))
    else σ.replace operation (some (.reporting automation))
  | .reporting automation =>
    match σ.automation? automation.id with
    | none => σ.replace operation none
    | some _ => σ.replace operation (some (.looping [automation]))
  | .deleting id => (σ.clearTimers [id]).replace operation none
  | .clearing storyId =>
    let listed := σ.automations.filter fun automation => automation.storyId = storyId
    σ.replace operation (some (.clearingListed storyId (listed.map (·.id))))
  | .clearingListed storyId ids => (σ.clearListed ids).replace operation (some (.cleared storyId))
  | .cleared storyId => (σ.setDeleting storyId true).replace operation (some (.staged storyId))
  | .staged storyId =>
    if completes then
      { σ with
        automations := σ.automations.filter fun automation => automation.storyId ≠ storyId
        stories := σ.stories.filter fun story => story.id ≠ storyId }.replace operation none
    else σ.replace operation (some (.failing storyId))
  | .failing storyId => (σ.setDeleting storyId false).replace operation none

/-- The row of a new automation. -/
def insert (storyId : StoryId) (actionId : ActionId) (schedule : SchedulerSchedule) (enabled : Bool)
    (now : Int) : Automation :=
  ⟨σ.nextAutomation, storyId, actionId, schedule, enabled, now⟩

/-- The row behind an update. -/
def patched (current : Automation) (actionId : Option ActionId)
    (schedule : Option SchedulerSchedule) (enabled : Option Bool) (timestamp : Int) : Automation :=
  let resetAnchor := schedule.isSome || (enabled = some true && !current.enabled)
  { current with
    actionId := actionId.getD current.actionId
    schedule := schedule.getD current.schedule
    enabled := enabled.getD current.enabled
    scheduleAnchorAt := if resetAnchor then timestamp else current.scheduleAnchorAt }

/-- The action is one of its story's, as the foreign key of automations asks. -/
def hasAction (storyId : StoryId) (actionId : ActionId) : Bool :=
  (σ.story? storyId).any fun story => story.actions.any (·.id = actionId)

/-- No automation of the story loses its action. -/
def retains (storyId : StoryId) (actions : List StoryAction) : Bool :=
  σ.automations.all fun automation =>
    automation.storyId ≠ storyId || actions.any (·.id = automation.actionId)

def replaceActions (storyId : StoryId) (actions : List StoryAction) : TimerScheduler :=
  σ.updateStory storyId fun story => { story with actions }

/-- A new automation, with the operation that will set its timer. -/
def create (automation : Automation) (operation : Operation) : TimerScheduler :=
  { σ with
    automations := σ.automations ++ [automation]
    nextAutomation := σ.nextAutomation + 1
    operations := σ.operations ++ [operation] }

def step (calendar : Calendar) (σ : TimerScheduler) : TimerAction → Option TimerScheduler
  | .createStory id actions =>
    -- Ids of stories are fresh.
    if (σ.story? id).isSome ∨ id ∈ σ.automations.map (·.storyId) then none
    else some { σ with stories := σ.stories ++ [⟨id, false, false, actions⟩] }
  | .create storyId actionId schedule enabled now =>
    let automation := σ.insert storyId actionId schedule enabled now
    if σ.hasAction storyId actionId then some (σ.create automation (.looping [automation])) else none
  | .createWithAction storyId read action schedule enabled now =>
    let automation := σ.insert storyId action.id schedule enabled now
    -- Each stored automation has its action by the foreign key.
    if (σ.story? storyId).isSome ∧ action.id ∉ read.map (·.id) ∧ action.targetInstanceId.isSome ∧
        σ.retains storyId (read ++ [action]) ∧
        ∀ stored ∈ σ.automations, σ.hasAction stored.storyId stored.actionId then
      some ((σ.replaceActions storyId (read ++ [action])).create automation
        (.activating automation.id))
    else none
  | .update id actionId schedule enabled timestamp =>
    if (σ.automation? id).any fun current =>
        σ.hasAction current.storyId (actionId.getD current.actionId) then
      some { σ with
        automations := σ.automations.map fun automation =>
          if automation.id = id then patched automation actionId schedule enabled timestamp
          else automation
        operations := σ.operations ++ [.refreshing] }
    else none
  | .delete id =>
    if (σ.automation? id).isSome then
      some { σ with
        automations := σ.automations.filter fun automation => automation.id ≠ id
        operations := σ.operations ++ [.deleting id] }
    else none
  | .refresh => some { σ with operations := σ.operations ++ [.refreshing] }
  | .updateActions storyId actions =>
    if (σ.story? storyId).any (fun story => !story.deleting) ∧ σ.retains storyId actions then
      some { σ.replaceActions storyId actions with operations := σ.operations ++ [.refreshing] }
    else none
  | .setArchived storyId archived =>
    if (σ.story? storyId).isSome then
      some { σ.updateStory storyId (fun story => { story with archived }) with
        operations := σ.operations ++ [.refreshing] }
    else none
  | .deleteStory storyId =>
    if (σ.story? storyId).isSome ∧ some storyId ∉ σ.operations.map Operation.deletes then
      some { σ with operations := σ.operations ++ [.clearing storyId] }
    else none
  | .fire id now =>
    match σ.timers id with
    | none => none
    | some timer =>
      if timer.armed ∧ timer.firesAt ≤ now then
        some { σ with
          timers := Function.update σ.timers id (some { timer with armed := false })
          operations := σ.operations ++ [.handling id] }
      else none
  | .proceed operation completes now =>
    (σ.operations[operation]?).map fun x => σ.proceed calendar operation completes now x

end TimerScheduler

end TaskHandoff.Stories.Timers
