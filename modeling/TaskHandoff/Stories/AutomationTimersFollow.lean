import TaskHandoff.Stories.AutomationTimers
import TaskHandoff.Lib.Positions
import Mathlib.Tactic.Ring
import Mathlib.Tactic.Positivity

/-! # Timers follow the stored schedules

With no operation in progress each enabled automation that nothing blocks has its timer. It is lost
or wrong when a timer is set for an automation that has changed since it was read, when a story
deletion that has cleared its timers fails, and when a delay is too long for `setTimeout`. -/

namespace TaskHandoff.Stories.Timers

open List Function Positions Operation TimerScheduler

/-! ## Next times -/

variable {now anchor next : Int} {calendar : Calendar}

theorem nextSchedulerTime_interval {intervalMs : Nat} {positive : 0 < intervalMs}
    (h : nextSchedulerTime calendar (.interval intervalMs positive) now anchor = some next) :
    now < next ∧ (∃ slot : Nat, 0 < slot ∧ next = anchor + slot * intervalMs) ∧
      ∀ slot : Nat, 0 < slot → now < anchor + slot * intervalMs → next ≤ anchor + slot * intervalMs := by
  obtain ⟨-, h⟩ := Option.ite_none_right_eq_some.1 h
  have hnext := Option.some.inj h
  have hpos : (0 : Int) < intervalMs := Int.natCast_pos.2 positive
  generalize (intervalMs : Int) = interval at *
  have helapsed : 0 ≤ max 0 (now - anchor) := le_max_left _ _
  have hle : now - anchor ≤ max 0 (now - anchor) := le_max_right _ _
  have hchoice := max_choice 0 (now - anchor)
  generalize max 0 (now - anchor) = elapsed at *
  have hdiv := Int.mul_ediv_add_emod elapsed interval
  have hmod := Int.emod_nonneg elapsed hpos.ne'
  have hlt := Int.emod_lt_of_pos elapsed hpos
  have hquotient : 0 ≤ elapsed / interval := Int.ediv_nonneg helapsed hpos.le
  generalize elapsed / interval = slots at *
  have hexpand : (slots + 1) * interval = interval * slots + interval := by ring
  refine ⟨by omega, ⟨(slots + 1).toNat, by omega, ?_⟩, ?_⟩
  · rw [Int.toNat_of_nonneg (by omega), hnext]
  intro slot hslot hnow
  have hnotEarlier : slots + 1 ≤ (slot : Int) := by
    by_contra hearlier
    have hmul : (slot : Int) * interval ≤ slots * interval :=
      Int.mul_le_mul_of_nonneg_right (by omega) hpos.le
    have hcomm : slots * interval = interval * slots := mul_comm _ _
    have hsome : 0 < (slot : Int) * interval := by positivity
    rcases hchoice with hzero | hpositive
    · omega
    · omega
  have hmul := Int.mul_le_mul_of_nonneg_right hnotEarlier hpos.le
  omega

/-- The cron library gives times behind the one it is asked for. -/
def Calendar.Later (calendar : Calendar) : Prop :=
  ∀ schedule now next, calendar schedule now = some next → now < next

theorem lt_nextSchedulerTime (hcalendar : calendar.Later) {schedule : SchedulerSchedule}
    (h : nextSchedulerTime calendar schedule now anchor = some next) : now < next := by
  cases schedule with
  | interval intervalMs positive => exact (nextSchedulerTime_interval h).1
  | daily timeOfDay timezone => exact hcalendar _ _ _ h
  | weekly weekdays timeOfDay timezone => exact hcalendar _ _ _ h
  | monthly dayOfMonth timeOfDay timezone => exact hcalendar _ _ _ h

/-! ## Operations in progress -/

/-- An automation as it was read asks for the timer of the stored one. -/
def Automation.standsFor (read stored : Automation) : Prop :=
  read.enabled = true ∧ read.id = stored.id ∧ read.storyId = stored.storyId ∧
    read.actionId = stored.actionId

/-- The operation will set the timer of the stored automation, unless it finds it blocked. -/
def Operation.covers (stored : Automation) : Operation → Prop
  | .refreshing | .listing => True
  | .looping rest => ∃ read ∈ rest, read.standsFor stored
  | .registering automation _ rest => ∃ read ∈ automation :: rest, read.standsFor stored
  | .activating id | .handling id => id = stored.id
  | .handlingBlocked automation | .preparing automation | .reporting automation =>
    ∃ read ∈ [automation], read.standsFor stored
  | _ => False

/-- The operation neither clears timers nor stands for timers it has cleared. -/
def Operation.quiet : Operation → Bool
  | .refreshing | .deleting _ | .cleared _ => false
  | _ => true

namespace TimerScheduler

variable (σ : TimerScheduler)

def Active (automation : Automation) : Prop :=
  automation.enabled = true ∧ σ.blocked automation = false

/-- The timer of an automation is armed for the next time of its schedule. -/
def Armed (calendar : Calendar) (σ : TimerScheduler) (automation : Automation) : Prop :=
  ∃ timer, σ.timers automation.id = some timer ∧ timer.armed = true ∧
    nextSchedulerTime calendar automation.schedule timer.setAt automation.scheduleAnchorAt =
      some timer.next ∧
    timer.firesAt = timer.next ∧ σ.nextRunAt automation.id = some timer.next

/-- No timer is armed under the id, and no next run is kept. -/
def Silent (id : AutomationId) : Prop :=
  (∀ timer, σ.timers id = some timer → timer.armed = false) ∧ σ.nextRunAt id = none

/-- An automation is stored as it was read, with this anchor. -/
def Current (automation : Automation) (scheduleAnchorAt : Int) : Prop :=
  ∃ stored ∈ σ.automations, stored.id = automation.id ∧ stored.schedule = automation.schedule ∧
    stored.scheduleAnchorAt = scheduleAnchorAt ∧ σ.Active stored

/-- While no refresh has yet to begin, a timer is only set for a stored and current automation, or
one whose deletion has yet to clear it, and with a delay `setTimeout` takes; a story deletion finds
no timer set since it has cleared them; where one fails, each automation of its story is disabled or
blocked for another reason; and a new automation with its action finds the actions of its story as
it has read them. -/
def Calm (calendar : Calendar) (σ : TimerScheduler) : TimerAction → Prop
  | .createWithAction storyId read _ _ _ _ =>
    .refreshing ∈ σ.operations ∨ ∀ story, σ.story? storyId = some story → story.actions = read
  | .proceed operation _ now =>
    .refreshing ∈ σ.operations ∨ (∀ automation anchor rest,
        σ.operations[operation]? = some (.registering automation (.setting anchor) rest) →
        ∃ next, nextSchedulerTime calendar automation.schedule now anchor = some next ∧
          ((σ.Current automation anchor ∧ next - now ≤ timeoutMax) ∨
            (σ.automation? automation.id = none ∧ .deleting automation.id ∈ σ.operations))) ∧
      (∀ storyId, σ.operations[operation]? = some (.cleared storyId) →
        ∀ automation ∈ σ.automations, automation.storyId = storyId → σ.Silent automation.id) ∧
      ∀ storyId, σ.operations[operation]? = some (.failing storyId) →
        ∀ automation ∈ σ.automations, automation.storyId = storyId → automation.enabled = false ∨
          ∀ story, σ.story? storyId = some story →
            (σ.state.resolve automation.actionId (some { story with deleting := false })).isSome
  | _ => True

/-! ## The invariant -/

def Covered (calendar : Calendar) (σ : TimerScheduler) (automation : Automation) : Prop :=
  σ.Armed calendar automation ∨ (∃ operation ∈ σ.operations, operation.covers automation) ∨
    .cleared automation.storyId ∈ σ.operations

def Clearing (id : AutomationId) : Prop :=
  .refreshing ∈ σ.operations ∨ .deleting id ∈ σ.operations

/-- A deletion intent is stored. -/
def Deleting (storyId : StoryId) : Prop :=
  ∃ story, σ.story? storyId = some story ∧ story.deleting = true

/-- What an operation knows about the stored rows. -/
def Knows : Operation → Prop
  | .deleting id => id < σ.nextAutomation ∧ ∀ stored ∈ σ.automations, stored.id ≠ id
  | .clearing storyId | .cleared storyId => (σ.story? storyId).isSome
  | .clearingListed storyId ids => (σ.story? storyId).isSome ∧ ∀ id ∈ ids,
    id < σ.nextAutomation ∧ ∀ stored ∈ σ.automations, stored.id = id → stored.storyId = storyId
  | .staged storyId | .failing storyId => σ.Deleting storyId
  | _ => True

structure Inv (calendar : Calendar) (σ : TimerScheduler) : Prop where
  distinct : (σ.automations.map (·.id)).Nodup
  fresh : ∀ automation ∈ σ.automations, automation.id < σ.nextAutomation
  knows : ∀ operation ∈ σ.operations, σ.Knows operation
  exclusive : (σ.operations.filterMap Operation.deletes).Nodup
  registered : ∀ id timer, σ.timers id = some timer → σ.registeredAutomationIds id = true
  covered : ∀ automation ∈ σ.automations, σ.Active automation → σ.Covered calendar automation
  silent : ∀ id, (∀ automation ∈ σ.automations, automation.id = id → ¬ σ.Active automation) →
    σ.Silent id ∨ σ.Clearing id

section Operations

variable {operations : List Operation} {operation : Nat} {x y : Operation} {next : Option Operation}

theorem mem_replaceAt_of_mem (hx : operations[operation]? = some x) (hy : y ∈ operations) :
    y = x ∨ y ∈ replaceAt operations operation next := by
  cases next with
  | none => exact mem_eraseIdx_of_mem hx hy
  | some next => exact mem_set_of_mem next hx hy

theorem mem_of_mem_replaceAt (hy : y ∈ replaceAt operations operation next) :
    y ∈ operations ∨ next = some y := by
  cases next with
  | none => exact .inl (mem_of_mem_eraseIdx hy)
  | some next =>
    rcases mem_or_eq_of_mem_set hy with hold | heq
    · exact .inl hold
    · exact .inr (by rw [heq])

theorem mem_replaceAt_self (hx : operations[operation]? = some x) (y : Operation) :
    y ∈ replaceAt operations operation (some y) :=
  mem_set_self y hx

theorem operations_split (hx : operations[operation]? = some x) (next : Option Operation) :
    ∃ before behind, operations = before ++ x :: behind ∧
      replaceAt operations operation next = before ++ (next.toList ++ behind) := by
  have ⟨hlt, hat⟩ := List.getElem?_eq_some_iff.1 hx
  refine ⟨operations.take operation, operations.drop (operation + 1), ?_, ?_⟩
  · rw [← hat, ← List.drop_eq_getElem_cons hlt, List.take_append_drop]
  cases next with
  | none => exact List.eraseIdx_eq_take_drop_succ operations operation
  | some next =>
    change operations.set operation next = _
    rw [List.set_eq_take_append_cons_drop, if_pos hlt]
    rfl

variable (h : (operations.filterMap Operation.deletes).Nodup)

include h

variable (hx : operations[operation]? = some x)

include hx

theorem exclusive_replaceAt
    (hdeletes : ∀ y, next = some y → y.deletes = none ∨ y.deletes = x.deletes) :
    ((replaceAt operations operation next).filterMap Operation.deletes).Nodup := by
  have ⟨before, behind, hsplit, hreplaced⟩ := operations_split hx next
  rw [hreplaced]
  rw [hsplit] at h
  cases next with
  | none =>
    have hsub : (before ++ ((none : Option Operation).toList ++ behind)).Sublist
        (before ++ x :: behind) :=
      List.Sublist.append_left (sublist_cons_self x behind) before
    exact h.sublist (hsub.filterMap _)
  | some y =>
    rcases hdeletes y rfl with hnone | hsame
    · have hsub : (before ++ behind).Sublist (before ++ x :: behind) :=
        List.Sublist.append_left (sublist_cons_self x behind) before
      have hgone : (before ++ ((some y).toList ++ behind)).filterMap deletes =
          (before ++ behind).filterMap deletes := by
        simp [filterMap_append, hnone]
      rw [hgone]
      exact h.sublist (hsub.filterMap _)
    · have hkept : (before ++ ((some y).toList ++ behind)).filterMap deletes =
          (before ++ x :: behind).filterMap deletes := by
        simp [filterMap_append, filterMap_cons, hsame]
      rw [hkept]
      exact h

theorem not_deletes_of_ended {storyId : StoryId} (hdeletes : x.deletes = some storyId)
    (hy : y ∈ replaceAt operations operation none) : y.deletes ≠ some storyId := by
  have ⟨before, behind, hsplit, hreplaced⟩ := operations_split hx none
  rw [hsplit, filterMap_append, filterMap_cons, hdeletes] at h
  have hnot := (nodup_middle.1 h)
  rw [nodup_cons, ← filterMap_append] at hnot
  rw [hreplaced] at hy
  intro heq
  exact hnot.1 (mem_filterMap.2 ⟨y, hy, heq⟩)

end Operations

section Steps

variable {calendar : Calendar} {σ τ : TimerScheduler} {operation : Nat} {x y : Operation}
  {automation : Automation} {id : AutomationId}

theorem blocked_of_standsFor {read : Automation} (h : read.standsFor automation) :
    σ.blocked automation = σ.blocked read := by
  have ⟨_, _, hstory, haction⟩ := h
  simp only [blocked, blockedReason, hstory, haction]

theorem not_active_of_blocked {read : Automation} (h : read.standsFor automation)
    (hblocked : σ.blocked read = true) : ¬ σ.Active automation := by
  rintro ⟨_, hfree⟩
  rw [blocked_of_standsFor h, hblocked] at hfree
  cases hfree

theorem automation?_spec (h : σ.automation? id = some automation) :
    automation ∈ σ.automations ∧ automation.id = id :=
  ⟨mem_of_find?_eq_some h, by simpa using find?_some h⟩

theorem automation?_none (h : σ.automation? id = none) :
    ∀ automation ∈ σ.automations, automation.id ≠ id := by
  intro automation hautomation
  simpa using find?_eq_none.1 h automation hautomation

section Invariant

variable (h : Inv calendar σ)

include h

/-! ## Operations that go on -/

theorem Inv.replace (hx : σ.operations[operation]? = some x) (next : Option Operation)
    (hknows : ∀ y, next = some y → σ.Knows y)
    (hdeletes : ∀ y, next = some y → y.deletes = none ∨ y.deletes = x.deletes)
    (hcovers : ∀ automation ∈ σ.automations, σ.Active automation → x.covers automation →
      (σ.replace operation next).Covered calendar automation)
    (hcleared : ∀ automation ∈ σ.automations, σ.Active automation → x ≠ .cleared automation.storyId)
    (hsilent : ∀ id, x = .refreshing ∨ x = .deleting id → σ.Silent id) :
    Inv calendar (σ.replace operation next) where
  __ := h
  knows y hy := by
    rcases mem_of_mem_replaceAt hy with hold | hnew
    · exact h.knows y hold
    · exact hknows y hnew
  exclusive := exclusive_replaceAt h.exclusive hx hdeletes
  covered automation hautomation hactive := by
    rcases h.covered automation hautomation hactive with harmed | ⟨y, hy, hcover⟩ | hclear
    · exact .inl harmed
    · rcases mem_replaceAt_of_mem hx hy with heq | hkept
      · exact hcovers automation hautomation hactive (heq ▸ hcover)
      · exact .inr (.inl ⟨y, hkept, hcover⟩)
    · rcases mem_replaceAt_of_mem hx hclear with heq | hkept
      · exact absurd heq.symm (hcleared automation hautomation hactive)
      · exact .inr (.inr hkept)
  silent id hinactive := by
    rcases h.silent id hinactive with hsilence | hrefreshing | hdeleting
    · exact .inl hsilence
    · rcases mem_replaceAt_of_mem hx hrefreshing with heq | hkept
      · exact .inl (hsilent id (.inl heq.symm))
      · exact .inr (.inl hkept)
    · rcases mem_replaceAt_of_mem hx hdeleting with heq | hkept
      · exact .inl (hsilent id (.inr heq.symm))
      · exact .inr (.inr hkept)

variable (hx : σ.operations[operation]? = some x) (hquiet : x.quiet = true)

include hx hquiet

theorem Inv.replaceQuiet (next : Option Operation) (hknows : ∀ y, next = some y → σ.Knows y)
    (hdeletes : ∀ y, next = some y → y.deletes = none ∨ y.deletes = x.deletes)
    (hcovers : ∀ automation ∈ σ.automations, σ.Active automation → x.covers automation →
      (σ.replace operation next).Covered calendar automation) :
    Inv calendar (σ.replace operation next) := by
  apply h.replace hx next hknows hdeletes hcovers
  · rintro _ _ _ rfl
    cases hquiet
  · rintro id (rfl | rfl) <;> cases hquiet

theorem Inv.endOperation
    (hcovers : ∀ automation ∈ σ.automations, σ.Active automation → ¬ x.covers automation) :
    Inv calendar (σ.replace operation none) :=
  h.replaceQuiet hx hquiet none (by simp) (by simp) fun automation hautomation hactive hcover =>
    absurd hcover (hcovers automation hautomation hactive)

theorem Inv.goOn (y : Operation) (hknows : σ.Knows y)
    (hdeletes : y.deletes = none ∨ y.deletes = x.deletes)
    (hcovers : ∀ automation ∈ σ.automations, σ.Active automation → x.covers automation →
      y.covers automation) : Inv calendar (σ.replace operation (some y)) := by
  apply h.replaceQuiet hx hquiet
  · exact fun _ heq => Option.some.inj heq ▸ hknows
  · exact fun _ heq => Option.some.inj heq ▸ hdeletes
  · exact fun automation hautomation hactive hcover =>
      .inr (.inl ⟨y, mem_replaceAt_self hx y, hcovers automation hautomation hactive hcover⟩)

variable {rest : List Automation}

/-- The first of the automations is passed over. -/
theorem Inv.skip
    (hcovers : ∀ stored, x.covers stored → ∃ read ∈ automation :: rest, read.standsFor stored)
    (hinactive : ∀ stored ∈ σ.automations, automation.standsFor stored → ¬ σ.Active stored) :
    Inv calendar (σ.replace operation (some (.looping rest))) := by
  apply h.goOn hx hquiet (.looping rest) trivial (.inl rfl)
  intro stored hstored hactive hcover
  have ⟨read, hread, hstands⟩ := hcovers stored hcover
  rcases mem_cons.1 hread with heq | hrest
  · exact absurd hactive (hinactive stored hstored (heq ▸ hstands))
  · exact ⟨read, hrest, hstands⟩

/-- The operation goes on with the automation it has asked for, as it is stored. -/
theorem Inv.goOnStored (hid : ∀ stored, x.covers stored → id = stored.id)
    (hstored : σ.automation? id = some automation) (hydeletes : y.deletes = none)
    (hknows : σ.Knows y) (hcovers : automation.standsFor automation → y.covers automation) :
    Inv calendar (σ.replace operation (some y)) := by
  have ⟨hmem, heq⟩ := automation?_spec hstored
  apply h.goOn hx hquiet y hknows (.inl hydeletes)
  intro stored hstored hactive hcover
  have hsame := inj_on_of_nodup_map h.distinct hstored hmem ((heq.trans (hid stored hcover)).symm)
  subst hsame
  exact hcovers ⟨hactive.1, rfl, rfl, rfl⟩

theorem Inv.endGone (hid : ∀ stored, x.covers stored → id = stored.id)
    (hgone : σ.automation? id = none) : Inv calendar (σ.replace operation none) :=
  h.endOperation hx hquiet fun stored hstored _ hcover =>
    automation?_none hgone stored hstored (hid stored hcover).symm

end Invariant

/-! ## Timers that are set -/

variable {now next anchor : Int} {rest : List Automation}

theorem timeoutDelay_eq (hlater : now < next) (hmax : next - now ≤ timeoutMax) :
    now + timeoutDelay (max 1 (next - now)) = next := by
  rw [timeoutDelay]
  omega

theorem Inv.ofRefreshing (h : Inv calendar σ) (hrefreshing : .refreshing ∈ σ.operations)
    {timers : AutomationId → Option Timer} {registeredAutomationIds : AutomationId → Bool}
    {nextRunAt : AutomationId → Option Int}
    (hregistered : ∀ id timer, timers id = some timer → registeredAutomationIds id = true) :
    Inv calendar { σ with timers, registeredAutomationIds, nextRunAt } where
  __ := h
  registered := hregistered
  covered _ _ _ := .inr (.inl ⟨_, hrefreshing, trivial⟩)
  silent _ _ := .inr (.inl hrefreshing)

theorem Inv.registered_arm (h : Inv calendar σ) (id : AutomationId) (now next : Int) :
    ∀ other timer, (σ.arm id now next).timers other = some timer →
      (σ.arm id now next).registeredAutomationIds other = true := by
  intro other timer hother
  simp only [arm, update_apply] at hother ⊢
  split
  · rfl
  rename_i hne
  rw [if_neg hne] at hother
  exact h.registered other timer hother

theorem Armed.arm (h : σ.Armed calendar automation) (hne : automation.id ≠ id) :
    (σ.arm id now next).Armed calendar automation := by
  have ⟨timer, htimer, harmed, hnext, hfires, hnextRunAt⟩ := h
  exact ⟨timer, (update_of_ne hne _ _).trans htimer, harmed, hnext, hfires,
    (update_of_ne hne _ _).trans hnextRunAt⟩

theorem Silent.arm {other : AutomationId} (h : σ.Silent other) (hne : other ≠ id) :
    (σ.arm id now next).Silent other :=
  ⟨fun timer htimer => h.1 timer ((update_of_ne hne _ _).symm.trans htimer),
    (update_of_ne hne _ _).trans h.2⟩

theorem Inv.arm (hcalendar : calendar.Later) (h : Inv calendar σ)
    (hnext : nextSchedulerTime calendar automation.schedule now anchor = some next)
    (hcalm : (σ.Current automation anchor ∧ next - now ≤ timeoutMax) ∨
      (σ.automation? automation.id = none ∧ .deleting automation.id ∈ σ.operations)) :
    Inv calendar (σ.arm automation.id now next) ∧
      ∀ stored ∈ σ.automations, stored.id = automation.id →
        (σ.arm automation.id now next).Armed calendar stored := by
  have harmed : ∀ stored ∈ σ.automations, stored.id = automation.id →
      (σ.arm automation.id now next).Armed calendar stored := by
    intro stored hstored hid
    rcases hcalm with ⟨⟨current, hcurrent, hcurrentId, hschedule, hanchor, _⟩, hmax⟩ | ⟨hgone, _⟩
    · have hsame := inj_on_of_nodup_map h.distinct hstored hcurrent (hid.trans hcurrentId.symm)
      subst hsame
      refine ⟨⟨next, now, now + timeoutDelay (max 1 (next - now)), true⟩, ?_, rfl, ?_,
        timeoutDelay_eq (lt_nextSchedulerTime hcalendar hnext) hmax, ?_⟩
      · rw [hid]
        exact update_self _ _ _
      · rw [hschedule, hanchor]
        exact hnext
      · rw [hid]
        exact update_self _ _ _
    · exact absurd hid (automation?_none hgone stored hstored)
  refine ⟨⟨h.distinct, h.fresh, h.knows, h.exclusive, h.registered_arm automation.id now next, ?_, ?_⟩,
    harmed⟩
  · intro stored hstored hactive
    by_cases hid : stored.id = automation.id
    · exact .inl (harmed stored hstored hid)
    · exact (h.covered stored hstored hactive).imp_left fun hold => hold.arm hid
  intro id hinactive
  by_cases hid : id = automation.id
  · subst hid
    rcases hcalm with ⟨⟨current, hcurrent, hcurrentId, _, _, hactive⟩, _⟩ | ⟨_, hdeleting⟩
    · exact absurd hactive (hinactive current hcurrent hcurrentId)
    · exact .inr (.inr hdeleting)
  · exact (h.silent id hinactive).imp_left fun hsilent => hsilent.arm hid

variable {completes : Bool}

theorem Inv.setting (hcalendar : calendar.Later) (h : Inv calendar σ)
    (hx : σ.operations[operation]? = some (.registering automation (.setting anchor) rest))
    (hcalm : σ.Calm calendar (.proceed operation completes now)) :
    Inv calendar (match nextSchedulerTime calendar automation.schedule now anchor with
      | none => σ.replace operation none
      | some next => (σ.arm automation.id now next).replace operation (some (.looping rest))) := by
  rcases hcalm with hrefreshing | ⟨hsetting, _⟩
  · have hkept : ∀ next, .refreshing ∈ replaceAt σ.operations operation next := fun next =>
      (mem_replaceAt_of_mem hx hrefreshing).resolve_left nofun
    split
    · apply h.replaceQuiet hx rfl none (by simp) (by simp)
      exact fun _ _ _ _ => .inr (.inl ⟨_, hkept none, trivial⟩)
    rename_i next _
    have harmed : Inv calendar (σ.arm automation.id now next) :=
      h.ofRefreshing hrefreshing (h.registered_arm automation.id now next)
    apply harmed.replaceQuiet hx rfl
    · exact fun _ heq => Option.some.inj heq ▸ trivial
    · exact fun _ heq => .inl (Option.some.inj heq ▸ rfl)
    · exact fun _ _ _ _ => .inr (.inl ⟨.refreshing, hkept (some (.looping rest)), trivial⟩)
  · have ⟨next, hnext, hcurrent⟩ := hsetting automation anchor rest hx
    have ⟨hinv, harmed⟩ := Inv.arm hcalendar h hnext hcurrent
    rw [hnext]
    apply hinv.replaceQuiet hx rfl
    · exact fun _ heq => Option.some.inj heq ▸ trivial
    · exact fun _ heq => .inl (Option.some.inj heq ▸ rfl)
    · rintro stored hstored _ ⟨read, hread, hstands⟩
      rcases mem_cons.1 hread with heq | hrest
      · exact .inl (harmed stored hstored (heq ▸ hstands.2.1.symm))
      · exact .inr (.inl ⟨_, mem_replaceAt_self hx _, read, hrest, hstands⟩)

/-! ## Timers that are cleared -/

theorem Inv.refreshing (h : Inv calendar σ) (hx : σ.operations[operation]? = some .refreshing) :
    Inv calendar (σ.clearRegistered.replace operation (some .listing)) := by
  have hgone : ∀ id, σ.clearRegistered.timers id = none := by
    intro id
    simp only [clearRegistered]
    split
    · rfl
    rename_i hnot
    cases htimer : σ.timers id with
    | none => rfl
    | some timer => exact absurd (h.registered id timer htimer) hnot
  have hregistered : ∀ id timer, σ.clearRegistered.timers id = some timer → false = true := by
    intro id timer htimer
    rw [hgone] at htimer
    cases htimer
  have hcleared : Inv calendar σ.clearRegistered := h.ofRefreshing (mem_of_getElem? hx) hregistered
  apply hcleared.replace hx
  · exact fun _ heq => Option.some.inj heq ▸ trivial
  · exact fun _ heq => .inl (Option.some.inj heq ▸ rfl)
  · exact fun _ _ _ _ => .inr (.inl ⟨_, mem_replaceAt_self hx _, trivial⟩)
  · exact fun _ _ _ => nofun
  · exact fun id _ => ⟨fun timer htimer => absurd (hregistered id timer htimer) nofun, rfl⟩

theorem silent_clearTimers {ids : List AutomationId} (hid : id ∈ ids) :
    (σ.clearTimers ids).Silent id :=
  ⟨fun timer htimer => by simp [clearTimers, hid] at htimer, if_pos hid⟩

theorem Inv.clearTimers (h : Inv calendar σ) (ids : List AutomationId)
    {registered : AutomationId → Bool}
    (hregistered : ∀ id, id ∉ ids → registered id = σ.registeredAutomationIds id)
    (hcovered : ∀ automation ∈ σ.automations, automation.id ∈ ids →
      .cleared automation.storyId ∈ σ.operations) :
    Inv calendar { σ.clearTimers ids with registeredAutomationIds := registered } where
  __ := h
  registered id timer htimer := by
    by_cases hid : id ∈ ids
    · simp [TimerScheduler.clearTimers, hid] at htimer
    · exact (hregistered id hid).trans (h.registered id timer ((if_neg hid).symm.trans htimer))
  covered automation hautomation hactive := by
    by_cases hid : automation.id ∈ ids
    · exact .inr (.inr (hcovered automation hautomation hid))
    rcases h.covered automation hautomation hactive with ⟨timer, htimer, harmed⟩ | hcovered
    · exact .inl ⟨timer, (if_neg hid).trans htimer, harmed.1, harmed.2.1, harmed.2.2.1,
        (if_neg hid).trans harmed.2.2.2⟩
    · exact .inr hcovered
  silent id hinactive := by
    by_cases hid : id ∈ ids
    · exact .inl (silent_clearTimers hid)
    · refine (h.silent id hinactive).imp_left fun hsilent => ⟨?_, (if_neg hid).trans hsilent.2⟩
      exact fun timer htimer => hsilent.1 timer ((if_neg hid).symm.trans htimer)

theorem Inv.deleting (h : Inv calendar σ) (hx : σ.operations[operation]? = some (.deleting id)) :
    Inv calendar ((σ.clearTimers [id]).replace operation none) := by
  have hgone : ∀ automation ∈ σ.automations, automation.id ≠ id :=
    (h.knows _ (mem_of_getElem? hx)).2
  have hcleared : Inv calendar (σ.clearTimers [id]) := h.clearTimers [id] (fun _ _ => rfl)
    fun automation hautomation hid => absurd (mem_singleton.1 hid) (hgone automation hautomation)
  apply hcleared.replace hx none (by simp) (by simp)
  · exact fun _ _ _ hcover => hcover.elim
  · exact fun _ _ _ => nofun
  · rintro other (heq | heq)
    · cases heq
    · exact silent_clearTimers (mem_singleton.2 (deleting.inj heq).symm)

variable {storyId other : StoryId}

theorem Inv.clearing (h : Inv calendar σ) (hx : σ.operations[operation]? = some
    (.clearing storyId)) : Inv calendar (σ.replace operation (some (.clearingListed storyId
      ((σ.automations.filter fun automation => automation.storyId = storyId).map (·.id))))) := by
  refine h.goOn hx rfl _ ⟨h.knows _ (mem_of_getElem? hx), fun id hid => ?_⟩ (.inr rfl)
    fun _ _ _ hcover => hcover.elim
  have ⟨automation, hautomation, hautomationId⟩ := mem_map.1 hid
  have ⟨hmem, hown⟩ := mem_filter.1 hautomation
  refine ⟨hautomationId ▸ h.fresh automation hmem, fun stored hstored heq => ?_⟩
  rw [inj_on_of_nodup_map h.distinct hstored hmem (heq.trans hautomationId.symm)]
  simpa using hown

theorem Inv.clearListed (h : Inv calendar σ) {ids : List AutomationId}
    (hx : σ.operations[operation]? = some (.clearingListed storyId ids)) :
    Inv calendar ((σ.clearListed ids).replace operation (some (.cleared storyId))) := by
  have hknows := h.knows _ (mem_of_getElem? hx)
  have hcleared : Inv calendar (σ.replace operation (some (.cleared storyId))) :=
    h.goOn hx rfl _ hknows.1 (.inr rfl) fun _ _ _ hcover => hcover.elim
  apply hcleared.clearTimers ids
  · exact fun id hid => if_neg hid
  intro automation hautomation hid
  rw [(hknows.2 automation.id hid).2 automation hautomation rfl]
  exact mem_replaceAt_self hx _

/-! ## Stories that come, go and change -/

theorem story?_id {story : Story} (h : σ.story? other = some story) : story.id = other := by
  simpa using find?_some h

/-- The story is still stored, and to be deleted when it was. -/
def Keeps (σ τ : TimerScheduler) (storyId : StoryId) : Prop :=
  ∀ story, σ.story? storyId = some story →
    ∃ kept, τ.story? storyId = some kept ∧ (story.deleting = true → kept.deleting = true)

section Updates

variable (update : Story → Story) (hid : ∀ story, (update story).id = story.id)

include hid

theorem story?_updateStory (storyId other : StoryId) : (σ.updateStory storyId update).story? other =
      (σ.story? other).map fun story => if story.id = storyId then update story else story := by
  unfold story? updateStory
  rw [find?_map]
  congr 2
  funext story
  simp only [comp_apply]
  split
  · rw [hid]
  · rfl

theorem story?_updateStory_self (storyId : StoryId) :
    (σ.updateStory storyId update).story? storyId = (σ.story? storyId).map update := by
  rw [story?_updateStory update hid]
  cases hstory : σ.story? storyId with
  | none => rfl
  | some story => simp [story?_id hstory]

theorem story?_updateStory_of_ne (hne : other ≠ storyId) :
    (σ.updateStory storyId update).story? other = σ.story? other := by
  rw [story?_updateStory update hid]
  cases hstory : σ.story? other with
  | none => rfl
  | some story => simp [story?_id hstory, hne]

theorem keeps_updateStory
    (hupdate : ∀ story, other = storyId → story.deleting = true → (update story).deleting = true) :
    σ.Keeps (σ.updateStory storyId update) other := by
  intro story hstory
  refine ⟨_, (story?_updateStory update hid storyId other).trans (congrArg _ hstory), ?_⟩
  simp only
  split
  · rename_i heq
    exact hupdate story ((story?_id hstory).symm.trans heq)
  · exact fun hdeleting => hdeleting

end Updates

theorem story?_setDeleting {deleting : Bool} : (σ.setDeleting storyId deleting).story? storyId =
    (σ.story? storyId).map fun story => { story with deleting } :=
  story?_updateStory_self (fun story => { story with deleting }) (fun _ => rfl) storyId

theorem blocked_setDeleting {deleting : Bool} (hne : automation.storyId ≠ storyId) :
    (σ.setDeleting storyId deleting).blocked automation = σ.blocked automation :=
  congrArg (fun story => (σ.state.resolve automation.actionId story).isSome)
    (story?_updateStory_of_ne (fun story => { story with deleting }) (fun _ => rfl) hne)

theorem Deleting.blocked (h : σ.Deleting automation.storyId) : σ.blocked automation = true := by
  have ⟨story, hstory, hdeleting⟩ := h
  simp [TimerScheduler.blocked, blockedReason, NodeAgentState.resolve, hstory, hdeleting]

/-- Each row that an operation can know of was there before, in the same story. -/
theorem Knows.move (h : σ.Knows y) (hnext : σ.nextAutomation ≤ τ.nextAutomation)
    (hrows : ∀ stored ∈ τ.automations, stored.id < σ.nextAutomation →
      ∃ old ∈ σ.automations, old.id = stored.id ∧ old.storyId = stored.storyId)
    (hkeeps : ∀ storyId, y.deletes = some storyId → σ.Keeps τ storyId) : τ.Knows y := by
  have hpresent : ∀ storyId, y.deletes = some storyId → (σ.story? storyId).isSome →
      (τ.story? storyId).isSome := by
    intro storyId hy hstory
    have ⟨story, hsome⟩ := Option.isSome_iff_exists.1 hstory
    have ⟨kept, hkept, _⟩ := hkeeps storyId hy story hsome
    exact Option.isSome_of_eq_some hkept
  have hdeleting : ∀ storyId, y.deletes = some storyId → σ.Deleting storyId → τ.Deleting storyId := by
    rintro storyId hy ⟨story, hstory, hdeleting⟩
    have ⟨kept, hkept, hstill⟩ := hkeeps storyId hy story hstory
    exact ⟨kept, hkept, hstill hdeleting⟩
  cases y with
  | deleting id =>
    refine ⟨Nat.lt_of_lt_of_le h.1 hnext, fun stored hstored heq => ?_⟩
    have ⟨old, hold, hid, _⟩ := hrows stored hstored (heq ▸ h.1)
    exact h.2 old hold (hid.trans heq)
  | clearing storyId | cleared storyId => exact hpresent storyId rfl h
  | clearingListed storyId ids =>
    refine ⟨hpresent storyId rfl h.1, fun id hin => ?_⟩
    have ⟨hlt, hsame⟩ := h.2 id hin
    refine ⟨Nat.lt_of_lt_of_le hlt hnext, fun stored hstored heq => ?_⟩
    have ⟨old, hold, hid, hstory⟩ := hrows stored hstored (heq ▸ hlt)
    exact hstory ▸ hsame old hold (hid.trans heq)
  | staged storyId | failing storyId => exact hdeleting storyId rfl h
  | _ => trivial

theorem Covered.append (h : σ.Covered calendar automation) (ys : List Operation) :
    Covered calendar { σ with operations := σ.operations ++ ys } automation := by
  rcases h with harmed | ⟨z, hz, hcover⟩ | hcleared
  · exact .inl harmed
  · exact .inr (.inl ⟨z, mem_append_left _ hz, hcover⟩)
  · exact .inr (.inr (mem_append_left _ hcleared))

theorem Clearing.append (h : σ.Clearing id) (ys : List Operation) :
    Clearing { σ with operations := σ.operations ++ ys } id :=
  h.imp (mem_append_left _) (mem_append_left _)

theorem active_of_blocked_eq (hsame : τ.blocked automation = σ.blocked automation) :
    (τ.Active automation → σ.Active automation) ∧
      (σ.Active automation → τ.Active automation ∨ σ.Silent automation.id) :=
  ⟨fun hactive => ⟨hactive.1, hsame.symm.trans hactive.2⟩,
    fun hactive => .inl ⟨hactive.1, hsame.trans hactive.2⟩⟩

section Changes

variable (h : Inv calendar σ)

include h

/-- Automations that nothing blocks any more have their operation; those that something blocks now
have no timer. -/
theorem Inv.ofStories {stories : List Story}
    (hkeeps : ∀ y ∈ σ.operations, ∀ storyId, y.deletes = some storyId →
      σ.Keeps { σ with stories } storyId)
    (hchanged : .refreshing ∈ σ.operations ∨ ∀ automation ∈ σ.automations,
      (Active { σ with stories } automation → σ.Active automation) ∧
        (σ.Active automation → Active { σ with stories } automation ∨ σ.Silent automation.id)) :
    Inv calendar { σ with stories } where
  __ := h
  knows y hy := (h.knows y hy).move (Nat.le_refl _)
    (fun stored hstored _ => ⟨stored, hstored, rfl, rfl⟩) (hkeeps y hy)
  covered automation hautomation hactive := by
    rcases hchanged with hrefreshing | hchanged
    · exact .inr (.inl ⟨.refreshing, hrefreshing, trivial⟩)
    · exact h.covered automation hautomation ((hchanged automation hautomation).1 hactive)
  silent id hinactive := by
    rcases hchanged with hrefreshing | hchanged
    · exact .inr (.inl hrefreshing)
    by_cases hwas : ∃ automation ∈ σ.automations, automation.id = id ∧ σ.Active automation
    · obtain ⟨automation, hautomation, rfl, hactive⟩ := hwas
      exact .inl (((hchanged automation hautomation).2 hactive).resolve_left
        (hinactive automation hautomation rfl))
    · exact h.silent id fun automation hautomation hid hactive =>
        hwas ⟨automation, hautomation, hid, hactive⟩

theorem Inv.cleared (hx : σ.operations[operation]? = some (.cleared storyId))
    (hcalm : σ.Calm calendar (.proceed operation completes now)) :
    Inv calendar ((σ.setDeleting storyId true).replace operation (some (.staged storyId))) := by
  have ⟨story, hstory⟩ := Option.isSome_iff_exists.1 (h.knows _ (mem_of_getElem? hx))
  have hdeleting : (σ.setDeleting storyId true).Deleting storyId :=
    ⟨_, story?_setDeleting.trans (congrArg _ hstory), rfl⟩
  have hother : ∀ automation, (σ.setDeleting storyId true).Active automation →
      automation.storyId ≠ storyId := by
    rintro automation hactive rfl
    have hfree := hactive.2
    rw [hdeleting.blocked] at hfree
    cases hfree
  have hstored : Inv calendar (σ.setDeleting storyId true) := by
    apply h.ofStories
    · exact fun y _ other _ => keeps_updateStory _ (fun _ => rfl) fun _ _ _ => rfl
    refine hcalm.imp_right fun ⟨_, hsilent, _⟩ automation hautomation => ⟨?_, ?_⟩
    · exact fun hactive =>
        ⟨hactive.1, (blocked_setDeleting (hother _ hactive)).symm.trans hactive.2⟩
    intro hactive
    by_cases hown : automation.storyId = storyId
    · exact .inr (hsilent storyId hx automation hautomation hown)
    · exact .inl ⟨hactive.1, (blocked_setDeleting hown).trans hactive.2⟩
  apply hstored.replace hx
  · exact fun _ heq => Option.some.inj heq ▸ hdeleting
  · exact fun _ heq => .inr (Option.some.inj heq ▸ rfl)
  · exact fun _ _ _ hcover => hcover.elim
  · exact fun automation _ hactive heq => hother automation hactive (cleared.inj heq).symm
  · rintro id (heq | heq) <;> cases heq

theorem Inv.remove {p : Automation → Bool} (ys : List Operation)
    (hknows : ∀ y ∈ ys, Knows { σ with automations := σ.automations.filter p } y)
    (hdeletes : ys.filterMap deletes = [])
    (hremoved : ∀ stored ∈ σ.automations, σ.Active stored → p stored = true ∨
      .deleting stored.id ∈ ys) : Inv calendar { σ with
      automations := σ.automations.filter p
      operations := σ.operations ++ ys } where
  distinct := h.distinct.sublist (filter_sublist.map _)
  fresh stored hstored := h.fresh stored (mem_filter.1 hstored).1
  knows y hy := by
    rcases mem_append.1 hy with hold | hnew
    · exact (h.knows y hold).move (Nat.le_refl _)
        (fun stored hstored _ => ⟨stored, (mem_filter.1 hstored).1, rfl, rfl⟩)
        fun _ _ story hstory => ⟨story, hstory, fun hstill => hstill⟩
    · exact hknows y hnew
  exclusive := by
    rw [filterMap_append, hdeletes, append_nil]
    exact h.exclusive
  registered := h.registered
  covered stored hstored hactive := (h.covered stored (mem_filter.1 hstored).1 hactive).append ys
  silent id hinactive := by
    by_cases hwas : ∃ stored ∈ σ.automations, stored.id = id ∧ σ.Active stored
    · obtain ⟨stored, hstored, rfl, hactive⟩ := hwas
      have hnot : ¬ p stored = true := fun hkept =>
        hinactive stored (mem_filter.2 ⟨hstored, hkept⟩) rfl hactive
      have hdeleting := (hremoved stored hstored hactive).resolve_left hnot
      exact .inr (.inr (mem_append_right _ hdeleting))
    · have hbefore := h.silent id fun stored hstored hid hactive =>
        hwas ⟨stored, hstored, hid, hactive⟩
      exact hbefore.imp_right fun hclearing => hclearing.append ys

theorem Inv.commit (hx : σ.operations[operation]? = some (.staged storyId)) : Inv calendar ({ σ with
      automations := σ.automations.filter fun automation => automation.storyId ≠ storyId
      stories := σ.stories.filter fun story => story.id ≠ storyId }.replace operation none) := by
  have hdeleting : σ.Deleting storyId := h.knows _ (mem_of_getElem? hx)
  have hended := h.endOperation hx rfl fun _ _ _ hcover => hcover.elim
  have hother : ∀ other, other ≠ storyId →
      (σ.stories.filter fun story => story.id ≠ storyId).find? (fun story => story.id = other) =
        σ.story? other := by
    intro other hne
    rw [find?_filter]
    congr 1
    funext story
    by_cases heq : story.id = other
    · simp [heq, hne]
    · simp [heq]
  have hremoved := hended.remove (p := fun automation => automation.storyId ≠ storyId) []
    nofun rfl fun stored _ hactive => .inl <| by
      have hne : stored.storyId ≠ storyId := by
        rintro rfl
        have hfree : σ.blocked stored = false := hactive.2
        rw [hdeleting.blocked] at hfree
        cases hfree
      simpa using hne
  rw [append_nil] at hremoved
  apply hremoved.ofStories
  · intro y hy other hdeletes story hstory
    have hne : other ≠ storyId := by
      rintro rfl
      exact not_deletes_of_ended h.exclusive hx rfl hy hdeletes
    exact ⟨story, (hother other hne).trans hstory, fun hstill => hstill⟩
  · refine .inr fun automation hautomation => ?_
    have hne : automation.storyId ≠ storyId := by simpa using (mem_filter.1 hautomation).2
    have hsame := congrArg (σ.state.resolve automation.actionId) (hother _ hne)
    exact active_of_blocked_eq (congrArg Option.isSome hsame)

theorem Inv.failing (hx : σ.operations[operation]? = some (.failing storyId))
    (hcalm : σ.Calm calendar (.proceed operation completes now)) :
    Inv calendar ((σ.setDeleting storyId false).replace operation none) := by
  have hdeleting : σ.Deleting storyId := h.knows _ (mem_of_getElem? hx)
  have hended := h.endOperation hx rfl fun _ _ _ hcover => hcover.elim
  apply hended.ofStories
  · intro y hy other hdeletes
    refine keeps_updateStory _ (fun _ => rfl) fun _ heq => ?_
    exact absurd (heq ▸ hdeletes) (not_deletes_of_ended h.exclusive hx rfl hy)
  rcases hcalm with hrefreshing | ⟨_, _, hfails⟩
  · have hkept : .refreshing ∈ replaceAt σ.operations operation none :=
      (mem_replaceAt_of_mem hx hrefreshing).resolve_left nofun
    exact .inl hkept
  refine .inr fun automation hautomation => ?_
  by_cases hown : automation.storyId = storyId
  · subst hown
    refine ⟨fun hactive => ?_, fun hactive => ?_⟩
    · exfalso
      have ⟨story, hstory, _⟩ := hdeleting
      rcases hfails _ hx automation hautomation rfl with hdisabled | hblocked
      · exact absurd (hactive.1.symm.trans hdisabled) nofun
      have hfree : (σ.setDeleting automation.storyId false).blocked automation = false := hactive.2
      unfold blocked blockedReason at hfree
      rw [story?_setDeleting, hstory] at hfree
      exact absurd ((hblocked story hstory).symm.trans hfree) nofun
    · have hfree : σ.blocked automation = false := hactive.2
      rw [hdeleting.blocked] at hfree
      cases hfree
  · exact active_of_blocked_eq (blocked_setDeleting (σ := σ) hown)

/-! ## Operations that begin -/

theorem Inv.begin (hknows : σ.Knows y) (hexclusive : ∀ storyId, y.deletes = some storyId →
    some storyId ∉ σ.operations.map Operation.deletes) :
    Inv calendar { σ with operations := σ.operations ++ [y] } where
  __ := h
  knows z hz := by
    rcases mem_concat.mp hz with hold | rfl
    · exact h.knows z hold
    · exact hknows
  exclusive := by
    rw [filterMap_append, nodup_append]
    refine ⟨h.exclusive, ?_, ?_⟩
    · cases hdeletes : y.deletes with
      | none => simp [hdeletes]
      | some storyId => simp [hdeletes]
    intro storyId hold other hnew heq
    subst heq
    have hy : y.deletes = some storyId := by simpa using hnew
    have ⟨z, hz, hzdeletes⟩ := mem_filterMap.1 hold
    exact hexclusive storyId hy (mem_map.2 ⟨z, hz, hzdeletes⟩)
  covered automation hautomation hactive := (h.covered automation hautomation hactive).append [y]
  silent id hinactive := (h.silent id hinactive).imp_right fun hclearing => hclearing.append [y]

theorem Inv.refreshed {stories : List Story} {automations : List Automation}
    (hdistinct : (automations.map (·.id)).Nodup) (hrows : ∀ stored ∈ automations,
      ∃ old ∈ σ.automations, old.id = stored.id ∧ old.storyId = stored.storyId)
    (hkeeps : ∀ storyId, σ.Keeps { σ with stories } storyId) :
    Inv calendar { σ with stories, automations, operations := σ.operations ++ [.refreshing] } := by
  have hbegun := h.begin (y := .refreshing) trivial nofun
  have hrefreshing : .refreshing ∈ σ.operations ++ [.refreshing] :=
    mem_append_right _ (mem_singleton_self _)
  refine ⟨hdistinct, ?_, ?_, hbegun.exclusive, h.registered, ?_, ?_⟩
  · intro stored hstored
    have ⟨old, hold, hid, _⟩ := hrows stored hstored
    exact hid ▸ h.fresh old hold
  · exact fun y hy => (hbegun.knows y hy).move (Nat.le_refl _)
      (fun stored hstored _ => hrows stored hstored) fun storyId _ => hkeeps storyId
  · exact fun _ _ _ => .inr (.inl ⟨.refreshing, hrefreshing, trivial⟩)
  · exact fun _ _ => .inr (.inl hrefreshing)

theorem Inv.update {actionId : Option ActionId} {schedule : Option SchedulerSchedule}
    {enabled : Option Bool} {timestamp : Int} : Inv calendar { σ with
      automations := σ.automations.map fun automation =>
        if automation.id = id then patched automation actionId schedule enabled timestamp
        else automation
      operations := σ.operations ++ [.refreshing] } := by
  have hrow : ∀ automation : Automation,
      (if automation.id = id then patched automation actionId schedule enabled timestamp
        else automation).id = automation.id ∧
      (if automation.id = id then patched automation actionId schedule enabled timestamp
        else automation).storyId = automation.storyId := by
    intro automation
    split <;> exact ⟨rfl, rfl⟩
  apply h.refreshed
  · rw [map_map]
    exact (congrArg Nodup (map_congr_left fun automation _ => (hrow automation).1)).mpr h.distinct
  · intro stored hstored
    have ⟨old, hold, heq⟩ := mem_map.1 hstored
    exact ⟨old, hold, heq ▸ (hrow old).1.symm, heq ▸ (hrow old).2.symm⟩
  · exact fun _ story hstory => ⟨story, hstory, fun hstill => hstill⟩

theorem Inv.refreshedStory {update : Story → Story} (hid : ∀ story, (update story).id = story.id)
    (hdeleting : ∀ story, (update story).deleting = story.deleting) :
    Inv calendar { σ.updateStory storyId update with
      operations := σ.operations ++ [.refreshing] } :=
  h.refreshed h.distinct (fun stored hstored => ⟨stored, hstored, rfl, rfl⟩) fun _ =>
    keeps_updateStory update hid fun story _ hstill => (hdeleting story).trans hstill

theorem Inv.createStory {actions : List StoryAction}
    (hfresh : ¬ ((σ.story? id).isSome ∨ id ∈ σ.automations.map (·.storyId))) :
    Inv calendar { σ with stories := σ.stories ++ [⟨id, false, false, actions⟩] } := by
  apply h.ofStories
  · intro _ _ other _ story hstory
    refine ⟨story, ?_, fun hstill => hstill⟩
    unfold story? at hstory ⊢
    rw [find?_append, hstory, Option.some_or]
  refine .inr fun automation hautomation => ?_
  have hne : id ≠ automation.storyId := by
    rintro rfl
    exact hfresh (.inr (mem_map_of_mem hautomation))
  have hsame : blocked { σ with stories := σ.stories ++ [⟨id, false, false, actions⟩] } automation =
      σ.blocked automation := by
    unfold blocked blockedReason story?
    rw [find?_append]
    cases σ.stories.find? fun story => story.id = automation.storyId with
    | none => simp [hne]
    | some story => simp
  exact active_of_blocked_eq hsame

theorem Inv.create (hid : automation.id = σ.nextAutomation) (hknows : (σ.create automation y).Knows y)
    (hdeletes : y.deletes = none) (hcovers : automation.enabled = true → y.covers automation) :
    Inv calendar (σ.create automation y) where
  distinct := by
    change ((σ.automations ++ [automation]).map (·.id)).Nodup
    rw [map_append, nodup_append]
    refine ⟨h.distinct, nodup_singleton _, ?_⟩
    rintro _ hold _ hnew rfl
    have ⟨stored, hstored, hstoredId⟩ := mem_map.1 hold
    have hlt := h.fresh stored hstored
    rw [hstoredId, mem_singleton.1 hnew] at hlt
    exact absurd hid hlt.ne
  fresh stored hstored := by
    rcases mem_concat.mp hstored with hold | rfl
    · exact Nat.lt_succ_of_lt (h.fresh stored hold)
    · rw [hid]
      exact Nat.lt_succ_self _
  knows z hz := by
    rcases mem_concat.mp hz with hold | rfl
    · refine (h.knows z hold).move (Nat.le_succ _) ?_ fun _ _ story hstory =>
        ⟨story, hstory, fun hstill => hstill⟩
      intro stored hstored hlt
      rcases mem_concat.mp hstored with hold | rfl
      · exact ⟨stored, hold, rfl, rfl⟩
      · rw [hid] at hlt
        exact absurd hlt (Nat.lt_irrefl _)
    · exact hknows
  exclusive := by simpa [TimerScheduler.create, hdeletes] using h.exclusive
  registered := h.registered
  covered stored hstored hactive := by
    rcases mem_concat.mp hstored with hold | hnew
    · exact (h.covered stored hold hactive).append [y]
    have heq := hnew
    subst heq
    exact .inr (.inl ⟨y, mem_append_right _ (mem_singleton_self _), hcovers hactive.1⟩)
  silent id hinactive := by
    have hbefore := h.silent id fun stored hstored =>
      hinactive stored (mem_append_left _ hstored)
    exact hbefore.imp_right fun hclearing => hclearing.append [y]

theorem Inv.delete (hid : (σ.automation? id).isSome) : Inv calendar { σ with
      automations := σ.automations.filter fun automation => automation.id ≠ id
      operations := σ.operations ++ [.deleting id] } := by
  have ⟨deleted, hdeleted⟩ := Option.isSome_iff_exists.1 hid
  have ⟨hmem, heq⟩ := automation?_spec hdeleted
  apply h.remove _ _ rfl
  · intro stored _ _
    by_cases hother : stored.id = id
    · exact .inr (hother ▸ mem_singleton_self _)
    · exact .inl (by simpa using hother)
  · intro y hy
    rw [mem_singleton.1 hy]
    exact ⟨heq ▸ h.fresh deleted hmem, fun stored hstored => by simpa using (mem_filter.1 hstored).2⟩

theorem Inv.fire {timer : Timer} (htimer : σ.timers id = some timer)
    (harmed : timer.armed = true) : Inv calendar { σ with
      timers := Function.update σ.timers id (some { timer with armed := false })
      operations := σ.operations ++ [.handling id] } := by
  have hother : ∀ other, other ≠ id →
      Function.update σ.timers id (some { timer with armed := false }) other = σ.timers other :=
    fun other hne => Function.update_of_ne hne _ _
  have hbegun := h.begin (y := .handling id) trivial nofun
  refine { hbegun with registered := ?_, covered := ?_, silent := ?_ }
  · intro other found hfound
    by_cases heq : other = id
    · exact heq ▸ h.registered id timer htimer
    · exact h.registered other found ((hother other heq).symm.trans hfound)
  · intro automation hautomation hactive
    by_cases heq : automation.id = id
    · exact .inr (.inl ⟨.handling id, mem_append_right _ (mem_singleton_self _), heq.symm⟩)
    rcases hbegun.covered automation hautomation hactive with ⟨found, hfound, hrest⟩ | hcovered
    · exact .inl ⟨found, (hother _ heq).trans hfound, hrest⟩
    · exact .inr hcovered
  · intro other hinactive
    rcases hbegun.silent other hinactive with hsilent | hclearing
    · by_cases heq : other = id
      · subst heq
        have hnot := hsilent.1 timer htimer
        rw [harmed] at hnot
        cases hnot
      · exact .inl ⟨fun found hfound => hsilent.1 found ((hother other heq).symm.trans hfound),
          hsilent.2⟩
    · exact .inr hclearing

end Changes

/-! ## Actions written back -/

theorem resolve_append {state : NodeAgentState} {actionId : ActionId} {story : Story}
    {action : StoryAction} (haction : action.targetInstanceId.isSome)
    (hid : story.actions.any (·.id = actionId)) :
    state.resolve actionId (some { story with actions := story.actions ++ [action] }) =
      state.resolve actionId (some story) := by
  have ⟨found, hfound⟩ := Option.isSome_iff_exists.1 (find?_isSome.trans any_eq_true.symm |>.2 hid)
  have htargets : (story.actions ++ [action]).any (·.targetInstanceId.isNone) =
      story.actions.any (·.targetInstanceId.isNone) := by
    simp [any_append, Option.isNone_eq_false_iff.2 haction]
  simp only [NodeAgentState.resolve, htargets, find?_append, hfound, Option.some_or]

theorem Inv.replaceActions (h : Inv calendar σ) {read : List StoryAction} {action : StoryAction}
    (haction : action.targetInstanceId.isSome)
    (hreferenced : ∀ stored ∈ σ.automations, σ.hasAction stored.storyId stored.actionId)
    (hcalm : .refreshing ∈ σ.operations ∨
      ∀ story, σ.story? storyId = some story → story.actions = read) :
    Inv calendar (σ.replaceActions storyId (read ++ [action])) := by
  apply h.ofStories
  · exact fun _ _ _ _ => keeps_updateStory _ (fun _ => rfl) fun _ _ => id
  refine hcalm.imp_right fun hread automation hautomation => ?_
  have hsame : (σ.replaceActions storyId (read ++ [action])).blocked automation =
      σ.blocked automation := by
    have ⟨story, hstory, hhas⟩ := (Option.any_eq_true _ _).1 (hreferenced automation hautomation)
    unfold blocked blockedReason TimerScheduler.replaceActions
    rw [story?_updateStory (fun story => { story with actions := read ++ [action] })
      fun _ => rfl, hstory, Option.map_some]
    by_cases hid : story.id = storyId
    · rw [if_pos hid, ← hread story (hid ▸ story?_id hstory ▸ hstory)]
      exact congrArg Option.isSome (resolve_append haction hhas)
    · rw [if_neg hid]
      rfl
  exact active_of_blocked_eq hsame

/-! ## One action -/

theorem Inv.proceed (hcalendar : calendar.Later) (h : Inv calendar σ)
    (hx : σ.operations[operation]? = some x)
    (hcalm : σ.Calm calendar (.proceed operation completes now)) :
    Inv calendar (σ.proceed calendar operation completes now x) := by
  cases x with
  | refreshing => exact h.refreshing hx
  | listing =>
    apply h.goOn hx rfl (.looping σ.automations) trivial (.inl rfl)
    exact fun automation hautomation hactive _ =>
      ⟨automation, hautomation, hactive.1, rfl, rfl, rfl⟩
  | looping rest =>
    cases rest with
    | nil =>
      apply h.endOperation hx rfl
      rintro _ _ _ ⟨read, hread, _⟩
      cases hread
    | cons automation rest =>
      simp only [proceed]
      split
      · exact h.goOn hx rfl _ trivial (.inl rfl) fun _ _ _ => id
      · rename_i hdisabled
        exact h.skip hx rfl (fun _ => id) fun _ _ hstands => absurd hstands.1 hdisabled
  | registering automation stage rest =>
    cases stage with
    | checking =>
      simp only [proceed]
      split
      · rename_i hblocked
        apply h.skip hx rfl fun _ => id
        exact fun stored _ hstands => not_active_of_blocked hstands hblocked
      · exact h.goOn hx rfl _ trivial (.inl rfl) fun _ _ _ => id
    | storing =>
      simp only [proceed]
      split
      · rename_i hgone
        apply h.skip hx rfl fun _ => id
        exact fun stored hstored hstands =>
          absurd hstands.2.1.symm (automation?_none hgone stored hstored)
      · exact h.goOn hx rfl _ trivial (.inl rfl) fun _ _ _ => id
    | setting anchor => exact h.setting hcalendar hx hcalm
  | activating id =>
    simp only [proceed]
    split
    · exact h.endGone hx rfl (fun _ hcover => hcover) ‹_›
    · exact h.goOnStored hx rfl (fun _ hcover => hcover) ‹_› rfl trivial fun hstands =>
        ⟨_, mem_singleton_self _, hstands⟩
  | handling id =>
    simp only [proceed]
    split
    · exact h.endGone hx rfl (fun _ hcover => hcover) ‹_›
    rename_i automation hstored
    split
    · exact h.goOnStored hx rfl (fun _ hcover => hcover) hstored rfl trivial fun hstands =>
        ⟨_, mem_singleton_self _, hstands⟩
    rename_i hdisabled
    have ⟨hmem, heq⟩ := automation?_spec hstored
    apply h.endOperation hx rfl
    intro stored hstored hactive hcover
    have hsame := inj_on_of_nodup_map h.distinct hstored hmem (Eq.trans heq hcover).symm
    exact hdisabled (hsame ▸ hactive.1)
  | handlingBlocked automation =>
    simp only [proceed]
    split
    · rename_i hblocked
      apply h.endOperation hx rfl
      rintro stored _ hactive ⟨read, hread, hstands⟩
      rw [mem_singleton.1 hread] at hstands
      exact not_active_of_blocked hstands hblocked hactive
    · exact h.goOn hx rfl _ trivial (.inl rfl) fun _ _ _ => id
  | preparing automation =>
    simp only [proceed]
    split <;> exact h.goOn hx rfl _ trivial (.inl rfl) fun _ _ _ => id
  | reporting automation =>
    simp only [proceed]
    split
    · rename_i hgone
      apply h.endOperation hx rfl
      rintro stored hstored _ ⟨read, hread, hstands⟩
      rw [mem_singleton.1 hread] at hstands
      exact automation?_none hgone stored hstored hstands.2.1.symm
    · exact h.goOn hx rfl _ trivial (.inl rfl) fun _ _ _ => id
  | deleting id => exact h.deleting hx
  | clearing storyId => exact h.clearing hx
  | clearingListed storyId ids => exact h.clearListed hx
  | cleared storyId => exact h.cleared hx hcalm
  | staged storyId =>
    simp only [proceed]
    split
    · exact h.commit hx
    · have hknows := h.knows _ (mem_of_getElem? hx)
      exact h.goOn hx rfl _ hknows (.inr rfl) fun _ _ _ hcover => hcover.elim
  | failing storyId => exact h.failing hx hcalm

theorem Inv.step (hcalendar : calendar.Later) (h : Inv calendar σ) {action : TimerAction}
    (hcalm : σ.Calm calendar action) (hstep : σ.step calendar action = some τ) : Inv calendar τ := by
  cases action with
  | createStory id actions =>
    obtain ⟨hfresh, hstep⟩ := Option.ite_none_left_eq_some.1 hstep
    exact Option.some.inj hstep ▸ h.createStory hfresh
  | create storyId actionId schedule enabled now =>
    obtain ⟨-, hstep⟩ := Option.ite_none_right_eq_some.1 hstep
    cases hstep
    exact h.create rfl trivial rfl fun henabled => ⟨_, mem_singleton_self _, henabled, rfl, rfl, rfl⟩
  | createWithAction storyId read action schedule enabled now =>
    obtain ⟨⟨_, _, haction, _, hreferenced⟩, hstep⟩ := Option.ite_none_right_eq_some.1 hstep
    cases hstep
    have hwritten := h.replaceActions haction hreferenced hcalm
    exact hwritten.create rfl trivial rfl fun _ => rfl
  | update id actionId schedule enabled timestamp =>
    obtain ⟨-, hstep⟩ := Option.ite_none_right_eq_some.1 hstep
    exact Option.some.inj hstep ▸ h.update
  | delete id =>
    obtain ⟨hid, hstep⟩ := Option.ite_none_right_eq_some.1 hstep
    exact Option.some.inj hstep ▸ h.delete hid
  | refresh => exact Option.some.inj hstep ▸ h.begin (y := .refreshing) trivial nofun
  | updateActions storyId actions =>
    obtain ⟨-, hstep⟩ := Option.ite_none_right_eq_some.1 hstep
    exact Option.some.inj hstep ▸ h.refreshedStory (fun _ => rfl) fun _ => rfl
  | setArchived storyId archived =>
    obtain ⟨-, hstep⟩ := Option.ite_none_right_eq_some.1 hstep
    exact Option.some.inj hstep ▸ h.refreshedStory (fun _ => rfl) fun _ => rfl
  | deleteStory storyId =>
    obtain ⟨hfree, hstep⟩ := Option.ite_none_right_eq_some.1 hstep
    cases hstep
    exact h.begin (y := .clearing storyId) hfree.1 fun other hother =>
      Option.some.inj hother ▸ hfree.2
  | fire id now =>
    simp only [TimerScheduler.step] at hstep
    split at hstep
    · cases hstep
    rename_i timer htimer
    obtain ⟨hdue, hstep⟩ := Option.ite_none_right_eq_some.1 hstep
    exact Option.some.inj hstep ▸ h.fire htimer hdue.1
  | proceed operation completes now =>
    have ⟨x, hx, hτ⟩ := Option.map_eq_some_iff.1 hstep
    exact hτ ▸ Inv.proceed hcalendar h hx hcalm

theorem boot_inv {state : NodeAgentState} {stories : List Story} {automations : List Automation}
    {nextAutomation : AutomationId} (hdistinct : (automations.map (·.id)).Nodup)
    (hstored : ∀ automation ∈ automations, automation.id < nextAutomation) :
    Inv calendar (boot state stories automations nextAutomation) where
  distinct := hdistinct
  fresh := hstored
  knows y hy := by
    rw [mem_singleton.1 hy]
    trivial
  exclusive := nodup_nil
  registered := nofun
  covered _ _ _ := .inr (.inl ⟨.listing, mem_singleton_self _, trivial⟩)
  silent _ _ := .inl ⟨nofun, rfl⟩

end Steps

/-- Each enabled automation that nothing blocks has a timer for the next time of its stored
schedule, and no other id has a timer or a next run. -/
structure Follows (calendar : Calendar) (σ : TimerScheduler) : Prop where
  armed : ∀ automation ∈ σ.automations, σ.Active automation → σ.Armed calendar automation
  silent : ∀ id, (∀ automation ∈ σ.automations, automation.id = id → ¬ σ.Active automation) →
    σ.Silent id

def exampleState : NodeAgentState := ⟨0, [⟨0, 0⟩]⟩

/-- A start with one stored automation. -/
def startRun : List TimerAction :=
  [.proceed 0 true 0, .proceed 0 true 0, .proceed 0 true 0, .proceed 0 true 0, .proceed 0 true 0,
    .proceed 0 true 0]

end TimerScheduler
end TaskHandoff.Stories.Timers
