import Mathlib.Data.List.Nodup
import TaskHandoff.Browser.Multiplexer

/-! # Every promise settles and every peer is closed once

A promise that `open` or `send` returned is settled or waits in a live channel,
never both and never twice; a peer the accept callback returned is held by a
live channel or has been closed. Counting both sides is an invariant of every
step but one: an `open` that draws the id of a live channel drops that channel
with everything that waits in it.
-/

namespace TaskHandoff.Browser

open OrderedMap List Option Multiplexer Machine

/-! ## What waits -/

/-- The promises a channel object would settle when it ends. -/
def ChannelState.waiting (state : ChannelState) : List Nat :=
  state.opening.toList ++ state.queue.map (·.promise)

/-- The peer a channel object would close when it ends. -/
def ChannelState.held (state : ChannelState) : List Nat :=
  if state.handlers = .peer then [state.ref] else []

namespace Multiplexer

/-- The promises that wait in live channels. -/
def waiting (m : Multiplexer) : List Nat := m.channels.values.flatMap ChannelState.waiting

def held (m : Multiplexer) : List Nat := m.channels.values.flatMap ChannelState.held

def settledPromises (m : Multiplexer) : List Nat := m.settled.map Prod.fst

/-- Promises and peers add up: each is settled or waits, each is closed or held. -/
structure Counted (m : Multiplexer) : Prop where
  promises : ∀ p, m.settledPromises.count p + m.waiting.count p = (List.range m.promises).count p
  peers : ∀ r, m.peersClosed.count r + m.held.count r = m.peers.count r
  refs : (m.accepting.map (·.ref) ++ m.peers).Nodup
  fresh : ∀ r ∈ m.accepting.map (·.ref) ++ m.peers, r < m.objects

theorem init_counted (accepts : Bool) : (init accepts).Counted where
  promises := fun p => by simp [settledPromises, waiting, init, values, empty]
  peers := fun r => by simp [held, init, values, empty]
  refs := by simp [init]
  fresh := by simp [init]

variable {m : Multiplexer} {state : ChannelState}

theorem live_eq_some {tunnelId ref : Nat} : m.live tunnelId ref = some state ↔
      m.channels.get? tunnelId = some state ∧ state.ref = ref := by
  simp [live, filter_eq_some_iff]

/-! ## What the small operations keep -/

theorem Counted.transmit (h : m.Counted) (wire : Wire) (message : Message) :
    (m.transmit wire message).Counted := by
  unfold Multiplexer.transmit
  split
  · exact h
  · exact { h with }

theorem Counted.raise (h : m.Counted) (code : String) : (m.raise code).Counted :=
  { h with }

theorem Counted.schedulePump (h : m.Counted) : m.schedulePump.Counted := by
  unfold Multiplexer.schedulePump
  split
  · exact h
  · exact { h with }

variable {tunnelId : Nat}

section

variable (h : m.Counted)

include h

theorem Counted.setChannel (hget : m.channels.get? tunnelId = some state)
    (state' : ChannelState) (hwaiting : state'.waiting = state.waiting)
    (hheld : state'.held = state.held) : (m.setChannel tunnelId state').Counted := by
  constructor
  · intro p
    have hp := h.promises p
    simp only [settledPromises, waiting, Multiplexer.setChannel, count_flatMap_set, hwaiting,
      count_flatMap_of_get? hget] at hp ⊢
    exact hp
  · intro r
    have hr := h.peers r
    simp only [held, Multiplexer.setChannel, count_flatMap_set, hheld,
      count_flatMap_of_get? hget] at hr ⊢
    exact hr
  · exact h.refs
  · exact h.fresh

theorem Counted.settleWaiting {tunnelId promise : Nat}
    (hget : m.channels.get? tunnelId = some state) (state' : ChannelState)
    (hwaiting : state.waiting.Perm (promise :: state'.waiting)) (hheld : state'.held = state.held)
    (outcome : Outcome) : ((m.setChannel tunnelId state').settle promise outcome).Counted := by
  constructor
  · intro p
    have hp := h.promises p
    have hcount := hwaiting.count_eq p
    rw [count_cons] at hcount
    simp only [settledPromises, waiting, settle, Multiplexer.setChannel, map_append,
      map_cons, map_nil, count_append, count_cons, count_nil,
      count_flatMap_set, count_flatMap_of_get? hget] at hp ⊢
    omega
  · intro r
    have hr := h.peers r
    simp only [held, settle, Multiplexer.setChannel, count_flatMap_set, hheld,
      count_flatMap_of_get? hget] at hr ⊢
    exact hr
  · exact h.refs
  · exact h.fresh

theorem Counted.settleNew (outcome : Outcome) :
    ({ m with promises := m.promises + 1 }.settle m.promises outcome).Counted := by
  constructor
  · intro p
    have hp := h.promises p
    simp only [settledPromises, waiting, settle, map_append, map_cons, map_nil,
      count_append, range_succ] at hp ⊢
    omega
  · exact h.peers
  · exact h.refs
  · exact h.fresh

theorem Counted.endChannel (wire : Wire) (tunnelId ref : Nat)
    (error : Option BrowserError) (notify : Bool) :
    (m.endChannel wire tunnelId ref error notify).Counted := by
  unfold Multiplexer.endChannel
  cases hlive : m.live tunnelId ref with
  | none => exact h
  | some state =>
    obtain ⟨hget, rfl⟩ := live_eq_some.mp hlive
    have hended : ({ m with
        channels := m.channels.erase tunnelId
        settled := m.settled ++ (state.opening.toList ++ state.queue.map (·.promise)).map
          fun promise => (promise, Outcome.rejected
            (error.getD (browserChannelError "BROWSER_CHANNEL_CLOSED")))
        peersClosed := m.peersClosed ++
          if state.handlers = .peer then [state.ref] else [] } : Multiplexer).Counted := by
      constructor
      · intro p
        have hp := h.promises p
        have hfst : ∀ l : List Nat, (l.map fun promise => (promise, Outcome.rejected
            (error.getD (browserChannelError "BROWSER_CHANNEL_CLOSED")))).map Prod.fst = l := by
          simp [Function.comp_def]
        simp only [settledPromises, waiting, map_append, count_append,
          count_flatMap_of_get? hget, ChannelState.waiting] at hp ⊢
        rw [hfst, hfst]
        omega
      · intro r
        have hr := h.peers r
        simp only [held, count_append, count_flatMap_of_get? hget, ChannelState.held] at hr ⊢
        omega
      · exact h.refs
      · exact h.fresh
    dsimp only
    split
    · exact hended.transmit wire _
    · exact hended

end

variable {opening : Option Nat} {handlers : ChannelHandlers} {created m' : Multiplexer} {ref : Nat}
  {wire : Wire} {moves : List (Action × Wire)} {accepts : Bool}

section

variable (h : m.Counted)

include h

theorem Counted.create (hnew : m.channels.get? tunnelId = none)
    (hhandlers : handlers ≠ .peer) (hcreate : m.create tunnelId handlers opening = some created) :
    (∀ p, created.settledPromises.count p + created.waiting.count p =
      (List.range m.promises).count p + opening.toList.count p) ∧
    (∀ r, created.peersClosed.count r + created.held.count r = created.peers.count r) ∧
    created.accepting = m.accepting ∧ created.peers = m.peers ∧
    created.promises = m.promises ∧ created.objects = m.objects + 1 := by
  obtain ⟨-, hcreate⟩ := ite_none_left_eq_some.mp hcreate
  cases hcreate
  refine ⟨?_, ?_, rfl, rfl, rfl, rfl⟩
  · intro p
    have hp := h.promises p
    simp only [settledPromises, waiting, Multiplexer.setChannel, count_flatMap_set,
      erase_of_get?_eq_none hnew, ChannelState.waiting, map_nil,
      append_nil] at hp ⊢
    omega
  · intro r
    have hr := h.peers r
    simp only [held, Multiplexer.setChannel, count_flatMap_set,
      erase_of_get?_eq_none hnew, ChannelState.held, if_neg hhandlers,
      count_nil] at hr ⊢
    omega

/-! ## What the methods keep -/

theorem Counted.openChannel (wire : Wire) (instanceId : String) (aborted : Bool)
    (hnew : m.channels.get? (m.nextId + 1) = none) :
    (m.openChannel wire instanceId aborted).Counted := by
  unfold Multiplexer.openChannel
  dsimp only
  split
  · exact h.settleNew _
  have hdrawn : ({ m with nextId := m.nextId + 1 } : Multiplexer).Counted :=
    { h with }
  split
  · exact hdrawn.settleNew _
  rename_i created hcreate
  have hopened : created.Counted := by
    unfold Multiplexer.create at hcreate
    split at hcreate
    · cases hcreate
    rename_i hroom
    have hplain : ({ m with nextId := m.nextId + 1 } : Multiplexer).create (m.nextId + 1)
        .caller (some m.promises) = some { created with promises := m.promises } := by
      unfold Multiplexer.create
      rw [if_neg hroom]
      cases hcreate
      rfl
    obtain ⟨hp, hr, haccepting, hpeers, -, hobjects⟩ := hdrawn.create hnew (by decide) hplain
    cases hcreate
    constructor
    · intro p
      have hcount := hp p
      simp only [settledPromises, waiting, Multiplexer.setChannel, toList_some,
        range_succ, count_append] at hcount ⊢
      exact hcount
    · exact hr
    · exact h.refs
    · exact fun r hin => Nat.lt_succ_of_lt (h.fresh r hin)
  split
  · exact hopened.endChannel wire _ _ _ _
  · exact hopened.transmit wire _

theorem Counted.controlOpen (wire : Wire) (tunnelId : Nat) :
    (m.controlOpen wire tunnelId).Counted := by
  unfold Multiplexer.controlOpen
  split
  · exact h.raise _
  split
  · exact h.raise _
  rename_i hused
  have hnew : m.channels.get? tunnelId = none := by simpa [OrderedMap.contains] using hused
  split
  · exact h.transmit wire _
  rename_i created hcreate
  obtain ⟨hp, hr, haccepting, hpeers, hpromises, hobjects⟩ :=
    h.create hnew (by decide) hcreate
  have hfresh : m.objects ∉ m.accepting.map (·.ref) ++ m.peers :=
    fun hin => Nat.lt_irrefl _ (h.fresh _ hin)
  have hmiddle : (created.accepting ++ [(⟨m.objects, tunnelId⟩ : Accepting)]).map (·.ref) ++
      created.peers = m.accepting.map (·.ref) ++ m.objects :: m.peers := by
    rw [haccepting, hpeers, map_append, append_assoc]
    rfl
  constructor
  · intro p
    have hcount := hp p
    rw [← hpromises] at hcount
    exact hcount
  · exact hr
  · rw [hmiddle, nodup_middle, nodup_cons]
    exact ⟨hfresh, h.refs⟩
  · intro r hin
    rw [hmiddle, mem_append, mem_cons] at hin
    rw [hobjects]
    rcases hin with hin | rfl | hin
    · exact Nat.lt_succ_of_lt (h.fresh r (mem_append_left _ hin))
    · exact Nat.lt_succ_self _
    · exact Nat.lt_succ_of_lt (h.fresh r (mem_append_right _ hin))

theorem Counted.controlOpened (hget : m.channels.get? tunnelId = some state) :
    (m.controlOpened tunnelId state).Counted := by
  unfold Multiplexer.controlOpened
  split
  next promise hopened hopening =>
    apply Counted.schedulePump
    apply h.settleWaiting hget
    · simp [ChannelState.waiting, hopening]
    · rfl
  · exact h.raise _

theorem Counted.controlWindowUpdate (creditBytes : Nat)
    (hget : m.channels.get? tunnelId = some state) :
    (m.controlWindowUpdate tunnelId creditBytes state).Counted := by
  unfold Multiplexer.controlWindowUpdate
  split
  · exact h.raise _
  · exact (h.setChannel hget _ (by rfl) (by rfl)).schedulePump

theorem Counted.control (wire : Wire) (value : RelayBrowserControl) :
    (m.control wire value).Counted := by
  unfold Multiplexer.control
  split
  · exact h
  cases hget : m.channels.get? value.tunnelId with
  | none =>
    cases value with
    | channelOpen tunnelId instanceId => exact h.controlOpen wire tunnelId
    | _ => simpa [hget] using h
  | some state =>
    cases value with
    | channelOpen tunnelId instanceId => exact h.controlOpen wire tunnelId
    | channelOpened tunnelId => exact h.controlOpened hget
    | windowUpdate tunnelId creditBytes => exact h.controlWindowUpdate creditBytes hget
    | channelError tunnelId errorCode =>
      simpa [hget] using
        h.endChannel wire tunnelId state.ref (some (browserChannelError errorCode)) false
    | channelClose tunnelId =>
      simpa [hget] using (h.endChannel wire tunnelId state.ref none false).transmit wire
        (.control (.channelClosed tunnelId))
    | channelClosed tunnelId => simpa [hget] using h.endChannel wire tunnelId state.ref none false

theorem Counted.settleCall (call : Accepting) :
    ({ m with accepting := m.accepting.filter (· ≠ call) } : Multiplexer).Counted := by
  have hsub : ((m.accepting.filter (· ≠ call)).map (·.ref)).Sublist (m.accepting.map (·.ref)) :=
    filter_sublist.map _
  constructor
  · exact h.promises
  · exact h.peers
  · exact h.refs.sublist (hsub.append (List.Sublist.refl _))
  · exact fun r hin => h.fresh r ((hsub.append (List.Sublist.refl _)).subset hin)

theorem Counted.acceptResolved (wire : Wire) {call : Accepting}
    (hcall : call ∈ m.accepting) : (m.acceptResolved wire call).Counted := by
  have href : call.ref ∈ m.accepting.map (·.ref) := mem_map_of_mem hcall
  obtain ⟨haccepting, hpeers, hdisjoint⟩ := nodup_append.mp h.refs
  have hnopeer : call.ref ∉ m.peers := fun hin => hdisjoint _ href _ hin rfl
  have hrest : call.ref ∉ (m.accepting.filter (· ≠ call)).map (·.ref) := by
    intro hin
    obtain ⟨other, hother, hsame⟩ := mem_map.mp hin
    rw [mem_filter] at hother
    have heq := inj_on_of_nodup_map haccepting hother.1 hcall hsame
    simp [heq] at hother
  have hsettled := h.settleCall call
  have hrefs : ((m.accepting.filter (· ≠ call)).map (·.ref) ++ (m.peers ++ [call.ref])).Nodup := by
    rw [← append_assoc]
    apply hsettled.refs.append (nodup_singleton _)
    intro r hin hr
    rw [mem_singleton.mp hr, mem_append] at hin
    exact hin.elim hrest hnopeer
  have hfresh : ∀ r ∈ (m.accepting.filter (· ≠ call)).map (·.ref) ++ (m.peers ++ [call.ref]),
      r < m.objects := by
    intro r hin
    rw [← append_assoc, mem_append, mem_singleton] at hin
    rcases hin with hin | rfl
    · exact hsettled.fresh r hin
    · exact h.fresh _ (mem_append_left _ href)
  unfold Multiplexer.acceptResolved
  dsimp only
  split
  next hlive =>
    constructor
    · exact h.promises
    · intro r
      have hr := h.peers r
      simp only [held, count_append] at hr ⊢
      omega
    · exact hrefs
    · exact hfresh
  next state hlive =>
    obtain ⟨hget, hsame⟩ := live_eq_some.mp hlive
    have hget' : m.channels.get? call.tunnelId = some state := hget
    have hunheld : state.held = [] := by
      by_contra hne
      have hin : call.ref ∈ m.held := by
        have hmem : call.ref ∈ state.held := by
          unfold ChannelState.held at hne ⊢
          split at hne
          next hpeer => simp [hpeer, hsame]
          next => exact (hne rfl).elim
        exact mem_flatMap.mpr ⟨state, mem_values.mpr ⟨_, hget'⟩, hmem⟩
      have hpos := count_pos_iff.mpr hin
      have hcount := h.peers call.ref
      rw [count_eq_zero_of_not_mem hnopeer] at hcount
      omega
    have hopened : ({ m with
        accepting := m.accepting.filter (· ≠ call)
        peers := m.peers ++ [call.ref] } : Multiplexer).setChannel call.tunnelId
          { state with handlers := .peer, opened := true } |>.Counted := by
      constructor
      · intro p
        have hp := h.promises p
        simp only [settledPromises, waiting, Multiplexer.setChannel, count_flatMap_set,
          count_flatMap_of_get? hget', ChannelState.waiting] at hp ⊢
        exact hp
      · intro r
        have hr := h.peers r
        simp only [held, Multiplexer.setChannel, count_flatMap_set,
          count_flatMap_of_get? hget', hunheld, count_nil, count_append]
          at hr ⊢
        have hone : ({ state with handlers := .peer, opened := true } : ChannelState).held =
            [call.ref] := by
          simp [ChannelState.held, hsame]
        rw [hone]
        omega
      · exact hrefs
      · exact hfresh
    split
    · exact hopened.endChannel wire _ _ _ _
    · exact (hopened.transmit wire _).schedulePump

theorem Counted.acceptRejected (wire : Wire) (call : Accepting)
    (code : Option String) : (m.acceptRejected wire call code).Counted :=
  (h.settleCall call).endChannel wire _ _ _ _

theorem Counted.data (wire : Wire) (frame : RelayBrowserData) : (m.data wire frame).Counted := by
  unfold Multiplexer.data
  split
  · exact h
  rename_i state hget
  split
  · exact (h.raise _).endChannel wire _ _ _ _
  have htaken := h.setChannel hget
    { state with
      receiveCredit := state.receiveCredit - frame.message.size
      incoming := state.incoming ++ [frame.message] } rfl rfl
  exact { htaken with }

theorem Counted.startDelivery
    (hstep : m.startDelivery tunnelId ref = some m') : m'.Counted := by
  unfold Multiplexer.startDelivery at hstep
  split at hstep
  · cases hstep
  rename_i state hlive
  obtain ⟨hget, -⟩ := live_eq_some.mp hlive
  split at hstep
  next message incoming _ _ =>
    cases hstep
    have hstarted := h.setChannel hget
      { state with incoming := incoming, consuming := some message } rfl rfl
    exact { hstarted with }
  · cases hstep

theorem Counted.finishDelivery {failed : Bool}
    (hstep : m.finishDelivery wire tunnelId ref failed = some m') : m'.Counted := by
  unfold Multiplexer.finishDelivery at hstep
  split at hstep
  · cases hstep
  rename_i state hlive
  obtain ⟨hget, -⟩ := live_eq_some.mp hlive
  split at hstep
  · cases hstep
  rename_i message _
  have hcredited := h.setChannel hget
    { state with
      receiveCredit := state.receiveCredit + message.size
      consuming := none } rfl rfl
  dsimp only at hstep
  split at hstep
  · cases hstep
    exact h.endChannel wire _ _ _ _
  split at hstep
  · cases hstep
    exact hcredited.endChannel wire _ _ _ _
  · cases hstep
    exact hcredited.transmit wire _

end

theorem endChannel_promises (wire : Wire) (m : Multiplexer) (tunnelId ref : Nat)
    (error : Option BrowserError) (notify : Bool) :
    (m.endChannel wire tunnelId ref error notify).promises = m.promises := by
  unfold endChannel transmit
  split
  · rfl
  dsimp only
  split
  · split <;> rfl
  · rfl

theorem endChannel_withPromises (wire : Wire) (m : Multiplexer) (n tunnelId ref : Nat)
    (error : Option BrowserError) (notify : Bool) :
    ({ m with promises := n } : Multiplexer).endChannel wire tunnelId ref error notify =
      { m.endChannel wire tunnelId ref error notify with promises := n } := by
  have hlive : ({ m with promises := n } : Multiplexer).live tunnelId ref =
      m.live tunnelId ref := rfl
  unfold endChannel transmit
  rw [hlive]
  split
  · rfl
  dsimp only
  split
  · split <;> rfl
  · rfl

theorem Counted.send (h : m.Counted) (wire : Wire) (tunnelId ref : Nat)
    (message : BrowserChannelMessage) : (m.send wire tunnelId ref message).Counted := by
  unfold Multiplexer.send
  dsimp only
  split
  · exact h.settleNew _
  rename_i state hlive
  obtain ⟨hget, -⟩ := live_eq_some.mp hlive
  have hget' : m.channels.get? tunnelId = some state := hget
  split
  · have hend := (h.endChannel wire tunnelId ref
      (some (browserChannelError "BROWSER_CHANNEL_QUEUE_LIMIT")) true).settleNew
        (.rejected (browserChannelError "BROWSER_CHANNEL_QUEUE_LIMIT"))
    rw [endChannel_promises] at hend
    rw [endChannel_withPromises]
    exact hend
  · apply Counted.schedulePump
    constructor
    · intro p
      have hp := h.promises p
      simp only [settledPromises, waiting, Multiplexer.setChannel, count_flatMap_set,
        count_flatMap_of_get? hget', ChannelState.waiting, map_append,
        map_cons, map_nil, count_append, range_succ] at hp ⊢
      omega
    · intro r
      have hr := h.peers r
      simp only [held, Multiplexer.setChannel, count_flatMap_set,
        count_flatMap_of_get? hget', ChannelState.held] at hr ⊢
      exact hr
    · exact h.refs
    · exact h.fresh

theorem Counted.pumpChannel {turn : Multiplexer × Bool} (h : turn.1.Counted) (wire : Wire)
    (tunnelId : Nat) : (Multiplexer.pumpChannel wire turn tunnelId).1.Counted := by
  unfold Multiplexer.pumpChannel
  dsimp only
  split
  · exact h
  rename_i state hget
  split
  · exact h
  rename_i next queue hqueue
  split
  · exact h
  have hsettled : ∀ outcome, ((turn.1.setChannel tunnelId { state with
      queue := queue
      queuedBytes := state.queuedBytes - next.message.size
      sendCredit := state.sendCredit - next.message.size }).settle next.promise
        outcome).Counted := by
    apply h.settleWaiting hget
    · simp only [ChannelState.waiting, hqueue, map_cons]
      exact perm_middle
    · rfl
  split
  · exact (hsettled _).endChannel wire _ _ _ _
  rename_i hsent
  have hwire : ∀ m : Multiplexer, m.transmit wire (.data ⟨tunnelId, next.message⟩) =
        { m with outbox := m.outbox ++ [.data ⟨tunnelId, next.message⟩] } := by
    intro m
    rw [Multiplexer.transmit, if_neg hsent]
  rw [hwire]
  exact { hsettled .resolved with }

theorem Counted.pumpTurn (h : m.Counted) (wire : Wire) : (m.pumpTurn wire).Counted := by
  have hfold : ∀ (ids : List Nat) (turn : Multiplexer × Bool), turn.1.Counted →
      (ids.foldl (Multiplexer.pumpChannel wire) turn).1.Counted := by
    intro ids
    induction ids with
    | nil => exact fun _ => id
    | cons tunnelId ids ih => exact fun turn hturn => ih _ (hturn.pumpChannel wire tunnelId)
  have hturn := hfold m.channels.keys ({ m with pumping := false }, false)
    { h with }
  unfold Multiplexer.pumpTurn
  dsimp only
  split
  · exact hturn.schedulePump
  · exact hturn

theorem Counted.close (h : m.Counted) (wire : Wire) (error : BrowserError) :
    (m.close wire error).Counted := by
  have hfold : ∀ (entries : List (Nat × ChannelState)) (m : Multiplexer), m.Counted →
      (entries.foldl (fun m entry =>
        m.endChannel wire entry.1 entry.2.ref (some error) false) m).Counted := by
    intro entries
    induction entries with
    | nil => exact fun _ => id
    | cons entry entries ih => exact fun m hm => ih _ (hm.endChannel wire _ _ _ _)
  exact hfold _ _ { h with }

/-! ## Closed multiplexers -/

/-- A closed multiplexer has no channel. -/
def ClosedEmpty (m : Multiplexer) : Prop := m.closed = true → m.channels = .empty

theorem endChannel_closed (wire : Wire) (m : Multiplexer) (tunnelId ref : Nat)
    (error : Option BrowserError) (notify : Bool) :
    (m.endChannel wire tunnelId ref error notify).closed = m.closed ∧
      (m.endChannel wire tunnelId ref error notify).pumping = m.pumping := by
  unfold endChannel transmit
  split
  · exact ⟨rfl, rfl⟩
  dsimp only
  split
  · split <;> exact ⟨rfl, rfl⟩
  · exact ⟨rfl, rfl⟩

theorem endChannel_channels (wire : Wire) (m : Multiplexer) (tunnelId ref : Nat)
    (error : Option BrowserError) (notify : Bool) :
    (m.endChannel wire tunnelId ref error notify).channels =
      if (m.live tunnelId ref).isSome then m.channels.erase tunnelId else m.channels := by
  unfold endChannel transmit
  split
  next hlive => simp [hlive]
  next state hlive =>
    dsimp only
    split
    · split <;> simp [hlive]
    · simp [hlive]

theorem foldl_endChannel_empty (wire : Wire) (error : Option BrowserError)
    {entries : List (Nat × ChannelState)}
    (hentries : ∀ e ∈ entries, m.channels.get? e.1 = none ∨ m.channels.get? e.1 = some e.2)
    (hkeys : ∀ k ∈ m.channels.keys, k ∈ entries.map Prod.fst) : (entries.foldl (fun m entry =>
      m.endChannel wire entry.1 entry.2.ref error false) m).channels = .empty := by
  induction entries generalizing m with
  | nil =>
    apply eq_empty_of_keys
    exact eq_nil_iff_forall_not_mem.mpr fun k hk => by simpa using hkeys k hk
  | cons e entries ih =>
    have herase : (m.endChannel wire e.1 e.2.ref error false).channels = m.channels.erase e.1 := by
      rw [endChannel_channels]
      rcases hentries e mem_cons_self with hnone | hsome
      · rw [erase_of_get?_eq_none hnone, ite_self]
      · simp [live_eq_some.mpr ⟨hsome, rfl⟩]
    apply ih
    · intro f hf
      rw [herase, get?_erase]
      split
      · exact .inl rfl
      · exact hentries f (mem_cons_of_mem e hf)
    · intro k hk
      rw [herase, keys_erase, mem_filter, decide_eq_true_eq] at hk
      rcases mem_cons.mp (hkeys k hk.1) with heq | hin
      · exact (hk.2 heq).elim
      · exact hin

theorem close_channels (wire : Wire) (m : Multiplexer) (error : BrowserError) :
    (m.close wire error).channels = .empty := by
  apply foldl_endChannel_empty
  · exact fun e he => .inr (get?_eq_some.mpr he)
  · exact fun k hk => hk

@[simp] theorem transmit_closed (wire : Wire) (m : Multiplexer) (message : Message) :
    (m.transmit wire message).closed = m.closed := by
  unfold transmit
  split <;> rfl

@[simp] theorem schedulePump_closed (m : Multiplexer) : m.schedulePump.closed = m.closed := by
  unfold schedulePump
  split <;> rfl

theorem foldl_endChannel_closed (wire : Wire) (error : Option BrowserError)
    (entries : List (Nat × ChannelState)) (m : Multiplexer) : (entries.foldl (fun m entry =>
      m.endChannel wire entry.1 entry.2.ref error false) m).closed = m.closed := by
  induction entries generalizing m with
  | nil => rfl
  | cons e entries ih => exact (ih _).trans (endChannel_closed wire m e.1 e.2.ref error false).1

theorem close_closed (wire : Wire) (m : Multiplexer) (error : BrowserError) :
    (m.close wire error).closed = true :=
  foldl_endChannel_closed wire (some error) m.channels.entries { m with closed := true }

@[simp] theorem endChannel_closed' (wire : Wire) (m : Multiplexer) (tunnelId ref : Nat)
    (error : Option BrowserError) (notify : Bool) :
    (m.endChannel wire tunnelId ref error notify).closed = m.closed :=
  (endChannel_closed wire m tunnelId ref error notify).1

theorem create_closed (h : m.create tunnelId handlers opening = some created) :
    created.closed = m.closed := by
  obtain ⟨-, h⟩ := ite_none_left_eq_some.mp h
  exact some.inj h ▸ rfl

theorem pumpTurn_closed (wire : Wire) (m : Multiplexer) : (m.pumpTurn wire).closed = m.closed := by
  have hone : ∀ (turn : Multiplexer × Bool) (tunnelId : Nat),
      (pumpChannel wire turn tunnelId).1.closed = turn.1.closed := by
    intro turn tunnelId
    unfold pumpChannel
    dsimp only
    repeat' split
    all_goals simp [settle, setChannel]
  have hfold : ∀ (ids : List Nat) (turn : Multiplexer × Bool),
      (ids.foldl (pumpChannel wire) turn).1.closed = turn.1.closed := by
    intro ids
    induction ids with
    | nil => exact fun _ => rfl
    | cons tunnelId ids ih => exact fun turn => (ih _).trans (hone turn tunnelId)
  unfold pumpTurn
  dsimp only
  split
  · rw [schedulePump_closed, hfold]
  · rw [hfold]

theorem control_closed (wire : Wire) (m : Multiplexer) (value : RelayBrowserControl) :
    (m.control wire value).closed = m.closed := by
  unfold control
  split
  · rfl
  cases value with
  | channelOpen tunnelId instanceId =>
    show (m.controlOpen wire tunnelId).closed = m.closed
    unfold controlOpen
    split
    · rfl
    split
    · rfl
    split
    · simp
    next created hcreate =>
      have hclosed := create_closed hcreate
      exact hclosed
  | channelOpened tunnelId =>
    dsimp only [RelayBrowserControl.tunnelId]
    split
    · rfl
    unfold controlOpened
    split
    · simp [settle, setChannel]
    · rfl
  | windowUpdate tunnelId creditBytes =>
    dsimp only [RelayBrowserControl.tunnelId]
    split
    · rfl
    unfold controlWindowUpdate
    split
    · rfl
    · simp [setChannel]
  | channelError tunnelId errorCode =>
    dsimp only [RelayBrowserControl.tunnelId]
    split <;> simp
  | channelClose tunnelId =>
    dsimp only [RelayBrowserControl.tunnelId]
    split <;> simp
  | channelClosed tunnelId =>
    dsimp only [RelayBrowserControl.tunnelId]
    split <;> simp

theorem endOpening_closed {code : String}
    (h : m.endOpening wire tunnelId code = some m') : m'.closed = m.closed := by
  unfold endOpening at h
  split at h
  · cases h
  obtain ⟨-, hsome⟩ := ite_none_right_eq_some.mp h
  cases hsome
  simp

variable {move : Action × Wire}

theorem step_closed (h : step m move = some m') : m'.closed = m.closed ∨ m'.channels = .empty := by
  obtain ⟨action, wire⟩ := move
  cases action with
  | openChannel instanceId aborted =>
    cases h
    left
    unfold openChannel
    dsimp only
    split
    · rfl
    split
    · rfl
    next created hcreate =>
      have hclosed := create_closed hcreate
      split
      · simp [hclosed]
      · simp [hclosed]
  | abort tunnelId => exact .inl (endOpening_closed h)
  | openTimeout tunnelId => exact .inl (endOpening_closed h)
  | control value =>
    cases h
    exact .inl (control_closed wire m value)
  | acceptResolved call =>
    obtain ⟨-, hsome⟩ := ite_none_right_eq_some.mp h
    cases hsome
    unfold acceptResolved
    dsimp only
    repeat' split
    all_goals simp [setChannel]
  | acceptRejected call code =>
    obtain ⟨-, hsome⟩ := ite_none_right_eq_some.mp h
    cases hsome
    exact .inl (by simp [acceptRejected])
  | peerClosed tunnelId ref error =>
    cases h
    exact .inl (by simp)
  | data frame =>
    cases h
    unfold data
    repeat' split
    all_goals simp [setChannel, raise]
  | startDelivery tunnelId ref =>
    left
    simp only [step, startDelivery] at h
    repeat' split at h
    all_goals cases h
    rfl
  | finishDelivery tunnelId ref failed =>
    simp only [step, finishDelivery] at h
    repeat' split at h
    all_goals cases h
    all_goals simp [setChannel]
  | send tunnelId ref message =>
    cases h
    unfold send
    dsimp only
    repeat' split
    all_goals simp [setChannel, settle]
  | closeChannel tunnelId ref =>
    cases h
    exact .inl (by simp)
  | pump =>
    obtain ⟨-, hsome⟩ := ite_none_right_eq_some.mp h
    cases hsome
    exact .inl (pumpTurn_closed wire m)
  | close error =>
    cases h
    exact .inr (close_channels wire m error)

theorem live_of_empty (he : m.channels = .empty) (tunnelId ref : Nat) :
    m.live tunnelId ref = none := by
  simp [live, he]

theorem endChannel_of_empty (wire : Wire) (he : m.channels = .empty) (tunnelId ref : Nat)
    (error : Option BrowserError) (notify : Bool) :
    m.endChannel wire tunnelId ref error notify = m := by
  rw [endChannel, live_of_empty he]

theorem pumpTurn_of_empty (wire : Wire) (he : m.channels = .empty) :
    m.pumpTurn wire = { m with pumping := false } := by
  simp [pumpTurn, OrderedMap.keys, he, empty]

theorem step_of_closed (hc : m.closed = true) (he : m.channels = .empty)
    (h : step m move = some m') :
    m'.closed = true ∧ m'.channels = .empty ∧ (m'.pumping = true → m.pumping = true) := by
  obtain ⟨action, wire⟩ := move
  cases action with
  | openChannel instanceId aborted =>
    cases h
    simp [openChannel, settle, hc, he]
  | abort tunnelId => simp [step, endOpening, he] at h
  | openTimeout tunnelId => simp [step, endOpening, he] at h
  | control value =>
    cases h
    simp [control, hc, he]
  | acceptResolved call =>
    obtain ⟨-, hsome⟩ := ite_none_right_eq_some.mp h
    cases hsome
    simp [acceptResolved, live, hc, he]
  | acceptRejected call code =>
    obtain ⟨-, hsome⟩ := ite_none_right_eq_some.mp h
    cases hsome
    rw [acceptRejected, endChannel_of_empty]
    · exact ⟨hc, he, id⟩
    · exact he
  | peerClosed tunnelId ref error =>
    cases h
    rw [endChannel_of_empty wire he]
    exact ⟨hc, he, id⟩
  | data frame =>
    cases h
    simp [data, hc, he]
  | startDelivery tunnelId ref => simp [step, startDelivery, live_of_empty he] at h
  | finishDelivery tunnelId ref failed =>
    simp [step, finishDelivery, live_of_empty he] at h
  | send tunnelId ref message =>
    cases h
    simp [send, live, settle, hc, he]
  | closeChannel tunnelId ref =>
    cases h
    rw [endChannel_of_empty wire he]
    exact ⟨hc, he, id⟩
  | pump =>
    obtain ⟨-, hsome⟩ := ite_none_right_eq_some.mp h
    cases hsome
    rw [pumpTurn_of_empty wire he]
    exact ⟨hc, he, fun hfalse => (Bool.false_ne_true hfalse).elim⟩
  | close error =>
    cases h
    refine ⟨?_, close_channels wire m error, ?_⟩
    · simp [close, he, empty]
    · simp [close, he, empty]

theorem ClosedEmpty.step (h : m.ClosedEmpty) (hstep : m.step move = some m') : m'.ClosedEmpty := by
  intro hclosed
  cases hc : m.closed with
  | true => exact (step_of_closed hc (h hc) hstep).2.1
  | false =>
    rcases step_closed hstep with hsame | hempty
    · rw [hsame, hc] at hclosed
      cases hclosed
    · exact hempty

/-! ## Runs -/

/-- The ids `open` draws are free; a draw of a live id would replace its channel. -/
def DrawsFreeId (m : Multiplexer) (move : Action × Wire) : Prop :=
  match move.1 with
  | .openChannel _ _ => m.channels.get? (m.nextId + 1) = none
  | _ => True

theorem Counted.step (h : m.Counted) (hstep : m.step move = some m')
    (hfree : m.DrawsFreeId move) : m'.Counted := by
  obtain ⟨action, wire⟩ := move
  have hopening : ∀ tunnelId code, m.endOpening wire tunnelId code = some m' → m'.Counted := by
    intro tunnelId code hend
    unfold endOpening at hend
    split at hend
    · cases hend
    obtain ⟨-, hsome⟩ := ite_none_right_eq_some.mp hend
    cases hsome
    exact h.endChannel wire _ _ _ _
  cases action with
  | openChannel instanceId aborted =>
    cases hstep
    exact h.openChannel wire instanceId aborted hfree
  | abort tunnelId => exact hopening _ _ hstep
  | openTimeout tunnelId => exact hopening _ _ hstep
  | control value =>
    cases hstep
    exact h.control wire value
  | acceptResolved call =>
    obtain ⟨hcall, hsome⟩ := ite_none_right_eq_some.mp hstep
    cases hsome
    exact h.acceptResolved wire hcall
  | acceptRejected call code =>
    obtain ⟨-, hsome⟩ := ite_none_right_eq_some.mp hstep
    cases hsome
    exact h.acceptRejected wire call code
  | peerClosed tunnelId ref error =>
    cases hstep
    exact h.endChannel wire _ _ _ _
  | data frame =>
    cases hstep
    exact h.data wire frame
  | startDelivery tunnelId ref => exact h.startDelivery hstep
  | finishDelivery tunnelId ref failed => exact h.finishDelivery hstep
  | send tunnelId ref message =>
    cases hstep
    exact h.send wire tunnelId ref message
  | closeChannel tunnelId ref =>
    cases hstep
    exact h.endChannel wire _ _ _ _
  | pump =>
    obtain ⟨-, hsome⟩ := ite_none_right_eq_some.mp hstep
    cases hsome
    exact h.pumpTurn wire
  | close error =>
    cases hstep
    exact h.close wire error

instance (m : Multiplexer) (move : Action × Wire) : Decidable (m.DrawsFreeId move) :=
  match move with
  | (.openChannel _ _, _) => inferInstanceAs (Decidable (m.channels.get? (m.nextId + 1) = none))
  | (.abort _, _) | (.openTimeout _, _) | (.control _, _) | (.acceptResolved _, _)
  | (.acceptRejected _ _, _) | (.peerClosed _ _ _, _) | (.data _, _) | (.startDelivery _ _, _)
  | (.finishDelivery _ _ _, _) | (.send _ _ _, _) | (.closeChannel _ _, _) | (.pump, _)
  | (.close _, _) => inferInstanceAs (Decidable True)

section

variable (hrun : run step (init accepts) moves = some m)

include hrun

theorem run_counted
    (hfree : AllSteps step DrawsFreeId (init accepts) moves) : m.Counted :=
  run_invariant_of_steps (fun _ _ _ hstep hdraw h => h.step hstep hdraw) hrun hfree
    (init_counted accepts)

theorem run_closedEmpty : m.ClosedEmpty :=
  run_invariant (fun _ _ _ hstep h => ClosedEmpty.step h hstep) hrun
    (fun hclosed => (Bool.false_ne_true hclosed).elim)

end

/-- Every promise that was returned has settled once or waits in a live channel, every peer
that was accepted has been closed once or is held by its live channel, and a closed
multiplexer has no channel; a pump that is still scheduled sends nothing, and no other
follows. -/
theorem settles_once {accepts : Bool} {moves : List (Action × Wire)} {m : Multiplexer}
    (hrun : run step (init accepts) moves = some m)
    (hfree : AllSteps step DrawsFreeId (init accepts) moves) :
    (∀ p < m.promises, (p ∈ m.waiting → m.settledPromises.count p = 0) ∧
      (p ∉ m.waiting → m.settledPromises.count p = 1)) ∧
    (∀ r ∈ m.peers, (r ∈ m.held → m.peersClosed.count r = 0) ∧
      (r ∉ m.held → m.peersClosed.count r = 1)) ∧
    (m.closed = true → m.channels = .empty ∧ m.waiting = [] ∧ m.held = [] ∧
      (∀ wire, m.pumpTurn wire = { m with pumping := false }) ∧
      ∀ move m', step m move = some m' →
        m'.closed = true ∧ m'.channels = .empty ∧ (m'.pumping = true → m.pumping = true)) := by
  have hcounted := run_counted hrun hfree
  have hempty := run_closedEmpty hrun
  refine ⟨?_, ?_, ?_⟩
  · intro p hp
    have hcount := hcounted.promises p
    have hone : (range m.promises).count p = 1 :=
      count_eq_one_of_mem nodup_range (mem_range.mpr hp)
    constructor
    · intro hin
      have hpos := count_pos_iff.mpr hin
      omega
    intro hout
    have hzero := count_eq_zero_of_not_mem hout
    omega
  · intro r hr
    have hcount := hcounted.peers r
    have hone : m.peers.count r = 1 := count_eq_one_of_mem (nodup_append.mp hcounted.refs).2.1 hr
    constructor
    · intro hin
      have hpos := count_pos_iff.mpr hin
      omega
    intro hout
    have hzero := count_eq_zero_of_not_mem hout
    omega
  · intro hclosed
    have hchannels := hempty hclosed
    refine ⟨hchannels, ?_, ?_, fun wire => pumpTurn_of_empty wire hchannels,
      fun move m' hstep => step_of_closed hclosed hchannels hstep⟩
    · simp [waiting, hchannels, values, empty]
    · simp [held, hchannels, values, empty]

/-- A wire that takes everything. -/
def openWire : Wire := fun _ => none

/-- A channel is opened, two frames are queued and one is sent; then the multiplexer closes. -/
def exampleMoves : List (Action × Wire) :=
  [(.openChannel "instance" false, openWire), (.control (.channelOpened 1), openWire),
    (.send 1 0 ⟨[1], true⟩, openWire), (.send 1 0 ⟨[2], true⟩, openWire), (.pump, openWire),
    (.close (browserChannelError "BROWSER_CHANNEL_CLOSED"), openWire)]

/-- The example run: all three promises have settled once. -/
theorem settles_once_example : ∃ m, run step (init false) exampleMoves = some m ∧ m.promises = 3 ∧
      m.closed = true ∧ ∀ p < 3, m.settledPromises.count p = 1 := by
  cases hrun : run step (init false) exampleMoves with
  | none => exact absurd hrun (by decide)
  | some m =>
    have h := settles_once hrun (by decide)
    have hfacts : (run step (init false) exampleMoves).map
        (fun m => (m.promises, m.closed)) = some (3, true) := by decide
    rw [hrun] at hfacts
    obtain ⟨hpromises, hclosed⟩ := Prod.mk.inj (some.inj hfacts)
    refine ⟨m, rfl, hpromises, hclosed, fun p hp => ?_⟩
    have hwaiting := (h.2.2 hclosed).2.1
    exact (h.1 p (hpromises ▸ hp)).2 (by simp [hwaiting])

/-- An accepted channel with a queued frame, and an `open` that draws its id. -/
def collidingMoves : List (Action × Wire) :=
  [(.control (.channelOpen 1 "instance"), openWire), (.acceptResolved ⟨0, 1⟩, openWire),
    (.send 1 0 ⟨[1], true⟩, openWire), (.openChannel "instance" false, openWire),
    (.close (browserChannelError "BROWSER_CHANNEL_CLOSED"), openWire)]

/-- A scheduled pump outlives `close`; and an `open` that draws the id of an accepted channel
leaves a promise that never settled and a peer that was never closed. -/
theorem settlement_fails : (run step (init false) (exampleMoves.take 3 ++ exampleMoves.drop 5)).map
        (fun m => (m.closed, m.pumping)) = some (true, true) ∧
      (run step (init true) collidingMoves).map
        (fun m => (m.closed, m.promises, m.settledPromises, m.peers, m.peersClosed)) =
          some (true, 2, [1], [0], []) := by
  decide

end Multiplexer

end TaskHandoff.Browser
