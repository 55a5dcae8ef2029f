import TaskHandoff.AiSessions.Aggregator
import Mathlib

/-! # Replaying the aggregator's deltas

The history of an instance is a suffix of what the aggregator applied for it,
up to entries that have expired, and each applied event continues the projection
before it or replaces it. So a delta replays whenever its own pruning pass keeps
a suffix: the pass reads the clock for every entry, and a tick in the middle can
expire an entry after an earlier one was kept.
-/

namespace TaskHandoff.AiSessions

open Machine List Nat

variable {δ : Type}

/-- A remembered event and the projection it gave. -/
abbrev Applied (δ : Type) : Type := AiSessionHistoryEntry δ × AiSessionsState δ

theorem filter_suffix {α : Type} {p : α → Bool} {l : List α}
    (h : l.Pairwise fun a b => p a = true → p b = true) : l.filter p <:+ l := by
  induction l with
  | nil => exact suffix_refl _
  | cons a l ih =>
    obtain ⟨hlater, hrest⟩ := pairwise_cons.mp h
    by_cases ha : p a = true
    · have hall : l.filter p = l := filter_eq_self.mpr fun b hb => hlater b hb ha
      have hsame : (a :: l).filter p = a :: l := by rw [filter_cons_of_pos ha, hall]
      exact ⟨[], hsame⟩
    · rw [filter_cons_of_neg ha]
      exact (ih hrest).trans (suffix_cons a l)

/-! ## Linked logs -/

/-- Each event of the log applied to the projection before it, unless it is a
snapshot, which may have applied to any. -/
def Linked : Option (AiSessionsState δ) → List (Applied δ) → Prop
  | _, [] => True
  | previous, a :: log =>
    (∃ base, (base = previous ∨ ∃ snapshot, a.1.event.change = .snapshot snapshot) ∧
      applyAiSessionStreamEvent base a.1.event = .applied a.2) ∧ Linked (some a.2) log

def lastProjection (previous : Option (AiSessionsState δ)) (log : List (Applied δ)) :
    Option (AiSessionsState δ) :=
  log.foldl (fun _ a => some a.2) previous

/-- One stream, with growing revisions. -/
def Epoch (log : List (Applied δ)) : Prop :=
  log.Pairwise fun a b => a.2.streamId = b.2.streamId ∧ a.2.revision < b.2.revision

def eventsOf (log : List (Applied δ)) : List (AiSessionStreamEvent δ) :=
  log.map fun a => a.1.event

theorem lastProjection_append (previous : Option (AiSessionsState δ)) (log log' : List (Applied δ)) :
    lastProjection previous (log ++ log') = lastProjection (lastProjection previous log) log' := by
  simp [lastProjection]

variable {previous : Option (AiSessionsState δ)} {revision : Nat} {streamId : String}
  {log' : List (Applied δ)}

theorem linked_append {log log' : List (Applied δ)} : Linked previous (log ++ log') ↔
      Linked previous log ∧ Linked (lastProjection previous log) log' := by
  induction log generalizing previous with
  | nil => simp [Linked, lastProjection]
  | cons a log ih =>
    simp only [cons_append, Linked, ih, and_assoc]
    rfl

variable {held : AiSessionsState δ} {log : List (Applied δ)}

/-- Folding the events of a linked log over the projection before it meets no
gap and ends where the log ends. -/
theorem Linked.replay (h : Linked (some held) log)
    (hnewer : ∀ a ∈ log, held.streamId = a.2.streamId ∧ held.revision < a.2.revision)
    (hepoch : Epoch log) : GapFree (some held) (eventsOf log) ∧
      foldEvents (some held) (eventsOf log) = lastProjection (some held) log := by
  induction log generalizing held with
  | nil => exact ⟨trivial, rfl⟩
  | cons a log ih =>
    obtain ⟨⟨base, hbase, happlied⟩, hrest⟩ := h
    obtain ⟨hfirst, htail⟩ := pairwise_cons.mp hepoch
    have hstep : applyAiSessionStreamEvent (some held) a.1.event = .applied a.2 := by
      rcases hbase with rfl | ⟨snapshot, hsnapshot⟩
      · exact happlied
      refine applied_snapshot happlied hsnapshot ?_
      rw [← (applied_meta happlied).2]
      exact (hnewer a mem_cons_self).2
    obtain ⟨hgap, hfold⟩ := ih hrest hfirst htail
    refine ⟨⟨by rw [hstep]; rfl, by rw [hstep]; exact hgap⟩, ?_⟩
    show foldEvents (applyAiSessionStreamEvent (some held) a.1.event).projection _ = _
    rw [hstep]
    exact hfold

theorem Epoch.newest {log kept : List (Applied δ)} (h : Epoch kept) (hsuffix : kept <:+ log)
    (hheld : lastProjection none log = some held) :
    ∀ a ∈ kept, a.2.streamId = held.streamId ∧ a.2.revision ≤ held.revision := by
  intro a ha
  obtain ⟨before, rfl⟩ := hsuffix
  rcases eq_nil_or_concat kept with rfl | ⟨front, last, rfl⟩
  · cases ha
  rw [concat_eq_append] at ha h hheld
  have hlast : last.2 = held := by
    rw [← append_assoc, lastProjection_append] at hheld
    exact Option.some.inj hheld
  rcases mem_concat.mp ha with ha | rfl
  · obtain ⟨hstream, hlt⟩ := (pairwise_append.mp h).2.2 a ha last mem_cons_self
    rw [← hlast]
    exact ⟨hstream, le_of_lt hlt⟩
  · rw [hlast]
    exact ⟨rfl, le_refl _⟩

/-- The projection a log last held at a revision of a stream. -/
def lastHeld (log : List (Applied δ)) (streamId : String) (revision : Nat) :
    Option (AiSessionsState δ) :=
  ((log.filter fun a => a.2.streamId = streamId ∧ a.2.revision = revision).getLast?).map Prod.snd

theorem lastHeld_append_newer (h : ∀ a ∈ log', revision < a.2.revision) :
    lastHeld (log ++ log') streamId revision = lastHeld log streamId revision := by
  have hnone : log'.filter (fun a => decide (a.2.streamId = streamId ∧ a.2.revision = revision)) =
      [] := by
    refine filter_eq_nil_iff.mpr fun a ha => ?_
    have hlt := h a ha
    simp only [decide_eq_true_eq, not_and]
    omega
  unfold lastHeld
  rw [filter_append, hnone, append_nil]

theorem lastHeld_of_lastProjection (h : lastProjection none log = some held) :
    lastHeld log held.streamId held.revision = some held := by
  rcases eq_nil_or_concat log with rfl | ⟨front, a, rfl⟩
  · cases h
  have ha : a.2 = held := by
    rw [concat_eq_append, lastProjection_append] at h
    exact Option.some.inj h
  unfold lastHeld
  simp [filter_append, ha]

theorem lastHeld_meta (h : lastHeld log streamId revision = some held) :
    held.streamId = streamId ∧ held.revision = revision := by
  obtain ⟨a, ha, rfl⟩ := Option.map_eq_some_iff.mp h
  have hmem := (mem_filter.mp (mem_of_getLast? ha)).2
  simpa using hmem

theorem Linked.replay_suffix {log suffix : List (Applied δ)} (h : Linked none log)
    (hsuffix : suffix <:+ log) (hepoch : Epoch suffix) {first : Applied δ}
    (hfirst : suffix.head? = some first) {base : AiSessionsState δ}
    (hbase : lastHeld log first.2.streamId base.revision = some base)
    (hnext : first.2.revision = base.revision + 1) : GapFree (some base) (eventsOf suffix) ∧
      foldEvents (some base) (eventsOf suffix) = lastProjection none log := by
  obtain ⟨front, rfl⟩ := hsuffix
  cases suffix with
  | nil => cases hfirst
  | cons a rest =>
    obtain rfl := Option.some.inj hfirst
    obtain ⟨hlater, htail⟩ := pairwise_cons.mp hepoch
    obtain ⟨hstream, -⟩ := lastHeld_meta hbase
    have hnewer : ∀ b ∈ a :: rest, base.streamId = b.2.streamId ∧ base.revision < b.2.revision := by
      intro b hb
      rcases mem_cons.mp hb with rfl | hb
      · exact ⟨hstream, by omega⟩
      · obtain ⟨hsame, hlt⟩ := hlater b hb
        exact ⟨hstream.trans hsame, by omega⟩
    obtain ⟨-, ⟨prior, hprior, happlied⟩, hrest⟩ := linked_append.mp h
    have hlinked : Linked (some base) (a :: rest) := by
      rcases hprior with rfl | ⟨snapshot, hsnapshot⟩
      · by_cases hpatch : ∀ snapshot, a.1.event.change ≠ .snapshot snapshot
        · -- What a patch continued is the projection the log last held at that revision.
          obtain ⟨held, hheld, hheldStream, hheldNext⟩ := applied_continues happlied hpatch
          obtain ⟨hmetaStream, hmetaRevision⟩ := applied_meta happlied
          have hrevision : held.revision = base.revision := by omega
          have hlast := lastHeld_of_lastProjection hheld
          rw [lastHeld_append_newer fun b hb => (hnewer b hb).2] at hbase
          rw [hheldStream, ← hmetaStream, hrevision, hbase] at hlast
          cases hlast
          exact ⟨⟨some base, Or.inl rfl, hheld ▸ happlied⟩, hrest⟩
        · obtain ⟨snapshot, hsnapshot⟩ := not_forall.mp hpatch
          exact ⟨⟨_, Or.inr ⟨snapshot, not_not.mp hsnapshot⟩, happlied⟩, hrest⟩
      · exact ⟨⟨prior, Or.inr ⟨snapshot, hsnapshot⟩, happlied⟩, hrest⟩
    obtain ⟨hgap, hfold⟩ := hlinked.replay hnewer hepoch
    refine ⟨hgap, hfold.trans ?_⟩
    rw [lastProjection_append]
    rfl

theorem Linked.meta_eq (h : Linked previous log) {a : Applied δ} (ha : a ∈ log) :
    a.2.streamId = a.1.event.eventMeta.streamId ∧ a.2.revision = a.1.event.eventMeta.revision := by
  induction log generalizing previous with
  | nil => cases ha
  | cons b log ih =>
    obtain ⟨⟨base, -, happlied⟩, hrest⟩ := h
    rcases mem_cons.mp ha with rfl | ha
    · exact applied_meta happlied
    · exact ih hrest ha

/-! ## Pruning passes -/

namespace AiSessionAggregator

/-- The entries that have not expired at one moment. -/
def unexpired (now : Int) (events : List (AiSessionHistoryEntry δ)) :
    List (AiSessionHistoryEntry δ) :=
  events.filter fun entry => now - AI_SESSION_DELTA_RETENTION_MS ≤ entry.createdAtMs

def newerThan (sinceRevision : Nat) (events : List (AiSessionHistoryEntry δ)) :
    List (AiSessionHistoryEntry δ) :=
  events.filter fun entry => sinceRevision < entry.event.eventMeta.revision

/-- The pass keeps every entry after one that it keeps and that is newer than
the revision. -/
def SteadyPass (clock : Nat → Int) (ticks : Nat) (sinceRevision : Nat)
    (events : List (AiSessionHistoryEntry δ)) : Prop :=
  (events.zipIdx ticks).Pairwise fun a b =>
    sinceRevision < a.1.event.eventMeta.revision → fresh clock a = true → fresh clock b = true

instance (clock : Nat → Int) (ticks sinceRevision : Nat) (events : List (AiSessionHistoryEntry δ)) :
    Decidable (SteadyPass clock ticks sinceRevision events) :=
  inferInstanceAs (Decidable (List.Pairwise _ _))

theorem retained_cons (clock : Nat → Int) (ticks : Nat) (entry : AiSessionHistoryEntry δ)
    (events : List (AiSessionHistoryEntry δ)) : retained clock ticks (entry :: events) =
      if clock ticks - AI_SESSION_DELTA_RETENTION_MS ≤ entry.createdAtMs then
        entry :: retained clock (ticks + 1) events
      else retained clock (ticks + 1) events := by
  unfold retained
  by_cases hfresh : clock ticks - AI_SESSION_DELTA_RETENTION_MS ≤ entry.createdAtMs
  · simp [fresh, hfresh]
  · simp [fresh, hfresh]

theorem retained_sublist (clock : Nat → Int) (ticks : Nat)
    (events : List (AiSessionHistoryEntry δ)) : (retained clock ticks events).Sublist events := by
  induction events generalizing ticks with
  | nil => exact List.Sublist.refl _
  | cons entry events ih =>
    rw [retained_cons]
    split
    · exact (ih _).cons_cons entry
    · exact (ih _).cons entry

variable {clock : Nat → Int} {events : List (AiSessionHistoryEntry δ)}

variable {ticks : Nat}

theorem unexpired_retained {now : Int} (h : ∀ k < ticks + events.length, clock k ≤ now) :
    unexpired now (retained clock ticks events) = unexpired now events := by
  induction events generalizing ticks with
  | nil => rfl
  | cons entry events ih =>
    have hrest := @ih (ticks + 1) fun k hk => h k (by rw [length_cons]; omega)
    have hnow := h ticks (by rw [length_cons]; omega)
    unfold unexpired at hrest ⊢
    rw [retained_cons]
    split
    · rw [filter_cons, filter_cons, hrest]
    · next hstale => rw [filter_cons_of_neg (by simp only [decide_eq_true_eq]; omega), hrest]

theorem retained_of_fresh (hclock : Monotone clock) {ticks tick : Nat} (hle : ticks ≤ tick)
    (h : ∀ a ∈ events.zipIdx tick, fresh clock a = true) :
    retained clock tick events = events ∧ unexpired (clock ticks) events = events := by
  induction events generalizing tick with
  | nil => exact ⟨rfl, rfl⟩
  | cons entry events ih =>
    have hentry : clock tick - AI_SESSION_DELTA_RETENTION_MS ≤ entry.createdAtMs := by
      simpa [fresh] using h (entry, tick) mem_cons_self
    have hmono := hclock hle
    obtain ⟨hretained, hunexpired⟩ := ih (le_succ_of_le hle) fun a ha => h a (mem_cons_of_mem _ ha)
    refine ⟨?_, ?_⟩
    · rw [retained_cons, if_pos hentry, hretained]
    · unfold unexpired at hunexpired ⊢
      rw [filter_cons_of_pos (by simp only [decide_eq_true_eq]; omega), hunexpired]

variable {sinceRevision : Nat}

theorem newerThan_retained (hclock : Monotone clock)
    (h : SteadyPass clock ticks sinceRevision events)
    (hne : newerThan sinceRevision (retained clock ticks events) ≠ []) :
    ∃ tick, ticks ≤ tick ∧ newerThan sinceRevision (retained clock ticks events) =
      newerThan sinceRevision (unexpired (clock tick) events) := by
  induction events generalizing ticks with
  | nil => exact (hne rfl).elim
  | cons entry events ih =>
    unfold SteadyPass at h
    rw [zipIdx_cons, pairwise_cons] at h
    obtain ⟨hsteady, hrest⟩ := h
    by_cases hnewer : sinceRevision < entry.event.eventMeta.revision
    · by_cases hfresh : clock ticks - AI_SESSION_DELTA_RETENTION_MS ≤ entry.createdAtMs
      · -- The first entry kept: everything after it is kept, and unexpired at its reading.
        obtain ⟨hretained, hunexpired⟩ := retained_of_fresh hclock (le_succ ticks)
          fun a ha => hsteady a ha hnewer (by simpa [fresh] using hfresh)
        refine ⟨ticks, le_refl _, ?_⟩
        rw [retained_cons, if_pos hfresh, hretained]
        unfold unexpired at hunexpired ⊢
        rw [filter_cons_of_pos (by simpa using hfresh), hunexpired]
      · rw [retained_cons, if_neg hfresh] at hne ⊢
        obtain ⟨tick, hle, heq⟩ := ih hrest hne
        have hmono := hclock (le_of_succ_le hle)
        refine ⟨tick, le_of_succ_le hle, ?_⟩
        rw [heq]
        unfold unexpired
        rw [filter_cons_of_neg (by simp only [decide_eq_true_eq]; omega)]
    · have hskip : ∀ later, newerThan sinceRevision (entry :: later) =
          newerThan sinceRevision later := by
        intro later
        exact filter_cons_of_neg (by simpa using hnewer)
      have hsame : newerThan sinceRevision (retained clock ticks (entry :: events)) =
          newerThan sinceRevision (retained clock (ticks + 1) events) := by
        rw [retained_cons]
        split
        · exact hskip _
        · rfl
      rw [hsame] at hne ⊢
      obtain ⟨tick, hle, heq⟩ := ih hrest hne
      refine ⟨tick, le_of_succ_le hle, ?_⟩
      rw [heq]
      unfold unexpired
      rw [filter_cons]
      split
      · exact (hskip _).symm
      · rfl

/-! ## What the history retains -/

/-- The log, the projection and the history of one instance after so many clock
readings: the history is the entries of a suffix of the log, less some that have
expired at every reading to come. -/
structure Retains (clock : Nat → Int) (ticks : Nat) (events : List (AiSessionHistoryEntry δ))
    (log : List (Applied δ)) (projection : Option (AiSessionsState δ)) : Prop where
  linked : Linked none log
  current : ∀ held ∈ projection, lastProjection none log = some held
  suffix : ∃ kept, kept <:+ log ∧ Epoch kept ∧
    kept.Pairwise (fun a b => a.1.createdAtMs ≤ b.1.createdAtMs) ∧
    (∀ a ∈ kept, ∃ tick < ticks, a.1.createdAtMs = clock tick) ∧
    events.Sublist (kept.map Prod.fst) ∧
    (∀ now, (∀ tick < ticks, clock tick ≤ now) →
      unexpired now events = unexpired now (kept.map Prod.fst)) ∧
    (kept ≠ [] → projection.isSome)

theorem retains_empty (clock : Nat → Int) (ticks : Nat)
    (h : Linked none log) : Retains clock ticks [] log none :=
  ⟨h, by simp, [], nil_suffix, List.Pairwise.nil, List.Pairwise.nil, by simp,
    List.Sublist.refl _, fun _ _ => rfl, fun hne => (hne rfl).elim⟩

section

variable {clock : Nat → Int} {ticks : Nat} {events : List (AiSessionHistoryEntry δ)}
  {log : List (Applied δ)} {projection : Option (AiSessionsState δ)}

section

variable (h : Retains clock ticks events log projection)

include h

theorem Retains.later {ticks' : Nat}
    (hle : ticks ≤ ticks') : Retains clock ticks' events log projection := by
  obtain ⟨hlinked, hcurrent, kept, hsuffix, hepoch, hsorted, hread, hsub, hexpired, hsome⟩ := h
  refine ⟨hlinked, hcurrent, kept, hsuffix, hepoch, hsorted, ?_, hsub, ?_, hsome⟩
  · intro a ha
    obtain ⟨tick, hlt, heq⟩ := hread a ha
    exact ⟨tick, lt_of_lt_of_le hlt hle, heq⟩
  · exact fun now hnow => hexpired now fun tick hlt => hnow tick (lt_of_lt_of_le hlt hle)

theorem Retains.pruned :
    Retains clock (ticks + events.length) (retained clock ticks events) log projection := by
  obtain ⟨hlinked, hcurrent, kept, hsuffix, hepoch, hsorted, hread, hsub, hexpired, hsome⟩ :=
    h.later (le_add_right ticks events.length)
  refine ⟨hlinked, hcurrent, kept, hsuffix, hepoch, hsorted, hread,
    (retained_sublist clock ticks events).trans hsub, ?_, hsome⟩
  intro now hnow
  rw [unexpired_retained hnow, hexpired now hnow]

theorem Retains.removed : Retains clock ticks [] log none := retains_empty clock ticks h.linked

end

variable {event : AiSessionStreamEvent δ}

theorem Retains.remember (hclock : Monotone clock) (h : Retains clock ticks events log projection)
    {next : AiSessionsState δ}
    (happlied : applyAiSessionStreamEvent projection event = .applied next) :
    Retains clock (ticks + 1) (sameStream events event ++ [⟨event, clock ticks⟩])
      (log ++ [(⟨event, clock ticks⟩, next)]) (some next) := by
  obtain ⟨hlinked, hcurrent, kept, hsuffix, hepoch, hsorted, hread, hsub, hexpired, hsome⟩ := h
  obtain ⟨hstream, hrevision⟩ := applied_meta happlied
  have hlinkedNext : Linked none (log ++ [(⟨event, clock ticks⟩, next)]) := by
    refine linked_append.mpr ⟨hlinked, ⟨projection, ?_, happlied⟩, trivial⟩
    cases hprojection : projection with
    | some held => exact Or.inl (hcurrent held hprojection).symm
    | none =>
      -- Without a projection only a snapshot applies.
      by_cases hpatch : ∀ snapshot, event.change ≠ .snapshot snapshot
      · obtain ⟨held, hheld, -⟩ := applied_continues happlied hpatch
        rw [hprojection] at hheld
        cases hheld
      · obtain ⟨snapshot, hsnapshot⟩ := not_forall.mp hpatch
        exact Or.inr ⟨snapshot, not_not.mp hsnapshot⟩
  have hcurrentNext : ∀ held ∈ some next,
      lastProjection none (log ++ [(⟨event, clock ticks⟩, next)]) = some held := by
    intro held hheld
    rw [lastProjection_append]
    exact hheld
  -- Either the kept suffix grows, or it starts anew with this event.
  have hanew : sameStream events event = [] →
      Retains clock (ticks + 1) (sameStream events event ++ [⟨event, clock ticks⟩])
        (log ++ [(⟨event, clock ticks⟩, next)]) (some next) := by
    intro hempty
    refine ⟨hlinkedNext, hcurrentNext, [(⟨event, clock ticks⟩, next)], suffix_append _ _,
      pairwise_singleton _ _, pairwise_singleton _ _, ?_, ?_, ?_, fun _ => rfl⟩
    · intro a ha
      rw [mem_singleton.mp ha]
      exact ⟨ticks, lt_succ_self ticks, rfl⟩
    · rw [hempty]
      exact List.Sublist.refl _
    · intro now _
      rw [hempty]
      rfl
  cases hevents : events with
  | nil => exact hevents ▸ hanew (by rw [hevents]; rfl)
  | cons first rest =>
    by_cases hsame : first.event.eventMeta.streamId = event.eventMeta.streamId
    swap
    · refine hevents ▸ hanew ?_
      rw [hevents]
      exact if_pos hsame
    have hkeep : sameStream events event = events := by
      rw [hevents]
      exact if_neg (not_not.mpr hsame)
    rw [← hevents, hkeep]
    have hne : kept ≠ [] := by
      rintro rfl
      rw [hevents] at hsub
      cases hsub
    obtain ⟨held, hheld⟩ := Option.isSome_iff_exists.mp (hsome hne)
    have hall := hepoch.newest hsuffix (hcurrent held hheld)
    have hmem : first ∈ kept.map Prod.fst := hsub.subset (by rw [hevents]; simp)
    obtain ⟨a, ha, rfl⟩ := mem_map.mp hmem
    have haStream : a.2.streamId = event.eventMeta.streamId :=
      ((hlinked.meta_eq (hsuffix.subset ha)).1).trans hsame
    have hheldStream : held.streamId = event.eventMeta.streamId :=
      (hall a ha).1.symm.trans haStream
    have hlt : held.revision < event.eventMeta.revision :=
      applied_lt (hheld ▸ happlied) hheldStream
    refine ⟨hlinkedNext, hcurrentNext, kept ++ [(⟨event, clock ticks⟩, next)], ?_, ?_, ?_, ?_,
      ?_, ?_, fun _ => rfl⟩
    · obtain ⟨before, hlog⟩ := hsuffix
      exact ⟨before, by rw [← hlog, append_assoc]⟩
    · refine pairwise_append.mpr ⟨hepoch, pairwise_singleton _ _, ?_⟩
      intro b hb c hc
      rw [mem_singleton.mp hc]
      obtain ⟨hs, hr⟩ := hall b hb
      rw [hstream, hrevision]
      exact ⟨hs.trans hheldStream, by omega⟩
    · refine pairwise_append.mpr ⟨hsorted, pairwise_singleton _ _, ?_⟩
      intro b hb c hc
      rw [mem_singleton.mp hc]
      obtain ⟨tick, htick, hcreated⟩ := hread b hb
      rw [hcreated]
      exact hclock (le_of_lt htick)
    · intro b hb
      rcases mem_concat.mp hb with hb | rfl
      · obtain ⟨tick, htick, hcreated⟩ := hread b hb
        exact ⟨tick, lt_succ_of_lt htick, hcreated⟩
      · exact ⟨ticks, lt_succ_self ticks, rfl⟩
    · rw [map_append]
      exact hsub.append (List.Sublist.refl _)
    · intro now hnow
      have hbefore := hexpired now fun tick htick => hnow tick (lt_succ_of_lt htick)
      unfold unexpired at hbefore ⊢
      rw [map_append, filter_append, filter_append, hbefore]
      rfl

end

/-! ## Every state of the aggregator -/

/-- What the aggregator applied for an instance. -/
def logOf (w : AiSessionAggregator δ) (instanceId : String) : List (Applied δ) :=
  w.log.filter fun a => a.1.event.eventMeta.instanceId = instanceId

def Inv (clock : Nat → Int) (w : AiSessionAggregator δ) : Prop :=
  ∀ instanceId, Retains clock w.ticks (w.historyOf instanceId) (w.logOf instanceId)
    (w.projectionOf instanceId)

variable {clock : Nat → Int} {w : AiSessionAggregator δ}

theorem init_inv (clock : Nat → Int) (canRecover : Bool) :
    Inv clock ({ canRecover := canRecover } : AiSessionAggregator δ) :=
  fun _ => retains_empty clock 0 trivial

theorem historyOf_pruneHistory (clock : Nat → Int) (w : AiSessionAggregator δ)
    (instanceId j : String) : (pruneHistory clock w instanceId).historyOf j =
      if j = instanceId then retained clock w.ticks (w.historyOf instanceId)
      else w.historyOf j := by
  unfold pruneHistory
  cases hevents : w.historyOf instanceId with
  | nil =>
    by_cases hj : j = instanceId
    · rw [if_pos hj, hj]
      exact hevents
    · rw [if_neg hj]
  | cons first rest =>
    simp only [historyOf]
    by_cases hempty : (retained clock w.ticks (first :: rest)).isEmpty = true
    · rw [if_pos hempty, OrderedMap.get?_erase]
      split
      · rw [isEmpty_iff.mp hempty]
        rfl
      · rfl
    · rw [if_neg hempty, OrderedMap.get?_set]
      split <;> rfl

theorem ticks_pruneHistory (clock : Nat → Int) (w : AiSessionAggregator δ) (instanceId : String) :
    (pruneHistory clock w instanceId).ticks = w.ticks + (w.historyOf instanceId).length := by
  unfold pruneHistory
  cases hevents : w.historyOf instanceId with
  | nil => rfl
  | cons first rest => rfl

theorem frame_pruneHistory (clock : Nat → Int) (w : AiSessionAggregator δ) (instanceId : String) :
    (pruneHistory clock w instanceId).snapshots = w.snapshots ∧
      (pruneHistory clock w instanceId).log = w.log := by
  unfold pruneHistory
  split
  · exact ⟨rfl, rfl⟩
  · exact ⟨rfl, rfl⟩

theorem Inv.prune (h : Inv clock w) (instanceId : String) :
    Inv clock (pruneHistory clock w instanceId) := by
  obtain ⟨hsnapshots, hlog⟩ := frame_pruneHistory clock w instanceId
  intro j
  rw [historyOf_pruneHistory, ticks_pruneHistory]
  unfold projectionOf logOf
  rw [hsnapshots, hlog]
  by_cases hj : j = instanceId
  · rw [if_pos hj, hj]
    exact (h instanceId).pruned
  · rw [if_neg hj]
    exact (h j).later (le_add_right _ _)

theorem Inv.store (hclock : Monotone clock) (h : Inv clock w) {projection : AiSessionsState δ}
    (happlied : applyAiSessionStreamEvent (w.projectionOf event.eventMeta.instanceId) event =
      .applied projection) : Inv clock (store clock w event projection) := by
  refine Inv.prune ?_ _
  intro j
  unfold historyOf projectionOf logOf
  simp only [OrderedMap.get?_set]
  by_cases hj : j = event.eventMeta.instanceId
  · subst hj
    have hlog : (w.log ++ [((⟨event, clock w.ticks⟩ : AiSessionHistoryEntry δ), projection)]).filter
        (fun a => decide (a.1.event.eventMeta.instanceId = event.eventMeta.instanceId)) =
        w.logOf event.eventMeta.instanceId ++ [(⟨event, clock w.ticks⟩, projection)] := by
      rw [filter_append, filter_cons_of_pos (by simp)]
      rfl
    rw [if_pos rfl, if_pos rfl, hlog]
    exact (h event.eventMeta.instanceId).remember hclock happlied
  · have hlog : (w.log ++ [((⟨event, clock w.ticks⟩ : AiSessionHistoryEntry δ), projection)]).filter
        (fun a => decide (a.1.event.eventMeta.instanceId = j)) = w.logOf j := by
      rw [filter_append, filter_cons_of_neg (by simpa using Ne.symm hj), filter_nil, append_nil]
      rfl
    rw [if_neg hj, if_neg hj, hlog]
    exact (h j).later (le_succ _)

/-! ## Methods that only touch recoveries -/

section

variable (h : Inv clock w)

include h

theorem Inv.recoveryTurn (instanceId : String) (record : RecoveryRecord δ) :
    Inv clock (w.recoveryTurn instanceId record) := by
  unfold AiSessionAggregator.recoveryTurn
  split
  · exact h
  simp only
  split
  · exact h
  · split_ifs <;> exact h

theorem Inv.recoverStream (instanceId streamId : String) (highWater : Nat) :
    Inv clock (w.recoverStream instanceId streamId highWater) := by
  unfold AiSessionAggregator.recoverStream
  split
  · exact h
  split_ifs
  · exact h.recoveryTurn _ _
  · exact h

theorem Inv.recoveryCheck (instanceId : String) (record : RecoveryRecord δ) :
    Inv clock (w.recoveryCheck instanceId record) := by
  unfold AiSessionAggregator.recoveryCheck
  split
  · split_ifs
    · exact h
    · exact h.recoveryTurn _ _
  · exact h.recoveryTurn _ _

theorem Inv.continueRecovery (instanceId : String) : Inv clock (w.continueRecovery instanceId) := by
  unfold AiSessionAggregator.continueRecovery
  split
  · exact h
  · exact h.recoveryCheck _ _

end

/-! ## Methods that apply or drop -/

theorem Inv.apply (hclock : Monotone clock) (h : Inv clock w) (event : AiSessionStreamEvent δ)
    (recovering : Bool) : Inv clock (apply clock w event recovering) := by
  unfold AiSessionAggregator.apply
  simp only
  split
  · exact h
  split
  · split_ifs <;> exact h
  split
  · next happlied => exact h.store hclock happlied
  · exact h.recoverStream _ _ _
  · exact h.recoverStream _ _ _
  · exact h
  · exact h

theorem Inv.removeInstance (h : Inv clock w) (instanceId : String) :
    Inv clock (w.removeInstance instanceId) := by
  intro j
  unfold AiSessionAggregator.removeInstance historyOf projectionOf logOf
  simp only [OrderedMap.get?_erase]
  by_cases hj : j = instanceId
  · simp only [if_pos hj]
    exact (h j).removed
  · simp only [if_neg hj]
    exact h j

theorem Inv.dropAbsent (h : Inv clock w) (atStart : List (String × HeldProjection δ))
    (present : List String) : Inv clock (w.dropAbsent atStart present) := by
  unfold AiSessionAggregator.dropAbsent
  induction atStart generalizing w with
  | nil => exact h
  | cons entry atStart ih =>
    rw [foldl_cons]
    split_ifs
    · exact ih h
    · exact ih (h.removeInstance entry.1)

theorem Inv.bootstrapEntry (hclock : Monotone clock) (h : Inv clock w)
    (atStart : OrderedMap String (HeldProjection δ)) (entry : BootstrapEntry δ)
    (traceId : String) : Inv clock (bootstrapEntry clock w atStart entry traceId) := by
  unfold AiSessionAggregator.bootstrapEntry
  split_ifs
  · exact h
  · exact h
  · exact h
  · exact h.apply hclock _ _

theorem Inv.finishRefresh (hclock : Monotone clock) (h : Inv clock w) (task : RefreshTask)
    (state : AiSessionsState δ) (traceId : String) :
    Inv clock (finishRefresh clock w task state traceId) := by
  unfold AiSessionAggregator.finishRefresh
  split_ifs
  · exact h
  · exact h
  · exact h
  · exact h.apply hclock _ _

theorem step_inv (hclock : Monotone clock) (w : AiSessionAggregator δ) (a : Action δ)
    (w' : AiSessionAggregator δ) (hstep : step clock w a = some w') (h : Inv clock w) :
    Inv clock w' := by
  cases a with
  | handleEvent event => exact Option.some.inj hstep ▸ h.apply hclock event false
  | advertiseStream instanceId descriptor =>
    have hset : Inv clock
        { w with advertisedStreams := w.advertisedStreams.set instanceId descriptor } := h
    exact Option.some.inj hstep ▸ hset.recoverStream _ _ _
  | removeInstance instanceId => exact Option.some.inj hstep ▸ h.removeInstance instanceId
  | startBootstrap => exact Option.some.inj hstep ▸ h
  | bootstrapAnswered index instances =>
    simp only [step] at hstep
    split at hstep
    · next atStart _ =>
        have hset : Inv clock
            { w with bootstraps := w.bootstraps.set index ⟨atStart, some instances⟩ } := h
        exact Option.some.inj hstep ▸ hset.dropAbsent _ _
    · cases hstep
  | bootstrapEntry index traceId =>
    simp only [step] at hstep
    split at hstep
    · next atStart entry entries _ =>
        have hset : Inv clock
            { w with bootstraps := w.bootstraps.set index ⟨atStart, some entries⟩ } := h
        exact Option.some.inj hstep ▸ hset.bootstrapEntry hclock _ _ _
    · cases hstep
  | startRefresh instanceId => exact Option.some.inj hstep ▸ h
  | refreshAnswered index state traceId =>
    simp only [step] at hstep
    split at hstep
    · have hset : Inv clock { w with refreshes := w.refreshes.eraseIdx index } := h
      exact Option.some.inj hstep ▸ hset.finishRefresh hclock _ _ _
    · cases hstep
  | recoverySnapshot instanceId state traceId =>
    simp only [step] at hstep
    split at hstep
    · split at hstep
      · split_ifs at hstep
        · exact Option.some.inj hstep ▸ h.recoveryTurn _ _
        · exact Option.some.inj hstep ▸ (h.apply hclock _ _).continueRecovery _
      · cases hstep
    · cases hstep
  | recoveryDelta instanceId delta =>
    simp only [step] at hstep
    split at hstep
    · split at hstep
      · split_ifs at hstep
        · exact Option.some.inj hstep ▸ h.recoveryTurn _ _
        · exact Option.some.inj hstep ▸ h
        · exact Option.some.inj hstep ▸ h
      · cases hstep
    · cases hstep
  | recoveryEvent instanceId =>
    simp only [step] at hstep
    split at hstep
    · next record _ =>
        split at hstep
        · exact Option.some.inj hstep ▸ h.recoveryCheck _ _
        · next event events latestRevision _ =>
            have hset : Inv clock
                (w.setPhase instanceId record (.applying events latestRevision)) := h
            exact Option.some.inj hstep ▸ hset.apply hclock _ _
        · cases hstep
    · cases hstep
  | recoveryFailed instanceId => exact Option.some.inj hstep ▸ h
  | delta instanceId streamId sinceRevision => exact Option.some.inj hstep ▸ h.prune instanceId

/-! ## Deltas -/

theorem answerDelta_cases {instanceId streamId : String} {current : AiSessionsState δ}
    (hcurrent : w.projectionOf instanceId = some current)
    (h : (w.answerDelta instanceId streamId sinceRevision).syncRequired = false) :
    streamId = current.streamId ∧
    ((sinceRevision = current.revision ∧
        (w.answerDelta instanceId streamId sinceRevision).events = []) ∨
      ∃ first rest, newerThan sinceRevision (w.historyOf instanceId) = first :: rest ∧
        first.event.eventMeta.revision = sinceRevision + 1 ∧
        (w.answerDelta instanceId streamId sinceRevision).events =
          (first :: rest).map AiSessionHistoryEntry.event) := by
  unfold answerDelta at h ⊢
  simp only [hcurrent, Option.map_some, Option.getD_some] at h ⊢
  split_ifs at h ⊢ with hbad hlatest
  · exact ⟨not_not.mp (not_or.mp hbad).1, Or.inl ⟨hlatest, rfl⟩⟩
  refine ⟨not_not.mp (not_or.mp hbad).1, Or.inr ?_⟩
  unfold newerThan
  cases hevents : (w.historyOf instanceId).filter fun entry =>
      decide (sinceRevision < entry.event.eventMeta.revision) with
  | nil => simp [hevents] at h
  | cons first rest =>
    by_cases hfirst : first.event.eventMeta.revision = sinceRevision + 1
    · exact ⟨first, rest, rfl, hfirst, by simp [hfirst]⟩
    · simp [hevents, hfirst] at h

theorem Retains.tail {projection : Option (AiSessionsState δ)} (hclock : Monotone clock)
    (h : Retains clock ticks events log projection)
    (hsteady : SteadyPass clock ticks sinceRevision events)
    (hne : newerThan sinceRevision (retained clock ticks events) ≠ []) :
    ∃ tail, tail <:+ log ∧ Epoch tail ∧
      newerThan sinceRevision (retained clock ticks events) = tail.map Prod.fst := by
  obtain ⟨hlinked, -, kept, hsuffix, hepoch, hsorted, -, -, hexpired, -⟩ := h
  obtain ⟨tick, hle, hnewer⟩ := newerThan_retained hclock hsteady hne
  have hnow := hexpired (clock tick) fun k hk => hclock (le_of_lt (lt_of_lt_of_le hk hle))
  let keeps : Applied δ → Bool := fun a =>
    decide (sinceRevision < a.1.event.eventMeta.revision) &&
      decide (clock tick - AI_SESSION_DELTA_RETENTION_MS ≤ a.1.createdAtMs)
  have hmap : newerThan sinceRevision (unexpired (clock tick) (kept.map Prod.fst)) =
      (kept.filter keeps).map Prod.fst := by
    unfold newerThan unexpired
    rw [filter_filter, filter_map]
    rfl
  have htail : kept.filter keeps <:+ kept := by
    refine filter_suffix ((hepoch.and hsorted).imp_of_mem fun {a b} ha hb hab => ?_)
    obtain ⟨⟨-, hlt⟩, hcreated⟩ := hab
    rw [(hlinked.meta_eq (hsuffix.subset ha)).2, (hlinked.meta_eq (hsuffix.subset hb)).2] at hlt
    simp only [keeps, Bool.and_eq_true, decide_eq_true_eq]
    omega
  exact ⟨kept.filter keeps, htail.trans hsuffix, hepoch.sublist htail.sublist,
    by rw [hnewer, hnow, hmap]⟩

/-- In every reachable state a delta that asks for no synchronisation, and whose
own pruning pass drops nothing after a newer entry that it keeps, replays over
the projection held at its revision to the current one. -/
theorem delta_replays (hclock : Monotone clock) (canRecover : Bool) (as : List (Action δ))
    (hrun : run (step clock) { canRecover := canRecover } as = some w)
    (instanceId streamId : String) (sinceRevision : Nat)
    (hsteady : SteadyPass clock w.ticks sinceRevision (w.historyOf instanceId))
    (hsync : (delta clock w instanceId streamId sinceRevision).2.syncRequired = false)
    (base current : AiSessionsState δ)
    (hbase : lastHeld (w.logOf instanceId) streamId sinceRevision = some base)
    (hcurrent : w.projectionOf instanceId = some current) :
    GapFree (some base) (delta clock w instanceId streamId sinceRevision).2.events ∧
      foldEvents (some base) (delta clock w instanceId streamId sinceRevision).2.events =
        some current := by
  have inv : Retains clock w.ticks (w.historyOf instanceId) (w.logOf instanceId)
      (w.projectionOf instanceId) :=
    run_invariant (step_inv hclock) hrun (init_inv clock canRecover) instanceId
  have hlast := inv.current current hcurrent
  have hprojection : (pruneHistory clock w instanceId).projectionOf instanceId = some current := by
    unfold projectionOf
    rw [(frame_pruneHistory clock w instanceId).1]
    exact hcurrent
  obtain ⟨hstream, ⟨hlatest, hevents⟩ | ⟨first, rest, hnewer, hfirst, hevents⟩⟩ :=
    answerDelta_cases hprojection hsync
  · have hsame := lastHeld_of_lastProjection hlast
    rw [← hstream, ← hlatest, hbase] at hsame
    show GapFree _ (answerDelta _ _ _ _).events ∧ foldEvents _ (answerDelta _ _ _ _).events = _
    rw [hevents]
    exact ⟨trivial, hsame⟩
  rw [historyOf_pruneHistory, if_pos rfl] at hnewer
  obtain ⟨tail, hsuffix, hepoch, htail⟩ := inv.tail hclock hsteady (by rw [hnewer]; simp)
  rw [hnewer] at htail
  cases tail with
  | nil => simp at htail
  | cons a tail =>
    obtain ⟨ha, -⟩ := cons.inj htail
    obtain ⟨-, hrevision⟩ := lastHeld_meta hbase
    have haMeta := (inv.linked.meta_eq (hsuffix.subset mem_cons_self)).2
    have haStream := (hepoch.newest hsuffix hlast a mem_cons_self).1
    obtain ⟨hgap, hfold⟩ := inv.linked.replay_suffix hsuffix hepoch rfl
      (by rw [haStream, ← hstream, hrevision]; exact hbase)
      (by rw [haMeta, ← ha, hfirst, hrevision])
    have heventsOf : (answerDelta (pruneHistory clock w instanceId) instanceId streamId
        sinceRevision).events = eventsOf (a :: tail) := by
      rw [hevents, htail, map_map]
      rfl
    show GapFree _ (answerDelta _ _ _ _).events ∧ foldEvents _ (answerDelta _ _ _ _).events = _
    rw [heventsOf, ← hlast]
    exact ⟨hgap, hfold⟩

/-! ## A clock that ticks within a pass -/

def exampleMeta (revision : Nat) : AiSessionEventMeta where
  streamId := "ais_1"
  instanceId := "ins_1"
  nodeId := none
  revision := revision
  previousRevision := some (revision - 1)
  traceId := "ais_evt_1"
  generatedAt := "2026-11-02T00:00:00.000Z"
  reason := "control-action"

def exampleSession (revision : Nat) : AiSessionSummary Nat :=
  ⟨"ses_1", .running, none, revision⟩

/-- A first snapshot and three patches. -/
def exampleActions : List (Action Nat) :=
  [.handleEvent ⟨exampleMeta 1, .snapshot (snapshotOf [exampleSession 1] 0 "")⟩,
    .handleEvent ⟨exampleMeta 2, .patch [exampleSession 2] []⟩,
    .handleEvent ⟨exampleMeta 3, .patch [exampleSession 3] []⟩,
    .handleEvent ⟨exampleMeta 4, .patch [exampleSession 4] []⟩]

def exampleWorld (clock : Nat → Int) : AiSessionAggregator Nat :=
  (run (step clock) { canRecover := true } exampleActions).getD { canRecover := true }

def exampleState (revision : Nat) : AiSessionsState Nat where
  streamId := "ais_1"
  revision := revision
  lastEventAt := "2026-11-02T00:00:00.000Z"
  snapshot := snapshotOf [exampleSession revision] 0
    (if revision = 1 then "" else "2026-11-02T00:00:00.000Z")

def stillClock (_ : Nat) : Int := 0

theorem delta_replays_still :
    (delta stillClock (exampleWorld stillClock) "ins_1" "ais_1" 1).2.events.length = 3 ∧
      foldEvents (some (exampleState 1))
        (delta stillClock (exampleWorld stillClock) "ins_1" "ais_1" 1).2.events =
          some (exampleState 4) := by
  have hreplays := delta_replays (fun _ _ _ => Int.le_refl 0) true exampleActions
    (rfl : run (step stillClock) { canRecover := true } exampleActions =
      some (exampleWorld stillClock))
    "ins_1" "ais_1" 1 (by decide) rfl (exampleState 1) (exampleState 4) rfl rfl
  exact ⟨rfl, hreplays.2⟩

/-- The first three events are an hour old when the delta is asked for, and the
clock ticks between its readings for the second and the third. -/
def tickingClock (tick : Nat) : Int :=
  if tick ≤ 8 then 0
  else if tick ≤ 15 then AI_SESSION_DELTA_RETENTION_MS
  else AI_SESSION_DELTA_RETENTION_MS + 1

theorem delta_torn_by_tick : Monotone tickingClock ∧
    run (step tickingClock) { canRecover := true } exampleActions =
      some (exampleWorld tickingClock) ∧
    (delta tickingClock (exampleWorld tickingClock) "ins_1" "ais_1" 1).2.syncRequired = false ∧
    lastHeld ((exampleWorld tickingClock).logOf "ins_1") "ais_1" 1 = some (exampleState 1) ∧
    (exampleWorld tickingClock).projectionOf "ins_1" = some (exampleState 4) ∧
    ¬ GapFree (some (exampleState 1))
      (delta tickingClock (exampleWorld tickingClock) "ins_1" "ais_1" 1).2.events ∧
    foldEvents (some (exampleState 1))
      (delta tickingClock (exampleWorld tickingClock) "ins_1" "ais_1" 1).2.events =
        some (exampleState 2) := by
  refine ⟨?_, rfl, rfl, rfl, rfl, by decide, rfl⟩
  refine monotone_nat_of_le_succ fun tick => ?_
  unfold tickingClock AI_SESSION_DELTA_RETENTION_MS
  split_ifs <;> omega

end AiSessionAggregator

end TaskHandoff.AiSessions
