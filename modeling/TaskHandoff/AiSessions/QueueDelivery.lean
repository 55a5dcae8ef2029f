import TaskHandoff.AiSessions.QueueDispatch

/-! # Delivery of queued messages

A message stays in its queue until its hand-over succeeded or a client removed
it. Hand-overs of one message exclude each other only when the calls that begin
them do: steering reads the queue without marking the message, and a retry
takes the mark off a message that is being sent.
-/

namespace TaskHandoff.AiSessions.QueueDispatch

open Machine Controller OrderedMap

variable {μ : Type} {c c' : Controller μ} {a : Action μ}

/-! ## Messages leave only when delivered or removed -/

structure Kept (c : Controller μ) : Prop where
  accounted : ∀ key ∈ c.enqueued, Queued c key ∨ key ∈ c.handed ∨ key ∈ c.removed
  delivered : ∀ ticket d, c.dispatches.get? ticket = some d → d.phase = .succeeded →
    d.key ∈ c.handed

theorem kept_new : Kept (new : Controller μ) where
  accounted := by simp [new]
  delivered := by simp [new]

theorem Kept.accounted_of (h : Kept c) (henqueued : c'.enqueued = c.enqueued)
    (hqueued : ∀ key, Queued c key → Queued c' key ∨ key ∈ c'.handed ∨ key ∈ c'.removed)
    (hhanded : ∀ key ∈ c.handed, key ∈ c'.handed) (hremoved : ∀ key ∈ c.removed, key ∈ c'.removed) :
    ∀ key ∈ c'.enqueued, Queued c' key ∨ key ∈ c'.handed ∨ key ∈ c'.removed := by
  intro key hkey
  rw [henqueued] at hkey
  rcases h.accounted key hkey with hq | hh | hr
  · exact hqueued key hq
  · exact .inr (.inl (hhanded key hh))
  · exact .inr (.inr (hremoved key hr))

theorem Kept.step (h : Kept c) (hs : step c a = some c') : Kept c' := by
  cases step_effect hs with
  | quiet queued frame =>
    rw [frame] at queued ⊢
    exact ⟨h.accounted_of rfl (fun key hq => .inl ((queued key).mpr hq)) (fun _ => id)
      (fun _ => id), h.delivered⟩
  | enqueued sessionId kept new only frame =>
    rw [frame] at kept new ⊢
    refine ⟨?_, h.delivered⟩
    intro key hkey
    rcases List.mem_cons.mp hkey with rfl | hkey
    · exact .inl new
    rcases h.accounted key hkey with hq | hrest
    · exact .inl (kept key hq)
    · exact .inr hrest
  | removed key queued frame =>
    rw [frame] at queued ⊢
    refine ⟨h.accounted_of rfl ?_ (fun _ => id) (fun _ hk => List.mem_cons_of_mem _ hk),
      h.delivered⟩
    intro j hj
    by_cases hjk : j = key
    · exact .inr (.inr (by simp [hjk]))
    · exact .inl ((queued j).mpr ⟨hj, hjk⟩)
  | began d phase present alone queued frame =>
    rw [frame] at queued ⊢
    refine ⟨h.accounted_of rfl (fun key hq => .inl ((queued key).mpr hq)) (fun _ => id)
      (fun _ => id), ?_⟩
    intro ticket e he hphase
    rcases get?_set_eq_some he with ⟨-, rfl⟩ | ⟨-, he⟩
    · exact (phase hphase).elim
    · exact h.delivered ticket e he hphase
  | moved ticket d phase lookup before frame =>
    rw [frame]
    have hgrow : ∀ key ∈ c.handed,
        key ∈ if phase = .succeeded then d.key :: c.handed else c.handed := by
      intro key hkey
      split
      · exact List.mem_cons_of_mem _ hkey
      · exact hkey
    refine ⟨h.accounted_of rfl (fun key hq => .inl hq) hgrow (fun _ => id), ?_⟩
    intro t e he hphase
    rcases get?_set_eq_some he with ⟨-, rfl⟩ | ⟨-, he⟩
    · have hsucceeded : phase = .succeeded := hphase
      simp only [if_pos hsucceeded]
      exact List.mem_cons_self
    · exact hgrow _ (h.delivered t e he hphase)
  | finished ticket d lookup queued frame =>
    rw [frame] at queued ⊢
    refine ⟨h.accounted_of rfl ?_ (fun _ => id) (fun _ => id), ?_⟩
    · intro key hq
      by_cases hdone : d.phase = .succeeded ∧ key = d.key
      · exact .inr (.inl (hdone.2 ▸ h.delivered ticket d lookup hdone.1))
      · exact .inl ((queued key).mpr ⟨hq, fun hphase hkey => hdone ⟨hphase, hkey⟩⟩)
    · intro t e he hphase
      exact h.delivered t e (get?_erase_eq_some he).2 hphase

/-- Over every run, a message that is no longer queued was handed over or removed. -/
theorem left_handed_or_removed {as : List (Action μ)} (h : run step new as = some c) :
    ∀ key ∈ c.enqueued, Queued c key ∨ key ∈ c.handed ∨ key ∈ c.removed :=
  (run_invariant (fun _ _ _ hs hk => hk.step hs) h kept_new).accounted

/-! ## Hand-overs that exclude each other -/

/-- At most one call hands a message over, and a message that was handed over
is gone or about to be taken out by the call that did it. -/
structure Once (c : Controller μ) : Prop where
  single : ∀ t u d e, c.dispatches.get? t = some d → c.dispatches.get? u = some e →
    d.key = e.key → t = u
  nodup : c.handed.Nodup
  delivering : ∀ key ∈ c.handed, Queued c key →
    ∃ t d, c.dispatches.get? t = some d ∧ d.key = key ∧ d.phase = .succeeded
  pending : ∀ t d, c.dispatches.get? t = some d → d.phase ≠ .succeeded → d.key ∉ c.handed
  queued_lt : ∀ key, Queued c key → key.2 < c.nextQueueId
  dispatch_lt : ∀ t d, c.dispatches.get? t = some d → d.key.2 < c.nextQueueId
  handed_lt : ∀ key ∈ c.handed, key.2 < c.nextQueueId
  fresh : ∀ t, c.nextDispatch ≤ t → c.dispatches.get? t = none

theorem once_new : Once (new : Controller μ) where
  single := by simp [new]
  nodup := List.nodup_nil
  delivering := by simp [new]
  pending := by simp [new]
  queued_lt := by simp [new, Queued]
  dispatch_lt := by simp [new]
  handed_lt := by simp [new]
  fresh := by simp [new]

variable {d : Dispatch} {ticket : Nat}

theorem not_idle (h : c.dispatches.get? ticket = some d) : ¬ Idle c d.key := by
  intro hidle
  exact hidle d (mem_values.mpr ⟨ticket, h⟩) rfl

section

variable (h : Once c)

include h

theorem Once.not_handed {key : String × Nat} (hq : Queued c key)
    (hidle : Idle c key) : key ∉ c.handed := by
  intro hhanded
  obtain ⟨t, d, hd, rfl, -⟩ := h.delivering key hhanded hq
  exact not_idle hd hidle

theorem Once.began (hphase : d.phase ≠ .succeeded)
    (hpresent : Queued c d.key) (hidle : Idle c d.key)
    (hqueued : ∀ key, Queued c' key ↔ Queued c key) (hframe : c' = { c with
      sessions := c'.sessions
      dispatches := c.dispatches.set c.nextDispatch d
      nextDispatch := c.nextDispatch + 1 }) : Once c' := by
  have hnot := h.not_handed hpresent hidle
  have hothers : ∀ t e, c.dispatches.get? t = some e → e.key ≠ d.key := fun t e he =>
    hidle e (mem_values.mpr ⟨t, he⟩)
  rw [hframe] at hqueued ⊢
  refine ⟨?_, h.nodup, ?_, ?_, ?_, ?_, h.handed_lt, ?_⟩
  · intro t u e f he hf hkey
    rcases get?_set_eq_some he with ⟨ht, hed⟩ | ⟨-, he'⟩
    · rcases get?_set_eq_some hf with ⟨hu, -⟩ | ⟨-, hf'⟩
      · exact ht.trans hu.symm
      · exact (hothers u f hf' (hed ▸ hkey.symm)).elim
    rcases get?_set_eq_some hf with ⟨-, hfd⟩ | ⟨-, hf'⟩
    · exact (hothers t e he' (hfd ▸ hkey)).elim
    · exact h.single t u e f he' hf' hkey
  · intro key hkey hq
    obtain ⟨t, e, he, hek, hsucceeded⟩ := h.delivering key hkey ((hqueued key).mp hq)
    have ht : t ≠ c.nextDispatch := by
      rintro rfl
      rw [h.fresh _ (Nat.le_refl _)] at he
      cases he
    exact ⟨t, e, by rwa [get?_set_ne _ _ ht], hek, hsucceeded⟩
  · intro t e he hopen
    rcases get?_set_eq_some he with ⟨-, rfl⟩ | ⟨-, he'⟩
    · exact hnot
    · exact h.pending t e he' hopen
  · intro key hq
    exact h.queued_lt key ((hqueued key).mp hq)
  · intro t e he
    rcases get?_set_eq_some he with ⟨-, rfl⟩ | ⟨-, he'⟩
    · exact h.queued_lt _ hpresent
    · exact h.dispatch_lt t e he'
  · intro t ht
    have hlt : c.nextDispatch + 1 ≤ t := ht
    rw [get?_set_ne _ _ (by omega)]
    exact h.fresh t (by omega)

theorem Once.moved {phase : DispatchPhase}
    (hlookup : c.dispatches.get? ticket = some d) (hbefore : d.phase ≠ .succeeded) : Once { c with
      dispatches := c.dispatches.set ticket { d with phase := phase }
      handed := if phase = .succeeded then d.key :: c.handed else c.handed } := by
  have hnot := h.pending ticket d hlookup hbefore
  have hlater : ∀ t e, t ≠ ticket → c.dispatches.get? t = some e → e.key ≠ d.key := by
    intro t e ht he hkey
    exact ht (h.single t ticket e d he hlookup hkey)
  have hmem : ∀ key, key ∈ (if phase = .succeeded then d.key :: c.handed else c.handed) →
      key ∈ c.handed ∨ (key = d.key ∧ phase = .succeeded) := by
    intro key hkey
    split at hkey
    next hphase =>
      rcases List.mem_cons.mp hkey with rfl | hkey
      · exact .inr ⟨rfl, hphase⟩
      · exact .inl hkey
    · exact .inl hkey
  refine ⟨?_, ?_, ?_, ?_, h.queued_lt, ?_, ?_, ?_⟩
  · intro t u e f he hf hkey
    rcases get?_set_eq_some he with ⟨ht, hed⟩ | ⟨ht, he'⟩
    · rcases get?_set_eq_some hf with ⟨hu, -⟩ | ⟨hu, hf'⟩
      · exact ht.trans hu.symm
      · have hed' : e.key = d.key := by
          rw [hed]
          rfl
        exact (hlater u f hu hf' (hkey.symm.trans hed')).elim
    · rcases get?_set_eq_some hf with ⟨-, hfd⟩ | ⟨-, hf'⟩
      · have hfd' : f.key = d.key := by
          rw [hfd]
          rfl
        exact (hlater t e ht he' (hkey.trans hfd')).elim
      · exact h.single t u e f he' hf' hkey
  · split
    · exact List.nodup_cons.mpr ⟨hnot, h.nodup⟩
    · exact h.nodup
  · intro key hkey hq
    rcases hmem key hkey with hold | ⟨rfl, hphase⟩
    · obtain ⟨t, e, he, hek, hsucceeded⟩ := h.delivering key hold hq
      have ht : t ≠ ticket := by
        rintro rfl
        rw [hlookup] at he
        exact hbefore (Option.some.inj he ▸ hsucceeded)
      exact ⟨t, e, by rwa [get?_set_ne _ _ ht], hek, hsucceeded⟩
    · exact ⟨ticket, _, get?_set_self _ _ _, rfl, hphase⟩
  · intro t e he hopen hhanded
    rcases get?_set_eq_some he with ⟨-, rfl⟩ | ⟨ht, he'⟩
    · rcases hmem _ hhanded with hold | ⟨-, hphase⟩
      · exact hnot hold
      · exact hopen hphase
    rcases hmem _ hhanded with hold | ⟨hkey, -⟩
    · exact h.pending t e he' hopen hold
    · exact hlater t e ht he' hkey
  · intro t e he
    rcases get?_set_eq_some he with ⟨-, rfl⟩ | ⟨-, he'⟩
    · exact h.dispatch_lt ticket d hlookup
    · exact h.dispatch_lt t e he'
  · intro key hkey
    rcases hmem key hkey with hold | ⟨rfl, -⟩
    · exact h.handed_lt key hold
    · exact h.dispatch_lt ticket d hlookup
  · intro t ht
    have hne : t ≠ ticket := by
      rintro rfl
      rw [h.fresh t ht] at hlookup
      cases hlookup
    rw [get?_set_ne _ _ hne]
    exact h.fresh t ht

theorem Once.finished (hlookup : c.dispatches.get? ticket = some d)
    (hqueued : ∀ key, Queued c' key ↔ Queued c key ∧ (d.phase = .succeeded → key ≠ d.key))
    (hframe : c' = { c with
      sessions := c'.sessions
      dispatches := c.dispatches.erase ticket }) : Once c' := by
  rw [hframe] at hqueued ⊢
  refine ⟨?_, h.nodup, ?_, ?_, ?_, ?_, h.handed_lt, ?_⟩
  · intro t u e f he hf hkey
    exact h.single t u e f (get?_erase_eq_some he).2 (get?_erase_eq_some hf).2 hkey
  · intro key hkey hq
    obtain ⟨hold, hleft⟩ := (hqueued key).mp hq
    obtain ⟨t, e, he, hek, hsucceeded⟩ := h.delivering key hkey hold
    have ht : t ≠ ticket := by
      rintro rfl
      rw [hlookup] at he
      cases he
      exact hleft hsucceeded hek.symm
    exact ⟨t, e, by rwa [get?_erase_ne _ ht], hek, hsucceeded⟩
  · intro t e he hopen
    exact h.pending t e (get?_erase_eq_some he).2 hopen
  · intro key hq
    exact h.queued_lt key ((hqueued key).mp hq).1
  · intro t e he
    exact h.dispatch_lt t e (get?_erase_eq_some he).2
  · intro t ht
    rw [get?_erase, h.fresh t ht, ite_self]

theorem Once.of_queued (hqueued : ∀ key, Queued c' key → Queued c key)
    (hframe : c' = { c with sessions := c'.sessions, removed := c'.removed }) : Once c' := by
  rw [hframe] at hqueued ⊢
  exact ⟨h.single, h.nodup, fun key hkey hq => h.delivering key hkey (hqueued key hq), h.pending,
    fun key hq => h.queued_lt key (hqueued key hq), h.dispatch_lt, h.handed_lt, h.fresh⟩

theorem Once.enqueued {sessionId : String}
    (honly : ∀ key, Queued c' key → Queued c key ∨ key = (sessionId, c.nextQueueId))
    (hframe : c' = { c with
      sessions := c'.sessions
      nextQueueId := c.nextQueueId + 1
      enqueued := (sessionId, c.nextQueueId) :: c.enqueued }) : Once c' := by
  rw [hframe] at honly ⊢
  refine ⟨h.single, h.nodup, ?_, h.pending, ?_, ?_, ?_, h.fresh⟩
  · intro key hkey hq
    rcases honly key hq with hold | rfl
    · exact h.delivering key hkey hold
    · exact absurd (h.handed_lt _ hkey) (Nat.lt_irrefl _)
  · intro key hq
    rcases honly key hq with hold | rfl
    · exact Nat.lt_succ_of_lt (h.queued_lt key hold)
    · exact Nat.lt_succ_self _
  · intro t e he
    exact Nat.lt_succ_of_lt (h.dispatch_lt t e he)
  · intro key hkey
    exact Nat.lt_succ_of_lt (h.handed_lt key hkey)

theorem Once.step (hs : step c a = some c') (halone : HandsOverAlone c a) : Once c' := by
  cases step_effect hs with
  | quiet queued frame => exact h.of_queued (fun key hq => (queued key).mp hq) (by rw [frame])
  | enqueued sessionId kept new only frame => exact h.enqueued only frame
  | removed key queued frame => exact h.of_queued (fun j hq => ((queued j).mp hq).1) (by rw [frame])
  | began d phase present alone queued frame =>
    exact h.began phase present (alone halone) queued frame
  | moved ticket d phase lookup before frame =>
    rw [frame]
    exact h.moved lookup before
  | finished ticket d lookup queued frame => exact h.finished lookup queued frame

end

/-- Over every run whose hand-overs begin alone, a message is handed over at
most once, and is no longer queued only once it was handed over or removed. -/
theorem handed_once {as : List (Action μ)} (h : run step new as = some c)
    (halone : AllSteps step HandsOverAlone new as) : (∀ key, c.handed.count key ≤ 1) ∧
      ∀ key ∈ c.enqueued, Queued c key ∨ key ∈ c.handed ∨ key ∈ c.removed := by
  have honce : Once c :=
    run_invariant_of_steps (fun _ _ _ hs hP ho => ho.step hs hP) h halone once_new
  exact ⟨List.nodup_iff_count_le_one.mp honce.nodup, left_handed_or_removed h⟩

/-- Two messages, one sent when the session is idle, one steered into its turn. -/
theorem handed_once_two :
    ∃ c : Controller Unit, run step new [.start "s", .enqueue "s" (), .enqueue "s" (),
        .sendNext "s" none true, .settle 0 (.ok ()), .settle 0 (.ok ()), .setStatus "s" .running,
        .steer "s" 1 none, .resume 0, .settle 1 (.ok ()), .resume 1] = some c ∧
      c.handed = [("s", 1), ("s", 0)] ∧ ∀ key, c.handed.count key ≤ 1 := by
  have h := @handed_once Unit _ [.start "s", .enqueue "s" (), .enqueue "s" (),
    .sendNext "s" none true, .settle 0 (.ok ()), .settle 0 (.ok ()), .setStatus "s" .running,
    .steer "s" 1 none, .resume 0, .settle 1 (.ok ()), .resume 1] rfl (by decide)
  exact ⟨_, rfl, rfl, h.1⟩

/-- Two steers of one queued message overlap: the provider accepts it twice,
with no failure and no retry. -/
theorem steered_twice :
    ∃ c : Controller Unit, run step new [.start "s", .enqueue "s" (), .setStatus "s" .running,
        .steer "s" 0 none, .steer "s" 0 none, .settle 0 (.ok ()), .settle 1 (.ok ())] = some c ∧
      c.handed.count ("s", 0) = 2 :=
  ⟨_, rfl, by decide⟩

end TaskHandoff.AiSessions.QueueDispatch
