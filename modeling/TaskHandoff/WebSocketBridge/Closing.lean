import TaskHandoff.WebSocketBridge.Runs

/-! # Normal closes of a bridge

A close event shuts the other socket at once. What is parked or chained for that socket then is
given up, so a normal close loses nothing exactly where there is no such frame. -/

namespace TaskHandoff.WebSocketBridge

open Machine Option Side

universe u

variable {δ : Type u}

namespace Bridge

/-! ## Events that are no close -/

/-- What a handler that places frames toward `x` does to the marks and to the other socket. -/
structure Onto (x : Side) (b c : Bridge δ) : Prop where
  marked : ∀ y, Marked (b.socket y) (c.socket y)
  handed : (c.socket x.other).handed = (b.socket x.other).handed

variable {x : Side} {b c : Bridge δ} {a : Action δ} {o : Options} {frameBytes : δ → Nat}

theorem Onto.trans {a b c : Bridge δ} (h : Onto x a b) (k : Onto x b c) : Onto x a c :=
  ⟨fun y => (h.marked y).trans (k.marked y), k.handed.trans h.handed⟩

theorem Idle.onto (h : Idle b c) (x : Side) : Onto x b c :=
  ⟨fun y => (h.kept y).toMarked, (h.kept x.other).handed⟩

theorem onto_modify (b : Bridge δ) (x : Side) (f : Socket δ → Socket δ)
    (hf : ∀ d, Marked d (f d)) : Onto x b (b.modify x f) := by
  refine ⟨fun y => ?_, by rw [socket_modify_other]⟩
  cases eq_or_other y x with
  | inl heq =>
    rw [heq, socket_modify_self]
    exact hf _
  | inr heq =>
    rw [heq, socket_modify_other]
    exact .refl _

theorem onto_forward (o : Options) (x : Side) (f : Frame δ) (g : Gauge) (b : Bridge δ) :
    Onto x b (b.forward o x f g).1 := by
  rcases forward_cases o x f g b with hfail | ⟨_, hchain⟩ | ⟨_, hhand⟩
  · rw [hfail]
    exact (idle_fail b).onto x
  · rw [hchain]
    have hfirst : Onto x b (b.modify x (.chain f)) :=
      onto_modify b x _ fun _ => ⟨rfl, rfl, rfl, rfl, .inl rfl⟩
    exact hfirst.trans ((idle_paused _ x.other true).onto x)
  · rw [hhand]
    exact onto_modify b x _ fun _ => ⟨rfl, rfl, rfl, rfl, .inl rfl⟩

theorem onto_flushFrames (o : Options) (x : Side) (frames : List (Frame δ)) (gs : List Gauge)
    (b : Bridge δ) : Onto x b (b.flushFrames o x frames gs) := by
  induction frames generalizing b gs with
  | nil => exact (idle_refl b).onto x
  | cons f fs ih =>
    have hsent : Onto x b ((b.modify x (.dequeued f)).forward o x f (gs.headD default)).1 :=
      (onto_modify b x (.dequeued f) fun _ => ⟨rfl, rfl, rfl, rfl, .inl rfl⟩).trans
        (onto_forward o x f _ _)
    rw [flushFrames]
    split
    · exact hsent.trans (ih _ _)
    · exact hsent

theorem onto_flush (o : Options) (x : Side) (gs : List Gauge) (b : Bridge δ) :
    Onto x b (b.flush o x gs) := by
  rw [flush]
  split
  · have htaken : Onto x b (b.modify x fun d => { d with pending := [] }) :=
      onto_modify b x _ fun _ => ⟨rfl, rfl, rfl, rfl, .inl rfl⟩
    exact htaken.trans (onto_flushFrames o x _ gs _)
  · exact (idle_refl b).onto x

theorem queue_handed (o : Options) (x : Side) (f : Frame δ) (g : Gauge) (b : Bridge δ) :
    Onto x b (b.queue o x f g) ∧ Onto x.other b (b.queue o x f g) := by
  have hpark : Onto x.other b (b.modify x (.park f)) := by
    refine ⟨(onto_modify b x (.park f) fun _ => ⟨rfl, rfl, rfl, rfl, .inl rfl⟩).marked, ?_⟩
    rw [other_other, socket_modify_self]
    rfl
  rw [queue]
  split
  · exact ⟨(idle_fail b).onto x, (idle_fail b).onto x.other⟩
  split
  · exact ⟨(idle_fail b).onto x, (idle_fail b).onto x.other⟩
  · exact ⟨onto_modify b x _ fun _ => ⟨rfl, rfl, rfl, rfl, .inl rfl⟩, hpark⟩

/-- What no event but a close changes: the closes and partings, what came before a close event and
what a shut socket got. -/
structure Still (b c : Bridge δ) : Prop where
  ended : ∀ x, (c.socket x).ended = (b.socket x).ended
  parted : ∀ x, (c.socket x).parted = (b.socket x).parted
  received : ∀ x, (b.socket x).ended = true → (c.socket x).received = (b.socket x).received
  handed : ∀ x, (b.socket x).phase = .shut → (c.socket x).handed = (b.socket x).handed

theorem Idle.still (h : Idle b c) : Still b c :=
  ⟨fun x => (h.kept x).ended, fun x => (h.kept x).parted, fun x _ => (h.kept x).received,
    fun x _ => (h.kept x).handed⟩

theorem Onto.still (h : Onto x b c)
    (hx : (b.socket x).phase = .shut → (c.socket x).handed = (b.socket x).handed) : Still b c := by
  refine ⟨fun y => (h.marked y).ended, fun y => (h.marked y).parted,
    fun y _ => (h.marked y).received, fun y hshut => ?_⟩
  cases eq_or_other y x with
  | inl heq => exact heq ▸ hx (heq ▸ hshut)
  | inr heq => exact heq ▸ h.handed

theorem receiveFrame_still (o : Options) (x : Side) (f : Frame δ) (g : Gauge)
    (hlive : (b.socket x).ended = false) : Still b (b.receiveFrame o x f g) := by
  have hlog : ∀ {c : Bridge δ}, Onto x.other (b.modify x (.log f)) c →
      ((b.socket x.other).phase = .shut →
        (c.socket x.other).handed = (b.socket x.other).handed) → Still b c := by
    intro c honto hshut
    refine ⟨fun y => ?_, fun y => ?_, fun y hended => ?_, fun y hy => ?_⟩
    · rw [(honto.marked y).ended]
      cases eq_or_other y x with
      | inl heq =>
        rw [heq, socket_modify_self]
        rfl
      | inr heq => rw [heq, socket_modify_other]
    · rw [(honto.marked y).parted]
      cases eq_or_other y x with
      | inl heq =>
        rw [heq, socket_modify_self]
        rfl
      | inr heq => rw [heq, socket_modify_other]
    · cases eq_or_other y x with
      | inl heq => exact absurd (hlive.symm.trans (heq ▸ hended)) (by decide)
      | inr heq => rw [(honto.marked y).received, heq, socket_modify_other]
    · cases eq_or_other y x with
      | inl heq =>
        have hhanded := honto.handed
        rw [other_other, socket_modify_self] at hhanded
        exact heq ▸ hhanded
      | inr heq => exact heq ▸ hshut (heq ▸ hy)
  have hcounted : Idle (b.modify x (.log f)) { b.modify x (.log f) with
      totalBytes := (b.modify x (.log f)).totalBytes + f.bytes } :=
    idle_of_sockets (fun y => by cases y <;> rfl) rfl
  have hsame : ∀ {c : Bridge δ}, Idle (b.modify x (.log f)) c →
      (c.socket x.other).handed = (b.socket x.other).handed := by
    intro c hidle
    rw [(hidle.kept x.other).handed, socket_modify_other]
  rw [receiveFrame]
  rcases acceptFrame_cases o f.bytes (b.modify x (.log f)) with hover | hwithin
  · rw [hover]
    have hidle := hcounted.trans (idle_fail _)
    exact hlog (hidle.onto x.other) fun _ => hsame hidle
  rw [hwithin]
  have hphase : ({ b.modify x (.log f) with
      totalBytes := (b.modify x (.log f)).totalBytes + f.bytes } : Bridge δ).socket x.other =
        b.socket x.other := by
    cases x <;> rfl
  simp only [if_true]
  split
  case isTrue hopen =>
    refine hlog ((hcounted.onto x.other).trans (onto_forward o x.other f g _)) fun hshut => ?_
    rw [hphase] at hopen
    exact absurd (hopen.symm.trans hshut) (by decide)
  case isFalse =>
    have hqueued := queue_handed o x.other f g { b.modify x (.log f) with
      totalBytes := (b.modify x (.log f)).totalBytes + f.bytes }
    refine hlog ((hcounted.onto x.other).trans hqueued.1) fun _ => ?_
    have hhanded := hqueued.2.handed
    rw [other_other] at hhanded
    exact hhanded.trans (hsame hcounted)

theorem turn_still (x : Side) (f : Frame δ) (rest : List (Frame δ)) (b : Bridge δ) :
    Still b (b.turn x f rest) := by
  rw [turn]
  split
  case isTrue hopen =>
    exact (onto_modify b x (.write f rest) fun _ => ⟨rfl, rfl, rfl, rfl, .inl rfl⟩).still fun hshut =>
      absurd (hopen.symm.trans hshut) (by decide)
  case isFalse =>
    have hskipped : Onto x b (b.modify x fun d => { d with tail := rest }) :=
      onto_modify b x _ fun _ => ⟨rfl, rfl, rfl, rfl, .inl rfl⟩
    have hidle := idle_settleWrite x f (b.modify x fun d => { d with tail := rest })
    refine (hskipped.trans (hidle.onto x)).still fun _ => ?_
    rw [(hidle.kept x).handed, socket_modify_self]

theorem opens_still (hconnecting : (b.socket x).phase = .connecting)
    (o : Options) (gs : List Gauge) : Still b (b.opens o x gs) := by
  have hplaced : ∀ {c d : Bridge δ}, Onto x c d → (∀ y, (c.socket y).ended = (b.socket y).ended ∧
        (c.socket y).parted = (b.socket y).parted ∧
        (c.socket y).received = (b.socket y).received) →
      c.socket x.other = b.socket x.other → Still b d := by
    intro c d honto hsame hother
    refine ⟨fun y => (honto.marked y).ended.trans (hsame y).1,
      fun y => (honto.marked y).parted.trans (hsame y).2.1,
      fun y _ => (honto.marked y).received.trans (hsame y).2.2, fun y hshut => ?_⟩
    cases eq_or_other y x with
    | inl heq => exact absurd (hconnecting.symm.trans (heq ▸ hshut)) (by decide)
    | inr heq => rw [heq, honto.handed, hother]
  cases x with
  | client =>
    exact hplaced (onto_flush o .client gs _) (fun y => by cases y <;> exact ⟨rfl, rfl, rfl⟩) rfl
  | upstream =>
    exact hplaced (onto_flush o .upstream gs _) (fun y => by cases y <;> exact ⟨rfl, rfl, rfl⟩) rfl

theorem step_still
    (hstep : step frameBytes o b a = some c) (hnot : ∀ x handled, a ≠ .closes x handled) :
    Still b c := by
  cases a with
  | opens x gs =>
    simp only [step, ite_none_right_eq_some, some.injEq] at hstep
    exact hstep.2 ▸ opens_still hstep.1 o gs
  | message x data isBinary g =>
    simp only [step, ite_none_right_eq_some, some.injEq] at hstep
    exact hstep.2 ▸ receiveFrame_still o x _ g (by simpa using hstep.1.2)
  | turn x =>
    simp only [step] at hstep
    split at hstep
    case h_1 f rest _ _ =>
      cases hstep
      exact turn_still x f rest b
    case h_2 => cases hstep
  | written x ok =>
    simp only [step] at hstep
    split at hstep
    · cases hstep
    cases hstep
    cases ok with
    | true => exact (idle_settleWrite x _ b).still
    | false => exact ((idle_fail b).trans (idle_settleWrite x _ _)).still
  | leaves x =>
    cases hstep
    exact (idle_closeWebSocket b x).still
  | closes x handled => exact absurd rfl (hnot x handled)
  | errs x handled =>
    simp only [step, ite_none_left_eq_some, some.injEq] at hstep
    exact hstep.2 ▸ (idle_errs x handled b).still
  | openTimeout =>
    simp only [step, ite_none_right_eq_some, some.injEq] at hstep
    exact hstep.2 ▸ (idle_openTimeout b).still
  | close =>
    cases hstep
    exact (idle_close b).still

/-! ## Normal closes -/

/-- All frames of a side that closed normally are handed to the other side. -/
def Forwarded (b : Bridge δ) : Prop :=
  ∀ x, (b.socket x).parted = true → (b.socket x.other).handed = (b.socket x).received

/-- A normal close meets no frame parked or chained for the other socket. -/
def Drained (b : Bridge δ) : Action δ → Prop
  | .closes x _ => b.failed = false → (b.socket x.other).phase ≠ .shut →
      (b.socket x.other).tail = [] ∧ (b.socket x.other).pending = []
  | _ => True

instance (b : Bridge δ) (a : Action δ) : Decidable (Drained b a) :=
  match a with
  | .closes _ _ => inferInstanceAs (Decidable (_ → _ → _))
  | .opens _ _ | .message _ _ _ _ | .turn _ | .written _ _ | .leaves _ | .errs _ _
  | .openTimeout | .close => inferInstanceAs (Decidable True)

theorem Still.forwarded_iff (h : Still b c) (hb : Inv b) (hc : Inv c) :
    Forwarded c ↔ Forwarded b := by
  have hkeep : ∀ x, (b.socket x).parted = true → (c.socket x).received = (b.socket x).received ∧
        (c.socket x.other).handed = (b.socket x.other).handed := by
    intro x hparted
    have hmarks := hb.marks.parted x hparted
    have hreceived := h.received x hmarks.1
    refine ⟨hreceived, ?_⟩
    cases hmarks.2 with
    | inl hshut => exact h.handed x.other hshut
    | inr hnil =>
      have hpre := (hb.toward x.other).flow.handed
      have hpre' := (hc.toward x.other).flow.handed
      rw [other_other] at hpre hpre'
      rw [hnil] at hpre
      rw [hreceived, hnil] at hpre'
      rw [List.prefix_nil.mp hpre, List.prefix_nil.mp hpre']
  constructor
  · intro hforwarded x hparted
    have hsame := hkeep x hparted
    exact hsame.2.symm.trans ((hforwarded x ((h.parted x).trans hparted)).trans hsame.1)
  intro hforwarded x hparted
  have hparted : (b.socket x).parted = true := (h.parted x).symm.trans hparted
  have hsame := hkeep x hparted
  exact hsame.2.trans ((hforwarded x hparted).trans hsame.1.symm)

theorem closes_sockets (b : Bridge δ) (x : Side) (handled : Bool) :
    ((b.closes x handled).socket x).parted = (!b.failed && (b.socket x.other).phase != .shut) ∧
    ((b.closes x handled).socket x).received = (b.socket x).received ∧
    ((b.closes x handled).socket x).handed = (b.socket x).handed ∧
    ((b.closes x handled).socket x.other).parted = (b.socket x.other).parted ∧
    ((b.closes x handled).socket x.other).received = (b.socket x.other).received ∧
    ((b.closes x handled).socket x.other).handed = (b.socket x.other).handed := by
  cases x with
  | client => exact ⟨rfl, rfl, rfl, rfl, rfl, rfl⟩
  | upstream =>
    rw [closes]
    split
    · exact ⟨rfl, rfl, rfl, rfl, rfl, rfl⟩
    · exact ⟨rfl, rfl, rfl, rfl, rfl, rfl⟩

theorem Inv.closes_forwarded_iff (h : Inv b) (handled : Bool) (hlive : (b.socket x).ended = false) :
    Forwarded (b.closes x handled) ↔ Forwarded b ∧ Drained b (.closes x handled) := by
  obtain ⟨hparted, hreceived, hhanded, hother, hotherReceived, hotherHanded⟩ :=
    closes_sockets b x handled
  have hfresh : (b.socket x).parted = false := by
    cases hx : (b.socket x).parted with
    | false => rfl
    | true => exact absurd ((h.marks.parted x hx).1.symm.trans hlive) (by decide)
  have hflow := (h.toward x.other).flow
  rw [other_other] at hflow
  -- With the other socket still there, its log is whole exactly when nothing waits for it.
  have hwhole : (b.socket x.other).phase ≠ .shut →
      ((b.socket x.other).handed = (b.socket x).received ↔
        (b.socket x.other).tail = [] ∧ (b.socket x.other).pending = []) := by
    intro hthere
    rw [hflow.whole hthere, List.append_assoc, List.self_eq_append_right, List.append_eq_nil_iff]
  constructor
  · intro hforwarded
    refine ⟨fun y hy => ?_, fun hfine hthere => ?_⟩
    · cases eq_or_other y x with
      | inl heq => exact absurd (hfresh.symm.trans (heq ▸ hy)) (by decide)
      | inr heq =>
        rw [heq] at hy ⊢
        have hback := hforwarded x.other (hother.trans hy)
        rw [other_other] at hback ⊢
        exact hhanded.symm.trans (hback.trans hotherReceived)
    · have hnow := hforwarded x (by rw [hparted]; simp [hfine, hthere])
      exact (hwhole hthere).mp (hotherHanded.symm.trans (hnow.trans hreceived))
  · intro hboth y hy
    cases eq_or_other y x with
    | inl heq =>
      rw [heq] at hy ⊢
      rw [hparted] at hy
      simp only [Bool.and_eq_true, Bool.not_eq_true', bne_iff_ne] at hy
      have hempty := hboth.2 hy.1 hy.2
      exact hotherHanded.trans (((hwhole hy.2).mpr hempty).trans hreceived.symm)
    | inr heq =>
      rw [heq] at hy ⊢
      have hback := hboth.1 x.other (hother.symm.trans hy)
      rw [other_other] at hback ⊢
      exact hhanded.trans (hback.trans hotherReceived.symm)

theorem step_forwarded_iff (hstep : step frameBytes o b a = some c) (h : Inv b) :
    Forwarded c ↔ Forwarded b ∧ Drained b a := by
  have hc := step_inv hstep h
  cases a with
  | closes x handled =>
    simp only [step, ite_none_left_eq_some, some.injEq] at hstep
    exact hstep.2 ▸ h.closes_forwarded_iff handled (by simpa using hstep.1)
  | opens | message | turn | written | leaves | errs | openTimeout | close =>
    have hsame := (step_still hstep (by simp)).forwarded_iff h hc
    exact hsame.trans ⟨fun hb => ⟨hb, trivial⟩, fun hb => hb.1⟩

/-! ## Runs -/

theorem inv_bridgeWebSockets (o : Options) (e : Ends) (frames : List (Frame δ × Gauge)) :
    Inv (bridgeWebSockets o e frames) ∧
      ∀ x, ((bridgeWebSockets o e frames).socket x).parted = false := by
  have hfold : ∀ b : Bridge δ, Inv b → (∀ x, (b.socket x).parted = false) →
      (b.socket .client).ended = false →
      Inv (frames.foldl (fun b f => b.receiveFrame o .client f.1 f.2) b) ∧
        ∀ x, ((frames.foldl (fun b f => b.receiveFrame o .client f.1 f.2) b).socket x).parted =
          false := by
    induction frames with
    | nil => exact fun b hinv hparted _ => ⟨hinv, hparted⟩
    | cons f fs ih =>
      intro b hinv hparted hended
      have hstill := receiveFrame_still o .client f.1 f.2 hended
      exact ih _ (hinv.receiveFrame f.1 (hparted .client) nofun o f.2)
        (fun x => (hstill.parted x).trans (hparted x)) ((hstill.ended .client).trans hended)
  exact hfold (connect o e) (inv_connect o e) (fun x => by cases x <;> rfl) rfl

/-- Whatever the interleaving, each side is handed a prefix of what the other sent. And a normal
close comes behind everything its side sent exactly when none of the closes meets a frame parked or
chained for the other socket. -/
theorem bridge_forwards {frameBytes : δ → Nat} {o : Options} {e : Ends}
    {frames : List (Frame δ × Gauge)} {actions : List (Action δ)} {b : Bridge δ}
    (hrun : run (step frameBytes o) (bridgeWebSockets o e frames) actions = some b) :
    (∀ x, (b.socket x.other).handed <+: (b.socket x).received) ∧ (Forwarded b ↔
        AllSteps (step frameBytes o) Drained (bridgeWebSockets o e frames) actions) := by
  have hstart := inv_bridgeWebSockets o e frames
  have hstep : ∀ b a c, step frameBytes o b a = some c → Inv b → Inv c :=
    fun _ _ _ hstep => step_inv hstep
  have hinv : Inv b := run_invariant hstep hrun hstart.1
  refine ⟨fun x => ?_, ?_⟩
  · have hpre := (hinv.toward x.other).flow.handed
    rw [other_other] at hpre
    exact hpre
  have hiff := run_iff_allSteps hstep (fun _ _ _ hstep => step_forwarded_iff hstep) hrun hstart.1
  have hfirst : Forwarded (bridgeWebSockets o e frames) := fun x hparted =>
    absurd ((hstart.2 x).symm.trans hparted) (by decide)
  exact hiff.trans ⟨fun h => h.2, fun h => ⟨hfirst, h⟩⟩

/-- The client opened before and sends two frames while the upstream connects; a third follows the
upstream's open event, and the upstream's frame goes back before it closes. -/
theorem bridge_forwards_example : ∃ b, run (step (fun data : Nat => data) {})
        (bridgeWebSockets {} ⟨.opened, false, true, false⟩ [(⟨7, true, 7⟩, {})])
        [.message .client 8 false {}, .opens .upstream [], .message .client 9 true {},
          .message .upstream 4 true {}, .turn .client, .written .client true,
          .closes .upstream false] = some b ∧
      b.upstream.handed = [⟨7, true, 7⟩, ⟨8, false, 8⟩, ⟨9, true, 9⟩] ∧
      b.client.handed = [⟨4, true, 4⟩] ∧
      Forwarded b := by
  have hsteps : AllSteps (step (fun data : Nat => data) {}) Drained
      (bridgeWebSockets {} ⟨.opened, false, true, false⟩ [(⟨7, true, 7⟩, {})])
      [.message .client 8 false {}, .opens .upstream [], .message .client 9 true {},
        .message .upstream 4 true {}, .turn .client, .written .client true,
        .closes .upstream false] := by decide
  exact ⟨_, rfl, rfl, rfl, (bridge_forwards rfl).2.mpr hsteps⟩

/-- The upstream sends two frames to a client that sends asynchronously and closes while the first
write is in flight: the second frame is never handed over. -/
theorem close_drops_chained : ∃ b, run (step (fun data : Nat => data) {})
        (bridgeWebSockets {} ⟨.opened, true, true, false⟩ [])
        [.message .upstream 4 true {}, .turn .client, .message .upstream 5 true {},
          .closes .upstream false, .written .client true, .turn .client] = some b ∧
      b.failed = false ∧ b.upstream.received = [⟨4, true, 4⟩, ⟨5, true, 5⟩] ∧
      b.client.handed = [⟨4, true, 4⟩] ∧ b.client.tail = [] ∧ b.client.inFlight = none ∧
      ¬Forwarded b := by
  refine ⟨_, rfl, rfl, rfl, rfl, rfl, rfl, fun hforwarded => ?_⟩
  have hboth := congrArg List.length (hforwarded .upstream rfl)
  exact absurd hboth (by decide)

end Bridge

end TaskHandoff.WebSocketBridge
