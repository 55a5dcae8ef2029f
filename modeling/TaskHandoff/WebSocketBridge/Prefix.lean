import TaskHandoff.WebSocketBridge.Bridge

/-! # What a bridge hands over is a prefix

Toward each side the frames handed, the tail of the asynchronous writes and the parked frames are
together what the other side sent, as long as the socket is not shut. What a shut socket got stays
a prefix of it. -/

namespace TaskHandoff.WebSocketBridge

open Machine

universe u

variable {δ : Type u}

/-! ## One direction -/

/-- The frames on their way to a socket: `queued` are those not handed and not chained. -/
structure Flow (received queued : List (Frame δ)) (d : Socket δ) : Prop where
  whole : d.phase ≠ .shut → received = d.handed ++ d.tail ++ queued
  handed : d.handed <+: received
  waiting : d.phase = .connecting → d.tail = []
  direct : d.sendAsync = false → d.tail = []

/-- What a handler of no open, message or close event may change at a socket. -/
structure Marked (d e : Socket δ) : Prop where
  received : e.received = d.received
  hasOpened : e.hasOpened = d.hasOpened
  ended : e.ended = d.ended
  parted : e.parted = d.parted
  phase : e.phase = d.phase ∨ e.phase = .shut

/-- What a handler may change at a socket without touching what is on its way there. -/
structure Kept (d e : Socket δ) : Prop extends Marked d e where
  handed : e.handed = d.handed
  tail : e.tail = d.tail
  pending : e.pending = d.pending
  sendAsync : e.sendAsync = d.sendAsync

theorem Marked.refl (d : Socket δ) : Marked d d := ⟨rfl, rfl, rfl, rfl, .inl rfl⟩

theorem Marked.trans {d e g : Socket δ} (h : Marked d e) (k : Marked e g) : Marked d g := by
  refine ⟨k.received.trans h.received, k.hasOpened.trans h.hasOpened, k.ended.trans h.ended,
    k.parted.trans h.parted, ?_⟩
  cases k.phase with
  | inl heq => exact heq ▸ h.phase
  | inr hshut => exact .inr hshut

theorem Kept.refl (d : Socket δ) : Kept d d := ⟨.refl d, rfl, rfl, rfl, rfl⟩

theorem Kept.shut (d : Socket δ) : Kept d d.shut :=
  ⟨⟨rfl, rfl, rfl, rfl, .inr rfl⟩, rfl, rfl, rfl, rfl⟩

theorem Kept.trans {d e g : Socket δ} (h : Kept d e) (k : Kept e g) : Kept d g :=
  ⟨h.toMarked.trans k.toMarked, k.handed.trans h.handed, k.tail.trans h.tail,
    k.pending.trans h.pending, k.sendAsync.trans h.sendAsync⟩

variable {received queued : List (Frame δ)} {f : Frame δ}

theorem Flow.kept {d e : Socket δ}
    (h : Flow received queued d) (k : Kept d e) : Flow received queued e := by
  refine ⟨fun hphase => ?_, ?_, fun hphase => ?_, fun hsync => ?_⟩
  · rw [k.handed, k.tail]
    exact h.whole (by cases k.phase with
      | inl heq => exact heq ▸ hphase
      | inr hshut => exact absurd hshut hphase)
  · rw [k.handed]
    exact h.handed
  · rw [k.tail]
    exact h.waiting (by cases k.phase with
      | inl heq => exact heq ▸ hphase
      | inr hshut => rw [hshut] at hphase; cases hphase)
  · rw [k.tail]
    exact h.direct (k.sendAsync ▸ hsync)

variable {d : Socket δ}

theorem Flow.of_shut (hshut : d.phase = .shut)
    (hpre : d.handed <+: received) (hdirect : d.sendAsync = false → d.tail = []) :
    Flow received queued d :=
  ⟨fun h => absurd hshut h, hpre, fun h => (by rw [hshut] at h; cases h), hdirect⟩

theorem Flow.log (h : Flow received queued d) (f : Frame δ) :
    Flow (received ++ [f]) (queued ++ [f]) d := by
  refine ⟨fun hphase => ?_, h.handed.trans (List.prefix_append _ _), h.waiting, h.direct⟩
  rw [h.whole hphase]
  simp

theorem Flow.hand
    (h : Flow received (f :: queued) d) (hopen : d.phase = .opened) (hsync : d.sendAsync = false) :
    Flow received queued (d.hand f) := by
  have hwhole : received = d.handed ++ [f] ++ queued := by
    rw [h.whole (by simp [hopen]), h.direct hsync]
    simp
  refine ⟨fun _ => ?_, ⟨queued, hwhole.symm⟩, h.waiting, h.direct⟩
  change received = d.handed ++ [f] ++ d.tail ++ queued
  rw [h.direct hsync, List.append_nil]
  exact hwhole

theorem Flow.chain
    (h : Flow received (f :: queued) d) (hopen : d.phase = .opened) (hasync : d.sendAsync = true) :
    Flow received queued (d.chain f) := by
  refine ⟨fun hphase => ?_, h.handed, fun hphase => ?_, fun hsync => ?_⟩
  · rw [h.whole hphase]
    simp [Socket.chain]
  · exact absurd (hopen.symm.trans hphase) (by decide)
  · exact absurd (hasync.symm.trans hsync) (by decide)

theorem Flow.write {received queued rest : List (Frame δ)}
    (h : Flow received queued d) (hopen : d.phase = .opened) (htail : d.tail = f :: rest) :
    Flow received queued (d.write f rest) := by
  have hwhole : received = d.handed ++ [f] ++ rest ++ queued := by
    rw [h.whole (by simp [hopen]), htail]
    simp
  refine ⟨fun _ => hwhole, ⟨rest ++ queued, by rw [hwhole]; simp [Socket.write]⟩,
    fun hphase => ?_, fun hsync => ?_⟩
  · exact absurd (hopen.symm.trans hphase) (by decide)
  · exact absurd (htail.symm.trans (h.direct hsync)) (List.cons_ne_nil f rest)

/-! ## Both directions -/

namespace Bridge

/-- Toward a side: everything is on its way, and an open socket has nothing parked. -/
structure Toward (b : Bridge δ) (x : Side) : Prop where
  flow : Flow (b.socket x.other).received (b.socket x).pending (b.socket x)
  flushed : (b.socket x).phase = .opened → (b.socket x).pending = []

/-- What the open and close events have left behind. -/
structure Marks (b : Bridge δ) : Prop where
  opened : b.upstreamOpened = b.upstream.hasOpened
  /-- Without an open event nothing came. -/
  silent : b.upstream.hasOpened = false → b.upstream.received = []
  parted : ∀ x, (b.socket x).parted = true → (b.socket x).ended = true ∧
    ((b.socket x.other).phase = .shut ∨ (b.socket x).received = [])

/-- What holds between two events. -/
structure Inv (b : Bridge δ) : Prop where
  toward : ∀ x, Toward b x
  marks : Marks b

/-- Handlers that place no frame. -/
structure Idle (b c : Bridge δ) : Prop where
  kept : ∀ x, Kept (b.socket x) (c.socket x)
  opened : c.upstreamOpened = b.upstreamOpened

theorem Idle.trans {a b c : Bridge δ} (h : Idle a b) (k : Idle b c) : Idle a c :=
  ⟨fun x => (h.kept x).trans (k.kept x), k.opened.trans h.opened⟩

variable {x : Side} {b c : Bridge δ}

theorem Toward.kept (h : Toward b x) (hself : Kept (b.socket x) (c.socket x))
    (hreceived : (c.socket x.other).received = (b.socket x.other).received) : Toward c x := by
  refine ⟨?_, fun hopen => ?_⟩
  · rw [hreceived, hself.pending]
    exact h.flow.kept hself
  rw [hself.pending]
  cases hself.phase with
  | inl heq => exact h.flushed (heq ▸ hopen)
  | inr hshut => rw [hshut] at hopen; cases hopen

theorem Marks.marked (h : Marks b) (k : ∀ x, Marked (b.socket x) (c.socket x))
    (hopened : c.upstreamOpened = b.upstreamOpened) : Marks c := by
  have hhas : c.upstream.hasOpened = b.upstream.hasOpened := (k .upstream).hasOpened
  refine ⟨?_, fun hclosed => ?_, fun x hparted => ?_⟩
  · rw [hopened, h.opened, hhas]
  · have hreceived : c.upstream.received = b.upstream.received := (k .upstream).received
    exact hreceived.trans (h.silent (hhas.symm.trans hclosed))
  have hold := h.parted x ((k x).parted.symm.trans hparted)
  refine ⟨(k x).ended.trans hold.1, ?_⟩
  cases hold.2 with
  | inl hshut =>
    left
    cases (k x.other).phase with
    | inl heq => exact heq.trans hshut
    | inr hgone => exact hgone
  | inr hnil => exact .inr ((k x).received.trans hnil)

theorem Inv.idle (h : Inv b) (k : Idle b c) : Inv c :=
  ⟨fun x => (h.toward x).kept (k.kept x) (k.kept x.other).received,
    h.marks.marked (fun x => (k.kept x).toMarked) k.opened⟩

/-! ## The handlers that place no frame -/

theorem idle_refl (b : Bridge δ) : Idle b b := ⟨fun _ => .refl _, rfl⟩

variable {f : Socket δ → Socket δ} {c : Bridge δ}

theorem idle_modify (b : Bridge δ) (x : Side) (hf : ∀ d, Kept d (f d)) : Idle b (b.modify x f) := by
  refine ⟨fun y => ?_, upstreamOpened_modify b x f⟩
  cases Side.eq_or_other y x with
  | inl heq =>
    rw [heq, socket_modify_self]
    exact hf _
  | inr heq =>
    rw [heq, socket_modify_other]
    exact .refl _

theorem idle_closeWebSocket (b : Bridge δ) (x : Side) : Idle b (b.closeWebSocket x) :=
  idle_modify b x .shut

theorem idle_fail (b : Bridge δ) : Idle b b.fail :=
  ⟨fun x => by rw [socket_fail]; exact .shut _, rfl⟩

theorem idle_of_sockets (h : ∀ x, c.socket x = b.socket x)
    (hopened : c.upstreamOpened = b.upstreamOpened) : Idle b c :=
  ⟨fun x => by rw [h x]; exact .refl _, hopened⟩

theorem idle_settleWrite (x : Side) (f : Frame δ) (b : Bridge δ) : Idle b (b.settleWrite x f) := by
  have hfirst : Idle b (b.modify x fun d =>
      { d with writeBytes := d.writeBytes - f.bytes, inFlight := none }) :=
    idle_modify b x fun _ => ⟨⟨rfl, rfl, rfl, rfl, .inl rfl⟩, rfl, rfl, rfl, rfl⟩
  rw [settleWrite]
  split
  · exact hfirst.trans
      (idle_modify _ _ fun _ => ⟨⟨rfl, rfl, rfl, rfl, .inl rfl⟩, rfl, rfl, rfl, rfl⟩)
  · exact hfirst

theorem idle_errs (x : Side) (handled : Bool) (b : Bridge δ) : Idle b (b.errs x handled) := by
  cases x with
  | client =>
    have hflags : Idle b { b with openTimer := false, clientClosed := true } :=
      idle_of_sockets (fun x => by cases x <;> rfl) rfl
    exact hflags.trans (idle_closeWebSocket _ _)
  | upstream =>
    rw [errs]
    split
    · exact idle_refl b
    · exact idle_closeWebSocket _ _

theorem idle_openTimeout (b : Bridge δ) : Idle b b.openTimeout := by
  have hflags : Idle b { b with openTimer := false } :=
    idle_of_sockets (fun x => by cases x <;> rfl) rfl
  rw [openTimeout]
  split
  · exact hflags.trans ((idle_closeWebSocket _ _).trans (idle_closeWebSocket _ _))
  · exact hflags

theorem idle_close (b : Bridge δ) : Idle b b.close := by
  have hflags : Idle b { b with openTimer := false } :=
    idle_of_sockets (fun x => by cases x <;> rfl) rfl
  exact hflags.trans ((idle_closeWebSocket _ _).trans (idle_closeWebSocket _ _))

/-! ## Frames placed by a handler -/

/-- Inside a handler that places frames toward `x`: `queued` are not handed and not chained. -/
structure Placing (b : Bridge δ) (x : Side) (queued : List (Frame δ)) : Prop where
  flow : Flow (b.socket x.other).received queued (b.socket x)
  back : Toward b x.other
  marks : Marks b

variable {b : Bridge δ}

theorem toward_of_shut (hshut : (b.socket x).phase = .shut)
    (hpre : (b.socket x).handed <+: (b.socket x.other).received)
    (hdirect : (b.socket x).sendAsync = false → (b.socket x).tail = []) : Toward b x :=
  ⟨.of_shut hshut hpre hdirect, fun hopen => absurd (hshut.symm.trans hopen) (by decide)⟩

theorem inv_of_placing (h : Placing b x (b.socket x).pending)
    (hflushed : (b.socket x).phase = .opened → (b.socket x).pending = []) : Inv b := by
  refine ⟨fun y => ?_, h.marks⟩
  cases Side.eq_or_other y x with
  | inl heq =>
    rw [heq]
    exact ⟨h.flow, hflushed⟩
  | inr heq =>
    rw [heq]
    exact h.back

theorem Inv.placing (h : Inv b) (x : Side) : Placing b x (b.socket x).pending :=
  ⟨(h.toward x).flow, h.toward x.other, h.marks⟩

variable {queued : List (Frame δ)}

theorem Placing.idle (h : Placing b x queued) (k : Idle b c) : Placing c x queued := by
  refine ⟨?_, h.back.kept (k.kept x.other) (k.kept x.other.other).received,
    h.marks.marked (fun y => (k.kept y).toMarked) k.opened⟩
  rw [(k.kept x.other).received]
  exact h.flow.kept (k.kept x)

theorem Placing.fail (h : Placing b x queued) : Inv b.fail := by
  have hshut := h.idle (idle_fail b)
  refine inv_of_placing (x := x) ⟨.of_shut ?_ hshut.flow.handed hshut.flow.direct, hshut.back,
    hshut.marks⟩ fun hopen => ?_
  · rw [socket_fail]
    rfl
  · rw [socket_fail] at hopen
    cases hopen

theorem forward_cases (o : Options) (x : Side) (f : Frame δ) (g : Gauge) (b : Bridge δ) :
    b.forward o x f g = (b.fail, false) ∨
    ((b.socket x).sendAsync = true ∧ b.forward o x f g =
      ((b.modify x (.chain f)).modify x.other fun d => { d with paused := true }, true)) ∨
    ((b.socket x).sendAsync = false ∧ b.forward o x f g = (b.modify x (.hand f), true)) := by
  rw [forward]
  split
  · exact .inl rfl
  split
  case isTrue hasync =>
    split
    · exact .inl rfl
    · exact .inr (.inl ⟨hasync, rfl⟩)
  case isFalse hsync =>
    split
    · exact .inl rfl
    · exact .inr (.inr ⟨by simpa using hsync, rfl⟩)

theorem Placing.modify {queued rest : List (Frame δ)}
    (h : Placing b x queued) (hflow : Flow (b.socket x.other).received rest (f (b.socket x)))
    (hmarked : Marked (b.socket x) (f (b.socket x))) : Placing (b.modify x f) x rest := by
  refine ⟨?_, h.back.kept ?_ ?_, h.marks.marked (fun y => ?_) (upstreamOpened_modify b x f)⟩
  · rw [socket_modify_self, socket_modify_other]
    exact hflow
  · rw [socket_modify_other]
    exact .refl _
  · rw [Side.other_other, socket_modify_self]
    exact hmarked.received
  · cases Side.eq_or_other y x with
    | inl heq =>
      rw [heq, socket_modify_self]
      exact hmarked
    | inr heq =>
      rw [heq, socket_modify_other]
      exact .refl _

theorem idle_paused (b : Bridge δ) (x : Side) (paused : Bool) :
    Idle b (b.modify x fun d => { d with paused }) :=
  idle_modify b x fun _ => ⟨⟨rfl, rfl, rfl, rfl, .inl rfl⟩, rfl, rfl, rfl, rfl⟩

theorem Placing.forward {f : Frame δ} (h : Placing b x (f :: queued))
    (hopen : (b.socket x).phase = .opened) (hpending : (b.socket x).pending = []) (o : Options)
    (g : Gauge) : ((b.forward o x f g).2 = false → Inv (b.forward o x f g).1) ∧
    ((b.forward o x f g).2 = true → Placing (b.forward o x f g).1 x queued ∧
      ((b.forward o x f g).1.socket x).phase = .opened ∧
      ((b.forward o x f g).1.socket x).pending = []) := by
  rcases forward_cases o x f g b with hfail | ⟨hasync, hchain⟩ | ⟨hsync, hhand⟩
  · rw [hfail]
    exact ⟨fun _ => h.fail, Bool.noConfusion⟩
  · rw [hchain]
    refine ⟨Bool.noConfusion, fun _ => ⟨?_, ?_, ?_⟩⟩
    · have hplaced : Placing (b.modify x (.chain f)) x queued :=
        h.modify (h.flow.chain hopen hasync) ⟨rfl, rfl, rfl, rfl, .inl rfl⟩
      exact hplaced.idle (idle_paused _ _ true)
    · simpa [Socket.chain] using hopen
    · simpa [Socket.chain] using hpending
  · rw [hhand]
    refine ⟨Bool.noConfusion, fun _ => ⟨?_, ?_, ?_⟩⟩
    · exact h.modify (h.flow.hand hopen hsync) ⟨rfl, rfl, rfl, rfl, .inl rfl⟩
    · simpa [Socket.hand] using hopen
    · simpa [Socket.hand] using hpending

theorem Placing.queue {f : Frame δ} (h : Placing b x ((b.socket x).pending ++ [f]))
    (hclosed : (b.socket x).phase ≠ .opened) (o : Options) (g : Gauge) : Inv (b.queue o x f g) := by
  rw [Bridge.queue]
  split
  · exact h.fail
  split
  · exact h.fail
  have hflow : Flow (b.socket x.other).received ((b.socket x).pending ++ [f])
      ((b.socket x).park f) :=
    { h.flow with }
  have hplaced : Placing (b.modify x (.park f)) x ((b.socket x).pending ++ [f]) :=
    h.modify hflow ⟨rfl, rfl, rfl, rfl, .inl rfl⟩
  refine inv_of_placing (x := x) ?_ fun hopen => ?_
  · rw [socket_modify_self]
    exact hplaced
  · rw [socket_modify_self] at hopen
    exact absurd hopen hclosed

theorem Placing.flushFrames {frames : List (Frame δ)} {gs : List Gauge} (h : Placing b x frames)
    (hopen : (b.socket x).phase = .opened) (hpending : (b.socket x).pending = []) (o : Options) :
    Inv (b.flushFrames o x frames gs) := by
  induction frames generalizing b gs with
  | nil =>
    have hinv : Inv b := inv_of_placing (x := x) (by rw [hpending]; exact h) fun _ => hpending
    exact hinv
  | cons f fs ih =>
    have hdequeued : Placing (b.modify x (.dequeued f)) x (f :: fs) :=
      h.idle (idle_modify b x fun _ => ⟨⟨rfl, rfl, rfl, rfl, .inl rfl⟩, rfl, rfl, rfl, rfl⟩)
    have hsent := hdequeued.forward (by simpa [Socket.dequeued] using hopen)
      (by simpa [Socket.dequeued] using hpending) o (gs.headD default)
    rw [flushFrames]
    split
    case isTrue htrue =>
      have hnext := hsent.2 htrue
      exact ih hnext.1 hnext.2.1 hnext.2.2
    case isFalse hfalse => exact hsent.1 (by simpa using hfalse)

theorem Placing.flush (h : Placing b x (b.socket x).pending) (hopen : (b.socket x).phase = .opened)
    (o : Options) (gs : List Gauge) : Inv (b.flush o x gs) := by
  have htaken : Placing (b.modify x fun d => { d with pending := [] }) x (b.socket x).pending :=
    h.modify { h.flow with } ⟨rfl, rfl, rfl, rfl, .inl rfl⟩
  rw [Bridge.flush, if_pos hopen]
  exact htaken.flushFrames (by simpa using hopen) (by simp) o

end Bridge

end TaskHandoff.WebSocketBridge
