import TaskHandoff.WebSocketBridge.Prefix

/-! # Runs of a bridge

Every event keeps what is on its way to the two sockets. A normal close of one side leaves the
other with all it was sent exactly where nothing was parked or chained for it. -/

namespace TaskHandoff.WebSocketBridge

open Machine Option

universe u

variable {δ : Type u}

namespace Bridge

/-! ## What each event keeps -/

theorem acceptFrame_cases (o : Options) (bytes : Nat) (b : Bridge δ) :
    b.acceptFrame o bytes = (({ b with totalBytes := b.totalBytes + bytes } : Bridge δ).fail,
      false) ∨
    b.acceptFrame o bytes = ({ b with totalBytes := b.totalBytes + bytes }, true) := by
  rw [acceptFrame]
  split
  · exact .inl rfl
  · exact .inr rfl

variable {b : Bridge δ} {x : Side}

section

variable (h : Inv b)

include h

theorem Inv.log (f : Frame δ) (hquiet : (b.socket x).parted = false)
    (hheard : x = .upstream → (b.socket x).hasOpened = true) :
    Placing (b.modify x (.log f)) x.other ((b.socket x.other).pending ++ [f]) := by
  have hback := h.toward x
  refine ⟨?_, ⟨?_, ?_⟩, ⟨?_, fun hclosed => ?_, fun y hparted => ?_⟩⟩
  · have hflow := (h.toward x.other).flow
    rw [Side.other_other] at hflow ⊢
    rw [socket_modify_self, socket_modify_other]
    exact hflow.log f
  · rw [Side.other_other x, socket_modify_self, socket_modify_other]
    exact { hback.flow with }
  · rw [Side.other_other x, socket_modify_self]
    exact hback.flushed
  · rw [upstreamOpened_modify, h.marks.opened]
    cases x <;> rfl
  · cases x with
    | client => exact h.marks.silent hclosed
    | upstream => exact absurd (hclosed.symm.trans (hheard rfl)) (by decide)
  · cases Side.eq_or_other y x with
    | inl heq =>
      rw [heq, socket_modify_self] at hparted
      exact absurd (hquiet.symm.trans hparted) (by decide)
    | inr heq =>
      rw [heq] at hparted ⊢
      rw [socket_modify_other] at hparted ⊢
      rw [Side.other_other, socket_modify_self]
      have hold := h.marks.parted x.other hparted
      rw [Side.other_other] at hold
      exact hold

theorem Inv.receiveFrame (f : Frame δ) (hquiet : (b.socket x).parted = false)
    (hheard : x = .upstream → (b.socket x).hasOpened = true) (o : Options) (g : Gauge) :
    Inv (b.receiveFrame o x f g) := by
  have hlogged := h.log f hquiet hheard
  have hcounted := hlogged.idle (c := { b.modify x (.log f) with
      totalBytes := (b.modify x (.log f)).totalBytes + f.bytes })
    (idle_of_sockets (fun y => by cases y <;> rfl) rfl)
  rw [Bridge.receiveFrame]
  rcases acceptFrame_cases o f.bytes (b.modify x (.log f)) with hover | hwithin
  · rw [hover]
    exact hcounted.fail
  rw [hwithin]
  have hsame : ({ b.modify x (.log f) with
      totalBytes := (b.modify x (.log f)).totalBytes + f.bytes } : Bridge δ).socket x.other =
        b.socket x.other := by
    cases x <;> rfl
  simp only [if_true]
  split
  case isTrue hopen =>
    have hnone : (b.socket x.other).pending = [] := (h.toward x.other).flushed (hsame ▸ hopen)
    rw [hnone] at hcounted
    have hsent := hcounted.forward hopen (by rw [hsame, hnone]) o g
    cases hok : (Bridge.forward o x.other f g { b.modify x (.log f) with
        totalBytes := (b.modify x (.log f)).totalBytes + f.bytes }).2 with
    | false => exact hsent.1 hok
    | true =>
      have hplaced := hsent.2 hok
      exact inv_of_placing (x := x.other) (by rw [hplaced.2.2]; exact hplaced.1)
        fun _ => hplaced.2.2
  case isFalse hclosed =>
    have hparked : Placing ({ b.modify x (.log f) with
        totalBytes := (b.modify x (.log f)).totalBytes + f.bytes } : Bridge δ) x.other
          ((({ b.modify x (.log f) with
            totalBytes := (b.modify x (.log f)).totalBytes + f.bytes } : Bridge δ).socket
              x.other).pending ++ [f]) := by
      rw [hsame]
      exact hcounted
    exact hparked.queue hclosed o g

theorem Inv.turn {f : Frame δ} {rest : List (Frame δ)}
    (htail : (b.socket x).tail = f :: rest) : Inv (b.turn x f rest) := by
  have hplacing := h.placing x
  rw [Bridge.turn]
  split
  case isTrue hopen =>
    have hwritten : Placing (b.modify x (.write f rest)) x (b.socket x).pending :=
      hplacing.modify (hplacing.flow.write hopen htail) ⟨rfl, rfl, rfl, rfl, .inl rfl⟩
    refine inv_of_placing (x := x) ?_ fun _ => ?_
    · rw [socket_modify_self]
      exact hwritten
    · rw [socket_modify_self]
      exact (h.toward x).flushed hopen
  case isFalse hclosed =>
    have hshut : (b.socket x).phase = .shut := by
      cases hphase : (b.socket x).phase with
      | connecting => exact absurd ((h.toward x).flow.waiting hphase) (by simp [htail])
      | opened => exact absurd hphase hclosed
      | shut => rfl
    have hasync : (b.socket x).sendAsync = false → rest = [] := fun hsync =>
      absurd ((h.toward x).flow.direct hsync) (by simp [htail])
    have hskipped : Placing (b.modify x fun d => { d with tail := rest }) x (b.socket x).pending :=
      hplacing.modify (.of_shut hshut hplacing.flow.handed hasync) ⟨rfl, rfl, rfl, rfl, .inl rfl⟩
    have hinv : Inv (b.modify x fun d => { d with tail := rest }) := by
      refine inv_of_placing (x := x) ?_ fun hopen => ?_
      · rw [socket_modify_self]
        exact hskipped
      · rw [socket_modify_self] at hopen
        exact absurd hopen hclosed
    exact hinv.idle (idle_settleWrite x f _)

theorem Inv.opens (hconnecting : (b.socket x).phase = .connecting) (o : Options)
    (gs : List Gauge) : Inv (b.opens o x gs) := by
  have hflow := (h.toward x).flow
  have hflow : Flow (b.socket x.other).received (b.socket x).pending
      { b.socket x with phase := .opened, hasOpened := true } := by
    refine ⟨fun _ => hflow.whole (by simp [hconnecting]), hflow.handed, fun hphase => ?_,
      hflow.direct⟩
    cases hphase
  have hback : ∀ {c : Bridge δ}, c.socket x.other = b.socket x.other →
      (c.socket x).received = (b.socket x).received → Toward c x.other := fun hother hreceived =>
    (h.toward x.other).kept (by rw [hother]; exact .refl _) (by rw [Side.other_other, hreceived])
  cases x with
  | client =>
    have hplaced : Placing (b.modify .client fun d =>
        { d with phase := .opened, hasOpened := true }) .client b.client.pending := by
      refine ⟨hflow, hback rfl rfl, h.marks.opened, h.marks.silent, fun y hparted => ?_⟩
      cases y with
      | client => exact h.marks.parted .client hparted
      | upstream =>
        have hold := h.marks.parted .upstream hparted
        refine ⟨hold.1, .inr ?_⟩
        cases hold.2 with
        | inl hshut => exact absurd (hconnecting.symm.trans hshut) (by decide)
        | inr hnil => exact hnil
    exact hplaced.flush rfl o gs
  | upstream =>
    have hplaced : Placing ({ b.modify .upstream fun d =>
        { d with phase := .opened, hasOpened := true } with
          openTimer := false, upstreamOpened := true } : Bridge δ) .upstream
          b.upstream.pending := by
      refine ⟨hflow, hback rfl rfl, rfl, fun hclosed => (by cases hclosed), fun y hparted => ?_⟩
      cases y with
      | client =>
        have hold := h.marks.parted .client hparted
        refine ⟨hold.1, .inr ?_⟩
        cases hold.2 with
        | inl hshut => exact absurd (hconnecting.symm.trans hshut) (by decide)
        | inr hnil => exact hnil
      | upstream => exact h.marks.parted .upstream hparted
    exact hplaced.flush rfl o gs

theorem Inv.closes (handled : Bool) : Inv (b.closes x handled) := by
  have hself : ∀ {c : Bridge δ}, (c.socket x).phase = .shut →
      (c.socket x).handed = (b.socket x).handed → (c.socket x).tail = (b.socket x).tail →
      (c.socket x).sendAsync = (b.socket x).sendAsync →
      (c.socket x.other).received = (b.socket x.other).received → Toward c x := by
    intro c hshut hhanded htail hasync hreceived
    have hflow := (h.toward x).flow
    refine toward_of_shut hshut ?_ fun hsync => ?_
    · rw [hhanded, hreceived]
      exact hflow.handed
    · rw [htail]
      exact hflow.direct (hasync.symm.trans hsync)
  cases x with
  | client =>
    refine ⟨fun y => ?_, h.marks.opened, h.marks.silent, fun y hparted => ?_⟩
    · cases y with
      | client => exact hself rfl rfl rfl rfl rfl
      | upstream => exact (h.toward .upstream).kept (.shut _) rfl
    cases y with
    | client => exact ⟨rfl, .inl rfl⟩
    | upstream => exact ⟨(h.marks.parted .upstream hparted).1, .inl rfl⟩
  | upstream =>
    rw [closes]
    split
    case isTrue hhandled =>
      refine ⟨fun y => ?_, h.marks.opened, h.marks.silent, fun y hparted => ?_⟩
      · cases y with
        | client => exact (h.toward .client).kept (.refl _) rfl
        | upstream => exact hself rfl rfl rfl rfl rfl
      cases y with
      | client => exact ⟨(h.marks.parted .client hparted).1, .inl rfl⟩
      | upstream =>
        simp only [Bool.and_eq_true, Bool.not_eq_true'] at hhandled
        have hnever : b.upstream.hasOpened = false := h.marks.opened ▸ hhandled.1.1
        exact ⟨rfl, .inr (h.marks.silent hnever)⟩
    case isFalse =>
      refine ⟨fun y => ?_, h.marks.opened, h.marks.silent, fun y hparted => ?_⟩
      · cases y with
        | client => exact (h.toward .client).kept (.shut _) rfl
        | upstream => exact hself rfl rfl rfl rfl rfl
      cases y with
      | client => exact ⟨(h.marks.parted .client hparted).1, .inl rfl⟩
      | upstream => exact ⟨rfl, .inl rfl⟩

end

theorem step_inv {frameBytes : δ → Nat} {o : Options} {b c : Bridge δ} {a : Action δ}
    (hstep : step frameBytes o b a = some c) (h : Inv b) : Inv c := by
  cases a with
  | opens x gs =>
    simp only [step, ite_none_right_eq_some, some.injEq] at hstep
    exact hstep.2 ▸ h.opens hstep.1 o gs
  | message x data isBinary g =>
    simp only [step, ite_none_right_eq_some, some.injEq] at hstep
    have hquiet : (b.socket x).parted = false := by
      cases hparted : (b.socket x).parted with
      | false => rfl
      | true => exact absurd (h.marks.parted x hparted).1 hstep.1.2
    exact hstep.2 ▸ h.receiveFrame _ hquiet (fun _ => hstep.1.1) o g
  | turn x =>
    simp only [step] at hstep
    split at hstep
    case h_1 f rest _ htail =>
      cases hstep
      exact h.turn htail
    case h_2 => cases hstep
  | written x ok =>
    simp only [step] at hstep
    split at hstep
    · cases hstep
    cases hstep
    cases ok with
    | true => exact h.idle (idle_settleWrite x _ b)
    | false => exact h.idle ((idle_fail b).trans (idle_settleWrite x _ _))
  | leaves x =>
    cases hstep
    exact h.idle (idle_closeWebSocket b x)
  | closes x handled =>
    simp only [step, ite_none_left_eq_some, some.injEq] at hstep
    exact hstep.2 ▸ h.closes handled
  | errs x handled =>
    simp only [step, ite_none_left_eq_some, some.injEq] at hstep
    exact hstep.2 ▸ h.idle (idle_errs x handled b)
  | openTimeout =>
    simp only [step, ite_none_right_eq_some, some.injEq] at hstep
    exact hstep.2 ▸ h.idle (idle_openTimeout b)
  | close =>
    cases hstep
    exact h.idle (idle_close b)

/-! ## The start -/

theorem inv_connect (o : Options) (e : Ends) : Inv (connect (δ := δ) o e) := by
  refine ⟨fun x => ?_, rfl, fun _ => rfl, fun x hparted => ?_⟩
  · cases x with
    | client => exact ⟨⟨fun _ => rfl, List.nil_prefix, fun _ => rfl, fun _ => rfl⟩, fun _ => rfl⟩
    | upstream => exact ⟨⟨fun _ => rfl, List.nil_prefix, fun _ => rfl, fun _ => rfl⟩, fun _ => rfl⟩
  · cases x <;> cases hparted

end Bridge

end TaskHandoff.WebSocketBridge
