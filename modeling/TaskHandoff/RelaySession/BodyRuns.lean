import TaskHandoff.RelaySession.Bodies

/-! # Runs of request bodies

What holds of one assembly by itself, kept by each of its handlers, and what holds of the tables,
kept as long as no request takes a body id that is in use. -/

namespace TaskHandoff.RelaySession

open Machine OrderedMap List Option Assembly

/-! ## One assembly -/

/-- The bytes that frames carry from the start on, each frame where the ones before ended. -/
def bytesOf (frames : List (Nat × List UInt8)) : List UInt8 :=
  frames.foldl (fun bytes f => if f.1 = bytes.length then bytes ++ f.2 else bytes) []

theorem bytesOf_snoc (frames : List (Nat × List UInt8)) (f : Nat × List UInt8) :
    bytesOf (frames ++ [f]) =
      if f.1 = (bytesOf frames).length then bytesOf frames ++ f.2 else bytesOf frames := by
  unfold bytesOf
  rw [foldl_append]
  rfl

theorem bytesOf_prefix_snoc (frames : List (Nat × List UInt8)) (f : Nat × List UInt8) :
    bytesOf frames <+: bytesOf (frames ++ [f]) := by
  rw [bytesOf_snoc]
  split
  · exact prefix_append _ _
  · exact prefix_rfl

namespace Assembly

structure Sound (a : Assembly) : Prop where
  carried : a.written <+: bytesOf a.carried
  live : a.destroyed = false → a.received ≤ a.size →
    a.received = a.written.length ∧ bytesOf a.carried = a.written
  read : a.readBytes <+: a.written
  ended : a.ended = true → a.written.length = a.size
  sawEnd : a.sawEnd = true → a.ended = true ∧ a.readBytes = a.written
  acknowledged : a.acknowledged ≤ a.written.length
  pending : ∀ offset, a.pendingAck = some offset → offset ≤ a.written.length
  acks : a.acks.Pairwise (· < ·) ∧ ∀ offset ∈ a.acks, offset ≤ a.acknowledged

theorem Sound.start (bodyId : Nat) (requestId : String) (size : Nat) :
    Sound (.start bodyId requestId size) where
  carried := prefix_rfl
  live _ _ := ⟨rfl, rfl⟩
  read := prefix_rfl
  ended heq := by cases heq
  sawEnd heq := by cases heq
  acknowledged := Nat.le_refl _
  pending _ heq := by cases heq
  acks := ⟨List.Pairwise.nil, nofun⟩

variable {a : Assembly}

theorem Sound.flushBodyAck (h : Sound a) (link : Link) (fails : List Bool) :
    Sound (a.flushBodyAck link fails).1 := by
  unfold Assembly.flushBodyAck
  cases hpending : a.pendingAck with
  | none => exact h
  | some offset =>
    have hle := h.pending offset hpending
    dsimp only
    split
    · exact h
    rename_i hgrows
    have hold : ∀ x ∈ a.acks, x < offset := by
      intro x hx
      have hacked := h.acks.2 x hx
      omega
    split
    · exact { h with
        acknowledged := hle
        pending := nofun
        acks := ⟨h.acks.1, fun x hx => Nat.le_of_lt (hold x hx)⟩ }
    split
    · exact { h with
        acknowledged := hle
        pending := nofun
        acks := ⟨h.acks.1, fun x hx => Nat.le_of_lt (hold x hx)⟩ }
    · refine { h with acknowledged := hle, pending := nofun, acks := ⟨?_, ?_⟩ }
      · rw [pairwise_append]
        refine ⟨h.acks.1, pairwise_singleton _ _, ?_⟩
        intro x hx y hy
        rw [mem_singleton.mp hy]
        exact hold x hx
      · intro x hx
        cases mem_append.mp hx with
        | inl hmem => exact Nat.le_of_lt (hold x hmem)
        | inr hnew => exact Nat.le_of_eq (mem_singleton.mp hnew)

/-- What the tables know of an assembly. -/
def label (a : Assembly) : Nat × String × Bool × Bool :=
  (a.bodyId, a.requestId, a.answered, a.timer)

/-- What a flush leaves of a stream. -/
def stream (a : Assembly) : Nat × Nat × List UInt8 × Bool × Bool :=
  (a.size, a.received, a.written, a.ended, a.destroyed)

theorem flushBodyAck_frame (a : Assembly) (link : Link) (fails : List Bool) :
    (a.flushBodyAck link fails).1.label = a.label ∧
      (a.flushBodyAck link fails).1.stream = a.stream := by
  unfold flushBodyAck
  split
  · exact ⟨rfl, rfl⟩
  split
  · exact ⟨rfl, rfl⟩
  split
  · exact ⟨rfl, rfl⟩
  · split
    · exact ⟨rfl, rfl⟩
    · exact ⟨rfl, rfl⟩

theorem Sound.carry (h : Sound a) (f : Nat × List UInt8)
    (hskipped : a.destroyed = true ∨ a.size < a.received ∨ f.1 ≠ a.received) :
    Sound { a with carried := a.carried ++ [f] } where
  __ := h
  carried := h.carried.trans (bytesOf_prefix_snoc _ _)
  live halive hfits := by
    have hlive := h.live halive hfits
    refine ⟨hlive.1, ?_⟩
    rw [bytesOf_snoc, hlive.2]
    have hgap : f.1 ≠ a.written.length := by
      rw [← hlive.1]
      cases hskipped with
      | inl hdestroyed =>
        have halive' : a.destroyed = false := halive
        rw [halive'] at hdestroyed
        cases hdestroyed
      | inr hrest =>
        cases hrest with
        | inl hover =>
          have hfits' : a.received ≤ a.size := hfits
          omega
        | inr hgap => exact hgap
    exact if_neg hgap

theorem Sound.take (h : Sound a) (f : Nat × List UInt8) (writable : Bool)
    (halive : a.destroyed = false) (hoffset : f.1 = a.received)
    (hfits : a.received + f.2.length ≤ a.size) : let w := ({ a with
      carried := a.carried ++ [f]
      received := a.received + f.2.length } : Assembly).write f.2 writable
    Sound { w.1 with pendingAck := some w.1.received } ∧
      (w.1.ended = true ∨ w.1.written.length = w.1.received) := by
  have hlive := h.live halive (by omega)
  have hbytes : bytesOf (a.carried ++ [f]) = a.written ++ f.2 := by
    rw [bytesOf_snoc, hlive.2, if_pos (hoffset.trans hlive.1)]
  unfold write
  split
  next hended =>
    have hfull := h.ended hended
    refine ⟨?_, .inl hended⟩
    refine ⟨?_, fun hdead => (by cases hdead), h.read, fun _ => hfull, h.sawEnd, h.acknowledged,
      ?_, h.acks⟩
    · exact h.carried.trans (bytesOf_prefix_snoc _ _)
    intro offset hoffset
    have hsame : a.received + f.2.length = offset := some.inj hoffset
    dsimp only
    omega
  next hopen =>
    have hlength : (a.written ++ f.2).length = a.received + f.2.length := by
      rw [length_append, hlive.1]
    refine ⟨?_, .inr hlength⟩
    refine ⟨?_, fun _ _ => ⟨hlength.symm, hbytes⟩, ?_, fun hended => absurd hended hopen,
      fun hsaw => absurd (h.sawEnd hsaw).1 hopen, ?_, ?_, h.acks⟩
    · exact hbytes ▸ prefix_rfl
    · exact h.read.trans (prefix_append _ _)
    · have hacked := h.acknowledged
      dsimp only
      omega
    · intro offset hoffset
      have hsame : a.received + f.2.length = offset := some.inj hoffset
      dsimp only
      omega

theorem Sound.overflow (h : Sound a) (f : Nat × List UInt8) {received : Nat}
    (hover : a.size < received) :
    Sound { a with carried := a.carried ++ [f], received := received } where
  __ := h
  carried := h.carried.trans (bytesOf_prefix_snoc _ _)
  live _ hfits := absurd hover (Nat.not_lt.mpr hfits)

theorem Sound.finish (h : Sound a) (hfull : a.ended = true ∨ a.written.length = a.size) :
    Sound { a with ended := true } :=
  { h with
    ended := fun _ => hfull.elim h.ended id
    sawEnd := fun hsaw => ⟨rfl, (h.sawEnd hsaw).2⟩ }

theorem Sound.acknowledge {w : Assembly × Bool}
    (h : Sound { w.1 with pendingAck := some w.1.received })
    (hfull : w.1.ended = true ∨ w.1.written.length = w.1.received) (link : Link)
    (fails : List Bool) (final : Bool) : Sound (Assembly.acknowledge link fails final w) := by
  have hfinish : ∀ b : Assembly, Sound b → b.stream = w.1.stream →
      Sound (if final ∧ b.received = b.size then { b with ended := true } else b) := by
    intro b hb hstream
    split
    next hlast =>
      have hended : b.ended = w.1.ended := congrArg (·.2.2.2.1) hstream
      have hwritten : b.written = w.1.written := congrArg (·.2.2.1) hstream
      have hreceived : b.received = w.1.received := congrArg (·.2.1) hstream
      refine hb.finish ?_
      rw [hended, hwritten, ← hlast.2, hreceived]
      exact hfull
    · exact hb
  unfold Assembly.acknowledge
  dsimp only
  split
  · have hflushed := h.flushBodyAck link fails
    split
    · exact hflushed
    · exact hfinish _ hflushed (flushBodyAck_frame _ link fails).2
  · exact hfinish _ { h with } rfl

theorem Sound.acceptBodyChunk (h : Sound a) (link : Link) (fails : List Bool) (f : BodyFrame)
    (writable : Bool) : Sound (a.acceptBodyChunk link fails f writable) := by
  unfold Assembly.acceptBodyChunk
  dsimp only
  split
  next hdestroyed => exact h.carry _ (.inl hdestroyed)
  rename_i halive
  have halive : a.destroyed = false := by simpa using halive
  split
  next hgap => exact h.carry _ (.inr (.inr hgap))
  rename_i hoffset
  split
  next hover => exact h.overflow _ hover
  next hfits =>
    have htake := h.take (f.offset, f.bytes) writable halive (by simpa using hoffset)
      (Nat.not_lt.mp hfits)
    exact htake.1.acknowledge htake.2 link fails f.final

theorem label_acceptBodyChunk (a : Assembly) (link : Link) (fails : List Bool) (f : BodyFrame)
    (writable : Bool) : (a.acceptBodyChunk link fails f writable).label = a.label ∧
      (a.destroyed = true → (a.acceptBodyChunk link fails f writable).destroyed = true) := by
  have hwrite : ∀ b : Assembly, (b.write f.bytes writable).1.label = b.label := by
    intro b
    unfold write
    split
    · rfl
    · rfl
  have hacknowledge : ∀ w : Assembly × Bool,
      (acknowledge link fails f.final w).label = w.1.label := by
    intro w
    unfold acknowledge
    dsimp only
    have hflush := (flushBodyAck_frame { w.1 with pendingAck := some w.1.received } link fails).1
    split
    · split
      · exact hflush
      · split
        · exact hflush
        · exact hflush
    · split
      · rfl
      · split
        · rfl
        · rfl
  unfold acceptBodyChunk
  dsimp only
  split
  next hdestroyed => exact ⟨rfl, fun _ => hdestroyed⟩
  rename_i halive
  refine ⟨?_, fun hdestroyed => absurd hdestroyed halive⟩
  split
  · rfl
  split
  · rfl
  · exact (hacknowledge _).trans (hwrite _)

end Assembly

/-! ## The tables -/

namespace Bodies

open Assembly

structure Inv (s : State) : Prop where
  sound : ∀ (i : Nat) (a : Assembly), s.assemblies[i]? = some a → Sound a
  registered : ∀ b i, s.bodies.get? b = some i →
    ∃ a, s.assemblies[i]? = some a ∧ a.bodyId = b ∧ a.answered = false
  /-- What is not in the table has been taken off it. -/
  disposed : ∀ (i : Nat) (a : Assembly), s.assemblies[i]? = some a →
    s.bodies.get? a.bodyId = some i ∨ (a.timer = false ∧ a.destroyed = true)
  requests : ∀ r b, s.bodyByRequest.get? r = some b →
    ∃ i a, s.bodies.get? b = some i ∧ s.assemblies[i]? = some a ∧ a.requestId = r

variable {f : Assembly → Assembly} {i j : Nat} {l : List Assembly} {t : State}

theorem at_modify {x : Assembly} (h : (l.modify i f)[j]? = some x) :
    ∃ a, l[j]? = some a ∧ x = if i = j then f a else a := by
  rw [getElem?_modify] at h
  cases hold : l[j]? with
  | none => simp [hold] at h
  | some a =>
    rw [hold] at h
    refine ⟨a, rfl, ?_⟩
    have hx := some.inj h
    split
    next heq => simpa [heq] using hx.symm
    next hne => simpa [hne] using hx.symm

variable {a : Assembly}

theorem modify_at (h : l[j]? = some a) : (l.modify i f)[j]? = some (if i = j then f a else a) := by
  rw [getElem?_modify, h]
  split
  · simp
  · simp

variable {s : State}

section

variable (h : Inv s)

include h

theorem Inv.modify (i : Nat) (f : Assembly → Assembly)
    (hsound : ∀ a, s.assemblies[i]? = some a → Sound (f a))
    (hids : ∀ a, (f a).bodyId = a.bodyId ∧ (f a).requestId = a.requestId ∧
      (f a).answered = a.answered) (hdisposed : ∀ a, a.timer = false ∧ a.destroyed = true →
      (f a).timer = false ∧ (f a).destroyed = true) : Inv (s.modify i f) where
  sound j x hx := by
    cases at_modify hx with
    | intro a ha =>
      rw [ha.2]
      split
      next heq => exact hsound a (heq ▸ ha.1)
      · exact h.sound j a ha.1
  registered b j hj := by
    cases h.registered b j hj with
    | intro a ha =>
      refine ⟨_, modify_at ha.1, ?_⟩
      split
      · rw [(hids a).1, (hids a).2.2]
        exact ha.2
      · exact ha.2
  disposed j x hx := by
    cases at_modify hx with
    | intro a ha =>
      have hold := h.disposed j a ha.1
      rw [ha.2]
      split
      · rw [(hids a).1]
        exact hold.imp_right (hdisposed a)
      · exact hold
  requests r b hr := by
    cases h.requests r b hr with
    | intro j hj =>
      cases hj with
      | intro a ha =>
        refine ⟨j, _, ha.1, modify_at ha.2.1, ?_⟩
        split
        · rw [(hids a).2.1]
          exact ha.2.2
        · exact ha.2.2

theorem Inv.openBody (requestId : String) {bodyId : Nat} (size : Nat)
    (hfresh : s.bodies.get? bodyId = none) : Inv (s.openBody requestId bodyId size) := by
  have hat : ∀ (i : Nat) (a : Assembly), (s.openBody requestId bodyId size).assemblies[i]? = some a →
      s.assemblies[i]? = some a ∨ (i = s.assemblies.length ∧ a = .start bodyId requestId size) := by
    intro i a ha
    unfold State.openBody at ha
    rw [List.getElem?_append] at ha
    split at ha
    · exact .inl ha
    rename_i hge
    have hnew := List.getElem?_eq_some_iff.mp ha
    cases hnew with
    | intro hlt heq =>
      have hlt' : i - s.assemblies.length < 1 := hlt
      have hi : i = s.assemblies.length := by omega
      subst hi
      simp at heq
      exact .inr ⟨rfl, heq.symm⟩
  have hold : ∀ (i : Nat) (a : Assembly), s.assemblies[i]? = some a →
      (s.openBody requestId bodyId size).assemblies[i]? = some a := by
    intro i a ha
    exact (List.getElem?_append_left (List.getElem?_eq_some_iff.mp ha).1).trans ha
  have hself : (s.openBody requestId bodyId size).assemblies[s.assemblies.length]? =
      some (.start bodyId requestId size) := by
    unfold State.openBody
    simp
  have hother : ∀ b i, s.bodies.get? b = some i → b ≠ bodyId := by
    intro b i hb heq
    rw [heq, hfresh] at hb
    cases hb
  refine ⟨?_, ?_, ?_, ?_⟩
  · intro i a ha
    cases hat i a ha with
    | inl hbefore => exact h.sound i a hbefore
    | inr hnew => exact hnew.2 ▸ Sound.start bodyId requestId size
  · intro b i hb
    unfold State.openBody at hb
    rw [get?_set] at hb
    split at hb
    next heq =>
      cases hb
      exact ⟨_, hself, heq.symm ▸ rfl, rfl⟩
    · cases h.registered b i hb with
      | intro a ha => exact ⟨a, hold i a ha.1, ha.2⟩
  · intro i a ha
    unfold State.openBody
    rw [get?_set]
    cases hat i a ha with
    | inl hbefore =>
      refine (h.disposed i a hbefore).imp_left ?_
      intro hin
      rw [if_neg (hother _ _ hin)]
      exact hin
    | inr hnew =>
      refine .inl ?_
      rw [hnew.1, hnew.2]
      exact if_pos rfl
  · intro r b hr
    unfold State.openBody at hr ⊢
    rw [get?_set] at hr
    split at hr
    next heq =>
      cases hr
      refine ⟨s.assemblies.length, _, ?_, hself, heq.symm⟩
      rw [get?_set, if_pos rfl]
    · cases h.requests r b hr with
      | intro i hi =>
        cases hi with
        | intro a ha =>
          refine ⟨i, a, ?_, hold i a ha.2.1, ha.2.2⟩
          rw [get?_set, if_neg (hother b i ha.1)]
          exact ha.1

theorem Inv.abortBody (i : Nat) : Inv (s.abortBody i) := by
  unfold State.abortBody
  cases hat : s.assemblies[i]? with
  | none => exact h
  | some a =>
    dsimp only
    split
    swap
    · exact h
    rename_i hregistered
    have hmodified := h.modify i dispose
      (fun x hx => { h.sound i x hx with live := fun hdead => by cases hdead })
      (fun _ => ⟨rfl, rfl, rfl⟩) (fun _ _ => ⟨rfl, rfl⟩)
    refine ⟨hmodified.sound, ?_, ?_, ?_⟩
    · intro b j hb
      exact hmodified.registered b j (get?_erase_eq_some hb).2
    · intro j x hx
      cases at_modify hx with
      | intro y hy =>
        by_cases heq : i = j
        · rw [hy.2, if_pos heq]
          exact .inr ⟨rfl, rfl⟩
        rw [hy.2, if_neg heq]
        refine (h.disposed j y hy.1).imp_left ?_
        intro hin
        rw [get?_erase]
        split
        next hsame =>
          rw [hsame, hregistered] at hin
          exact absurd (some.inj hin) heq
        · exact hin
    · intro r b hr
      have hkept := get?_erase_eq_some hr
      cases h.requests r b hkept.2 with
      | intro j hj =>
        cases hj with
        | intro x hx =>
          have hij : i ≠ j := by
            intro heq
            have hsame : a = x := some.inj (hat.symm.trans (heq ▸ hx.2.1))
            exact hkept.1 (hsame ▸ hx.2.2.symm)
          have hb : b ≠ a.bodyId := by
            intro heq
            have hin := hx.1
            rw [heq, hregistered] at hin
            exact hij (some.inj hin)
          refine ⟨j, x, (get?_erase_ne _ hb).trans hx.1, ?_, hx.2.2⟩
          exact (modify_at hx.2.1).trans (by rw [if_neg hij])

theorem Inv.abortAll : Inv s.abortAll := by
  have hloop : ∀ (l : List Nat) (s : State), Inv s → Inv (l.foldl State.abortBody s) := by
    intro l
    induction l with
    | nil => exact fun _ => id
    | cons i l ih => exact fun s h => ih _ (h.abortBody i)
  exact hloop s.bodies.values s h

variable (hat : s.assemblies[i]? = some a)

include hat

theorem Inv.unregistered_abortBody (b : Nat) : (s.abortBody i).bodies.get? b ≠ some i := by
  have hown : ∀ b, s.bodies.get? b = some i → b = a.bodyId := by
    intro b hb
    cases h.registered b i hb with
    | intro x hx =>
      have hsame : a = x := some.inj (hat.symm.trans hx.1)
      exact hsame ▸ hx.2.1.symm
  unfold State.abortBody
  rw [hat]
  dsimp only
  intro hb
  split at hb
  · have hkept := get?_erase_eq_some hb
    exact hkept.1 (hown b hkept.2)
  next hgone => exact hgone (hown b hb ▸ hb)

theorem Inv.answer : Inv ((s.abortBody i).modify i fun a => { a with answered := true }) := by
  have haborted := h.abortBody i
  refine ⟨?_, ?_, ?_, ?_⟩
  · intro j x hx
    cases at_modify hx with
    | intro y hy =>
      rw [hy.2]
      split
      · exact { haborted.sound j y hy.1 with }
      · exact haborted.sound j y hy.1
  · intro b j hb
    cases haborted.registered b j hb with
    | intro x hx =>
      have hne : i ≠ j := by
        intro heq
        exact h.unregistered_abortBody hat b (heq ▸ hb)
      exact ⟨x, (modify_at hx.1).trans (by rw [if_neg hne]), hx.2⟩
  · intro j x hx
    cases at_modify hx with
    | intro y hy =>
      have hold := haborted.disposed j y hy.1
      rw [hy.2]
      split
      · exact hold
      · exact hold
  · intro r b hr
    cases haborted.requests r b hr with
    | intro j hj =>
      cases hj with
      | intro x hx =>
        refine ⟨j, _, hx.1, modify_at hx.2.1, ?_⟩
        split
        · exact hx.2.2
        · exact hx.2.2

end

/-! ## Runs -/

/-- Whether a flush has an offset to send. -/
def ackDue (a : Assembly) : Bool :=
  match a.pendingAck with
  | none => false
  | some offset => decide (a.acknowledged < offset)

/-- No request takes a body id in use. -/
def Fresh (s : State) : State.Action → Prop
  | .request _ bodyId _ => s.bodies.get? bodyId = none
  | _ => True

/-- No request takes a body id in use, and a drain with an acknowledgement to send finds a socket
that takes it, or a session that sends nothing any more. -/
def Orderly (s : State) : State.Action → Prop
  | .request _ bodyId _ => s.bodies.get? bodyId = none
  | .drain i fails =>
    ∀ a ∈ s.assemblies[i]?, s.bodies.get? a.bodyId = some i → ackDue a = true →
      s.link.closing = true ∨ (attempt s.link fails).1 = false
  | _ => True

instance (s : State) (a : State.Action) : Decidable (Orderly s a) := by
  cases a <;> unfold Orderly <;> infer_instance

theorem flushBodyAck_calm {link : Link} {fails : List Bool}
    (h : ackDue a = true → link.closing = true ∨ (attempt link fails).1 = false) :
    (a.flushBodyAck link fails).2 = false := by
  unfold flushBodyAck
  split
  · rfl
  rename_i offset hpending
  split
  · rfl
  rename_i hgrows
  have hsent := h (by simp [ackDue, hpending]; omega)
  split
  · rfl
  rename_i hopen
  split
  next hfailed =>
    cases hsent with
    | inl hclosing => exact absurd hclosing hopen
    | inr hsent =>
      rw [hfailed] at hsent
      cases hsent
  · rfl

theorem Inv.relink (h : Inv s) (link : Link) : Inv { s with link } := { h with }

theorem Inv.flush (h : Inv s) (i : Nat) (fails : List Bool) :
    Inv (s.modify i fun a => (a.flushBodyAck s.link fails).1) := by
  refine h.modify i _ (fun a ha => (h.sound i a ha).flushBodyAck s.link fails) ?_ ?_
  · intro a
    have hlabel := (flushBodyAck_frame a s.link fails).1
    exact ⟨congrArg (·.1) hlabel, congrArg (·.2.1) hlabel, congrArg (·.2.2.1) hlabel⟩
  intro a ha
  have hframe := flushBodyAck_frame a s.link fails
  have htimer := congrArg (·.2.2.2) hframe.1
  have hdestroyed := congrArg (·.2.2.2.2) hframe.2
  exact ⟨htimer.trans ha.1, hdestroyed.trans ha.2⟩

theorem step_inv {a : State.Action} (hstep : s.step a = some t)
    (hfresh : Fresh s a) (h : Inv s) : Inv t := by
  cases a with
  | request requestId bodyId size =>
    obtain ⟨-, hstep⟩ := ite_none_left_eq_some.1 hstep
    cases hstep
    exact h.openBody requestId size hfresh
  | frame f writable fails =>
    obtain ⟨-, hstep⟩ := ite_none_left_eq_some.1 hstep
    split at hstep
    · cases hstep
      exact h
    rename_i i _
    cases hstep
    refine h.modify i _
      (fun a ha => (h.sound i a ha).acceptBodyChunk s.link fails f writable) ?_ ?_
    · intro a
      have hlabel := (label_acceptBodyChunk a s.link fails f writable).1
      exact ⟨congrArg (·.1) hlabel, congrArg (·.2.1) hlabel, congrArg (·.2.2.1) hlabel⟩
    intro a ha
    have hlabel := label_acceptBodyChunk a s.link fails f writable
    exact ⟨(congrArg (·.2.2.2) hlabel.1).trans ha.1, hlabel.2 ha.2⟩
  | drain i fails =>
    simp only [State.step] at hstep
    cases hat : s.assemblies[i]? with
    | none => simp [hat] at hstep
    | some a =>
      rw [hat] at hstep
      dsimp only at hstep
      obtain ⟨-, hstep⟩ := ite_none_right_eq_some.1 hstep
      cases hstep
      have hunbound : Inv (s.modify i fun a => { a with drainBound := false }) :=
        h.modify i _ (fun a ha => { h.sound i a ha with }) (fun _ => ⟨rfl, rfl, rfl⟩) (fun _ => id)
      unfold State.drain
      dsimp only
      split
      · have hflushed := hunbound.flush i fails
        exact { hflushed with }
      · exact hunbound
  | read i count =>
    simp only [State.step] at hstep
    split at hstep
    · cases hstep
    rename_i a hat
    obtain ⟨-, hstep⟩ := ite_none_left_eq_some.1 hstep
    cases hstep
    refine h.modify i _ ?_ (fun _ => ⟨rfl, rfl, rfl⟩) (fun _ => id)
    intro x hx
    have hsound := h.sound i x hx
    refine { hsound with read := take_prefix _ _, sawEnd := ?_ }
    intro hsaw
    have hend := hsound.sawEnd hsaw
    refine ⟨hend.1, take_of_length_le ?_⟩
    rw [hend.2]
    exact Nat.le_add_right _ _
  | readEnd i =>
    simp only [State.step] at hstep
    split at hstep
    · cases hstep
    rename_i a hat
    split at hstep
    next hready =>
      cases hstep
      refine h.modify i _ ?_ (fun _ => ⟨rfl, rfl, rfl⟩) (fun _ => id)
      intro x hx
      have hsame : a = x := some.inj (hat.symm.trans hx)
      exact { h.sound i x hx with sawEnd := fun _ => hsame ▸ hready.2 }
    · cases hstep
  | destroy i =>
    cases hstep
    refine h.modify i _ ?_ (fun _ => ⟨rfl, rfl, rfl⟩) (fun _ ha => ⟨ha.1, rfl⟩)
    exact fun x hx => { h.sound i x hx with live := fun hdead => by cases hdead }
  | idle i =>
    simp only [State.step] at hstep
    split at hstep
    · cases hstep
    rename_i a hat
    split at hstep
    · cases hstep
      refine Inv.abortBody ?_ i
      exact h.modify i _ (fun x hx => { h.sound i x hx with }) (fun _ => ⟨rfl, rfl, rfl⟩)
        (fun _ ha => ⟨rfl, ha.2⟩)
    · cases hstep
  | cancel requestId =>
    obtain ⟨-, hstep⟩ := ite_none_left_eq_some.1 hstep
    split at hstep
    · cases hstep
      exact h
    · cases hstep
      exact h.abortBody _
  | routed i fails =>
    simp only [State.step] at hstep
    split at hstep
    · cases hstep
    split at hstep
    · cases hstep
    · cases hstep
      exact h.flush i fails
  | answered i =>
    simp only [State.step] at hstep
    split at hstep
    · cases hstep
    next a hat =>
      split at hstep
      · cases hstep
      · cases hstep
        exact h.answer hat
  | socketClosing =>
    cases hstep
    exact h.relink _
  | close =>
    cases hstep
    exact h.abortAll.relink _
  | closeEvent =>
    obtain ⟨-, hstep⟩ := ite_none_left_eq_some.1 hstep
    cases hstep
    exact h.abortAll.relink _

theorem Inv.initial : Inv .initial := ⟨nofun, nofun, nofun, nofun⟩

/-- What goes on with the bodies keeps the link and registers nothing. -/
structure Within (s t : State) : Prop where
  escaped : t.escaped = s.escaped
  link : t.link = s.link
  bodies : ∀ b i, t.bodies.get? b = some i → s.bodies.get? b = some i

theorem Within.refl (s : State) : Within s s := ⟨rfl, rfl, fun _ _ => id⟩

theorem Within.abortBody (h : Within s t) (i : Nat) : Within s (t.abortBody i) := by
  unfold State.abortBody
  split
  · exact h
  split
  · exact ⟨h.escaped, h.link, fun b j hget => h.bodies b j (get?_erase_eq_some hget).2⟩
  · exact { h with }

theorem escaped_abortAll (s : State) : s.abortAll.escaped = s.escaped := by
  have hloop : ∀ (l : List Nat) (s : State), (l.foldl State.abortBody s).escaped = s.escaped := by
    intro l
    induction l with
    | nil => exact fun _ => rfl
    | cons i l ih => exact fun s => (ih _).trans ((Within.refl s).abortBody i).escaped
  exact hloop s.bodies.values s

theorem step_within {a : State.Action} (hstep : s.step a = some t) : match a with
    | .drain i fails => ∃ a, s.assemblies[i]? = some a ∧ t = s.drain i a fails
    | .request _ _ _ | .socketClosing | .close | .closeEvent => t.escaped = s.escaped
    | _ => Within s t := by
  cases a with
  | request requestId bodyId size =>
    obtain ⟨-, hstep⟩ := ite_none_left_eq_some.1 hstep
    cases hstep
    rfl
  | frame f writable fails =>
    obtain ⟨-, hstep⟩ := ite_none_left_eq_some.1 hstep
    split at hstep <;> cases hstep <;> exact ⟨rfl, rfl, fun _ _ => id⟩
  | drain i fails =>
    simp only [State.step] at hstep
    split at hstep
    · cases hstep
    next a hat => exact ⟨a, hat, (some.inj (ite_none_right_eq_some.1 hstep).2).symm⟩
  | destroy i =>
    cases hstep
    exact ⟨rfl, rfl, fun _ _ => id⟩
  | cancel requestId =>
    obtain ⟨-, hstep⟩ := ite_none_left_eq_some.1 hstep
    split at hstep <;> cases hstep
    · exact .refl _
    · exact (Within.refl s).abortBody _
  | read i | readEnd i | routed i =>
    simp only [State.step] at hstep
    split at hstep
    · cases hstep
    · split at hstep <;> cases hstep
      exact ⟨rfl, rfl, fun _ _ => id⟩
  | idle i =>
    simp only [State.step] at hstep
    split at hstep
    · cases hstep
    split at hstep <;> cases hstep
    refine Within.abortBody ?_ i
    exact ⟨rfl, rfl, fun _ _ => id⟩
  | answered i =>
    simp only [State.step] at hstep
    split at hstep
    · cases hstep
    split at hstep <;> cases hstep
    have h := (Within.refl s).abortBody i
    exact { h with }
  | socketClosing =>
    cases hstep
    rfl
  | close =>
    cases hstep
    exact escaped_abortAll s
  | closeEvent =>
    obtain ⟨-, hstep⟩ := ite_none_left_eq_some.1 hstep
    cases hstep
    exact escaped_abortAll s

theorem step_escaped {a : State.Action} (hstep : s.step a = some t)
    (horderly : Orderly s a) (h : s.escaped = false) : t.escaped = false := by
  have hwithin := step_within hstep
  cases a with
  | drain i fails =>
    have ⟨a, hat, ht⟩ := hwithin
    rw [ht]
    unfold State.drain
    dsimp only
    split
    next hregistered =>
      have hcalm := flushBodyAck_calm (horderly a hat hregistered)
      unfold State.modify
      rw [h, hcalm]
      rfl
    · exact h
  | request | socketClosing | close | closeEvent => exact hwithin.trans h
  | _ => exact hwithin.escaped.trans h

/-- The laws of one request body. -/
structure Law (s : State) (i : Nat) (a : Assembly) : Prop where
  /-- The route reads what the frames of its body carried, in order. -/
  reads : a.readBytes <+: bytesOf a.carried
  ends : a.sawEnd = true → a.readBytes.length = a.size
  acks : a.acks.Pairwise (· < ·) ∧ ∀ offset ∈ a.acks, offset ≤ a.written.length
  /-- An answered request has left the tables, its timer and its stream. -/
  answered : a.answered = true → (∀ b, s.bodies.get? b ≠ some i) ∧
    (∀ r b, s.bodyByRequest.get? r = some b → ∃ j, j ≠ i ∧ s.bodies.get? b = some j) ∧
    a.timer = false ∧ a.destroyed = true

theorem Inv.law (h : Inv s) (hat : s.assemblies[i]? = some a) : Law s i a := by
  have hsound := h.sound i a hat
  refine ⟨hsound.read.trans hsound.carried, ?_, ⟨hsound.acks.1, ?_⟩, ?_⟩
  · intro hsaw
    have hend := hsound.sawEnd hsaw
    rw [hend.2]
    exact hsound.ended hend.1
  · intro offset hoffset
    exact Nat.le_trans (hsound.acks.2 offset hoffset) hsound.acknowledged
  intro hanswered
  have hgone : ∀ b, s.bodies.get? b ≠ some i := by
    intro b hb
    cases h.registered b i hb with
    | intro x hx =>
      have hsame : a = x := some.inj (hat.symm.trans hx.1)
      rw [← hsame, hanswered] at hx
      cases hx.2.2
  refine ⟨hgone, ?_, ?_⟩
  · intro r b hr
    cases h.requests r b hr with
    | intro j hj =>
      cases hj with
      | intro x hx => exact ⟨j, fun heq => hgone b (heq ▸ hx.1), hx.1⟩
  · cases h.disposed i a hat with
    | inl hregistered => exact absurd hregistered (hgone a.bodyId)
    | inr hdisposed => exact hdisposed

/-- In a run of orderly steps every body keeps its laws and no exception escapes. -/
theorem bodies_lawful {actions : List State.Action} {s : State}
    (hrun : run State.step .initial actions = some s)
    (hsteps : AllSteps State.step Orderly .initial actions) :
    (∀ (i : Nat) (a : Assembly), s.assemblies[i]? = some a → Law s i a) ∧ s.escaped = false := by
  have hfresh : ∀ s a, Orderly s a → Fresh s a := by
    intro s a horderly
    cases a with
    | request requestId bodyId size => exact horderly
    | _ => trivial
  have hinv : Inv s ∧ s.escaped = false := by
    refine run_invariant_of_steps (I := fun s => Inv s ∧ s.escaped = false) ?_ hrun hsteps
      ⟨.initial, rfl⟩
    exact fun s a t hstep hp h =>
      ⟨step_inv hstep (hfresh s a hp) h.1, step_escaped hstep hp h.2⟩
  exact ⟨fun _ _ hat => hinv.1.law hat, hinv.2⟩

theorem bodies_lawful_example : ∃ s, run State.step .initial
        [.request "r" 5 3, .frame ⟨5, 0, [1, 2], false⟩ false [], .read 0 2, .drain 0 [],
          .frame ⟨5, 2, [3], true⟩ true [], .read 0 1, .readEnd 0, .answered 0] = some s ∧
      ∃ a, s.assemblies[0]? = some a ∧ a.readBytes = [1, 2, 3] ∧ a.acks = [2, 3] ∧ Law s 0 a := by
  have hsteps : AllSteps State.step Orderly .initial
      [.request "r" 5 3, .frame ⟨5, 0, [1, 2], false⟩ false [], .read 0 2, .drain 0 [],
        .frame ⟨5, 2, [3], true⟩ true [], .read 0 1, .readEnd 0, .answered 0] := by decide
  exact ⟨_, rfl, _, rfl, rfl, rfl, (bodies_lawful rfl hsteps).1 0 _ rfl⟩

/-- At a drain behind the socket's last open moment the acknowledgement throws. -/
theorem drain_escapes {bytes : List UInt8} (hbytes : 0 < bytes.length) : (run State.step .initial
      [.request "r" 5 (bytes.length + 1), .frame ⟨5, 0, bytes, false⟩ false [], .socketClosing,
        .drain 0 []]).map (·.escaped) = some true := by
  have hne : bytes ≠ [] := ne_nil_of_length_pos hbytes
  have hframe : acceptBodyChunk ⟨false, true, false⟩ [] ⟨5, 0, bytes, false⟩ false
      (.start 5 "r" (bytes.length + 1)) =
        ⟨5, "r", bytes.length + 1, bytes.length, 0, some bytes.length, true, true, bytes, false,
          false, [], false, false, [(0, bytes)], []⟩ := by
    simp [acceptBodyChunk, start, write, acknowledge]
  simp [run, State.step, State.openBody, State.initial, State.modify, State.drain, Link.start,
    hframe, flushBodyAck, attempt, hne]

/-- A second request under a body id in use: the first is answered and its stream stays open, with
its timer armed. And a chunk that fills the stream, drained when the socket is closing. -/
theorem bodies_leak_and_escape :
    (∃ s, run State.step .initial [.request "a" 5 3, .request "b" 5 3, .answered 0] = some s ∧
      ∃ a, s.assemblies[0]? = some a ∧ a.answered = true ∧ a.timer = true ∧ a.destroyed = false) ∧
    (run State.step .initial [.request "r" 5 ((List.replicate chunkBytes (0 : UInt8)).length + 1),
        .frame ⟨5, 0, List.replicate chunkBytes 0, false⟩ false [], .socketClosing,
        .drain 0 []]).map (·.escaped) = some true := by
  have hbytes : 0 < (replicate chunkBytes (0 : UInt8)).length := by
    rw [length_replicate]
    decide
  exact ⟨⟨_, rfl, _, rfl, rfl, rfl, rfl⟩, drain_escapes hbytes⟩

end Bodies

end TaskHandoff.RelaySession
