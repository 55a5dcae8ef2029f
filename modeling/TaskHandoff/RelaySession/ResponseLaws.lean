import Mathlib.Algebra.Order.BigOperators.Group.List
import Mathlib.Algebra.Order.Group.Nat
import TaskHandoff.RelaySession.Responses

/-! # Laws of the response transfers

The tables keep one invariant under each write and each removal, and so under every pump. A round
that sends nothing has looked at every waiting transfer, which is what makes the pump idle for a
reason only. -/

namespace TaskHandoff.RelaySession

open Machine List Transfer Nat

/-! ## Chunks in order -/

/-- The frames cut the data from an offset on, each where the one before ended. -/
def Contiguous (data : List UInt8) : Nat → List ResponseFrame → Prop
  | _, [] => True
  | offset, f :: fs =>
    f.offset = offset ∧ 0 < f.bytes.length ∧
    f.bytes = (data.drop offset).take f.bytes.length ∧
    (f.final = true ↔ offset + f.bytes.length = data.length) ∧
    Contiguous data (offset + f.bytes.length) fs

def totalBytes (fs : List ResponseFrame) : Nat := (fs.map (·.bytes.length)).sum

theorem totalBytes_snoc (fs : List ResponseFrame) (f : ResponseFrame) :
    totalBytes (fs ++ [f]) = totalBytes fs + f.bytes.length := by
  simp [totalBytes]

theorem contiguous_snoc {data : List UInt8} {offset : Nat} {fs : List ResponseFrame}
    {f : ResponseFrame} (h : Contiguous data offset fs) (hoffset : f.offset = offset + totalBytes fs)
    (hpos : 0 < f.bytes.length) (hbytes : f.bytes = (data.drop f.offset).take f.bytes.length)
    (hfinal : f.final = true ↔ f.offset + f.bytes.length = data.length) :
    Contiguous data offset (fs ++ [f]) := by
  induction fs generalizing offset with
  | nil =>
    have hstart : f.offset = offset := by simpa [totalBytes] using hoffset
    rw [hstart] at hbytes hfinal
    exact ⟨hstart, hpos, hbytes, hfinal, trivial⟩
  | cons g gs ih =>
    have hrest : f.offset = offset + g.bytes.length + totalBytes gs := by
      simp only [totalBytes, map_cons, sum_cons] at hoffset ⊢
      omega
    exact ⟨h.1, h.2.1, h.2.2.1, h.2.2.2.1, ih h.2.2.2.2 hrest⟩

/-! ## The tables -/

namespace Responses

def framesOf (r : Responses) (responseId : Nat) : List ResponseFrame :=
  r.frames.filter (·.responseId = responseId)

structure Core (r : Responses) : Prop where
  unique : (r.responses.map (·.responseId)).Nodup
  begunOnce : (r.begun.map Prod.fst).Nodup
  /-- A transfer is pending or settled, and settled once. -/
  split : (r.responses.map (·.responseId) ++ r.settled.map Prod.fst).Perm (r.begun.map Prod.fst)
  numbered : ∀ b ∈ r.begun, b.1 ≤ r.nextResponseId
  framed : ∀ f ∈ r.frames, f.responseId ≤ r.nextResponseId
  data : ∀ t ∈ r.responses, (t.responseId, t.data) ∈ r.begun
  offsets : ∀ t ∈ r.responses, t.acked ≤ t.nextOffset ∧ t.nextOffset ≤ t.size
  sent : ∀ t ∈ r.responses, totalBytes (r.framesOf t.responseId) = t.nextOffset
  contiguous : ∀ b ∈ r.begun, Contiguous b.2 0 (r.framesOf b.1)
  window : r.inFlightBytes ≤ globalWindow

variable {r : Responses} {t : Transfer}

variable {id stop : Nat} {ids : List Nat}

theorem find_mem (h : r.find id = some t) : t ∈ r.responses ∧ t.responseId = id := by
  have hid := find?_some h
  exact ⟨mem_of_find?_eq_some h, by simpa using hid⟩

theorem find_none (h : r.find id = none) : ∀ t ∈ r.responses, t.responseId ≠ id := by
  intro t ht
  have hnot := find?_eq_none.mp h t ht
  simpa using hnot

theorem find_of_mem (ht : t ∈ r.responses) : (r.find t.responseId).isSome = true := by
  unfold find
  rw [find?_isSome]
  exact ⟨t, ht, by simp⟩

theorem Core.same (h : Core r) {t u : Transfer} (ht : t ∈ r.responses) (hu : u ∈ r.responses)
    (hid : t.responseId = u.responseId) : t = u :=
  inj_on_of_nodup_map h.unique ht hu hid

theorem sum_update (l : List Transfer) (hunique : (l.map (·.responseId)).Nodup) (ht : t ∈ l)
    (f : Transfer → Transfer) (g : Transfer → Nat) :
    ((l.map fun u => if u.responseId = t.responseId then f u else u).map g).sum + g t =
      (l.map g).sum + g (f t) := by
  induction l with
  | nil => cases ht
  | cons u l ih =>
    rw [map_cons, nodup_cons] at hunique
    cases mem_cons.mp ht with
    | inl heq =>
      subst heq
      have hrest : (l.map fun u => if u.responseId = t.responseId then f u else u) = l := by
        conv_rhs => rw [← map_id l]
        apply map_congr_left
        intro u hu
        have hne : u.responseId ≠ t.responseId := by
          intro heq
          exact hunique.1 (heq ▸ mem_map_of_mem hu)
        rw [if_neg hne]
        rfl
      simp only [map_cons, sum_cons, if_pos]
      rw [hrest]
      omega
    | inr hmem =>
      have hne : u.responseId ≠ t.responseId := by
        intro heq
        exact hunique.1 (heq ▸ mem_map_of_mem hmem)
      have hrest := ih hunique.2 hmem
      simp only [map_cons, sum_cons, if_neg hne]
      omega

/-! ## Removal -/

theorem sum_remove_le (r : Responses) (t : Transfer) (resolved : Bool) (g : Transfer → Nat) :
    ((r.remove t resolved).responses.map g).sum ≤ (r.responses.map g).sum := by
  have hsub : (r.remove t resolved).responses.Sublist r.responses := filter_sublist
  exact (hsub.map g).sum_le_sum fun _ _ => zero_le _

theorem Core.remove (h : Core r) (ht : t.responseId ∈ r.responses.map (·.responseId))
    (resolved : Bool) : Core (r.remove t resolved) where
  __ := h
  unique := (filter_sublist.map _).nodup h.unique
  split := by
    have hperm : (r.responses.map (·.responseId)).Perm
        (t.responseId :: (r.responses.filter (·.responseId ≠ t.responseId)).map (·.responseId)) := by
      have herase : (r.responses.filter (·.responseId ≠ t.responseId)).map (·.responseId) =
          (r.responses.map (·.responseId)).erase t.responseId := by
        rw [h.unique.erase_eq_filter, filter_map]
        congr 1
        apply filter_congr
        intro u _
        by_cases hid : u.responseId = t.responseId <;> simp [hid]
      rw [herase]
      exact perm_cons_erase ht
    refine List.Perm.trans ?_ h.split
    unfold Responses.remove
    rw [map_append, map_cons]
    refine List.Perm.trans ?_ (hperm.symm.append_right _)
    rw [← append_assoc]
    exact perm_append_singleton _ _
  data u hu := h.data u (mem_filter.mp hu).1
  offsets u hu := h.offsets u (mem_filter.mp hu).1
  sent u hu := h.sent u (mem_filter.mp hu).1
  window := le_trans (sum_remove_le r t resolved inFlight) h.window

/-! ## Changes of the transfers -/

theorem Core.map (h : Core r) (f : Transfer → Transfer) (hid : ∀ t, (f t).responseId = t.responseId)
    (hdata : ∀ t, (f t).data = t.data) (hnext : ∀ t, (f t).nextOffset = t.nextOffset)
    (hacked : ∀ t ∈ r.responses, t.acked ≤ (f t).acked ∧ (f t).acked ≤ t.nextOffset) :
    Core { r with responses := r.responses.map f } := by
  have hids : (r.responses.map f).map (·.responseId) = r.responses.map (·.responseId) := by
    rw [map_map]
    exact map_congr_left fun t _ => hid t
  refine ⟨?_, h.begunOnce, ?_, h.numbered, h.framed, ?_, ?_, ?_, h.contiguous, ?_⟩
  · rw [hids]
    exact h.unique
  · rw [hids]
    exact h.split
  · intro u hu
    cases mem_map.mp hu with
    | intro t ht =>
      rw [← ht.2, hid, hdata]
      exact h.data t ht.1
  · intro u hu
    cases mem_map.mp hu with
    | intro t ht =>
      rw [← ht.2, hnext]
      refine ⟨(hacked t ht.1).2, ?_⟩
      unfold Transfer.size
      rw [hdata]
      exact (h.offsets t ht.1).2
  · intro u hu
    cases mem_map.mp hu with
    | intro t ht =>
      rw [← ht.2, hid, hnext]
      exact h.sent t ht.1
  · refine le_trans ?_ h.window
    unfold inFlightBytes
    rw [map_map]
    refine sum_le_sum ?_
    intro t ht
    have hle := (hacked t ht).1
    unfold inFlight
    simp only [Function.comp_apply]
    rw [hnext]
    omega

theorem framesOf_sendChunk (r : Responses) (t : Transfer) (stop id : Nat) :
    (r.sendChunk t stop).framesOf id = if t.responseId = id then
        r.framesOf id ++ [⟨t.responseId, t.nextOffset,
          (t.data.drop t.nextOffset).take (stop - t.nextOffset), decide (t.size ≤ stop)⟩]
      else r.framesOf id := by
  unfold framesOf sendChunk
  split
  next heq => simp [heq]
  next hne => simp [hne]

theorem length_chunk (t : Transfer) (hstop : stop ≤ t.size) :
    ((t.data.drop t.nextOffset).take (stop - t.nextOffset)).length = stop - t.nextOffset := by
  unfold Transfer.size at hstop
  rw [length_take, length_drop]
  omega

theorem Core.sendChunk (h : Core r) (ht : t ∈ r.responses) (hlt : t.nextOffset < stop)
    (hstop : stop ≤ t.size) (hroom : r.inFlightBytes + (stop - t.nextOffset) ≤ globalWindow) :
    Core (r.sendChunk t stop) := by
  have hids : (r.sendChunk t stop).responses.map (·.responseId) =
      r.responses.map (·.responseId) := by
    unfold Responses.sendChunk update
    rw [map_map]
    apply map_congr_left
    intro u _
    simp only [Function.comp_apply]
    split
    · rfl
    · rfl
  have hcases : ∀ u ∈ (r.sendChunk t stop).responses,
      (u.responseId ≠ t.responseId ∧ u ∈ r.responses) ∨ u = { t with nextOffset := stop } := by
    intro u hu
    cases mem_map.mp hu with
    | intro v hv =>
      by_cases hid : v.responseId = t.responseId
      · have hsame := h.same hv.1 ht hid
        have hshape := hv.2
        rw [if_pos hid, hsame] at hshape
        exact .inr hshape.symm
      · have hshape := hv.2
        rw [if_neg hid] at hshape
        exact .inl ⟨hshape ▸ hid, hshape ▸ hv.1⟩
  have hlength := length_chunk t hstop
  refine ⟨?_, h.begunOnce, ?_, h.numbered, ?_, ?_, ?_, ?_, ?_, ?_⟩
  · rw [hids]
    exact h.unique
  · rw [hids]
    exact h.split
  · intro f hf
    cases mem_append.mp hf with
    | inl hold => exact h.framed f hold
    | inr hnew =>
      rw [mem_singleton.mp hnew]
      exact h.numbered _ (h.data t ht)
  · intro u hu
    cases hcases u hu with
    | inl hold => exact h.data u hold.2
    | inr hnew => exact hnew ▸ h.data t ht
  · intro u hu
    cases hcases u hu with
    | inl hold => exact h.offsets u hold.2
    | inr hnew =>
      rw [hnew]
      have hacked := (h.offsets t ht).1
      exact ⟨le_trans hacked (le_of_lt hlt), hstop⟩
  · intro u hu
    rw [framesOf_sendChunk]
    cases hcases u hu with
    | inl hold =>
      rw [if_neg (Ne.symm hold.1)]
      exact h.sent u hold.2
    | inr hnew =>
      rw [hnew, if_pos rfl, totalBytes_snoc, h.sent t ht]
      dsimp only
      omega
  · intro b hb
    rw [framesOf_sendChunk]
    have hold := h.contiguous b hb
    split
    next heq =>
      have hsame : b = (t.responseId, t.data) :=
        inj_on_of_nodup_map h.begunOnce hb (h.data t ht) heq.symm
      rw [hsame] at hold ⊢
      have htotal := h.sent t ht
      refine contiguous_snoc hold ?_ ?_ ?_ ?_
      · dsimp only
        omega
      · dsimp only
        omega
      · rw [hlength]
      · dsimp only
        unfold Transfer.size at hstop ⊢
        rw [decide_eq_true_iff]
        omega
    · exact hold
  · have hsum := sum_update r.responses h.unique ht (fun u => { u with nextOffset := stop })
      inFlight
    unfold inFlightBytes at hroom ⊢
    unfold Responses.sendChunk update
    simp only [inFlight] at hsum hroom ⊢
    omega

theorem Core.register (h : Core r) (requestId : String) (data : List UInt8)
    (byRequest : OrderedMap String Nat) : Core { r with
      nextResponseId := r.nextResponseId + 1
      responses := r.responses ++ [⟨r.nextResponseId + 1, requestId, data, 0, 0, false⟩]
      responseByRequest := byRequest
      begun := r.begun ++ [(r.nextResponseId + 1, data)] } := by
  have hfresh : r.nextResponseId + 1 ∉ r.begun.map Prod.fst := by
    intro hmem
    cases mem_map.mp hmem with
    | intro b hb =>
      have hle := h.numbered b hb.1
      omega
  have hframes : r.framesOf (r.nextResponseId + 1) = [] := by
    unfold framesOf
    rw [filter_eq_nil_iff]
    intro f hf
    have hle := h.framed f hf
    simp
    omega
  refine ⟨?_, ?_, ?_, ?_, ?_, ?_, ?_, ?_, ?_, ?_⟩
  · rw [map_append, map_cons, map_nil]
    rw [← concat_eq_append]
    refine List.Nodup.concat ?_ h.unique
    intro hmem
    exact hfresh (h.split.subset (mem_append_left _ hmem))
  · rw [map_append, map_cons, map_nil]
    rw [← concat_eq_append]
    exact List.Nodup.concat hfresh h.begunOnce
  · rw [map_append, map_append, map_cons]
    refine List.Perm.trans ?_ (h.split.append_right _)
    rw [append_assoc, append_assoc]
    exact perm_append_comm.append_left _
  · intro b hb
    cases mem_append.mp hb with
    | inl hold => exact le_succ_of_le (h.numbered b hold)
    | inr hnew => rw [mem_singleton.mp hnew]
  · intro f hf
    exact le_succ_of_le (h.framed f hf)
  · intro u hu
    cases mem_append.mp hu with
    | inl hold => exact mem_append_left _ (h.data u hold)
    | inr hnew =>
      rw [mem_singleton.mp hnew]
      exact mem_append_right _ mem_cons_self
  · intro u hu
    cases mem_append.mp hu with
    | inl hold => exact h.offsets u hold
    | inr hnew =>
      rw [mem_singleton.mp hnew]
      exact ⟨le_refl _, zero_le _⟩
  · intro u hu
    cases mem_append.mp hu with
    | inl hold => exact h.sent u hold
    | inr hnew =>
      rw [mem_singleton.mp hnew]
      exact congrArg totalBytes hframes
  · intro b hb
    cases mem_append.mp hb with
    | inl hold => exact h.contiguous b hold
    | inr hnew =>
      rw [mem_singleton.mp hnew]
      have hnone : Contiguous data 0 (r.framesOf (r.nextResponseId + 1)) := by
        rw [hframes]
        trivial
      exact hnone
  · have hsum := h.window
    unfold inFlightBytes at hsum ⊢
    simpa [inFlight] using hsum

/-! ## The pump -/

/-- The ids a round still visits: each once, each with unsent bytes if it is still there. -/
structure Visits (ids : List Nat) (r : Responses) : Prop where
  once : ids.Nodup
  unsent : ∀ t ∈ r.responses, t.responseId ∈ ids → t.nextOffset < t.size

theorem Visits.tail (h : Visits (id :: ids) r) : Visits ids r :=
  ⟨(nodup_cons.mp h.once).2, fun t ht hmem => h.unsent t ht (mem_cons_of_mem _ hmem)⟩

theorem Visits.remove (h : Visits ids r) (t : Transfer) (resolved : Bool) :
    Visits ids (r.remove t resolved) :=
  ⟨h.once, fun u hu hmem => h.unsent u (mem_filter.mp hu).1 hmem⟩

theorem Visits.sendChunk (h : Visits (t.responseId :: ids) r) (stop : Nat) :
    Visits ids (r.sendChunk t stop) := by
  have honce := nodup_cons.mp h.once
  refine ⟨honce.2, ?_⟩
  intro u hu hmem
  cases mem_map.mp hu with
  | intro v hv =>
    have hshape := hv.2
    split at hshape
    next heq =>
      have hid : u.responseId = t.responseId := by
        rw [← hshape]
        exact heq
      exact absurd (hid ▸ hmem) honce.1
    · rw [← hshape]
      rw [← hshape] at hmem
      exact h.unsent v hv.1 (mem_cons_of_mem _ hmem)

theorem mem_waiting :
    id ∈ r.waiting ↔ ∃ t ∈ r.responses, t.nextOffset < t.size ∧ t.responseId = id := by
  unfold waiting
  rw [mem_map]
  constructor
  · intro h
    cases h with
    | intro t ht =>
      have hmem := mem_filter.mp ((mem_insertionSort _).mp ht.1)
      exact ⟨t, hmem.1, by simpa using hmem.2, ht.2⟩
  · intro h
    cases h with
    | intro t ht =>
      refine ⟨t, (mem_insertionSort _).mpr ?_, ht.2.2⟩
      exact mem_filter.mpr ⟨ht.1, by simpa using ht.2.1⟩

theorem Core.visits_waiting (h : Core r) : Visits r.waiting r := by
  refine ⟨?_, ?_⟩
  · have hsub : (r.responses.filter fun t => t.nextOffset < t.size).Sublist r.responses :=
      filter_sublist
    have hfiltered := (hsub.map (·.responseId)).nodup h.unique
    exact ((perm_insertionSort _ _).map _).nodup_iff.mpr hfiltered
  · intro t ht hmem
    cases mem_waiting.mp hmem with
    | intro u hu =>
      have hsame := h.same hu.1 ht hu.2.2
      exact hsame ▸ hu.2.1

/-- The bounds of the next chunk: not empty, within the data and within the window. -/
theorem chunk_bounds (hunsent : t.nextOffset < t.size) (hroom : ¬ globalWindow ≤ r.inFlightBytes) :
    let stop := min (min (t.nextOffset + chunkBytes) t.size)
      (t.nextOffset + (globalWindow - r.inFlightBytes))
    t.nextOffset < stop ∧ stop ≤ t.size ∧
      r.inFlightBytes + (stop - t.nextOffset) ≤ globalWindow := by
  have hchunk : 0 < chunkBytes := by decide
  refine ⟨?_, ?_, ?_⟩
  · omega
  · omega
  · omega

section

variable (h : Core r)

include h

theorem Core.pumpRound (link : Link) (ids : List Nat) (fails : List Bool)
    (hvisits : Visits ids r) : Core (pumpRound link ids r fails).tables := by
  induction ids generalizing r fails with
  | nil => exact h
  | cons id ids ih =>
    unfold pumpRound
    cases hfind : r.find id with
    | none => exact ih h fails hvisits.tail
    | some t =>
      have hmem := find_mem hfind
      have hunsent := hvisits.unsent t hmem.1 (hmem.2 ▸ mem_cons_self)
      dsimp only
      split
      · exact ih h fails hvisits.tail
      split
      · exact h
      rename_i hroom
      have hbounds := chunk_bounds hunsent hroom
      split
      · exact ih (h.remove (mem_map_of_mem hmem.1) false) _ (hvisits.tail.remove t false)
      refine ih (h.sendChunk hmem.1 hbounds.1 hbounds.2.1 hbounds.2.2) _ ?_
      rw [← hmem.2] at hvisits
      exact hvisits.sendChunk _

theorem Core.unsent_sendChunk (ht : t ∈ r.responses)
    (hlt : t.nextOffset < stop) (hstop : stop ≤ t.size) :
    (r.sendChunk t stop).unsentBytes < r.unsentBytes := by
  have hsum := sum_update r.responses h.unique ht (fun u => { u with nextOffset := stop }) unsent
  unfold unsentBytes Responses.sendChunk update
  simp only [unsent, Transfer.size] at hsum hstop ⊢
  omega

/-- The bytes left to send never grow in a round, and shrink in one that sends. -/
theorem unsent_pumpRound (link : Link) (ids : List Nat) (fails : List Bool)
    (hvisits : Visits ids r) : (pumpRound link ids r fails).tables.unsentBytes ≤ r.unsentBytes ∧
      ((pumpRound link ids r fails).advanced = true →
        (pumpRound link ids r fails).tables.unsentBytes < r.unsentBytes) := by
  induction ids generalizing r fails with
  | nil => exact ⟨le_refl _, fun heq => by cases heq⟩
  | cons id ids ih =>
    unfold pumpRound
    cases hfind : r.find id with
    | none => exact ih h fails hvisits.tail
    | some t =>
      have hmem := find_mem hfind
      have hunsent := hvisits.unsent t hmem.1 (hmem.2 ▸ mem_cons_self)
      dsimp only
      split
      · exact ih h fails hvisits.tail
      split
      · exact ⟨le_refl _, fun heq => by cases heq⟩
      rename_i hroom
      have hbounds := chunk_bounds hunsent hroom
      split
      next rest _ =>
        have hrest := ih (h.remove (mem_map_of_mem hmem.1) false) rest (hvisits.tail.remove t false)
        have hless : (r.remove t false).unsentBytes ≤ r.unsentBytes :=
          sum_remove_le r t false unsent
        exact ⟨le_trans hrest.1 hless, fun hadv => lt_of_lt_of_le (hrest.2 hadv) hless⟩
      next rest _ =>
        rw [← hmem.2] at hvisits
        have hsent := h.sendChunk hmem.1 hbounds.1 hbounds.2.1 hbounds.2.2
        have hrest := ih hsent rest (hvisits.sendChunk _)
        have hshrinks := h.unsent_sendChunk hmem.1 hbounds.1 hbounds.2.1
        exact ⟨le_of_lt (lt_of_le_of_lt hrest.1 hshrinks),
          fun _ => lt_of_le_of_lt hrest.1 hshrinks⟩

theorem quiet_pumpRound (link : Link) (ids : List Nat) (fails : List Bool)
    (hquiet : (pumpRound link ids r fails).advanced = false) :
    (∀ t ∈ (pumpRound link ids r fails).tables.responses, t ∈ r.responses) ∧
      (globalWindow ≤ (pumpRound link ids r fails).tables.inFlightBytes ∨
        ∀ t ∈ (pumpRound link ids r fails).tables.responses, t.responseId ∈ ids →
          responseWindow ≤ t.inFlight) := by
  induction ids generalizing r fails with
  | nil => exact ⟨fun _ => id, .inr nofun⟩
  | cons id ids ih =>
    unfold pumpRound at hquiet ⊢
    cases hfind : r.find id with
    | none =>
      rw [hfind] at hquiet
      have hrest := ih h fails hquiet
      refine ⟨hrest.1, hrest.2.imp_right ?_⟩
      intro hfull t ht hmem
      cases mem_cons.mp hmem with
      | inl heq => exact absurd heq (find_none hfind t (hrest.1 t ht))
      | inr htail => exact hfull t ht htail
    | some t =>
      have hmem := find_mem hfind
      rw [hfind] at hquiet
      dsimp only at hquiet ⊢
      split at hquiet
      next hown =>
        rw [if_pos hown]
        have hrest := ih h fails hquiet
        refine ⟨hrest.1, hrest.2.imp_right ?_⟩
        intro hfull u hu hin
        cases mem_cons.mp hin with
        | inl heq =>
          have hsame := h.same (hrest.1 u hu) hmem.1 (heq.trans hmem.2.symm)
          exact hsame ▸ hown
        | inr htail => exact hfull u hu htail
      next hown =>
        rw [if_neg hown]
        split at hquiet
        next hglobal =>
          rw [if_pos hglobal]
          exact ⟨fun _ hu => hu, .inl hglobal⟩
        rename_i hglobal
        rw [if_neg hglobal]
        split at hquiet
        next rest _ =>
          have hrest := ih (h.remove (mem_map_of_mem hmem.1) false) rest hquiet
          refine ⟨fun u hu => (mem_filter.mp (hrest.1 u hu)).1, hrest.2.imp_right ?_⟩
          intro hfull u hu hin
          cases mem_cons.mp hin with
          | inl heq =>
            have hkept := (mem_filter.mp (hrest.1 u hu)).2
            rw [heq, ← hmem.2] at hkept
            simp at hkept
          | inr htail => exact hfull u hu htail
        · cases hquiet

/-! ## Idle behind the pump -/

/-- What is unsent waits for its own full window or for the full window of all. -/
def Idle (r : Responses) : Prop :=
  ∀ t ∈ r.responses, t.nextOffset < t.size →
    responseWindow ≤ t.inFlight ∨ globalWindow ≤ r.inFlightBytes

def Armed (r : Responses) : Prop :=
  ∀ t ∈ r.responses, t.acked < t.nextOffset → t.timer = true

theorem Core.pumpRounds (link : Link) (fuel : Nat) (fails : List Bool)
    (hfuel : r.unsentBytes < fuel) :
    Core (pumpRounds link fuel r fails) ∧ Idle (pumpRounds link fuel r fails) := by
  induction fuel generalizing r fails with
  | zero => omega
  | succ fuel ih =>
    have hcore := h.pumpRound link r.waiting fails h.visits_waiting
    have hless := (unsent_pumpRound h link r.waiting fails h.visits_waiting).2
    have hquiet := quiet_pumpRound h link r.waiting fails
    unfold pumpRounds
    dsimp only
    split
    next hadvanced =>
      have hshrinks := hless hadvanced
      exact ih hcore _ (by omega)
    rename_i hadvanced
    have hquiet := hquiet (by simpa using hadvanced)
    refine ⟨hcore, ?_⟩
    intro t ht hunsent
    cases hquiet.2 with
    | inl hglobal => exact .inr hglobal
    | inr hown =>
      have hwaiting := mem_waiting.mpr ⟨t, hquiet.1 t ht, hunsent, rfl⟩
      exact .inl (hown t ht hwaiting)

end

theorem inFlightBytes_arm (r : Responses) :
    inFlightBytes { r with responses := r.responses.map arm } = r.inFlightBytes := by
  unfold inFlightBytes
  rw [map_map]
  rfl

theorem Core.pumpResponses (h : Core r) {link : Link} (fails : List Bool)
    (hopen : link.closing = false) :
    Core (pumpResponses link fails r) ∧ Armed (pumpResponses link fails r) ∧
      Idle (pumpResponses link fails r) := by
  have hpumped := h.pumpRounds link (r.unsentBytes + 1) fails (lt_succ_self _)
  unfold Responses.pumpResponses
  rw [if_neg (by simp [hopen])]
  have hcore := hpumped.1.map arm (fun _ => rfl) (fun _ => rfl) (fun _ => rfl)
    (fun t ht => ⟨le_refl _, (hpumped.1.offsets t ht).1⟩)
  refine ⟨hcore, ?_, ?_⟩
  · intro u hu hunacked
    cases mem_map.mp hu with
    | intro t ht =>
      rw [← ht.2] at hunacked ⊢
      simpa [arm] using hunacked
  intro u hu hunsent
  rw [inFlightBytes_arm]
  cases mem_map.mp hu with
  | intro t ht =>
    rw [← ht.2] at hunsent ⊢
    exact hpumped.2 t ht.1 hunsent

end Responses

end TaskHandoff.RelaySession
