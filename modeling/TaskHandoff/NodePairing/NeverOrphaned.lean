import TaskHandoff.NodePairing.ConnectionManager

/-! # No completed pairing is orphaned

The credentials stay with a stored node, with a stored record or with the node's receipt, as long as
the record gets into its table at one of two tries, and a commit that throws was not carried out. -/

namespace TaskHandoff.NodePairing

open OrderedMap List Function

namespace NodeConnectionManager

/-- A stored node carries the credentials, a stored record has them, or the node has acknowledged
their revocation. -/
def Kept (σ : NodeConnectionManager) (credentials : Credentials) : Prop :=
  Carried σ.nodeRows credentials ∨
    (∃ id, ∃ row ∈ σ.revokeRows.get? id, row.toCredentials = credentials) ∨
    credentials ∈ σ.acknowledged

/-- The nodes in memory are those of the database, each id of a record belongs to one pairing, and
nothing was revoked that a stored node carried. -/
structure Coherent (owner : String → Credentials) (σ : NodeConnectionManager) : Prop where
  mirrored : ∀ id, σ.configurations.get? id = σ.nodeRows.get? id
  rows : ∀ id row, σ.revokeRows.get? id = some row → row.id = id ∧ row.toCredentials = owner id
  records : ∀ id record, σ.records.get? id = some record →
    record.id = id ∧ record.toCredentials = owner id
  unsent : ∀ revocation ∈ σ.sent, revocation.stored = false

variable {σ : NodeConnectionManager} {owner : String → Credentials} {credentials : Credentials}

theorem Coherent.carried (h : σ.Coherent owner) :
    Carried σ.configurations credentials ↔ Carried σ.nodeRows credentials := by
  rw [Carried, Carried, h.mirrored]

/-! ## The store operations -/

variable {record : PendingPairingRevoke}

variable {table : OrderedMap String PendingPairingRevoke} {id : String} {τ : NodeConnectionManager}
  {looked : Bool}

section

variable (h : ∀ id row, table.get? id = some row → row.id = id ∧ row.toCredentials = owner id)

include h

theorem coherent_set
    (howner : record.toCredentials = owner record.id) :
    ∀ id row, (table.set record.id record).get? id = some row →
      row.id = id ∧ row.toCredentials = owner id := by
  intro id row hrow
  cases get?_set_eq_some hrow with
  | inl hnew => exact ⟨by rw [hnew.1, hnew.2], by rw [hnew.1, hnew.2, howner]⟩
  | inr hold => exact h id row hold.2

theorem coherent_erase
    (erased : String) : ∀ id row, (table.erase erased).get? id = some row →
      row.id = id ∧ row.toCredentials = owner id :=
  fun id row hrow => h id row (get?_erase_eq_some hrow).2

end

section

variable (h : σ.Coherent owner)

include h

theorem Coherent.putRecord (howner : record.toCredentials = owner record.id)
    (write : Write) : (σ.putRecord record write).2.Coherent owner := by
  cases write with
  | done => exact ⟨h.mirrored, coherent_set h.rows howner, coherent_set h.records howner, h.unsent⟩
  | refused => exact h
  | lost => exact ⟨h.mirrored, coherent_set h.rows howner, h.records, h.unsent⟩

theorem Coherent.clear (id : String) (write : Write) :
    (σ.clearPendingPairingRevoke id write).Coherent owner := by
  cases write with
  | done => exact ⟨h.mirrored, coherent_erase h.rows id, coherent_erase h.records id, h.unsent⟩
  | refused => exact h
  | lost => exact ⟨h.mirrored, coherent_erase h.rows id, h.records, h.unsent⟩

theorem Coherent.compensate (hfree : ¬Carried σ.nodeRows credentials)
    (answer : Answer) : (σ.compensatePairing credentials answer).2.Coherent owner := by
  have hunsent : ∀ revocation ∈ σ.sent ++ [⟨credentials, decide (Carried σ.nodeRows credentials)⟩],
      revocation.stored = false := by
    intro revocation hmem
    cases mem_append.mp hmem with
    | inl hold => exact h.unsent revocation hold
    | inr hnew =>
      rw [mem_singleton.mp hnew]
      exact decide_eq_false hfree
  rw [compensatePairing]
  split
  · exact ⟨h.mirrored, h.rows, h.records, hunsent⟩
  · exact ⟨h.mirrored, h.rows, h.records, hunsent⟩

end

theorem kept_putRecord (σ : NodeConnectionManager) (record : PendingPairingRevoke) {write : Write}
    (hwrite : write ≠ .refused) : (σ.putRecord record write).2.Kept record.toCredentials := by
  have hrow : ∃ id, ∃ row ∈ (σ.revokeRows.set record.id record).get? id,
      row.toCredentials = record.toCredentials :=
    ⟨record.id, record, by simp, rfl⟩
  cases write with
  | done => exact .inr (.inl hrow)
  | refused => exact (hwrite rfl).elim
  | lost => exact .inr (.inl hrow)

section

variable (hkept : σ.Kept credentials)

include hkept

theorem Kept.putRecord (h : σ.Coherent owner)
    (howner : record.toCredentials = owner record.id) (write : Write) :
    (σ.putRecord record write).2.Kept credentials := by
  by_cases hrefused : write = .refused
  · subst hrefused
    exact hkept
  have hsame : (σ.putRecord record write).2.nodeRows = σ.nodeRows ∧
      (σ.putRecord record write).2.acknowledged = σ.acknowledged ∧
      (σ.putRecord record write).2.revokeRows = σ.revokeRows.set record.id record := by
    cases write with
    | done | lost => exact ⟨rfl, rfl, rfl⟩
    | refused => exact (hrefused rfl).elim
  rw [Kept, hsame.1, hsame.2.1, hsame.2.2]
  cases hkept with
  | inl hcarried => exact .inl hcarried
  | inr hrest =>
    cases hrest with
    | inr hacknowledged => exact .inr (.inr hacknowledged)
    | inl hrow =>
      have ⟨id, row, hget, heq⟩ := hrow
      right
      left
      by_cases hid : id = record.id
      · have hrow := (h.rows id row hget).2
        exact ⟨record.id, record, by simp, by rw [howner, ← hid, ← hrow, heq]⟩
      · exact ⟨id, row, by rw [get?_set_ne _ _ hid]; exact hget, heq⟩

theorem Kept.clear (h : σ.Coherent owner) (hsettled : owner id = credentials →
      Carried σ.nodeRows credentials ∨ credentials ∈ σ.acknowledged) (write : Write) :
    (σ.clearPendingPairingRevoke id write).Kept credentials := by
  have herased : Carried σ.nodeRows credentials ∨
      (∃ other, ∃ row ∈ (σ.revokeRows.erase id).get? other, row.toCredentials = credentials) ∨
      credentials ∈ σ.acknowledged := by
    cases hkept with
    | inl hcarried => exact .inl hcarried
    | inr hrest =>
      cases hrest with
      | inr hacknowledged => exact .inr (.inr hacknowledged)
      | inl hrow =>
        have ⟨other, row, hget, heq⟩ := hrow
        by_cases hid : other = id
        · have hrow := (h.rows other row hget).2
          cases hsettled (by rw [← hid, ← hrow, heq]) with
          | inl hcarried => exact .inl hcarried
          | inr hacknowledged => exact .inr (.inr hacknowledged)
        · exact .inr (.inl ⟨other, row, by rw [get?_erase_ne _ hid]; exact hget, heq⟩)
  cases write with
  | done => exact herased
  | refused => exact hkept
  | lost => exact herased

theorem Kept.compensate (revoked : Credentials) (answer : Answer) :
    (σ.compensatePairing revoked answer).2.Kept credentials := by
  rw [compensatePairing]
  split
  · cases hkept with
    | inl hcarried => exact .inl hcarried
    | inr hrest =>
      cases hrest with
      | inl hrow => exact .inr (.inl hrow)
      | inr hacknowledged => exact .inr (.inr (mem_append_left _ hacknowledged))
  · exact hkept

end

theorem acknowledged_of_compensate {answer : Answer}
    (h : σ.compensatePairing credentials answer = (true, τ)) : credentials ∈ τ.acknowledged := by
  rw [compensatePairing] at h
  split at h
  · cases h
    simp
  · cases h

theorem present_carries {node : Node}
    (h : σ.pairingPersistence credentials looked = .present node) :
    σ.configurations.get? credentials.nodeId = some node ∧ node.auth.Carries credentials := by
  rw [pairingPersistence] at h
  repeat' split at h
  all_goals cases h
  next hget hcarries => exact ⟨hget, hcarries⟩

theorem absent_free (h : σ.pairingPersistence credentials looked = .absent) :
    ¬Carried σ.configurations credentials := by
  rintro ⟨node, hget, hcarries⟩
  have hget : σ.configurations.get? credentials.nodeId = some node := hget
  rw [pairingPersistence] at h
  split at h
  · simp [hget, hcarries] at h
  · cases h

theorem mark_cases (σ : NodeConnectionManager) (record : PendingPairingRevoke) (mark : Write) :
    σ.markPendingPairingCompensating record mark = (true, σ) ∨
      σ.markPendingPairingCompensating record mark =
        σ.putRecord { record with phase := .compensating } mark := by
  rw [markPendingPairingCompensating]
  split
  · exact .inl rfl
  · exact .inr rfl

theorem mark_coherent (h : σ.Coherent owner) (howner : record.toCredentials = owner record.id)
    (mark : Write) : (σ.markPendingPairingCompensating record mark).2.Coherent owner := by
  cases mark_cases σ record mark with
  | inl heq =>
    rw [heq]
    exact h
  | inr heq =>
    rw [heq]
    apply h.putRecord
    exact howner

theorem mark_kept (hkept : σ.Kept credentials) (h : σ.Coherent owner)
    (howner : record.toCredentials = owner record.id) (mark : Write) :
    (σ.markPendingPairingCompensating record mark).2.Kept credentials := by
  cases mark_cases σ record mark with
  | inl heq =>
    rw [heq]
    exact hkept
  | inr heq =>
    rw [heq]
    apply hkept.putRecord h
    exact howner

theorem mark_nodeRows (σ : NodeConnectionManager) (record : PendingPairingRevoke) (mark : Write) :
    (σ.markPendingPairingCompensating record mark).2.nodeRows = σ.nodeRows := by
  cases mark_cases σ record mark with
  | inl heq => rw [heq]
  | inr heq =>
    rw [heq]
    cases mark <;> rfl

/-! ## Recovery and restarts -/

/-- What holds between two creations. -/
structure Inv (owner : String → Credentials) (credentials : Credentials)
    (σ : NodeConnectionManager) : Prop where
  coherent : σ.Coherent owner
  kept : σ.Kept credentials

variable (h : σ.Inv owner credentials)

include h

theorem Inv.revoke {revoked : Credentials}
    (howner : revoked = owner id) (hfree : ¬Carried σ.nodeRows revoked) (answer : Answer)
    (clear : Write) {acknowledged : Bool}
    (hτ : σ.compensatePairing revoked answer = (acknowledged, τ)) : τ.Inv owner credentials ∧
      (acknowledged = true → (τ.clearPendingPairingRevoke id clear).Inv owner credentials) := by
  have hτ' : τ = (σ.compensatePairing revoked answer).2 := by rw [hτ]
  have hcoherent : τ.Coherent owner := hτ' ▸ h.coherent.compensate hfree answer
  have hkept : τ.Kept credentials := hτ' ▸ h.kept.compensate revoked answer
  refine ⟨⟨hcoherent, hkept⟩, ?_⟩
  intro hack
  subst hack
  have hmem := acknowledged_of_compensate hτ
  refine ⟨hcoherent.clear id clear, hkept.clear hcoherent ?_ clear⟩
  intro heq
  rw [← heq, ← howner]
  exact .inr hmem

theorem Inv.recoverRecord
    (howner : record.toCredentials = owner record.id) (outcomes : RecoverOutcomes) :
    (σ.recoverPendingPairingRevoke record outcomes).Inv owner credentials := by
  rw [recoverPendingPairingRevoke]
  split
  next node hpresent =>
    have ⟨hget, hcarries⟩ := present_carries hpresent
    refine ⟨h.coherent.clear _ _, h.kept.clear h.coherent ?_ _⟩
    intro heq
    rw [← heq, ← howner]
    exact .inl (h.coherent.carried.mp ⟨node, hget, hcarries⟩)
  · exact h
  next habsent =>
    have hfree := mt h.coherent.carried.mpr (absent_free habsent)
    have hcoherent := mark_coherent h.coherent howner outcomes.mark
    have hkept := mark_kept h.kept h.coherent howner outcomes.mark
    have hnodes := mark_nodeRows σ record outcomes.mark
    split
    next hmark =>
      rw [hmark] at hcoherent hkept
      exact ⟨hcoherent, hkept⟩
    rename_i marked hmark
    rw [hmark] at hcoherent hkept hnodes
    have hfree : ¬Carried marked.nodeRows record.toCredentials := hnodes ▸ hfree
    have hmarked : marked.Inv owner credentials := ⟨hcoherent, hkept⟩
    split
    next hanswer => exact (hmarked.revoke howner hfree outcomes.answer outcomes.clear hanswer).1
    next hanswer =>
      exact (hmarked.revoke howner hfree outcomes.answer outcomes.clear hanswer).2 rfl

theorem Inv.recover (outcomes : String → RecoverOutcomes) :
    (σ.recoverPendingPairingRevokes outcomes).Inv owner credentials := by
  have hpending : ∀ record ∈ σ.records.values.filter
      fun record => record.id ∉ σ.activePendingPairingRevokes,
      record.toCredentials = owner record.id := by
    intro record hmem
    have ⟨id, hget⟩ := mem_values.mp (mem_of_mem_filter hmem)
    have hrecord := h.coherent.records id record hget
    rw [hrecord.2, hrecord.1]
  rw [recoverPendingPairingRevokes]
  generalize σ.records.values.filter _ = pending at hpending ⊢
  induction pending generalizing σ with
  | nil => exact h
  | cons record pending ih =>
    have hfirst := h.recoverRecord (hpending record (by simp)) (outcomes record.id)
    exact ih hfirst fun other hother => hpending other (mem_cons_of_mem _ hother)

theorem Inv.later (later : Later) : (σ.later later).Inv owner credentials := by
  cases later with
  | recover outcomes => exact h.recover outcomes
  | restart => exact ⟨⟨fun _ => rfl, h.coherent.rows, h.coherent.rows, h.coherent.unsent⟩, h.kept⟩

theorem Inv.laters (laters : List Later) :
    (laters.foldl NodeConnectionManager.later σ).Inv owner credentials := by
  induction laters generalizing σ with
  | nil => exact h
  | cons later laters ih => exact ih (h.later later)

end NodeConnectionManager

/-! ## The creation -/

theorem checked_ok {input : CreateNodeInput} {pairing : CompletedPairing}
    {outcomes : CreateOutcomes} {candidate : Node}
    (h : checked input pairing outcomes = .ok candidate) :
    candidate.id = pairing.nodeId ∧ candidate.auth.Carries pairing.toCredentials := by
  have hid : input.id.any (· ≠ pairing.nodeId) = false →
      input.id.getD pairing.nodeId = pairing.nodeId := by
    intro hany
    cases hinput : input.id with
    | none => rfl
    | some id => simpa [hinput] using hany
  unfold checked at h
  simp only [bind, Except.bind, pure, Except.pure, throw, throwThe, MonadExceptOf.throw] at h
  repeat' split at h
  all_goals cases h
  all_goals exact ⟨hid (by simp_all), rfl, rfl, rfl⟩

/-- The table takes the record at one of the two tries if it comes to the second, and a commit that
throws was not carried out. -/
def Compensable (input : CreateNodeInput) (pairing : CompletedPairing)
    (outcomes : CreateOutcomes) : Prop :=
  ¬(outcomes.recordPut = .refused ∧ outcomes.mark = .refused) ∧
    ¬(outcomes.recordPut = .done ∧ (checked input pairing outcomes).isOk = true ∧
      outcomes.commit = .lost)

instance (input : CreateNodeInput) (pairing : CompletedPairing) (outcomes : CreateOutcomes) :
    Decidable (Compensable input pairing outcomes) :=
  inferInstanceAs (Decidable (¬(_ ∧ _) ∧ ¬(_ ∧ _ ∧ _)))

namespace NodeConnectionManager

variable {σ : NodeConnectionManager} {owner : String → Credentials}
  {input : CreateNodeInput} {pairing : CompletedPairing} {recordId : String}
  {record : PendingPairingRevoke} {outcomes : CreateOutcomes}

theorem giveUp_kept (h : σ.Coherent owner) (howner : record.toCredentials = owner record.id)
    (hrecord : record.toCredentials = pairing.toCredentials)
    (hphase : record.phase = .pendingCompensation)
    (hmark : outcomes.mark ≠ .refused ∨ σ.Kept pairing.toCredentials)
    (hfree : ¬Carried σ.nodeRows pairing.toCredentials) (error : CreateError) :
    (σ.giveUp pairing record outcomes error).2.Inv owner pairing.toCredentials ∧
      ∀ node, (σ.giveUp pairing record outcomes error).1 ≠ .ok node := by
  have hcoherent := mark_coherent h howner outcomes.mark
  have hnodes := mark_nodeRows σ record outcomes.mark
  have hmarked : (σ.markPendingPairingCompensating record outcomes.mark).2.Kept
      pairing.toCredentials := by
    cases hmark with
    | inl hput =>
      rw [markPendingPairingCompensating, if_neg (by simp [hphase]), ← hrecord]
      exact kept_putRecord σ { record with phase := .compensating } hput
    | inr hkept => exact mark_kept hkept h howner outcomes.mark
  rw [giveUp]
  split
  next marked hresult =>
    rw [hresult] at hcoherent hmarked
    exact ⟨⟨hcoherent, hmarked⟩, by simp⟩
  rename_i marked hresult
  rw [hresult] at hcoherent hmarked hnodes
  have hinv : marked.Inv owner pairing.toCredentials := ⟨hcoherent, hmarked⟩
  have hfree : ¬Carried marked.nodeRows pairing.toCredentials := hnodes ▸ hfree
  have howner : pairing.toCredentials = owner record.id := hrecord ▸ howner
  split
  next hanswer => exact ⟨(hinv.revoke howner hfree _ outcomes.clear hanswer).1, by simp⟩
  next hanswer => exact ⟨(hinv.revoke howner hfree _ outcomes.clear hanswer).2 rfl, by simp⟩

theorem clear_nodeRows (σ : NodeConnectionManager) (id : String) (write : Write) :
    (σ.clearPendingPairingRevoke id write).nodeRows = σ.nodeRows := by
  cases write <;> rfl

variable {attempted : Bool}

theorem handle_kept (h : σ.Coherent owner) (howner : record.toCredentials = owner record.id)
    (hrecord : record.toCredentials = pairing.toCredentials)
    (hphase : record.phase = .pendingCompensation)
    (hkept : attempted = false ∧ outcomes.mark ≠ .refused ∨ σ.Kept pairing.toCredentials)
    (hfree : attempted = false → ¬Carried σ.nodeRows pairing.toCredentials) (error : CreateError) :
    (σ.handle pairing record outcomes error attempted).2.Inv owner pairing.toCredentials ∧
      ∀ node, (σ.handle pairing record outcomes error attempted).1 = .ok node →
        (σ.handle pairing record outcomes error attempted).2.nodeRows.get? pairing.nodeId =
          some node ∧ node.auth.Carries pairing.toCredentials := by
  have hmark : outcomes.mark ≠ .refused ∨ σ.Kept pairing.toCredentials := hkept.imp_left And.right
  rw [handle]
  split
  next node hpresent =>
    have ⟨hget, hcarries⟩ := present_carries hpresent
    rw [h.mirrored] at hget
    have hcarried : Carried σ.nodeRows pairing.toCredentials := ⟨node, hget, hcarries⟩
    have hkept : σ.Kept pairing.toCredentials := .inl hcarried
    refine ⟨⟨h.clear _ _, hkept.clear h (fun _ => .inl hcarried) _⟩, ?_⟩
    rintro _ ⟨⟩
    rw [clear_nodeRows]
    exact ⟨hget, hcarries⟩
  next habsent =>
    have hfree := mt h.carried.mpr (absent_free habsent)
    have hgave := giveUp_kept h howner hrecord hphase hmark hfree error
    exact ⟨hgave.1, fun node hok => (hgave.2 node hok).elim⟩
  · split
    next hattempted =>
      refine ⟨⟨h, ?_⟩, by simp⟩
      cases hkept with
      | inl hnot => simp [hattempted] at hnot
      | inr hkept => exact hkept
    next hattempted =>
      have hfree := hfree (by simpa using hattempted)
      have hgave := giveUp_kept h howner hrecord hphase hmark hfree error
      exact ⟨hgave.1, fun node hok => (hgave.2 node hok).elim⟩

/-- The pairing made new credentials, and the id drawn for the record is new. -/
structure Unused (σ : NodeConnectionManager) (credentials : Credentials) (recordId : String) :
    Prop where
  row : σ.revokeRows.get? recordId = none
  record : σ.records.get? recordId = none
  inactive : recordId ∉ σ.activePendingPairingRevokes
  unknown : ¬σ.Kept credentials

variable {credentials : Credentials}

theorem Unused.coherent (h : σ.Coherent owner) (hunused : σ.Unused credentials recordId) :
    σ.Coherent (update owner recordId credentials) := by
  have hother : ∀ id, id ≠ recordId → update owner recordId credentials id = owner id :=
    fun id hne => update_of_ne hne _ _
  refine ⟨h.mirrored, ?_, ?_, h.unsent⟩
  · intro id row hrow
    have hne : id ≠ recordId := by
      rintro rfl
      rw [hunused.row] at hrow
      cases hrow
    rw [hother id hne]
    exact h.rows id row hrow
  · intro id row hrow
    have hne : id ≠ recordId := by
      rintro rfl
      rw [hunused.record] at hrow
      cases hrow
    rw [hother id hne]
    exact h.records id row hrow

variable {candidate : Node} {τ : NodeConnectionManager}

section

variable (h : σ.Coherent owner)

include h

theorem commit_done (revokeId : String) (hid : candidate.id = pairing.nodeId)
    (hcarries : candidate.auth.Carries pairing.toCredentials) :
    (σ.commitPairing candidate revokeId .done).2.Inv owner pairing.toCredentials ∧
      (σ.commitPairing candidate revokeId .done).2.nodeRows.get? pairing.nodeId =
        some candidate := by
  have hget : (σ.nodeRows.set candidate.id candidate).get? pairing.nodeId = some candidate := by
    rw [get?_set, if_pos hid.symm]
  refine ⟨⟨⟨?_, coherent_erase h.rows revokeId, h.records, h.unsent⟩, ?_⟩, hget⟩
  · intro id
    show (σ.configurations.set candidate.id candidate).get? id =
      (σ.nodeRows.set candidate.id candidate).get? id
    rw [get?_set, get?_set, h.mirrored]
  · exact .inl ⟨candidate, hget, hcarries⟩

/-- The body of the `try` returns a node that is stored, or leaves the credentials kept unless the
table refused the record. -/
theorem attempt_kept (howner : record.toCredentials = owner record.id)
    (hrecord : record.toCredentials = pairing.toCredentials)
    (hcompensable : Compensable input pairing outcomes)
    (hfree : ¬Carried σ.nodeRows pairing.toCredentials) {result : Except CreateError Node}
    (hτ : σ.attempt input pairing record outcomes = (result, attempted, τ)) : τ.Coherent owner ∧
      (attempted = false ∧ outcomes.mark ≠ .refused ∨ τ.Kept pairing.toCredentials) ∧
      (attempted = false → ¬Carried τ.nodeRows pairing.toCredentials) ∧
      ∀ node, result = .ok node →
        τ.nodeRows.get? pairing.nodeId = some node ∧ node.auth.Carries pairing.toCredentials := by
  have hcoherent := h.putRecord howner outcomes.recordPut
  cases hput : outcomes.recordPut with
  | refused =>
    rw [attempt, hput] at hτ
    cases hτ
    exact ⟨h, .inl ⟨rfl, fun hmark => hcompensable.1 ⟨hput, hmark⟩⟩, fun _ => hfree, by simp⟩
  | lost =>
    have hkept := kept_putRecord σ record (by simp : Write.lost ≠ .refused)
    rw [hrecord] at hkept
    rw [hput] at hcoherent
    rw [attempt, hput] at hτ
    cases hτ
    exact ⟨hcoherent, .inr hkept, fun _ => hfree, by simp⟩
  | done =>
    have hkept := kept_putRecord σ record (by simp : Write.done ≠ .refused)
    rw [hrecord] at hkept
    rw [hput] at hcoherent
    rw [attempt, hput, putRecord] at hτ
    cases hchecked : checked input pairing outcomes with
    | error error =>
      rw [hchecked] at hτ
      cases hτ
      exact ⟨hcoherent, .inr hkept, fun _ => hfree, by simp⟩
    | ok candidate =>
      have ⟨hid, hcarries⟩ := checked_ok hchecked
      have hcommitted := commit_done hcoherent record.id hid hcarries
      rw [hchecked] at hτ
      cases hcommit : outcomes.commit with
      | refused =>
        rw [hcommit] at hτ
        cases hτ
        exact ⟨hcoherent, .inr hkept, by simp, by simp⟩
      | lost => exact (hcompensable.2 ⟨hput, by rw [hchecked]; rfl, hcommit⟩).elim
      | done =>
        simp only [hcommit, commitPairing] at hτ
        split at hτ
        · cases hτ
          refine ⟨hcommitted.1.coherent.clear _ _, .inr ?_, by simp, ?_⟩
          · exact hcommitted.1.kept.clear hcommitted.1.coherent
              (fun _ => .inl ⟨candidate, hcommitted.2, hcarries⟩) _
          rintro _ ⟨⟩
          rw [clear_nodeRows]
          exact ⟨hcommitted.2, hcarries⟩
        · cases hτ
          exact ⟨hcommitted.1.coherent, .inr hcommitted.1.kept, by simp, by simp⟩

/-- `create` returns a node only if it is stored with the credentials, and after every later
sequence of passes and restarts the credentials are kept and no stored node's were revoked. -/
def NeverOrphaned (σ : NodeConnectionManager) (input : CreateNodeInput)
    (pairing : CompletedPairing) (recordId : String) (outcomes : CreateOutcomes) : Prop :=
  (∀ node, (σ.create input pairing recordId outcomes).1 = .ok node →
    (σ.create input pairing recordId outcomes).2.nodeRows.get? pairing.nodeId = some node ∧
      node.auth.Carries pairing.toCredentials) ∧
  ∀ laters : List Later, (laters.foldl later (σ.create input pairing recordId outcomes).2).Kept
      pairing.toCredentials ∧
    ∀ revocation ∈ (laters.foldl later (σ.create input pairing recordId outcomes).2).sent,
      revocation.stored = false

theorem Coherent.active (active : List String) :
    Coherent owner { σ with activePendingPairingRevokes := active } :=
  { h with }

end

theorem Inv.active (h : σ.Inv owner credentials) (active : List String) :
    Inv owner credentials { σ with activePendingPairingRevokes := active } :=
  ⟨h.coherent.active active, h.kept⟩

theorem create_error {error : CreateError} (h : attempt
      { σ with activePendingPairingRevokes := recordId :: σ.activePendingPairingRevokes }
      input pairing (pendingPairingRevoke recordId input.controlEndpoint pairing) outcomes =
        (.error error, attempted, τ)) : σ.create input pairing recordId outcomes =
      let record := pendingPairingRevoke recordId input.controlEndpoint pairing
      let handled := τ.handle pairing record outcomes error attempted
      (handled.1, { handled.2 with
        activePendingPairingRevokes :=
          handled.2.activePendingPairingRevokes.filter (· ≠ recordId) }) := by
  rw [create]
  rw [h]

theorem create_kept (h : σ.Coherent owner) (hunused : σ.Unused pairing.toCredentials recordId)
    (hcompensable : Compensable input pairing outcomes) :
    σ.NeverOrphaned input pairing recordId outcomes := by
  have hfree : ¬Carried σ.nodeRows pairing.toCredentials := fun hc => hunused.unknown (.inl hc)
  have hstart := hunused.coherent h
  have hcreated : (σ.create input pairing recordId outcomes).2.Inv
      (update owner recordId pairing.toCredentials) pairing.toCredentials ∧
      ∀ node, (σ.create input pairing recordId outcomes).1 = .ok node →
        (σ.create input pairing recordId outcomes).2.nodeRows.get? pairing.nodeId = some node ∧
          node.auth.Carries pairing.toCredentials := by
    have hactive := hstart.active (recordId :: σ.activePendingPairingRevokes)
    have howner : (pendingPairingRevoke recordId input.controlEndpoint pairing).toCredentials =
        update owner recordId pairing.toCredentials recordId := by
      rw [update_self]
      rfl
    rw [create]
    generalize hattempt : attempt _ input pairing _ outcomes = attempted
    obtain ⟨result, attempted, τ⟩ := attempted
    have hkept := attempt_kept hactive howner rfl hcompensable hfree hattempt
    cases result with
    | ok node =>
      have ⟨hget, hcarries⟩ := hkept.2.2.2 node rfl
      have hinv : τ.Inv (update owner recordId pairing.toCredentials)
          pairing.toCredentials := ⟨hkept.1, .inl ⟨node, hget, hcarries⟩⟩
      refine ⟨hinv.active _, ?_⟩
      rintro _ ⟨⟩
      exact ⟨hget, hcarries⟩
    | error error =>
      have hhandled := handle_kept hkept.1 howner rfl rfl hkept.2.1 hkept.2.2.1 error
      exact ⟨hhandled.1.active _, hhandled.2⟩
  exact ⟨hcreated.2, fun laters =>
    have hlater := hcreated.1.laters laters
    ⟨hlater.kept, hlater.coherent.unsent⟩⟩

/-! ## Creations that orphan a pairing -/

theorem persistence_free (hfree : ¬Carried σ.configurations credentials) (looked : Bool) :
    σ.pairingPersistence credentials looked = if looked then .absent else .unknown := by
  rw [pairingPersistence]
  cases looked with
  | false => rfl
  | true =>
    cases hget : σ.configurations.get? credentials.nodeId with
    | none => rfl
    | some node =>
      have hnot : ¬node.auth.Carries credentials := fun hc => hfree ⟨node, hget, hc⟩
      simp [hnot]

theorem create_refused (h : σ.Coherent owner)
    (hunknown : ¬σ.Kept pairing.toCredentials) (hput : outcomes.recordPut = .refused)
    (hmark : outcomes.mark = .refused) :
    ¬(σ.create input pairing recordId outcomes).2.Kept pairing.toCredentials := by
  have hfree : ¬Carried σ.configurations pairing.toCredentials :=
    fun hc => hunknown (.inl (h.carried.mp hc))
  have hactive : ∀ active : List String, pairingPersistence
      { σ with activePendingPairingRevokes := active } pairing.toCredentials outcomes.looked =
        if outcomes.looked then .absent else .unknown :=
    fun active => persistence_free (σ := { σ with activePendingPairingRevokes := active }) hfree _
  simp only [create, attempt, hput, putRecord, handle, hactive]
  cases outcomes.looked <;>
    simpa [giveUp, markPendingPairingCompensating, pendingPairingRevoke, hmark, putRecord, Kept]
      using hunknown

/-- The database has a node with the credentials that the memory does not know. -/
structure Hidden (credentials : Credentials) (σ : NodeConnectionManager) : Prop where
  uncopied : ¬Carried σ.configurations credentials
  stored : Carried σ.nodeRows credentials

/-- A revocation was sent for a node that is stored. -/
def Misfired (σ : NodeConnectionManager) : Prop :=
  ∃ revocation ∈ σ.sent, revocation.stored = true

theorem Hidden.misfires (h : σ.Hidden credentials) (answer : Answer) :
    (σ.compensatePairing credentials answer).2.Misfired := by
  have hsent : ∃ revocation ∈ σ.sent ++ [⟨credentials, decide (Carried σ.nodeRows credentials)⟩],
      Revocation.stored revocation = true :=
    ⟨_, mem_append_right _ (mem_singleton_self _), decide_eq_true h.stored⟩
  rw [compensatePairing]
  split
  · exact hsent
  · exact hsent

/-- The outcomes of a pass in which nothing fails but the network. -/
def unanswered : RecoverOutcomes := ⟨true, .done, .threw, .done⟩

theorem recoverRecord_unanswered (σ : NodeConnectionManager) (record : PendingPairingRevoke) :
    (σ.recoverPendingPairingRevoke record unanswered).configurations = σ.configurations ∧
      (σ.recoverPendingPairingRevoke record unanswered).nodeRows = σ.nodeRows ∧
      (σ.Misfired → (σ.recoverPendingPairingRevoke record unanswered).Misfired) := by
  have hgrows : ∀ revocation, σ.Misfired → ∃ sent ∈ σ.sent ++ [revocation], sent.stored = true :=
    fun _ hmis => hmis.imp fun _ hsent => ⟨mem_append_left _ hsent.1, hsent.2⟩
  rw [recoverPendingPairingRevoke]
  split
  · exact ⟨rfl, rfl, id⟩
  · exact ⟨rfl, rfl, id⟩
  cases mark_cases σ record unanswered.mark with
  | inl heq =>
    rw [heq]
    exact ⟨rfl, rfl, hgrows _⟩
  | inr heq =>
    rw [heq]
    exact ⟨rfl, rfl, hgrows _⟩

theorem Hidden.mark (h : σ.Hidden credentials) (record : PendingPairingRevoke) (mark : Write) :
    (σ.markPendingPairingCompensating record mark).2.Hidden credentials := by
  cases mark_cases σ record mark with
  | inl heq =>
    rw [heq]
    exact h
  | inr heq =>
    rw [heq]
    cases mark <;> exact ⟨h.uncopied, h.stored⟩

theorem Hidden.recoverRecord (h : σ.Hidden record.toCredentials) :
    (σ.recoverPendingPairingRevoke record unanswered).Misfired := by
  have hmarked := (h.mark record .done).misfires .threw
  rw [recoverPendingPairingRevoke, persistence_free h.uncopied]
  cases mark_cases σ record .done with
  | inl heq =>
    rw [heq] at hmarked
    simp only [unanswered, heq]
    exact hmarked
  | inr heq =>
    rw [heq] at hmarked
    simp only [unanswered, heq]
    exact hmarked

theorem Hidden.recover (h : σ.Hidden credentials) {pending : List PendingPairingRevoke}
    (hmem : record ∈ pending) (hrecord : record.toCredentials = credentials) :
    (pending.foldl (fun σ record => σ.recoverPendingPairingRevoke record unanswered) σ).Misfired := by
  have hstays : ∀ (pending : List PendingPairingRevoke) (τ : NodeConnectionManager), τ.Misfired →
      (pending.foldl (fun σ record => σ.recoverPendingPairingRevoke record unanswered) τ).Misfired := by
    intro pending
    induction pending with
    | nil => exact fun _ => id
    | cons first pending ih =>
      exact fun τ hmis => ih _ ((recoverRecord_unanswered τ first).2.2 hmis)
  induction pending generalizing σ with
  | nil => cases hmem
  | cons first pending ih =>
    have hsame := recoverRecord_unanswered σ first
    cases mem_cons.mp hmem with
    | inl heq =>
      have h : σ.Hidden first.toCredentials := by
        rw [← heq, hrecord]
        exact h
      exact hstays pending _ h.recoverRecord
    | inr hrest =>
      have hnext : (σ.recoverPendingPairingRevoke first unanswered).Hidden credentials :=
        ⟨by rw [hsame.1]; exact h.uncopied, by rw [hsame.2.1]; exact h.stored⟩
      exact ih hnext hrest

/-- The `catch` after a commit that was carried out and threw sends the revocation, or leaves it to
a later pass. -/
theorem handle_hidden (h : σ.Hidden pairing.toCredentials)
    (hphase : record.phase = .pendingCompensation)
    (hget : σ.records.get? record.id = some record) (outcomes : CreateOutcomes)
    (error : CreateError) : (σ.handle pairing record outcomes error true).2.Misfired ∨
      (σ.handle pairing record outcomes error true).2.Hidden pairing.toCredentials ∧
        (σ.handle pairing record outcomes error true).2.records.get? record.id = some record := by
  rw [handle, persistence_free h.uncopied]
  cases outcomes.looked with
  | false => exact .inr ⟨h, hget⟩
  | true =>
    have hput : ∀ mark, σ.markPendingPairingCompensating record mark =
        σ.putRecord { record with phase := .compensating } mark :=
      fun _ => if_neg (by rw [hphase]; exact nofun)
    have hmarked := h.mark record outcomes.mark
    rw [if_pos rfl, giveUp]
    cases hmark : outcomes.mark with
    | refused =>
      simp only [hput, putRecord]
      exact .inr ⟨h, hget⟩
    | lost =>
      simp only [hput, putRecord]
      exact .inr ⟨⟨h.uncopied, h.stored⟩, hget⟩
    | done =>
      rw [hput, hmark] at hmarked
      have hmisfired := hmarked.misfires outcomes.answer
      rw [hput, putRecord]
      rw [putRecord] at hmisfired
      left
      dsimp only at hmisfired ⊢
      split
      next hanswer =>
        rw [hanswer] at hmisfired
        exact hmisfired
      next hanswer =>
        rw [hanswer] at hmisfired
        cases outcomes.clear <;> exact hmisfired

theorem create_lost (h : σ.Coherent owner) (hunused : σ.Unused pairing.toCredentials recordId)
    (hput : outcomes.recordPut = .done) (hchecked : checked input pairing outcomes = .ok candidate)
    (hcommit : outcomes.commit = .lost) : ∃ laters : List Later,
      (laters.foldl later (σ.create input pairing recordId outcomes).2).Misfired := by
  have ⟨hid, hcarries⟩ := checked_ok hchecked
  have hfree : ¬Carried σ.configurations pairing.toCredentials :=
    fun hc => hunused.unknown (.inl (h.carried.mp hc))
  have hstored : Carried (σ.nodeRows.set candidate.id candidate) pairing.toCredentials :=
    ⟨candidate, by rw [hid]; exact get?_set_self _ _ _, hcarries⟩
  have ⟨τ, hattempt, hhidden, hget⟩ : ∃ τ,
      attempt { σ with activePendingPairingRevokes := recordId :: σ.activePendingPairingRevokes }
        input pairing (pendingPairingRevoke recordId input.controlEndpoint pairing) outcomes =
          (.error .storage, true, τ) ∧ τ.Hidden pairing.toCredentials ∧
        τ.records.get? (pendingPairingRevoke recordId input.controlEndpoint pairing).id =
          some (pendingPairingRevoke recordId input.controlEndpoint pairing) := by
    refine ⟨(commitPairing (putRecord
      { σ with activePendingPairingRevokes := recordId :: σ.activePendingPairingRevokes }
      (pendingPairingRevoke recordId input.controlEndpoint pairing) .done).2 candidate
      recordId .lost).2, ?_, ⟨hfree, hstored⟩, get?_set_self _ _ _⟩
    simp only [attempt, hput, hchecked, hcommit, putRecord, commitPairing]
    rfl
  have hrecord : (pendingPairingRevoke recordId input.controlEndpoint pairing).toCredentials =
      pairing.toCredentials := rfl
  have hhandled := handle_hidden hhidden rfl hget outcomes .storage
  rw [create_error hattempt]
  dsimp only
  generalize τ.handle pairing _ outcomes .storage true = handled at hhandled ⊢
  cases hhandled with
  | inl hmisfired => exact ⟨[], hmisfired⟩
  | inr hleft =>
    have hidle : recordId ∉ handled.2.activePendingPairingRevokes.filter (· ≠ recordId) := by simp
    have hmem := mem_values.mpr ⟨_, hleft.2⟩
    have hleft' : Hidden pairing.toCredentials
        { handled.2 with
          activePendingPairingRevokes :=
            handled.2.activePendingPairingRevokes.filter (· ≠ recordId) } :=
      ⟨hleft.1.uncopied, hleft.1.stored⟩
    exact ⟨[.recover fun _ => unanswered], hleft'.recover
      (mem_filter.mpr ⟨hmem, decide_eq_true hidle⟩) hrecord⟩

theorem never_orphaned_iff (h : σ.Coherent owner)
    (hunused : σ.Unused pairing.toCredentials recordId) :
    σ.NeverOrphaned input pairing recordId outcomes ↔ Compensable input pairing outcomes := by
  constructor
  · intro hnever
    constructor
    · rintro ⟨hput, hmark⟩
      exact create_refused h hunused.unknown hput hmark (hnever.2 []).1
    rintro ⟨hput, hok, hcommit⟩
    cases hchecked : checked input pairing outcomes with
    | error error =>
      rw [hchecked] at hok
      cases hok
    | ok candidate =>
      have ⟨laters, revocation, hsent, hstored⟩ := create_lost h hunused hput hchecked hcommit
      rw [(hnever.2 laters).2 revocation hsent] at hstored
      cases hstored
  · exact create_kept h hunused

def fresh : NodeConnectionManager := ⟨.empty, .empty, .empty, .empty, [], [], []⟩

theorem fresh_coherent (owner : String → Credentials) : fresh.Coherent owner :=
  ⟨fun _ => rfl, nofun, nofun, nofun⟩

theorem fresh_unused (credentials : Credentials) (recordId : String) :
    fresh.Unused credentials recordId := by
  refine ⟨rfl, rfl, nofun, ?_⟩
  rintro (⟨_, hnode, _⟩ | ⟨_, _, hrow, _⟩ | hacknowledged)
  · cases hnode
  · cases hrow
  · cases hacknowledged

def buildNode : CreateNodeInput := ⟨none, .directHttp, "http://build:8091"⟩

def buildPairing : CompletedPairing := ⟨⟨"node_build", "key_1", "s3cret"⟩, "now", false, false⟩

/-- Nothing fails. -/
def smooth : CreateOutcomes :=
  ⟨.done, true, some "node_build", true, false, .done, true, true, .done, .threw, .done⟩

/-- The commit is refused, and the node does not answer the request to revoke. -/
theorem refused_commit_kept : ∃ error,
    (fresh.create buildNode buildPairing "revoke_1" { smooth with commit := .refused }).1 =
      .error error ∧
    fresh.NeverOrphaned buildNode buildPairing "revoke_1" { smooth with commit := .refused } := by
  have hcoherent := fresh_coherent fun _ => buildPairing.toCredentials
  have hunused := fresh_unused buildPairing.toCredentials "revoke_1"
  exact ⟨.compensationFailed, rfl, (never_orphaned_iff hcoherent hunused).mpr (by decide +kernel)⟩

/-- While the table of the records takes no write, nothing is stored and nothing is revoked. A commit
that was carried out and threw is followed by the revocation of the stored node's key. -/
theorem orphaned_pairings : ¬fresh.NeverOrphaned buildNode buildPairing "revoke_1"
      { smooth with recordPut := .refused, mark := .refused } ∧
    ¬fresh.NeverOrphaned buildNode buildPairing "revoke_1" { smooth with commit := .lost } := by
  constructor
  · intro hnever
    exact create_refused (fresh_coherent fun _ => buildPairing.toCredentials)
      (fresh_unused _ "revoke_1").unknown rfl rfl (hnever.2 []).1
  intro hnever
  have hsent := (hnever.2 []).2 ⟨buildPairing.toCredentials, true⟩ (by decide +kernel)
  cases hsent

end NodeConnectionManager

end TaskHandoff.NodePairing
