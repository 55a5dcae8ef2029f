import TaskHandoff.Lib.Machine
import TaskHandoff.NodeAuth.Hmac

/-! # Signed requests are accepted once

A nonce is live as long as its entry expires behind the cutoff of the next pruning. Both verifiers
accept an admissible request exactly when its joined nonce key is not live. So a request is accepted
twice exactly when its nonce is forgotten while its timestamp still passes: at the far end of the
window, or when the clock ticks between the check and the pruning. -/

namespace TaskHandoff.NodeAuth

open Machine List Accepted

def Accepted.key (a : Accepted) : String := nonceKey a.nodeId a.keyId a.nonce

/-- The two carry the same node id, key id and nonce. -/
def Accepted.sameNonce (a b : Accepted) : Prop :=
  a.nodeId = b.nodeId ∧ a.keyId = b.keyId ∧ a.nonce = b.nonce

def Accepted.use (a : Accepted) : String × String × String × String :=
  (a.nodeId, a.keyId, a.nonce, a.timestamp)

namespace NonceMemory

variable {σ : NonceMemory} {cutoff expiresAt : Int} {key : String}

/-! ## Pruning -/

theorem frame_foldl_expire (cutoff : Int) (entries : List (String × Int)) (σ : NonceMemory) :
    (entries.foldl (fun σ entry => σ.expire entry.1 entry.2 cutoff) σ).accepted = σ.accepted ∧
      (entries.foldl (fun σ entry => σ.expire entry.1 entry.2 cutoff) σ).ticks = σ.ticks := by
  induction entries generalizing σ with
  | nil => exact ⟨rfl, rfl⟩
  | cons entry entries ih =>
    have ⟨haccepted, hticks⟩ := ih (σ.expire entry.1 entry.2 cutoff)
    rw [foldl_cons, haccepted, hticks, expire]
    split
    · exact ⟨rfl, rfl⟩
    · exact ⟨rfl, rfl⟩

theorem get?_foldl_expire {entries : List (String × Int)} :
    (entries.foldl (fun σ entry => σ.expire entry.1 entry.2 cutoff) σ).used.get? key =
        some expiresAt ↔
      σ.used.get? key = some expiresAt ∧ ∀ entry ∈ entries, entry.1 = key → cutoff < entry.2 := by
  induction entries generalizing σ with
  | nil => simp
  | cons entry entries ih =>
    rw [foldl_cons, ih, forall_mem_cons, expire]
    split
    next hle =>
      rw [OrderedMap.get?_erase]
      split
      next heq =>
        refine ⟨nofun, fun ⟨_, hfirst, _⟩ => ?_⟩
        have hlt := hfirst heq.symm
        omega
      next hne =>
        exact and_congr_right fun _ =>
          ⟨fun hrest => ⟨fun heq => (hne heq.symm).elim, hrest⟩, fun h => h.2⟩
    next hlt =>
      exact and_congr_right fun _ => ⟨fun hrest => ⟨fun _ => by omega, hrest⟩, fun h => h.2⟩

@[simp] theorem accepted_prune : (σ.prune cutoff).accepted = σ.accepted :=
  (frame_foldl_expire cutoff σ.used.entries σ).1

@[simp] theorem ticks_prune : (σ.prune cutoff).ticks = σ.ticks :=
  (frame_foldl_expire cutoff σ.used.entries σ).2

theorem get?_prune_eq_some : (σ.prune cutoff).used.get? key = some expiresAt ↔
      σ.used.get? key = some expiresAt ∧ cutoff < expiresAt := by
  rw [prune, get?_foldl_expire]
  refine and_congr_right fun hget => ⟨fun h => ?_, fun hlt entry hentry hkey => ?_⟩
  · exact h (key, expiresAt) (OrderedMap.get?_eq_some.mp hget) rfl
  have hother := OrderedMap.get?_eq_some.mpr (show (entry.1, entry.2) ∈ σ.used.entries from hentry)
  rw [hkey, hget, Option.some.injEq] at hother
  omega

/-! ## Live nonces -/

def Live (σ : NonceMemory) (limit : Int) (key : String) : Prop :=
  ∃ expiresAt, σ.used.get? key = some expiresAt ∧ limit < expiresAt

/-- An accepted request of the key that expires behind the limit. -/
def Recalled (σ : NonceMemory) (limit : Int) (key : String) : Prop :=
  ∃ a ∈ σ.accepted, a.key = key ∧ limit < a.expiresAt

theorem contains_prune : (σ.prune cutoff).used.contains key = true ↔ σ.Live cutoff key := by
  rw [OrderedMap.contains, Option.isSome_iff_exists]
  exact exists_congr fun _ => get?_prune_eq_some

theorem contains_prune_read (σ : NonceMemory) (cutoff : Int) (key : String) :
    (σ.read.read.prune cutoff).used.contains key = true ↔ σ.Live cutoff key :=
  contains_prune

theorem live_prune {limit : Int} (hle : cutoff ≤ limit) :
    (σ.prune cutoff).Live limit key ↔ σ.Live limit key := by
  unfold Live
  simp only [get?_prune_eq_some]
  refine exists_congr fun expiresAt => ⟨fun h => ⟨h.1.1, h.2⟩, fun h => ⟨⟨h.1, ?_⟩, h.2⟩⟩
  omega

/-- What is live at any limit to come is what was accepted and expires behind it. -/
def Remembers (clock : Clock) (offset : Int) (σ : NonceMemory) : Prop :=
  ∀ limit, (∀ tick < σ.ticks, clock.time tick - offset ≤ limit) →
    ∀ key, σ.Live limit key ↔ σ.Recalled limit key

end NonceMemory

open NonceMemory

/-! ## Attempts -/

/-- What a request does to the memory, and whether it is accepted. -/
inductive Attempt (σ : NonceMemory) (admissible : Prop) (cutoff : Int) (entry : Accepted) :
    NonceMemory → Bool → Prop
  | refused (ticks : Nat) (h : ¬admissible) :
      Attempt σ admissible cutoff entry { σ with ticks := σ.ticks + ticks } false
  | pruned (h : ¬admissible) : Attempt σ admissible cutoff entry (σ.read.read.prune cutoff) false
  | known (h : admissible) (hknown : σ.Live cutoff entry.key) :
      Attempt σ admissible cutoff entry (σ.read.read.prune cutoff) false
  | accepted {τ : NonceMemory} (h : admissible) (hnew : ¬σ.Live cutoff entry.key)
      (hused : τ.used = (σ.read.read.prune cutoff).used.set entry.key entry.expiresAt)
      (hticks : σ.ticks + 2 ≤ τ.ticks) (haccepted : τ.accepted = σ.accepted ++ [entry]) :
      Attempt σ admissible cutoff entry τ true

/-- A verifier: its requests, which of them are admissible in a state, and what is remembered of an
accepted one. -/
structure Guard (α : Type) where
  clock : Clock
  offset : Int
  attempt : α → NonceMemory → NonceMemory × Bool
  admissible : α → NonceMemory → Prop
  entry : α → NonceMemory → Accepted
  spec : ∀ r σ, Attempt σ (admissible r σ) (clock.time (σ.ticks + 1) - offset) (entry r σ)
    (attempt r σ).1 (attempt r σ).2

namespace Guard

variable {α : Type} (guard : Guard α)

def step (σ : NonceMemory) (r : α) : Option NonceMemory := some (guard.attempt r σ).1

/-- The limit of the pruning that the next admissible request meets. -/
def cutoff (σ : NonceMemory) : Int := guard.clock.time (σ.ticks + 1) - guard.offset

/-- An admissible request whose node id, key id and nonce are new is accepted. -/
def Complete (σ : NonceMemory) (r : α) : Prop :=
  guard.admissible r σ → (∀ a ∈ σ.accepted, ¬a.sameNonce (guard.entry r σ)) →
    (guard.attempt r σ).2 = true

/-- An admissible request meets its own joined key remembered if it repeats an accepted one, and
meets no other's if its nonce is new. -/
def Separated (σ : NonceMemory) (r : α) : Prop :=
  guard.admissible r σ → ((guard.entry r σ).use ∈ σ.accepted.map use →
      σ.Recalled (guard.cutoff σ) (guard.entry r σ).key) ∧
    ((∀ a ∈ σ.accepted, ¬a.sameNonce (guard.entry r σ)) →
      ¬σ.Recalled (guard.cutoff σ) (guard.entry r σ).key)

theorem attempt_spec (σ : NonceMemory) (r : α) :
    Attempt σ (guard.admissible r σ) (guard.cutoff σ) (guard.entry r σ)
      (guard.attempt r σ).1 (guard.attempt r σ).2 :=
  guard.spec r σ

variable {guard} {σ : NonceMemory}

theorem cutoff_le (guard : Guard α) (σ : NonceMemory) :
    ∀ tick < σ.ticks, guard.clock.time tick - guard.offset ≤ guard.cutoff σ := by
  intro tick htick
  have hmono := guard.clock.mono (show tick ≤ σ.ticks + 1 by omega)
  unfold cutoff
  omega

theorem remembers_attempt (h : σ.Remembers guard.clock guard.offset) (r : α) :
    (guard.attempt r σ).1.Remembers guard.clock guard.offset := by
  have hpruned : (σ.read.read.prune (guard.cutoff σ)).Remembers guard.clock guard.offset := by
    intro limit hlimit key
    rw [ticks_prune] at hlimit
    have hcutoff : guard.cutoff σ ≤ limit := hlimit (σ.ticks + 1) (Nat.lt_succ_self _)
    rw [live_prune hcutoff, Recalled, accepted_prune]
    exact h limit (fun tick htick => hlimit tick (Nat.lt_add_right 2 htick)) key
  generalize hresult : guard.attempt r σ = result
  have hspec := guard.attempt_spec σ r
  rw [hresult] at hspec
  have ⟨τ, accepted⟩ := result
  cases hspec with
  | refused ticks =>
    intro limit hlimit
    exact h limit fun tick htick => hlimit tick (Nat.lt_add_right ticks htick)
  | pruned => exact hpruned
  | known => exact hpruned
  | accepted _ hnew hused hticks haccepted =>
    intro limit hlimit key
    have hcutoff : guard.cutoff σ ≤ limit := hlimit (σ.ticks + 1) (by omega)
    have hold : (σ.read.read.prune (guard.cutoff σ)).Live limit key ↔ σ.Recalled limit key := by
      rw [live_prune hcutoff]
      exact h limit (fun tick htick => hlimit tick (by omega)) key
    unfold Live Recalled at hold ⊢
    rw [hused, haccepted, OrderedMap.get?_set]
    split
    next hkey =>
      -- The older requests of the key have expired.
      have hexpired : ∀ a ∈ σ.accepted, a.key = (guard.entry r σ).key →
          a.expiresAt ≤ guard.cutoff σ := by
        intro a ha hakey
        by_contra hlt
        exact hnew ((h _ (cutoff_le guard σ) _).mpr ⟨a, ha, hakey, by omega⟩)
      constructor
      · intro ⟨expiresAt, heq, hlt⟩
        cases heq
        exact ⟨guard.entry r σ, by simp, hkey.symm, hlt⟩
      intro ⟨a, ha, hakey, hlt⟩
      cases mem_append.mp ha with
      | inl hmem =>
        have hle := hexpired a hmem (hakey.trans hkey)
        omega
      | inr hlast =>
        rw [mem_singleton.mp hlast] at hlt
        exact ⟨_, rfl, hlt⟩
    next hkey =>
      rw [hold]
      constructor
      · intro ⟨a, ha, hrest⟩
        exact ⟨a, mem_append_left _ ha, hrest⟩
      intro ⟨a, ha, hakey, hlt⟩
      cases mem_append.mp ha with
      | inl hmem => exact ⟨a, hmem, hakey, hlt⟩
      | inr hlast =>
        rw [mem_singleton.mp hlast] at hakey
        exact (hkey hakey.symm).elim

/-- A request whose separation holds keeps what is accepted free of repetitions and is accepted if
its nonce is new, and only then. -/
theorem attempt_iff (h : σ.Remembers guard.clock guard.offset) (r : α) :
    (((guard.attempt r σ).1.accepted.map use).Nodup ∧ guard.Complete σ r) ↔
      (σ.accepted.map use).Nodup ∧ guard.Separated σ r := by
  have hlive := h (guard.cutoff σ) (cutoff_le guard σ) (guard.entry r σ).key
  unfold Complete Separated
  generalize hresult : guard.attempt r σ = result
  have hspec := guard.attempt_spec σ r
  rw [hresult] at hspec
  have ⟨τ, accepted⟩ := result
  cases hspec with
  | refused ticks hrefused => simp [hrefused]
  | pruned hrefused =>
    change ((σ.read.read.prune (guard.cutoff σ)).accepted.map use).Nodup ∧ _ ↔ _
    simp [hrefused, NonceMemory.read]
  | known hadmissible hknown =>
    have hrecalled := hlive.mp hknown
    change ((σ.read.read.prune (guard.cutoff σ)).accepted.map use).Nodup ∧ _ ↔ _
    simp [hadmissible, hrecalled, NonceMemory.read]
  | accepted hadmissible hnew _ _ haccepted =>
    have hforgotten := fun hrecalled => hnew (hlive.mpr hrecalled)
    rw [haccepted]
    simp only [hadmissible, forall_const, map_append, map_cons, map_nil,
      iff_false_intro hforgotten, imp_false, not_false_eq_true, implies_true, and_true]
    rw [nodup_append_comm, singleton_append, nodup_cons, and_comm]

/-- The memory behind requests presented one after the other. -/
def serve (guard : Guard α) (requests : List α) : NonceMemory :=
  requests.foldl (fun σ r => (guard.attempt r σ).1) {}

/-- What is accepted is free of repetitions and every admissible request with a new nonce is
accepted, exactly when each request was separated from those before it. -/
theorem serve_iff (guard : Guard α) (requests : List α) :
    (((guard.serve requests).accepted.map use).Nodup ∧
        AllSteps guard.step guard.Complete {} requests) ↔
      AllSteps guard.step guard.Separated {} requests := by
  have hgeneral : ∀ σ : NonceMemory, σ.Remembers guard.clock guard.offset →
      ((((requests.foldl (fun σ r => (guard.attempt r σ).1) σ).accepted.map use).Nodup ∧
          AllSteps guard.step guard.Complete σ requests) ↔
        (σ.accepted.map use).Nodup ∧ AllSteps guard.step guard.Separated σ requests) := by
    induction requests with
    | nil => simp [AllSteps]
    | cons r requests ih =>
      intro σ h
      have hrest := ih (guard.attempt r σ).1 (remembers_attempt h r)
      have hfirst := attempt_iff h r
      simp only [foldl_cons, AllSteps, step]
      tauto
  have hinit : ({} : NonceMemory).Remembers guard.clock guard.offset := by
    intro limit _ key
    simp [Live, Recalled]
  have h := hgeneral {} hinit
  simpa [serve] using h

end Guard

/-! ## The verifiers -/

section Verifiers

variable (library : Library) (clock : Clock)

/-- The timestamp passes the check of the next reading. -/
def timely (headers : HmacHeaders) (σ : NonceMemory) : Prop :=
  ∃ timestampMs, library.dateParse headers.timestamp = some timestampMs ∧
    withinWindow (clock.time σ.ticks) timestampMs = true

/-- The request is signed for the node with its paired key. -/
def tunnelAdmissible (r : Node × TunnelRequest) (σ : NonceMemory) : Prop :=
  let headers := hmacHeadersFromRecord r.2.headers
  (r.1.mode = "paired-hmac" ∧ r.1.keyId.getD "" ≠ "" ∧ r.1.secret.getD "" ≠ "") ∧
    headers.nodeId = r.1.id ∧ some headers.keyId = r.1.keyId ∧ timely library clock headers σ ∧
    headers.nonce ≠ "" ∧ headers.bodySha256 = library.sha256Hex (.text "") ∧
    timingSafeHexEqual library headers.signature
      (signNodeAgentRequest library (r.1.secret.getD "") (tunnelInput library r.1 r.2)) = true

def tunnelEntry (r : Node × TunnelRequest) (σ : NonceMemory) : Accepted :=
  let headers := hmacHeadersFromRecord r.2.headers
  ⟨r.1.id, headers.keyId, headers.nonce, headers.timestamp,
    clock.time (σ.ticks + 2) + NODE_AGENT_HMAC_TIMESTAMP_WINDOW_MS⟩

def accepts {α : Type} (result : NonceMemory × Except String α) : NonceMemory × Bool :=
  (result.1, result.2.isOk)

theorem tunnel_spec (r : Node × TunnelRequest) (σ : NonceMemory) :
    Attempt σ (tunnelAdmissible library clock r σ)
      (clock.time (σ.ticks + 1) - NODE_AGENT_HMAC_TIMESTAMP_WINDOW_MS) (tunnelEntry clock r σ)
      (accepts (verifyTunnelHmac library clock r.1 r.2 σ)).1
      (accepts (verifyTunnelHmac library clock r.1 r.2 σ)).2 := by
  have hlive := contains_prune_read σ
    (clock.time (σ.ticks + 1) - NODE_AGENT_HMAC_TIMESTAMP_WINDOW_MS) (tunnelEntry clock r σ).key
  simp only [verifyTunnelHmac]
  split
  next hunpaired => exact .refused 0 fun h => by simp_all [tunnelAdmissible]
  · split
    next hnode => exact .refused 0 fun h => hnode h.2.1
    · split
      next hkey => exact .refused 0 fun h => hkey h.2.2.1
      · split
        next hdate =>
          refine .refused 0 ?_
          rintro ⟨_, _, _, ⟨_, hparsed, _⟩, _⟩
          rw [hdate] at hparsed
          cases hparsed
        next timestampMs hdate =>
          split
          next hwindow =>
            refine .refused 1 ?_
            rintro ⟨_, _, _, ⟨_, hparsed, hpassed⟩, _⟩
            rw [hdate] at hparsed
            cases hparsed
            exact hwindow hpassed
          next hwindow =>
            split
            next hnonce =>
              by_cases h : tunnelAdmissible library clock r σ
              · exact .known h (hlive.mp (hnonce.resolve_left h.2.2.2.2.1))
              · exact .pruned h
            rename_i hnonce
            obtain ⟨hnamed, hnew⟩ := not_or.mp hnonce
            split
            next hbody => exact .pruned fun h => hbody h.2.2.2.2.2.1
            · split
              next hsignature => exact .pruned fun h => hsignature h.2.2.2.2.2.2
              next hsignature =>
                refine .accepted ?_ (fun hkept => hnew (hlive.mpr hkept)) ?_ ?_ ?_
                · simp_all [tunnelAdmissible, timely]
                · simp only [accepts, remember, ticks_prune]
                  rfl
                · simp [accepts, remember, NonceMemory.read]
                · simp only [accepts, remember, NonceMemory.read, ticks_prune, accepted_prune]
                  rfl

def tunnelGuard : Guard (Node × TunnelRequest) where
  clock := clock
  offset := NODE_AGENT_HMAC_TIMESTAMP_WINDOW_MS
  attempt r σ := accepts (verifyTunnelHmac library clock r.1 r.2 σ)
  admissible := tunnelAdmissible library clock
  entry := tunnelEntry clock
  spec := tunnel_spec library clock

theorem keyed_of_remoteSecrets {verifier : Verifier} {includeRevoked : Bool} {item : RemoteSecret}
    (h : item ∈ remoteSecrets verifier includeRevoked) : item.keyId ≠ "" := by
  cases mem_append.mp h with
  | inl hpaired =>
    have ⟨pairing, _, hitem⟩ := mem_map.mp hpaired
    exact hitem ▸ pairing.keyed
  | inr hoverride =>
    split at hoverride
    next hset =>
      rw [mem_singleton.mp hoverride]
      exact hset.2
    · cases hoverride

/-- The request is signed for the verifier's node with a paired key. -/
def agentAdmissible (verifier : Verifier) (r : AgentRequest) (σ : NonceMemory) : Prop :=
  let headers := hmacHeadersFromRecord r.headers
  let bodySha256 := library.sha256Hex (requestBodyForHmac r.body)
  headers.nodeId = verifier.nodeId ∧ timely library clock headers σ ∧ headers.nonce ≠ "" ∧
    headers.bodySha256 = bodySha256 ∧
    ∃ item ∈ remoteSecrets verifier (selfRevoke r), headers.keyId = item.keyId ∧
      timingSafeHexEqual library headers.signature
        (signNodeAgentRequest library item.secret (agentInput r bodySha256)) = true

/-- The nonce is kept until its timestamp no longer passes. -/
def agentEntry (r : AgentRequest) (_ : NonceMemory) : Accepted :=
  let headers := hmacHeadersFromRecord r.headers
  ⟨headers.nodeId, headers.keyId, headers.nonce, headers.timestamp,
    (library.dateParse headers.timestamp).getD 0 + NODE_AGENT_HMAC_TIMESTAMP_WINDOW_MS + 1⟩

/-- What `verify` does; `false` is no acceptance. -/
def agentAttempt (verifier : Verifier) (r : AgentRequest) (σ : NonceMemory) : NonceMemory × Bool :=
  let result := verify library clock verifier r σ
  (result.1, match result.2 with
    | .ok (some _) => true
    | _ => false)

theorem agent_spec (verifier : Verifier) (r : AgentRequest) (σ : NonceMemory) :
    Attempt σ (agentAdmissible library clock verifier r σ) (clock.time (σ.ticks + 1) - 0)
      (agentEntry library r σ) (agentAttempt library clock verifier r σ).1
      (agentAttempt library clock verifier r σ).2 := by
  have hlive := contains_prune_read σ (clock.time (σ.ticks + 1)) (agentEntry library r σ).key
  rw [Int.sub_zero, agentAttempt]
  generalize hresult : verify library clock verifier r σ = result
  unfold verify at hresult
  extract_lets headers secrets candidates reading pruned bodySha256 at hresult
  split at hresult
  next hunsigned =>
    subst hresult
    exact .refused 0 fun h => verifier.named (h.1.symm.trans hunsigned.1)
  · split at hresult
    next hunpaired =>
      subst hresult
      refine .refused 0 ?_
      rintro ⟨_, _, _, _, item, hitem, _⟩
      have hnone : remoteSecrets verifier (selfRevoke r) = [] := isEmpty_iff.mp hunpaired
      rw [hnone] at hitem
      cases hitem
    · split at hresult
      next hnode =>
        subst hresult
        exact .refused 0 fun h => hnode h.1
      next hnode =>
        split at hresult
        next hkey =>
          subst hresult
          refine .refused 0 ?_
          rintro ⟨_, _, _, _, item, hitem, heq, _⟩
          exact keyed_of_remoteSecrets hitem (heq.symm.trans hkey)
        · split at hresult
          next hnone =>
            subst hresult
            refine .refused 0 ?_
            rintro ⟨_, _, _, _, item, hitem, heq, _⟩
            have hmem : item ∈ candidates := mem_filter.mpr ⟨hitem, decide_eq_true heq⟩
            rw [isEmpty_iff.mp hnone] at hmem
            cases hmem
          · split at hresult
            next hdate =>
              subst hresult
              refine .refused 0 ?_
              rintro ⟨_, ⟨_, hparsed, _⟩, _⟩
              rw [hdate] at hparsed
              cases hparsed
            next timestampMs hdate =>
              have hparsed : library.dateParse (hmacHeadersFromRecord r.headers).timestamp =
                  some timestampMs := hdate
              split at hresult
              next hwindow =>
                subst hresult
                refine .refused 1 ?_
                rintro ⟨_, ⟨_, hother, hpassed⟩, _⟩
                rw [hparsed] at hother
                cases hother
                exact hwindow hpassed
              next hwindow =>
                split at hresult
                next hnonce =>
                  subst hresult
                  exact .refused 1 fun h => h.2.2.1 hnonce
                rename_i hnonce
                split at hresult
                next hknown =>
                  subst hresult
                  by_cases h : agentAdmissible library clock verifier r σ
                  · exact .known h (hlive.mp hknown)
                  · exact .pruned h
                rename_i hnew
                split at hresult
                next hbody =>
                  subst hresult
                  exact .pruned fun h => hbody h.2.2.2.1
                rename_i hbody
                split at hresult
                next hsignature =>
                  subst hresult
                  refine .pruned ?_
                  rintro ⟨_, _, _, _, item, hitem, heq, hsigned⟩
                  refine hsignature ?_
                  exact any_eq_true.mpr
                    ⟨item, mem_filter.mpr ⟨hitem, decide_eq_true heq⟩, hsigned⟩
                next hsignature =>
                  subst hresult
                  refine .accepted ?_ (fun hkept => hnew (hlive.mpr hkept)) ?_ ?_ ?_
                  · obtain ⟨item, hmem, hsigned⟩ := any_eq_true.mp (not_not.mp hsignature)
                    obtain ⟨hitem, heq⟩ := mem_filter.mp hmem
                    exact ⟨not_not.mp hnode, ⟨timestampMs, hdate, not_not.mp hwindow⟩, hnonce,
                      not_not.mp hbody, item, hitem, of_decide_eq_true heq, hsigned⟩
                  · rw [agentEntry, hparsed]
                    rfl
                  · change σ.ticks + 2 ≤ (σ.read.read.prune _).ticks
                    rw [ticks_prune]
                    exact Nat.le_refl _
                  · rw [agentEntry, hparsed]
                    exact congrArg (· ++ _) accepted_prune

def agentGuard (verifier : Verifier) : Guard AgentRequest where
  clock := clock
  offset := 0
  attempt := agentAttempt library clock verifier
  admissible := agentAdmissible library clock verifier
  entry := agentEntry library
  spec := agent_spec library clock verifier

end Verifiers

/-- Whatever is presented to a verifier: no two accepted requests carry the same node id, key id,
nonce and timestamp, and every admissible request with a new nonce is accepted, exactly when each
admissible request that repeats an accepted one found its joined key remembered behind the cutoff,
and each one with a new nonce did not. -/
theorem signed_requests_accepted_once (library : Library) (clock : Clock) :
    (∀ requests : List (Node × TunnelRequest), let guard := tunnelGuard library clock
      (((guard.serve requests).accepted.map use).Nodup ∧
          AllSteps guard.step guard.Complete {} requests) ↔
        AllSteps guard.step guard.Separated {} requests) ∧
    ∀ (verifier : Verifier) (requests : List AgentRequest),
      let guard := agentGuard library clock verifier
      (((guard.serve requests).accepted.map use).Nodup ∧
          AllSteps guard.step guard.Complete {} requests) ↔
        AllSteps guard.step guard.Separated {} requests :=
  ⟨(tunnelGuard library clock).serve_iff,
    fun verifier requests => (agentGuard library clock verifier).serve_iff requests⟩

/-! ## Requests that are accepted twice -/

def emptySha256 : String := "e3b0c44298fc1c149afbf4c8996fb92427ae41e4649b934ca495991b7852b855"
def tunnelSignature : String := "4b775df4fc134499af0964b22f312c215cb293d56ea818788850166a511a4898"
def agentSignature : String := "9c44d7186c157f5520ec416415b607fd13d39c00ccffd4a8c57564a65aa18f73"

def hexDigit (c : Char) : Nat := if c.isDigit then c.toNat - 48 else c.toNat - 87

def hexBytes : List Char → List UInt8
  | high :: low :: rest => UInt8.ofNat (hexDigit high * 16 + hexDigit low) :: hexBytes rest
  | _ => []

/-- The library on the inputs of the two requests. -/
def sampleLibrary : Library where
  sha256Hex input := if input = .text "" then emptySha256 else ""
  hmacSha256Hex _ message :=
    if message = canonicalNodeAgentString ⟨"key_1", "GET", "/api/node-tunnel?nodeId=node_1",
        "1970-01-01T00:01:00.000Z", "nonce_1", emptySha256⟩ then tunnelSignature
    else if message = canonicalNodeAgentString ⟨"key_1", "GET", "/api/node-agent/status",
        "1970-01-01T00:00:00.000Z", "nonce_1", emptySha256⟩ then agentSignature
    else ""
  bufferFromHex hex := hexBytes hex.toList
  dateParse text :=
    if text = "1970-01-01T00:01:00.000Z" then some 60000
    else if text = "1970-01-01T00:00:00.000Z" then some 0
    else none
  encodeURIComponent text := text

def sampleHeaders (timestamp signature : String) : List (String × HeaderValue) :=
  [("X-TaskHandoff-Node-Id", .text "node_1"), ("X-TaskHandoff-Key-Id", .text "key_1"),
    ("X-TaskHandoff-Timestamp", .text timestamp), ("X-TaskHandoff-Nonce", .text "nonce_1"),
    ("X-TaskHandoff-Body-Sha256", .text emptySha256),
    ("X-TaskHandoff-Signature", .text signature)]

/-- A clock that stands at `before` for some readings and at `behind` from then on. -/
def twoTimes (readings : Nat) (before behind : Int) (h : before ≤ behind) : Clock where
  time tick := if tick < readings then before else behind
  mono := by
    intro i j hij
    dsimp only
    split
    · split
      · exact Int.le_refl _
      · exact h
    · rw [if_neg (by omega)]

def sampleTunnelRequest : Node × TunnelRequest :=
  (⟨"node_1", "paired-hmac", some "key_1", some "secret"⟩,
    ⟨sampleHeaders "1970-01-01T00:01:00.000Z" tunnelSignature, some "/api/node-tunnel?nodeId=node_1"⟩)

def sampleVerifier : Verifier where
  nodeId := "node_1"
  controlPlanePairings := [⟨"key_1", "secret", false, by decide⟩]
  overrideSecret := ""
  overrideKeyId := ""
  named := by decide

def sampleAgentRequest : AgentRequest where
  method := "GET"
  url := "/api/node-agent/status"
  headers := sampleHeaders "1970-01-01T00:00:00.000Z" agentSignature
  body := .absent

/-- The control plane accepts a request of the far end of the window again two windows later; the
node agent, when its clock ticks out of the window between the check and the pruning. -/
theorem request_accepted_twice :
    (¬(((tunnelGuard sampleLibrary (twoTimes 3 0 120000 (by decide))).serve
        [sampleTunnelRequest, sampleTunnelRequest]).accepted.map use).Nodup) ∧
      ¬(((agentGuard sampleLibrary (twoTimes 3 60000 60001 (by decide)) sampleVerifier).serve
        [sampleAgentRequest, sampleAgentRequest]).accepted.map use).Nodup := by
  constructor <;> decide +kernel

end TaskHandoff.NodeAuth
