import TaskHandoff.AiSessions.HistoryRetention
import TaskHandoff.Lib.Machine

/-! # The history store

`AiSessionHistoryStore` keeps an index file and one detail file for each id. An
entry that leaves the index loses its detail file, and unless the active session
now owns its resources it is reported to `onRemove`.
-/

namespace TaskHandoff.AiSessions.History

open List

variable {δ ρ : Type} [DecidableEq δ] [DecidableEq ρ]

def AI_SESSION_HISTORY_MAX_ITEMS : Nat := 10000

/-! ## The store -/

/-- What happened to the resources of an id. -/
inductive HistoryEvent where
  | upserted (id : String)
  | reported (id : String)
  | activated (id : String)
deriving DecidableEq

/-- The retention limit, the index file, the names of the detail files, and the log of upserts
and `onRemove` calls, which no method reads. -/
structure AiSessionHistoryStore (δ ρ : Type) where
  limit : Nat
  index : Option (List (AiSessionHistoryItem ρ))
  details : List δ
  log : List HistoryEvent

structure LoadedIndex (ρ : Type) where
  items : List (AiSessionHistoryItem ρ)
  rewrite : Bool
  removedIds : List String

/-- The index schema bounds the number of items; beyond it the parse throws. -/
def parseIndex (items : List (AiSessionHistoryItem ρ)) : Option (List (AiSessionHistoryItem ρ)) :=
  if items.length ≤ AI_SESSION_HISTORY_MAX_ITEMS then some items else none

namespace AiSessionHistoryStore

def new (limit : Option Int) : AiSessionHistoryStore δ ρ := ⟨historyLimit limit, none, [], []⟩

/-- The items of the index file. -/
def items (s : AiSessionHistoryStore δ ρ) : List (AiSessionHistoryItem ρ) := s.index.getD []

def ids (s : AiSessionHistoryStore δ ρ) : List String := s.items.map (·.id)

section Methods

-- `Date.parse`, the order of ids, and the file name of an id.
variable (dateParse : String → Option Int) (localeCompare : String → String → Int)
variable (digest : String → δ)
variable (s : AiSessionHistoryStore δ ρ)

def load : Option (LoadedIndex ρ) :=
  match s.index with
  | none => some ⟨[], false, []⟩
  | some stored =>
    (parseIndex (sortAndLimitAiSessionHistory dateParse localeCompare stored s.limit)).map
      fun items => ⟨items, items ≠ stored, (stored.map (·.id)).filter (· ∉ items.map (·.id))⟩

def saveIndex (items : List (AiSessionHistoryItem ρ)) : Option (AiSessionHistoryStore δ ρ) :=
  (parseIndex (sortAndLimitAiSessionHistory dateParse localeCompare items s.limit)).map
    fun normalized => { s with index := some normalized }

def removeEntries (ids : List String) (releaseResources : Bool) : AiSessionHistoryStore δ ρ :=
  { s with
    details := s.details.filter (· ∉ ids.map digest)
    log := s.log ++ if releaseResources then ids.dedup.map .reported else ids.map .activated }

/-- The listed items and the store after the clean-up; `none` where an exception leaves the
store as it is. -/
def list : Option (AiSessionHistoryStore δ ρ × List (AiSessionHistoryItem ρ)) :=
  match s.load dateParse localeCompare with
  | none => none
  | some loaded =>
    if loaded.rewrite then
      (s.saveIndex dateParse localeCompare loaded.items).map fun saved =>
        (saved.removeEntries digest loaded.removedIds true, loaded.items)
    else some (s, loaded.items)

/-- What `upsert` puts in front of the items it does not replace. -/
def upsertedItems (item : AiSessionHistoryItem ρ)
    (current : List (AiSessionHistoryItem ρ)) : List (AiSessionHistoryItem ρ) :=
  sortAndLimitAiSessionHistory dateParse localeCompare
    (item :: current.filter fun entry =>
      entry.id ≠ item.id && providerIdentity entry ≠ providerIdentity item) s.limit

def saveDetail (id : String) : AiSessionHistoryStore δ ρ :=
  { s with details := digest id :: s.details }

/-- The detail file is written before the index, which may throw. -/
def upsert (s : AiSessionHistoryStore δ ρ) (item : AiSessionHistoryItem ρ) (turns : Bool) :
    AiSessionHistoryStore δ ρ :=
  match s.list dateParse localeCompare digest with
  | none => s
  | some (listed, current) =>
    let written := if turns then listed.saveDetail digest item.id else listed
    let items := listed.upsertedItems dateParse localeCompare item current
    match if items ≠ current then written.saveIndex dateParse localeCompare items
      else some written with
    | none => written
    | some saved =>
      let logged : AiSessionHistoryStore δ ρ :=
        { saved with log := saved.log ++ [.upserted item.id] }
      logged.removeEntries digest
        ((current.filter fun entry => entry.id ∉ items.map (·.id)).map (·.id)) true

/-- The removals by id and by identity differ only in what they drop. -/
def removeWhere (s : AiSessionHistoryStore δ ρ) (drop : AiSessionHistoryItem ρ → Bool)
    (releaseResources : Bool) : AiSessionHistoryStore δ ρ :=
  match s.list dateParse localeCompare digest with
  | none => s
  | some (listed, items) =>
    let next := items.filter fun item => !drop item
    if next.length = items.length then listed
    else
      match listed.saveIndex dateParse localeCompare next with
      | none => listed
      | some saved => saved.removeEntries digest ((items.filter drop).map (·.id)) releaseResources

def removeByIds (ids : List String) (releaseResources : Bool) : AiSessionHistoryStore δ ρ :=
  s.removeWhere dateParse localeCompare digest (fun item => item.id ∈ ids) releaseResources

def removeByIdentity (agent providerSessionId : String)
    (releaseResources : Bool) : AiSessionHistoryStore δ ρ :=
  s.removeWhere dateParse localeCompare digest
    (fun item => providerIdentity item = agent ++ ":" ++ providerSessionId) releaseResources

def removeSubtrees (s : AiSessionHistoryStore δ ρ) (ids : List String) (releaseResources : Bool) :
    AiSessionHistoryStore δ ρ :=
  match s.list dateParse localeCompare digest with
  | none => s
  | some (listed, items) =>
    let subtreeIds := ids.flatMap fun id =>
      (aiSessionSubtreePostorder (historyForest dateParse localeCompare items) id).map
        (·.session.id)
    if subtreeIds.isEmpty then listed
    else listed.removeByIds dateParse localeCompare digest subtreeIds releaseResources

def remove (id : String) : AiSessionHistoryStore δ ρ :=
  s.removeSubtrees dateParse localeCompare digest [id] true

def activate (id : String) : AiSessionHistoryStore δ ρ :=
  s.removeByIds dateParse localeCompare digest [id] false

def removeIdentity (s : AiSessionHistoryStore δ ρ) (agent providerSessionId : String) :
    AiSessionHistoryStore δ ρ :=
  match s.list dateParse localeCompare digest with
  | none => s
  | some (listed, items) =>
    match items.find? fun item => providerIdentity item = agent ++ ":" ++ providerSessionId with
    | none => listed
    | some item => listed.removeSubtrees dateParse localeCompare digest [item.id] true

def activateIdentity (agent providerSessionId : String) : AiSessionHistoryStore δ ρ :=
  s.removeByIdentity dateParse localeCompare digest agent providerSessionId false

/-- A limit that is not used as it stands is refused. -/
def setRetentionLimit (s : AiSessionHistoryStore δ ρ) (limit : Option Int) :
    AiSessionHistoryStore δ ρ :=
  if limit ≠ some (historyLimit limit : Int) then s
  else
    match s.list dateParse localeCompare digest with
    | none => s
    | some (listed, current) =>
      let limited := { listed with limit := historyLimit limit }
      let retained := sortAndLimitAiSessionHistory dateParse localeCompare current
        (historyLimit limit)
      let removed := current.filter fun item => item.id ∉ retained.map (·.id)
      if removed.isEmpty then limited
      else
        match limited.saveIndex dateParse localeCompare retained with
        | none => limited
        | some saved => saved.removeEntries digest (removed.map (·.id)) true

/-- `restart` makes a new store over the same files. -/
inductive Action (ρ : Type) where
  | upsert (item : AiSessionHistoryItem ρ) (turns : Bool)
  | remove (id : String)
  | removeIdentity (agent providerSessionId : String)
  | activate (id : String)
  | activateIdentity (agent providerSessionId : String)
  | setRetentionLimit (limit : Option Int)
  | list
  | restart (limit : Option Int)

def step (s : AiSessionHistoryStore δ ρ) : Action ρ → Option (AiSessionHistoryStore δ ρ)
  | .upsert item turns => some (s.upsert dateParse localeCompare digest item turns)
  | .remove id => some (s.remove dateParse localeCompare digest id)
  | .removeIdentity agent providerSessionId =>
    some (s.removeIdentity dateParse localeCompare digest agent providerSessionId)
  | .activate id => some (s.activate dateParse localeCompare digest id)
  | .activateIdentity agent providerSessionId =>
    some (s.activateIdentity dateParse localeCompare digest agent providerSessionId)
  | .setRetentionLimit limit => some (s.setRetentionLimit dateParse localeCompare digest limit)
  | .list =>
    some (match s.list dateParse localeCompare digest with
      | none => s
      | some (listed, _) => listed)
  | .restart limit => some { s with limit := historyLimit limit }

end Methods

/-! ## Released resources -/

/-- Since its last upsert the id was reported, or its resources went to the active session. -/
def Released (log : List HistoryEvent) (id : String) : Prop :=
  ∃ before after, log = before ++ after ∧ .upserted id ∉ after ∧
    (.reported id ∈ after ∨ .activated id ∈ after)

theorem Released.append {log events : List HistoryEvent} {id : String} (h : Released log id)
    (hnew : .upserted id ∉ events) : Released (log ++ events) id := by
  obtain ⟨before, after, rfl, hafter, hreleased⟩ := h
  refine ⟨before, after ++ events, append_assoc .., ?_, ?_⟩
  · exact fun hin => (mem_append.mp hin).elim hafter hnew
  · exact hreleased.imp (mem_append_left _) (mem_append_left _)

/-- Detail files and resources that are not released belong to these ids. -/
structure Kept (digest : String → δ) (s : AiSessionHistoryStore δ ρ) (ids : List String) :
    Prop where
  details : ∀ file ∈ s.details, ∃ id ∈ ids, file = digest id
  log : ∀ id, .upserted id ∈ s.log → id ∈ ids ∨ Released s.log id

omit [DecidableEq ρ] in
theorem Kept.removeEntries {digest : String → δ} {s : AiSessionHistoryStore δ ρ}
    {ids remaining removed : List String} (h : Kept digest s ids)
    (hcover : ∀ id ∈ ids, id ∈ remaining ∨ id ∈ removed) (releaseResources : Bool) :
    Kept digest (s.removeEntries digest removed releaseResources) remaining where
  details := by
    intro file hfile
    obtain ⟨hin, hkept⟩ := mem_filter.mp hfile
    obtain ⟨id, hid, rfl⟩ := h.details file hin
    rcases hcover id hid with hstays | hgone
    · exact ⟨id, hstays, rfl⟩
    · exact absurd (mem_map_of_mem hgone) (of_decide_eq_true hkept)
  log := by
    intro id hid
    have hnew : .upserted id ∉ if releaseResources then removed.dedup.map HistoryEvent.reported
        else removed.map HistoryEvent.activated := by
      split <;> simp
    have hold := (mem_append.mp hid).resolve_right hnew
    rcases h.log id hold with hin | hreleased
    · refine (hcover id hin).imp_right fun hgone => ⟨s.log, _, rfl, hnew, ?_⟩
      split
      · exact .inl (mem_map_of_mem (mem_dedup.mpr hgone))
      · exact .inr (mem_map_of_mem hgone)
    · exact .inr (hreleased.append hnew)

/-- Each id has one entry, and what the store keeps belongs to the ids of the index. -/
structure Inv (digest : String → δ) (s : AiSessionHistoryStore δ ρ) : Prop where
  unique : Unique s.items
  kept : Kept digest s s.ids

omit [DecidableEq δ] [DecidableEq ρ] in
theorem Inv.new (digest : String → δ) (limit : Option Int) :
    Inv digest (new limit : AiSessionHistoryStore δ ρ) where
  unique := ⟨nodup_nil, nodup_nil⟩
  kept := by constructor <;> simp [AiSessionHistoryStore.new]

/-! ## Every method keeps the invariant -/

section Methods

variable (dateParse : String → Option Int) (localeCompare : String → String → Int)
variable (digest : String → δ) {s : AiSessionHistoryStore δ ρ}

omit [DecidableEq ρ] in
theorem parseIndex_eq_some {items parsed : List (AiSessionHistoryItem ρ)}
    (h : parseIndex items = some parsed) :
    parsed = items ∧ items.length ≤ AI_SESSION_HISTORY_MAX_ITEMS := by
  unfold parseIndex at h
  split at h
  next hle => exact ⟨(Option.some.inj h).symm, hle⟩
  · cases h

variable {items : List (AiSessionHistoryItem ρ)}

omit [DecidableEq δ] [DecidableEq ρ] in
theorem saveIndex_eq_some {saved : AiSessionHistoryStore δ ρ}
    (h : s.saveIndex dateParse localeCompare items = some saved) : saved = { s with
      index := some (sortAndLimitAiSessionHistory dateParse localeCompare items s.limit) } := by
  obtain ⟨parsed, hparsed, rfl⟩ := Option.map_eq_some_iff.mp h
  rw [(parseIndex_eq_some hparsed).1]

omit [DecidableEq ρ] in
theorem Inv.save {ids removed : List String} (h : Kept digest s ids) (hfits : Fits s.limit items)
    (hcover : ∀ id ∈ ids, id ∈ items.map (·.id) ∨ id ∈ removed) (releaseResources : Bool) :
    Inv digest (removeEntries digest { s with
      index := some (sortAndLimitAiSessionHistory dateParse localeCompare items s.limit) } removed
      releaseResources) := by
  refine ⟨(fits_sortAndLimit dateParse localeCompare items s.limit).unique, ?_⟩
  have hkept : Kept digest { s with
      index := some (sortAndLimitAiSessionHistory dateParse localeCompare items s.limit) } ids :=
    ⟨h.details, h.log⟩
  refine hkept.removeEntries (fun id hid => (hcover id hid).imp_left fun hin => ?_) releaseResources
  obtain ⟨item, hitem, rfl⟩ := mem_map.mp hin
  exact mem_map_of_mem ((hfits.mem_sortAndLimit dateParse localeCompare).mpr hitem)

/-- What `list` returns is what the index then holds. -/
structure Listed (digest : String → δ) (s listed : AiSessionHistoryStore δ ρ)
    (items : List (AiSessionHistoryItem ρ)) : Prop where
  inv : Inv digest listed
  fits : Fits listed.limit items
  mem : ∀ item, item ∈ listed.items ↔ item ∈ items
  bounded : items.length ≤ AI_SESSION_HISTORY_MAX_ITEMS
  limit : listed.limit = s.limit

variable {listed : AiSessionHistoryStore δ ρ}

theorem Inv.list (h : Inv digest s)
    (hlist : s.list dateParse localeCompare digest = some (listed, items)) :
    Listed digest s listed items := by
  unfold AiSessionHistoryStore.list load at hlist
  cases hindex : s.index with
  | none =>
    simp only [hindex, Bool.false_eq_true, if_false, Option.some.injEq, Prod.mk.injEq] at hlist
    obtain ⟨rfl, rfl⟩ := hlist
    exact ⟨h, .nil, by simp [AiSessionHistoryStore.items, hindex], Nat.zero_le _, rfl⟩
  | some stored =>
    rw [hindex] at hlist
    cases hparsed : parseIndex (sortAndLimitAiSessionHistory dateParse localeCompare stored
        s.limit) with
    | none => simp [hparsed] at hlist
    | some parsed =>
      obtain ⟨rfl, hbound⟩ := parseIndex_eq_some hparsed
      have hfits := fits_sortAndLimit dateParse localeCompare stored s.limit
      have hids : s.ids = stored.map (·.id) := by simp [ids, AiSessionHistoryStore.items, hindex]
      simp only [hparsed, Option.map_some] at hlist
      split at hlist
      next hrewrite =>
        obtain ⟨saved, hsave, heq⟩ := Option.map_eq_some_iff.mp hlist
        obtain ⟨rfl, rfl⟩ := Prod.mk.inj heq
        obtain rfl := saveIndex_eq_some dateParse localeCompare hsave
        refine ⟨Inv.save dateParse localeCompare digest (hids ▸ h.kept) hfits ?_ true, hfits,
          fun item => hfits.mem_sortAndLimit dateParse localeCompare, hbound, rfl⟩
        · intro id hid
          by_cases hin : id ∈ (sortAndLimitAiSessionHistory dateParse localeCompare stored
              s.limit).map (·.id)
          · exact .inl hin
          · exact .inr (mem_filter.mpr ⟨hid, decide_eq_true hin⟩)
      next hrewrite =>
        obtain ⟨rfl, rfl⟩ := Prod.mk.inj (Option.some.inj hlist)
        have hsame : sortAndLimitAiSessionHistory dateParse localeCompare stored s.limit =
            stored := by simpa using hrewrite
        refine ⟨h, hfits, fun item => ?_, hbound, rfl⟩
        rw [hsame]
        simp [AiSessionHistoryStore.items, hindex]

omit [DecidableEq δ] [DecidableEq ρ] in
theorem Listed.ids (h : Listed digest s listed items) (id : String) :
    id ∈ listed.ids ↔ id ∈ items.map (·.id) := by
  simp only [AiSessionHistoryStore.ids, mem_map, h.mem]

theorem Inv.removeWhere (h : Inv digest s) (drop : AiSessionHistoryItem ρ → Bool)
    (releaseResources : Bool) :
    Inv digest (s.removeWhere dateParse localeCompare digest drop releaseResources) := by
  unfold AiSessionHistoryStore.removeWhere
  split
  · exact h
  rename_i listed items hlist
  have hlisted := h.list dateParse localeCompare digest hlist
  dsimp only
  split
  · exact hlisted.inv
  split
  · exact hlisted.inv
  rename_i saved hsave
  obtain rfl := saveIndex_eq_some dateParse localeCompare hsave
  refine Inv.save dateParse localeCompare digest hlisted.inv.kept (hlisted.fits.filter _) ?_
    releaseResources
  intro id hid
  obtain ⟨item, hitem, rfl⟩ := mem_map.mp ((hlisted.ids digest id).mp hid)
  cases hdrop : drop item with
  | true => exact .inr (mem_map_of_mem (mem_filter.mpr ⟨hitem, hdrop⟩))
  | false => exact .inl (mem_map_of_mem (mem_filter.mpr ⟨hitem, by simp [hdrop]⟩))

theorem Inv.removeSubtrees (h : Inv digest s) (ids : List String) (releaseResources : Bool) :
    Inv digest (s.removeSubtrees dateParse localeCompare digest ids releaseResources) := by
  unfold AiSessionHistoryStore.removeSubtrees
  split
  · exact h
  rename_i listed items hlist
  have hlisted := h.list dateParse localeCompare digest hlist
  dsimp only
  split
  · exact hlisted.inv
  · exact hlisted.inv.removeWhere dateParse localeCompare digest _ releaseResources

theorem Inv.removeIdentity (h : Inv digest s) (agent providerSessionId : String) :
    Inv digest (s.removeIdentity dateParse localeCompare digest agent providerSessionId) := by
  unfold AiSessionHistoryStore.removeIdentity
  split
  · exact h
  next listed items hlist =>
    have hlisted := h.list dateParse localeCompare digest hlist
    split
    · exact hlisted.inv
    · exact hlisted.inv.removeSubtrees dateParse localeCompare digest _ true

omit [DecidableEq δ] [DecidableEq ρ] in
theorem Inv.withLimit (h : Inv digest s) (limit : Nat) : Inv digest { s with limit := limit } :=
  ⟨h.unique, ⟨h.kept.details, h.kept.log⟩⟩

theorem Inv.setRetentionLimit (h : Inv digest s) (limit : Option Int) :
    Inv digest (s.setRetentionLimit dateParse localeCompare digest limit) := by
  unfold AiSessionHistoryStore.setRetentionLimit
  split
  · exact h
  split
  · exact h
  rename_i listed current hlist
  have hlisted := h.list dateParse localeCompare digest hlist
  have hlimited := hlisted.inv.withLimit digest (historyLimit limit)
  dsimp only
  split
  · exact hlimited
  split
  · exact hlimited
  rename_i saved hsave
  obtain rfl := saveIndex_eq_some dateParse localeCompare hsave
  refine Inv.save dateParse localeCompare digest hlimited.kept
    (fits_sortAndLimit dateParse localeCompare current (historyLimit limit)) ?_ true
  intro id hid
  by_cases hin : id ∈ (sortAndLimitAiSessionHistory dateParse localeCompare current
      (historyLimit limit)).map (·.id)
  · exact .inl hin
  · obtain ⟨item, hitem, rfl⟩ := mem_map.mp ((hlisted.ids digest id).mp hid)
    exact .inr (mem_map_of_mem (mem_filter.mpr ⟨hitem, decide_eq_true hin⟩))

/-! ## Upserts that make the cut -/

/-- The item has an entry already, or gets one: it is retained, and the index is not too long
to be written. An item without turns may also fail to be written. -/
def MakesCut (s : AiSessionHistoryStore δ ρ) : Action ρ → Prop
  | .upsert item turns =>
    match s.list dateParse localeCompare digest with
    | none => True
    | some (listed, current) =>
      let items := listed.upsertedItems dateParse localeCompare item current
      item.id ∈ current.map (·.id) ∨
        if items.length ≤ AI_SESSION_HISTORY_MAX_ITEMS then item.id ∈ items.map (·.id)
        else turns = false
  | _ => True

instance (s : AiSessionHistoryStore δ ρ) :
    ∀ action, Decidable (MakesCut dateParse localeCompare digest s action)
  | .upsert item turns => by
    unfold MakesCut
    dsimp only
    split <;> infer_instance
  | .remove _ => inferInstanceAs (Decidable True)
  | .removeIdentity _ _ => inferInstanceAs (Decidable True)
  | .activate _ => inferInstanceAs (Decidable True)
  | .activateIdentity _ _ => inferInstanceAs (Decidable True)
  | .setRetentionLimit _ => inferInstanceAs (Decidable True)
  | .list => inferInstanceAs (Decidable True)
  | .restart _ => inferInstanceAs (Decidable True)

omit [DecidableEq δ] [DecidableEq ρ] in
theorem Kept.mono {ids more : List String} (h : Kept digest s ids) (hsub : ids ⊆ more) :
    Kept digest s more where
  details := fun file hfile => (h.details file hfile).imp fun _ howner => howner.imp_left (@hsub _)
  log := fun owner howner => (h.log owner howner).imp_left (@hsub _)

omit [DecidableEq δ] [DecidableEq ρ] in
theorem Kept.saveDetail {ids : List String} (h : Kept digest s ids) (id : String) (turns : Bool) :
    Kept digest (if turns then s.saveDetail digest id else s) (id :: ids) := by
  have hmore := h.mono digest (subset_cons_self id ids)
  cases turns with
  | false => exact hmore
  | true =>
    refine ⟨?_, hmore.log⟩
    intro file hfile
    rcases mem_cons.mp hfile with rfl | hold
    · exact ⟨id, mem_cons_self, rfl⟩
    · exact hmore.details file hold

omit [DecidableEq δ] [DecidableEq ρ] in
theorem Kept.upserted {ids : List String} (h : Kept digest s ids) {id : String} (hid : id ∈ ids) :
    Kept digest { s with log := s.log ++ [.upserted id] } ids where
  details := h.details
  log := by
    intro owner howner
    by_cases heq : owner = id
    · exact .inl (heq ▸ hid)
    have hnew : HistoryEvent.upserted owner ∉ [HistoryEvent.upserted id] := by simp [heq]
    rcases h.log owner ((mem_append.mp howner).resolve_right hnew) with hin | hreleased
    · exact .inl hin
    · exact .inr (hreleased.append hnew)

theorem Inv.upsert (h : Inv digest s) {item : AiSessionHistoryItem ρ} {turns : Bool}
    (hcut : MakesCut dateParse localeCompare digest s (.upsert item turns)) :
    Inv digest (s.upsert dateParse localeCompare digest item turns) := by
  unfold AiSessionHistoryStore.upsert
  unfold MakesCut at hcut
  split
  · exact h
  rename_i listed current hlist
  have hlisted := h.list dateParse localeCompare digest hlist
  simp only [hlist] at hcut
  have hkept := hlisted.inv.kept.saveDetail digest item.id turns
  have hlisting : turns = false →
      Inv digest (if turns then listed.saveDetail digest item.id else listed) := by
    rintro rfl
    exact hlisted.inv
  have hlimit : (if turns then listed.saveDetail digest item.id else listed).limit =
      listed.limit := by
    cases turns <;> rfl
  have hitems : (if turns then listed.saveDetail digest item.id else listed).items =
      listed.items := by
    cases turns <;> rfl
  have hfits : Fits listed.limit (listed.upsertedItems dateParse localeCompare item current) :=
    fits_sortAndLimit dateParse localeCompare _ _
  dsimp only
  generalize (if turns then listed.saveDetail digest item.id else listed) = written at *
  generalize listed.upsertedItems dateParse localeCompare item current = items at *
  have hlength : (sortAndLimitAiSessionHistory dateParse localeCompare items written.limit).length
      = items.length := hlimit ▸ hfits.length_sortAndLimit dateParse localeCompare
  split
  next hthrown =>
    -- nothing follows the detail file: it must belong to an entry of the index
    have hlong : ¬ items.length ≤ AI_SESSION_HISTORY_MAX_ITEMS := by
      intro hshort
      split at hthrown
      · simp [saveIndex, parseIndex, hlength, hshort] at hthrown
      · cases hthrown
    rw [if_neg hlong] at hcut
    rcases hcut with hin | hturns
    · refine ⟨hitems ▸ hlisted.inv.unique, ?_⟩
      rw [ids, hitems]
      exact hkept.mono digest
        (cons_subset.mpr ⟨(hlisted.ids digest _).mpr hin, List.Subset.refl _⟩)
    · exact hlisting hturns
  next saved hsaved =>
    have hshort : items.length ≤ AI_SESSION_HISTORY_MAX_ITEMS := by
      split at hsaved
      · obtain ⟨parsed, hparsed, -⟩ := Option.map_eq_some_iff.mp hsaved
        exact hlength ▸ (parseIndex_eq_some hparsed).2
      next hsame => exact (not_ne_iff.mp hsame) ▸ hlisted.bounded
    rw [if_pos hshort] at hcut
    have hcover : ∀ id ∈ item.id :: listed.ids, id ∈ items.map (·.id) ∨
        id ∈ (current.filter fun entry => entry.id ∉ items.map (·.id)).map (·.id) := by
      intro id hid
      by_cases hin : id ∈ items.map (·.id)
      · exact .inl hin
      have hcurrent : id ∈ current.map (·.id) := by
        rcases mem_cons.mp hid with rfl | hlistedId
        · exact hcut.resolve_right hin
        · exact (hlisted.ids digest id).mp hlistedId
      obtain ⟨entry, hentry, rfl⟩ := mem_map.mp hcurrent
      exact .inr (mem_map_of_mem (mem_filter.mpr ⟨hentry, decide_eq_true hin⟩))
    have hlogged := hkept.upserted digest mem_cons_self
    split at hsaved
    · obtain rfl := saveIndex_eq_some dateParse localeCompare hsaved
      exact Inv.save dateParse localeCompare digest hlogged (hlimit ▸ hfits) hcover true
    rename_i hsame
    cases hsaved
    have hsameIds : ∀ id, id ∈ items.map (·.id) → id ∈ listed.ids := by
      intro id hid
      rw [not_ne_iff.mp hsame] at hid
      exact (hlisted.ids digest id).mpr hid
    have hremoved := hlogged.removeEntries
      (fun id hid => (hcover id hid).imp_left (hsameIds id)) true
    refine ⟨hitems ▸ hlisted.inv.unique, ?_⟩
    show Kept digest _ (ids written)
    rw [ids, hitems]
    exact hremoved

theorem Inv.step (h : Inv digest s) {s' : AiSessionHistoryStore δ ρ} {action : Action ρ}
    (hcut : MakesCut dateParse localeCompare digest s action)
    (hstep : s.step dateParse localeCompare digest action = some s') : Inv digest s' := by
  cases action with
  | upsert item turns => exact Option.some.inj hstep ▸ h.upsert dateParse localeCompare digest hcut
  | remove id => exact Option.some.inj hstep ▸ h.removeSubtrees dateParse localeCompare digest _ _
  | removeIdentity agent providerSessionId =>
    exact Option.some.inj hstep ▸ h.removeIdentity dateParse localeCompare digest _ _
  | activate id => exact Option.some.inj hstep ▸ h.removeWhere dateParse localeCompare digest _ _
  | activateIdentity agent providerSessionId =>
    exact Option.some.inj hstep ▸ h.removeWhere dateParse localeCompare digest _ _
  | setRetentionLimit limit =>
    exact Option.some.inj hstep ▸ h.setRetentionLimit dateParse localeCompare digest limit
  | list =>
    cases hstep
    cases hlist : s.list dateParse localeCompare digest with
    | none => exact h
    | some result => exact (h.list dateParse localeCompare digest hlist).inv
  | restart limit => exact Option.some.inj hstep ▸ h.withLimit digest _

/-- In every run whose upserted items all make the cut, detail files belong to ids of the
index, and an upserted id that is not in the index has been reported or activated. -/
theorem history_released {limit : Option Int} {actions : List (Action ρ)}
    {s : AiSessionHistoryStore δ ρ}
    (hrun : Machine.run (step dateParse localeCompare digest) (new limit) actions = some s)
    (hcut : Machine.AllSteps (step dateParse localeCompare digest)
      (MakesCut dateParse localeCompare digest) (new limit) actions) :
    (∀ file ∈ s.details, ∃ id ∈ s.ids, file = digest id) ∧
      ∀ id, .upserted id ∈ s.log → id ∉ s.ids → Released s.log id := by
  have h : Inv digest s := Machine.run_invariant_of_steps
    (fun _ _ _ hstep hm h => h.step dateParse localeCompare digest hm hstep) hrun hcut
    (Inv.new digest limit)
  exact ⟨h.kept.details, fun id hid hout => (h.kept.log id hid).resolve_left hout⟩

end Methods

/-! ## An item older than all that are retained -/

def exampleDate (text : String) : Option Int :=
  if text = "2024-01-01T00:00:00Z" then some 1704067200000
  else if text = "2024-02-01T00:00:00Z" then some 1706745600000
  else if text = "2024-03-01T00:00:00Z" then some 1709251200000
  else none

def exampleOrder (left right : String) : Int :=
  if left = right then 0 else if left < right then -1 else 1

def exampleItem (id lastActiveAt : String) (parent : Option String) : AiSessionHistoryItem Unit where
  id := id
  agent := "codex"
  providerSessionId := "p-" ++ id
  lineage := parent.map .subagent
  lastActiveAt := lastActiveAt
  archivedAt := lastActiveAt
  rest := ()

/-- A root with its subagent gives way to a newer root, and another root is activated. -/
theorem history_released_example : ∃ s : AiSessionHistoryStore String Unit,
      Machine.run (step exampleDate exampleOrder id) (new (some 1))
        [.upsert (exampleItem "a" "2024-01-01T00:00:00Z" none) true,
          .upsert (exampleItem "b" "2024-01-01T00:00:00Z" (some "p-a")) true,
          .upsert (exampleItem "c" "2024-02-01T00:00:00Z" none) true,
          .activate "c", .upsert (exampleItem "d" "2024-03-01T00:00:00Z" none) false] = some s ∧
        s.ids = ["d"] ∧ s.details = [] ∧ Released s.log "a" ∧ Released s.log "b" ∧
          Released s.log "c" := by
  refine ⟨_, rfl, by decide, by decide, ?_⟩
  have h := @history_released String Unit _ _ exampleDate exampleOrder id (some 1)
    [.upsert (exampleItem "a" "2024-01-01T00:00:00Z" none) true,
      .upsert (exampleItem "b" "2024-01-01T00:00:00Z" (some "p-a")) true,
      .upsert (exampleItem "c" "2024-02-01T00:00:00Z" none) true,
      .activate "c", .upsert (exampleItem "d" "2024-03-01T00:00:00Z" none) false] _ rfl
    (by decide)
  exact ⟨h.2 "a" (by decide) (by decide), h.2 "b" (by decide) (by decide),
    h.2 "c" (by decide) (by decide)⟩

/-- With room for one root, an older item is not retained: its detail file stays and it is
never reported. -/
theorem history_not_released : ∃ s : AiSessionHistoryStore String Unit,
      Machine.run (step exampleDate exampleOrder id) (new (some 1))
        [.upsert (exampleItem "a" "2024-02-01T00:00:00Z" none) true,
          .upsert (exampleItem "b" "2024-01-01T00:00:00Z" none) true] = some s ∧
        s.ids = ["a"] ∧ (∃ file ∈ s.details, ¬ ∃ id ∈ s.ids, file = id) ∧
          .upserted "b" ∈ s.log ∧ ¬ Released s.log "b" := by
  refine ⟨_, rfl, by decide, by decide, by decide, ?_⟩
  rintro ⟨before, after, hlog, -, hreleased⟩
  rcases hreleased with hin | hin
  · exact absurd (hlog ▸ mem_append_right before hin) (by decide)
  · exact absurd (hlog ▸ mem_append_right before hin) (by decide)

end AiSessionHistoryStore

end TaskHandoff.AiSessions.History
