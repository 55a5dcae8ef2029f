import TaskHandoff.Persistence.InstanceCache

/-! # Coherence of the instance cache

A served cache holds what a parse of the rows of the last commit gives, and while a transaction is
open with the cache in place the rows are still those of the last commit. The one exception is an
assignment that throws half-way in a transaction of its caller: it skips the invalidation, and a
commit of that transaction leaves the cache stale. -/

namespace TaskHandoff.Persistence

open Machine List Option ModelAssignmentRepository

namespace InstanceRepository

variable {ν : Type} {parse : ParseStored ν}

/-! ## Values in memory -/

/-- What the entries of a snapshot stand for. -/
def contentOf (objects : List (ControlledInstance ν)) (entries : List CacheEntry) :
    List (String × Except PersistenceError (Option (ControlledInstance ν))) :=
  entries.map fun entry => (entry.1, entry.2.map fun a => objects[a]?)

/-- Every value of the entries is placed below the bound and apart from what callers hold. -/
def Placed (entries : List CacheEntry) (bound : Nat) : Prop :=
  ∀ instanceId a, (instanceId, .ok a) ∈ entries → a < bound

def present (rows : List (String × Except PersistenceError (ControlledInstance ν))) :
    List (String × Except PersistenceError (Option (ControlledInstance ν))) :=
  rows.map fun row => (row.1, row.2.map some)

variable {entries : List CacheEntry}

theorem contentOf_congr {objects objects' : List (ControlledInstance ν)}
    (h : ∀ instanceId a, (instanceId, .ok a) ∈ entries → objects'[a]? = objects[a]?) :
    contentOf objects' entries = contentOf objects entries := by
  refine map_congr_left fun entry hentry => ?_
  obtain ⟨instanceId, content⟩ := entry
  cases content with
  | error error => rfl
  | ok a => exact congrArg (fun value => (instanceId, Except.ok value)) (h instanceId a hentry)

theorem contentOf_append (objects added : List (ControlledInstance ν))
    (h : Placed entries objects.length) :
    contentOf (objects ++ added) entries = contentOf objects entries :=
  contentOf_congr fun instanceId a ha => getElem?_append_left (h instanceId a ha)

theorem Placed.mono {bound bound' : Nat} (h : Placed entries bound) (hle : bound ≤ bound') :
    Placed entries bound' :=
  fun instanceId a ha => Nat.lt_of_lt_of_le (h instanceId a ha) hle

theorem allocate_spec (rows : List (String × Except PersistenceError (ControlledInstance ν)))
    (objects : List (ControlledInstance ν)) :
    (∃ added, (allocate rows objects).1 = objects ++ added) ∧
      contentOf (allocate rows objects).1 (allocate rows objects).2 = present rows ∧
      (∀ instanceId a, (instanceId, Except.ok a) ∈ (allocate rows objects).2 →
        objects.length ≤ a ∧ a < (allocate rows objects).1.length) := by
  induction rows generalizing objects with
  | nil => exact ⟨⟨[], (append_nil objects).symm⟩, rfl, fun _ _ h => absurd h nofun⟩
  | cons row rest ih =>
    obtain ⟨instanceId, content⟩ := row
    cases content with
    | error error =>
      have ⟨hadded, hcontent, hplaced⟩ := ih objects
      refine ⟨hadded, congrArg _ hcontent, fun i a ha => ?_⟩
      rcases mem_cons.mp ha with heq | ha
      · cases heq
      · exact hplaced i a ha
    | ok value =>
      have ⟨⟨added, hadded⟩, hcontent, hplaced⟩ := ih (objects ++ [value])
      have hhead : (allocate rest (objects ++ [value])).1[objects.length]? = some value := by
        rw [hadded, append_assoc]
        simp
      have hlength : objects.length + 1 ≤ (allocate rest (objects ++ [value])).1.length := by
        rw [hadded]
        simp
      refine ⟨⟨value :: added, by simpa [allocate] using hadded⟩, ?_, fun i a ha => ?_⟩
      · exact congrArg₂ cons (congrArg (fun v => (instanceId, Except.ok v)) hhead) hcontent
      rcases mem_cons.mp ha with heq | ha
      · cases heq
        exact ⟨Nat.le_refl _, hlength⟩
      · have ⟨hlow, hhigh⟩ := hplaced i a ha
        exact ⟨by simp at hlow; omega, hhigh⟩

theorem lookup_present
    (rows : List (String × Except PersistenceError (ControlledInstance ν))) (instanceId : String) :
    (present rows).lookup instanceId = (rows.lookup instanceId).map fun row => row.map some := by
  induction rows with
  | nil => rfl
  | cons row rest ih =>
    show lookup instanceId ((row.1, row.2.map some) :: present rest) = _
    rw [lookup_cons, lookup_cons, ih]
    split <;> rfl

theorem reduceOption_present
    (rows : List (String × Except PersistenceError (ControlledInstance ν))) :
    ((present rows).filterMap fun entry => entry.2.toOption).reduceOption =
      rows.filterMap fun row => row.2.toOption := by
  induction rows with
  | nil => rfl
  | cons row rest ih =>
    obtain ⟨instanceId, content⟩ := row
    cases content with
    | error error => exact ih
    | ok value => exact congrArg (cons value) ih

theorem lookup_contentOf (objects : List (ControlledInstance ν)) (entries : List CacheEntry)
    (instanceId : String) : (contentOf objects entries).lookup instanceId =
      (entries.lookup instanceId).map fun entry => entry.map fun a => objects[a]? := by
  induction entries with
  | nil => rfl
  | cons entry rest ih =>
    show lookup instanceId ((entry.1, _) :: contentOf objects rest) = _
    rw [lookup_cons, lookup_cons, ih]
    split <;> rfl

theorem mem_of_lookup {instanceId : String} {content : Except PersistenceError Address}
    (h : entries.lookup instanceId = some content) : (instanceId, content) ∈ entries := by
  induction entries with
  | nil => cases h
  | cons entry rest ih =>
    rw [lookup_cons] at h
    split at h
    next heq =>
      have hid : instanceId = entry.1 := by simpa using heq
      have hcontent : entry.2 = content := some.inj h
      rw [hid, ← hcontent]
      exact mem_cons_self
    next => exact mem_cons_of_mem _ (ih h)

/-! ## The invariant -/

/-- The database of the last commit. -/
def committed (s : InstanceRepository ν) : Database ν :=
  s.connection.backup.getD s.connection.contents

/-- The cache that is served where no transaction is open. -/
def Current (s : InstanceRepository ν) (c : Snapshot) : Prop :=
  s.cache = some c ∧ c.dataVersion = s.dataVersion

structure Coherent (parse : ParseStored ν) (s : InstanceRepository ν) : Prop where
  fresh : ∀ c, s.Current c → contentOf s.objects c.entries = present (s.committed.parsed parse)
  /-- A cache that will be served behind a commit has seen no write in the transaction. -/
  unwritten : ∀ c, s.Current c → s.torn = false → s.connection.contents = s.committed
  version : ∀ c, s.cache = some c → c.dataVersion ≤ s.dataVersion
  placed : ∀ c, s.cache = some c → Placed c.entries s.objects.length
  /-- No caller holds a value of the cache. -/
  apart : ∀ c, s.cache = some c → ∀ instanceId a, (instanceId, .ok a) ∈ c.entries → a ∉ s.returned
  returned : ∀ a ∈ s.returned, a < s.objects.length
  torn : s.torn = true → s.isTransaction = true

variable {s s' : InstanceRepository ν} {a : Address}

theorem Coherent.new (contents : Database ν) : Coherent parse (new contents) where
  fresh _ h := absurd h.1 nofun
  unwritten _ h := absurd h.1 nofun
  version _ h := absurd h nofun
  placed _ h := absurd h nofun
  apart _ h := absurd h nofun
  returned _ h := absurd h nofun
  torn h := absurd h nofun

theorem Coherent.uncached (hcache : s.cache = none) (hreturned : ∀ a ∈ s.returned, a < s.objects.length)
    (htorn : s.torn = true → s.isTransaction = true) : Coherent parse s where
  fresh _ h := absurd (hcache.symm.trans h.1) nofun
  unwritten _ h := absurd (hcache.symm.trans h.1) nofun
  version _ h := absurd (hcache.symm.trans h) nofun
  placed _ h := absurd (hcache.symm.trans h) nofun
  apart _ h := absurd (hcache.symm.trans h) nofun
  returned := hreturned
  torn := htorn

theorem Coherent.invalidate (h : Coherent parse s) (contents : Database ν) :
    Coherent parse (s.setContents contents).invalidate :=
  .uncached rfl h.returned fun htorn => absurd htorn nofun

/-- Memory grows, and callers are given new values only. -/
structure Grown (s s' : InstanceRepository ν) : Prop where
  connection : s'.connection = s.connection
  dataVersion : s'.dataVersion = s.dataVersion
  torn : s'.torn = s.torn
  objects : ∃ added, s'.objects = s.objects ++ added
  returned : ∀ a ∈ s'.returned, a ∈ s.returned ∨ s.objects.length ≤ a ∧ a < s'.objects.length

theorem Grown.length_le (h : Grown s s') : s.objects.length ≤ s'.objects.length := by
  have ⟨added, hadded⟩ := h.objects
  rw [hadded, length_append]
  exact Nat.le_add_right _ _

theorem Grown.refl (s : InstanceRepository ν) : Grown s s :=
  ⟨rfl, rfl, rfl, ⟨[], (append_nil _).symm⟩, fun _ ha => .inl ha⟩

theorem Grown.trans {s'' : InstanceRepository ν} (h : Grown s s') (h' : Grown s' s'') :
    Grown s s'' where
  connection := h'.connection.trans h.connection
  dataVersion := h'.dataVersion.trans h.dataVersion
  torn := h'.torn.trans h.torn
  objects := by
    have ⟨added, hadded⟩ := h.objects
    have ⟨added', hadded'⟩ := h'.objects
    exact ⟨added ++ added', by rw [hadded', hadded, append_assoc]⟩
  returned a ha := by
    have hle := h.length_le
    have hle' := h'.length_le
    rcases h'.returned a ha with ha | ha
    · rcases h.returned a ha with ha | ha
      · exact .inl ha
      · exact .inr ⟨ha.1, Nat.lt_of_lt_of_le ha.2 hle'⟩
    · exact .inr ⟨Nat.le_trans hle ha.1, ha.2⟩

theorem Coherent.grown (h : Coherent parse s) (hg : Grown s s') (hcache : s'.cache = s.cache) :
    Coherent parse s' := by
  have hcurrent {c : Snapshot} (hc : s'.Current c) : s.Current c :=
    ⟨hcache.symm.trans hc.1, hc.2.trans hg.dataVersion⟩
  have hcommitted : s'.committed = s.committed := by rw [committed, committed, hg.connection]
  have ⟨added, hadded⟩ := hg.objects
  exact
    { fresh := fun c hc => by
        rw [hcommitted, hadded, contentOf_append _ _ (h.placed c (hcurrent hc).1)]
        exact h.fresh c (hcurrent hc)
      unwritten := fun c hc htorn => by
        rw [hcommitted, hg.connection]
        exact h.unwritten c (hcurrent hc) (hg.torn.symm.trans htorn)
      version := fun c hc => hg.dataVersion ▸ h.version c (hcache.symm.trans hc)
      placed := fun c hc => (h.placed c (hcache.symm.trans hc)).mono hg.length_le
      apart := fun c hc instanceId a ha hreturned => by
        have hplaced := h.placed c (hcache.symm.trans hc) instanceId a ha
        rcases hg.returned a hreturned with hold | hnew
        · exact h.apart c (hcache.symm.trans hc) instanceId a ha hold
        · exact Nat.not_lt.mpr hnew.1 hplaced
      returned := fun a ha => by
        rcases hg.returned a ha with hold | hnew
        · exact Nat.lt_of_lt_of_le (h.returned a hold) hg.length_le
        · exact hnew.2
      torn := fun htorn => by
        rw [isTransaction, hg.connection]
        exact h.torn (hg.torn.symm.trans htorn) }

/-! ## Reads -/

/-- A snapshot stands for the current rows, in the state behind it. -/
structure Read (parse : ParseStored ν) (s : InstanceRepository ν)
    (r : InstanceRepository ν × Snapshot) : Prop where
  coherent : Coherent parse r.1
  grown : Grown s r.1
  content : contentOf r.1.objects r.2.entries = present (s.connection.contents.parsed parse)
  placed : Placed r.2.entries r.1.objects.length

theorem Coherent.snapshot (h : Coherent parse s) : Read parse s (s.snapshot parse) := by
  unfold InstanceRepository.snapshot
  split
  next cached hserved =>
    unfold served at hserved
    split at hserved
    · cases hserved
    rename_i hclosed
    have ⟨hcache, hversion⟩ := filter_eq_some_iff.mp hserved
    have hcurrent : s.Current cached := ⟨hcache, by simpa using hversion⟩
    have hcommitted : s.committed = s.connection.contents := by
      have hnone := s.connection.isTransaction_eq_false.mp (Bool.not_eq_true _ ▸ hclosed)
      rw [committed, hnone]
      rfl
    exact ⟨h, .refl s, hcommitted ▸ h.fresh cached hcurrent, h.placed cached hcache⟩
  next =>
    have ⟨⟨added, hadded⟩, hcontent, hplaced⟩ :=
      allocate_spec (s.connection.contents.parsed parse) s.objects
    have hgrown : Grown s { s with
        objects := (allocate (s.connection.contents.parsed parse) s.objects).1
        cache := if s.isTransaction then s.cache else
          some ⟨s.dataVersion, (allocate (s.connection.contents.parsed parse) s.objects).2⟩ } :=
      ⟨rfl, rfl, rfl, ⟨added, hadded⟩, fun a ha => .inl ha⟩
    refine ⟨?_, hgrown, hcontent, fun i a ha => (hplaced i a ha).2⟩
    cases hopen : s.isTransaction with
    | true =>
      rw [hopen] at hgrown
      exact h.grown hgrown rfl
    | false =>
      have hnone := s.connection.isTransaction_eq_false.mp hopen
      refine ⟨?_, ?_, ?_, ?_, ?_, ?_, ?_⟩
      · rintro c ⟨hc, _⟩
        cases hc
        rw [committed, hnone]
        exact hcontent
      · intro c _ _
        rw [committed, hnone]
        rfl
      · rintro c hc
        cases hc
        exact Nat.le_refl _
      · rintro c hc
        cases hc
        exact fun i a ha => (hplaced i a ha).2
      · rintro c hc
        cases hc
        intro i a ha hreturned
        exact Nat.not_lt.mpr (hplaced i a ha).1 (h.returned a hreturned)
      · exact fun a ha => Nat.lt_of_lt_of_le (h.returned a ha) hgrown.length_le
      · exact fun htorn => absurd ((h.torn htorn).symm.trans hopen) nofun

theorem structuredClone_grown (ha : a < s.objects.length) : Grown s (s.structuredClone a).1 := by
  have hvalue : s.objects[a]? = some s.objects[a] := getElem?_eq_getElem ha
  refine ⟨rfl, rfl, rfl, ⟨_, rfl⟩, fun b hb => ?_⟩
  rcases mem_concat.mp hb with hb | hb
  · exact .inl hb
  have hlast : b = s.objects.length := hb
  refine .inr ⟨Nat.le_of_eq hlast.symm, ?_⟩
  show b < (s.objects ++ s.objects[a]?.toList).length
  rw [hvalue, hlast]
  simp

theorem structuredClone_value (ha : a < s.objects.length) :
    (s.structuredClone a).1.objects[(s.structuredClone a).2]? = s.objects[a]? := by
  show (s.objects ++ s.objects[a]?.toList)[s.objects.length]? = s.objects[a]?
  rw [getElem?_eq_getElem ha]
  simp

theorem Coherent.get (h : Coherent parse s) (instanceId : String) :
    Coherent parse (s.get parse instanceId).1 ∧ Grown s (s.get parse instanceId).1 ∧
      s.answer parse instanceId = s.connection.contents.get parse instanceId := by
  have hread := h.snapshot
  have hlookup := lookup_contentOf (s.snapshot parse).1.objects (s.snapshot parse).2.entries instanceId
  rw [hread.content, lookup_present] at hlookup
  unfold InstanceRepository.answer InstanceRepository.get Database.get
  dsimp only
  cases hentry : (s.snapshot parse).2.entries.lookup instanceId with
  | none =>
    rw [hentry, map_none, map_eq_none_iff] at hlookup
    rw [hlookup]
    exact ⟨hread.coherent, hread.grown, rfl⟩
  | some entry =>
    rw [hentry] at hlookup
    have ⟨row, hrow, hcontent⟩ := map_eq_some_iff.mp hlookup
    rw [hrow]
    cases entry with
    | error error => exact ⟨hread.coherent, hread.grown, hcontent.symm⟩
    | ok a =>
      have ha := hread.placed instanceId a (mem_of_lookup hentry)
      have hclone := structuredClone_grown ha
      refine ⟨hread.coherent.grown hclone rfl, hread.grown.trans hclone, ?_⟩
      show Except.ok _ = row.map some
      rw [hcontent]
      exact congrArg Except.ok (structuredClone_value ha)

theorem cloneAll_spec (entries : List CacheEntry) (hplaced : Placed entries s.objects.length) :
    Grown s (cloneAll entries s).1 ∧ (cloneAll entries s).1.cache = s.cache ∧
      ((cloneAll entries s).2.map fun a => (cloneAll entries s).1.objects[a]?) =
        (contentOf s.objects entries).filterMap fun entry => entry.2.toOption := by
  induction entries generalizing s with
  | nil => exact ⟨.refl s, rfl, rfl⟩
  | cons entry rest ih =>
    obtain ⟨instanceId, content⟩ := entry
    cases content with
    | error error => exact ih fun i a ha => hplaced i a (mem_cons_of_mem _ ha)
    | ok a =>
      have ha := hplaced instanceId a mem_cons_self
      have hclone := structuredClone_grown ha
      have hrest : Placed rest s.objects.length := fun i b hb => hplaced i b (mem_cons_of_mem _ hb)
      have ⟨hgrown, hcache, hvalues⟩ :=
        ih (s := (s.structuredClone a).1) (hrest.mono hclone.length_le)
      have ⟨added, hadded⟩ := hgrown.objects
      have hhead : (cloneAll rest (s.structuredClone a).1).1.objects[s.objects.length]? =
          s.objects[a]? := by
        have hlt : s.objects.length < (s.structuredClone a).1.objects.length := by
          show _ < (s.objects ++ s.objects[a]?.toList).length
          rw [getElem?_eq_getElem ha]
          simp
        rw [hadded, getElem?_append_left hlt]
        exact structuredClone_value ha
      have htail : contentOf (s.structuredClone a).1.objects rest = contentOf s.objects rest :=
        contentOf_append s.objects _ hrest
      rw [htail] at hvalues
      exact ⟨hclone.trans hgrown, hcache, congrArg₂ cons hhead hvalues⟩

section

variable (h : Coherent parse s)

include h

theorem Coherent.list : Coherent parse (s.list parse).1 ∧
      s.listing parse = s.connection.contents.list parse := by
  have hread := h.snapshot
  have ⟨hgrown, hcache, hvalues⟩ := cloneAll_spec _ hread.placed
  refine ⟨hread.coherent.grown hgrown hcache, ?_⟩
  rw [hread.content] at hvalues
  calc
    s.listing parse = ((s.list parse).2.map fun a => (s.list parse).1.objects[a]?).reduceOption := by
      show _ = filterMap id (map _ _)
      rw [filterMap_map]
      rfl
    _ = ((present (s.connection.contents.parsed parse)).filterMap
          fun entry => entry.2.toOption).reduceOption := congrArg reduceOption hvalues
    _ = s.connection.contents.list parse := reduceOption_present _

/-! ## Transactions -/

theorem Coherent.begin_ (hopen : s.begin_ = some s') : Coherent parse s' := by
  have ⟨connection, hconnection, hs'⟩ := map_eq_some_iff.mp hopen
  unfold Connection.beginImmediate at hconnection
  split at hconnection
  · cases hconnection
  rename_i hclosed
  have hnone := s.connection.isTransaction_eq_false.mp (Bool.not_eq_true _ ▸ hclosed)
  cases hconnection
  subst hs'
  have hcommitted : s.committed = s.connection.contents := by
    rw [committed, hnone]
    rfl
  exact
    { h with
      fresh := fun c hc => hcommitted ▸ h.fresh c hc
      unwritten := fun c hc _ => rfl
      torn := fun htorn => absurd htorn nofun }

/-- A commit of what an interrupted assignment left, with the cache still in place, is excluded. -/
def Whole (s : InstanceRepository ν) : Action ν → Prop
  | .commit => s.torn = true → ∀ c, ¬ s.Current c
  | _ => True

theorem Coherent.commit (hwhole : s.torn = true → ∀ c, ¬ s.Current c)
    (hcommit : s.commit = some s') : Coherent parse s' := by
  have ⟨connection, hconnection, hs'⟩ := map_eq_some_iff.mp hcommit
  unfold Connection.commit at hconnection
  split at hconnection
  next =>
    cases hconnection
    subst hs'
    exact
      { h with
        fresh := fun c hc => by
          have htorn : s.torn = false := by
            cases htorn : s.torn with
            | false => rfl
            | true => exact absurd hc (hwhole htorn c)
          have hunwritten := h.unwritten c hc htorn
          exact (h.fresh c hc).trans (congrArg (fun db => present (db.parsed parse)) hunwritten.symm)
        unwritten := fun c hc _ => rfl
        torn := fun htorn => absurd htorn nofun }
  · cases hconnection

theorem Coherent.rollback (hrollback : s.rollback = some s') : Coherent parse s' := by
  have ⟨connection, hconnection, hs'⟩ := map_eq_some_iff.mp hrollback
  have ⟨saved, hsaved, hrestored⟩ := map_eq_some_iff.mp hconnection
  subst hrestored hs'
  have hcommitted : s.committed = saved := by rw [committed, hsaved, getD_some]
  exact
    { h with
      fresh := fun c hc => (h.fresh c hc).trans (by rw [hcommitted]; rfl)
      unwritten := fun c hc _ => rfl
      torn := fun htorn => absurd htorn nofun }

end

theorem begin_eq_none (hopen : s.isTransaction = true) : s.begin_ = none := by
  have hnone : s.connection.beginImmediate = none := if_pos hopen
  rw [begin_, hnone, map_none]

theorem begin_eq_some (hclosed : s.isTransaction = false) : s.begin_ = some { s with
      connection := ⟨s.connection.contents, some s.connection.contents⟩
      torn := false } := by
  have hopened : s.connection.beginImmediate =
      some ⟨s.connection.contents, some s.connection.contents⟩ :=
    if_neg (Bool.not_eq_true _ ▸ hclosed)
  rw [begin_, hopened, map_some]

theorem Coherent.runImmediate {α : Type}
    {operation : InstanceRepository ν → InstanceRepository ν × Except WriteFailure α}
    (hoperation : ∀ s, Coherent parse s → Coherent parse (operation s).1)
    (hwhole : ∀ s, Coherent parse s → ∀ v, (operation s).2 = .ok v → (operation s).1.torn = false)
    (h : Coherent parse s) : Coherent parse (runImmediate operation s).1 := by
  unfold InstanceRepository.runImmediate
  split
  · exact hoperation s h
  rename_i opened hopen
  have hopened := h.begin_ hopen
  have hperformed := hoperation opened hopened
  dsimp only
  split
  next v hok =>
    cases hcommit : (operation opened).1.commit with
    | none => exact hperformed
    | some closed =>
      have htorn := hwhole opened hopened v hok
      exact hperformed.commit (fun hbad => absurd (htorn.symm.trans hbad) nofun) hcommit
  next =>
    cases hrollback : (operation opened).1.rollback with
    | none => exact hperformed
    | some closed => exact hperformed.rollback hrollback

/-! ## Writes -/

section

variable (h : Coherent parse s)

include h

theorem Coherent.written (contents : Database ν) (instanceId : String) :
    Coherent parse (s.written parse contents instanceId).1 ∧
      (s.written parse contents instanceId).1.torn = false := by
  have ⟨hcoherent, hgrown, _⟩ := (h.invalidate contents).get instanceId
  exact ⟨hcoherent, hgrown.torn⟩

theorem Coherent.put (value : ControlledInstance ν) : Coherent parse (put parse value s).1 := by
  refine h.runImmediate (fun s h => ?_) fun s h v hok => ?_
  · split
    · exact h
    next contents _ => exact (h.written contents value.id).1
  split at hok
  · cases hok
  next contents _ => exact (h.written contents value.id).2

theorem Coherent.putObservation (value : ControlledInstance ν) :
    Coherent parse (putObservation parse value s).1 := by
  refine h.runImmediate (fun s h => ?_) fun s h v hok => ?_
  · split
    · exact (h.written _ value.id).1
    · exact h
  split at hok
  next hrow =>
    rw [if_pos hrow]
    exact (h.written _ value.id).2
  · cases hok

theorem Coherent.delete (instanceId : String) : Coherent parse (delete instanceId s).1 := by
  unfold InstanceRepository.delete
  split
  · exact h.invalidate _
  · exact h

theorem Coherent.renameModel (modelId nextId : String) :
    Coherent parse (ModelRepository.rename modelId nextId s).1 := by
  unfold ModelRepository.rename
  split
  · split
    · exact h
    · exact h.invalidate _
  · exact h

theorem Coherent.deleteAssignment (instanceId : String) :
    Coherent parse (ModelAssignmentRepository.delete instanceId s).1 := by
  unfold ModelAssignmentRepository.delete
  split
  · exact h.invalidate _
  · exact h

end

/-- What the statements of an assignment do: nothing, all, or a part before one throws. -/
theorem write_cases (value : NodeModelAssignment) (s : InstanceRepository ν) :
    write value s = (s, .error .constraint) ∨
      ∃ contents, write value s = (s.setContents contents, .ok ()) ∨ write value s =
          ({ s.setContents contents with torn := true }, .error .constraint) := by
  unfold write
  split
  · exact .inl rfl
  split
  next contents _ => exact .inr ⟨contents, .inl rfl⟩
  next contents _ => exact .inr ⟨contents, .inr rfl⟩

section

variable (h : Coherent parse s)

include h

theorem Coherent.interrupted (hopen : s.isTransaction = true)
    (contents : Database ν) : Coherent parse { s.setContents contents with torn := true } := by
  have ⟨saved, hsaved⟩ := isSome_iff_exists.mp hopen
  have hcommitted : ({ s.setContents contents with torn := true } : InstanceRepository ν).committed =
      s.committed := by
    show s.connection.backup.getD contents = s.connection.backup.getD s.connection.contents
    rw [hsaved]
    rfl
  exact
    { h with
      fresh := fun c hc => hcommitted ▸ h.fresh c hc
      unwritten := fun c hc htorn => absurd htorn nofun
      torn := fun _ => hopen }

theorem Coherent.putAssignment (value : NodeModelAssignment) :
    Coherent parse (ModelAssignmentRepository.put value s).1 := by
  unfold ModelAssignmentRepository.put InstanceRepository.runImmediate
  cases hopen : s.isTransaction with
  | true =>
    rw [begin_eq_none hopen]
    rcases write_cases value s with hw | ⟨contents, hw | hw⟩
    · rw [hw]
      exact h
    · rw [hw]
      exact h.invalidate contents
    · rw [hw]
      exact h.interrupted hopen contents
  | false =>
    have hbegin := begin_eq_some hopen
    rw [hbegin]
    have hopened := h.begin_ hbegin
    have hinside : ({ s with
        connection := ⟨s.connection.contents, some s.connection.contents⟩
        torn := false } : InstanceRepository ν).isTransaction = true := rfl
    generalize ({ s with
      connection := ⟨s.connection.contents, some s.connection.contents⟩
      torn := false } : InstanceRepository ν) = opened at hinside hopened ⊢
    have hclosed {r : InstanceRepository ν} (hr : Coherent parse r) :
        Coherent parse (r.rollback.getD r) := by
      cases hrollback : r.rollback with
      | none => exact hr
      | some closed => exact hr.rollback hrollback
    dsimp only
    rcases write_cases value opened with hw | ⟨contents, hw | hw⟩
    · rw [hw]
      exact hclosed hopened
    · rw [hw]
      have hreturned : ∀ a ∈ opened.returned, a < opened.objects.length := hopened.returned
      cases hcommit : (opened.setContents contents).commit with
      | none => exact hopened.invalidate contents
      | some closed =>
        have ⟨connection, _, hs'⟩ := map_eq_some_iff.mp hcommit
        subst hs'
        exact .uncached rfl hreturned fun htorn => absurd htorn nofun
    · rw [hw]
      exact hclosed (hopened.interrupted hinside contents)

theorem Coherent.mutate (ha : a ∈ s.returned) (value : ControlledInstance ν) :
    Coherent parse (s.mutate a value) where
  __ := h
  fresh c hc := by
    refine (contentOf_congr fun instanceId b hb => ?_).trans (h.fresh c hc)
    have hne : a ≠ b := fun heq => h.apart c hc.1 instanceId b hb (heq ▸ ha)
    exact getElem?_set_ne hne
  unwritten c hc := h.unwritten c hc
  placed c hc := by
    show Placed c.entries (s.objects.set a value).length
    rw [length_set]
    exact h.placed c hc
  returned b hb := by
    show b < (s.objects.set a value).length
    rw [length_set]
    exact h.returned b hb

theorem Coherent.external (hclosed : s.isTransaction = false) (contents : Database ν) :
    Coherent parse { s.setContents contents with dataVersion := s.dataVersion + 1 } := by
  have hstale (c : Snapshot) (hcache : s.cache = some c) : c.dataVersion ≠ s.dataVersion + 1 :=
    Nat.ne_of_lt (Nat.lt_succ_of_le (h.version c hcache))
  exact
    { h with
      fresh := fun c hc => absurd hc.2 (hstale c hc.1)
      unwritten := fun c hc => absurd hc.2 (hstale c hc.1)
      version := fun c hc => Nat.le_succ_of_le (h.version c hc)
      torn := fun htorn => absurd ((h.torn htorn).symm.trans hclosed) nofun }

/-! ## Runs -/

theorem Coherent.step {a : Action ν} (hwhole : Whole s a)
    (hstep : s.step parse a = some s') : Coherent parse s' := by
  cases a with
  | begin_ => exact h.begin_ hstep
  | commit => exact h.commit hwhole hstep
  | rollback => exact h.rollback hstep
  | external contents =>
    simp only [InstanceRepository.step] at hstep
    split at hstep
    · cases hstep
    next hclosed =>
      cases hstep
      exact h.external (Bool.not_eq_true _ ▸ hclosed) contents
  | put value =>
    cases hstep
    exact h.put value
  | putObservation value =>
    cases hstep
    exact h.putObservation value
  | delete instanceId =>
    cases hstep
    exact h.delete instanceId
  | get instanceId =>
    cases hstep
    exact (h.get instanceId).1
  | list =>
    cases hstep
    exact h.list.1
  | renameModel modelId nextId =>
    cases hstep
    exact h.renameModel modelId nextId
  | putAssignment value =>
    cases hstep
    exact h.putAssignment value
  | deleteAssignment instanceId =>
    cases hstep
    exact h.deleteAssignment instanceId
  | mutate a value =>
    simp only [InstanceRepository.step] at hstep
    split at hstep
    next ha =>
      cases hstep
      exact h.mutate ha value
    · cases hstep

/-- Reads answer as a fresh parse of the current rows, errors included, and go on to do so when
callers change the values they were given. -/
structure Fresh (parse : ParseStored ν) (s : InstanceRepository ν) : Prop where
  get : ∀ instanceId, s.answer parse instanceId = s.connection.contents.get parse instanceId
  list : s.listing parse = s.connection.contents.list parse
  mutated : ∀ a ∈ s.returned, ∀ value,
    (∀ instanceId, (s.mutate a value).answer parse instanceId = s.answer parse instanceId) ∧
      (s.mutate a value).listing parse = s.listing parse

theorem Coherent.reads : Fresh parse s where
  get instanceId := (h.get instanceId).2.2
  list := h.list.2
  mutated a ha value := by
    have hmutated := h.mutate ha value
    exact ⟨fun instanceId => (hmutated.get instanceId).2.2.trans (h.get instanceId).2.2.symm,
      hmutated.list.2.trans h.list.2.symm⟩

end

/-- Where no commit takes what an interrupted assignment left, every read of every reached state is
fresh. -/
theorem cache_coherent (parse : ParseStored ν) {contents : Database ν}
    {actions : List (Action ν)} {s : InstanceRepository ν}
    (hrun : run (step parse) (new contents) actions = some s)
    (hwhole : AllSteps (step parse) Whole (new contents) actions) : Fresh parse s :=
  (run_invariant_of_steps (fun _ _ _ hstep hwhole h => Coherent.step h hwhole hstep) hrun hwhole
    (Coherent.new contents)).reads

/-! ### A node with one instance -/

instance (s : InstanceRepository ν) (a : Action ν) : Decidable (Whole s a) := by
  cases a with
  | commit =>
    refine decidable_of_iff (s.torn = true → ∀ c ∈ s.cache, c.dataVersion ≠ s.dataVersion) ?_
    exact ⟨fun h ht c hc => h ht c hc.1 hc.2, fun h ht c hc hv => h ht c ⟨hc, hv⟩⟩
  | _ => exact inferInstanceAs (Decidable True)

/-- A schema that accepts every stored instance; `desired` is the models it selects. -/
def selectedModels : ParseStored (List String) := fun stored =>
  .ok
    { id := stored.id
      nodeId := stored.nodeId
      runtimeId := stored.runtimeId
      localFolderId := none
      name := stored.name
      status := stored.status
      stateRevision := stored.stateRevision
      processIncarnationId := stored.processIncarnationId
      registrationToken := stored.registrationToken
      health := stored.health
      connectionStatus := stored.connectionStatus
      ready := stored.ready
      lastHeartbeatAt := stored.lastHeartbeatAt
      desired := (stored.modelSelection.map (·.modelEntityIds)).getD stored.desired
      observed := stored.observed.getD []
      createdAt := stored.createdAt
      updatedAt := stored.updatedAt }

def sampleDatabase : Database (List String) where
  nodes := ["node"]
  runtimes := ["runtime"]
  localFolders := []
  models := ["model"]
  instances := [⟨"a", "node", "runtime", none, "A", "running", 1, none, none, [], "t0", "t0"⟩]
  observations := []
  assignments := []
  entities := []

def sampleInstance : ControlledInstance (List String) :=
  ⟨"a", "node", "runtime", some "folder", "A", "stopped", 1, none, some "token", "ok", "connected",
    true, none, ["other"], [], "t0", "t2"⟩

/-- The second model has no row. -/
def halfKnown : NodeModelAssignment := ⟨"a", ["model", "missing"], none, none, none, "t1"⟩

def rolledBack : List (Action (List String)) :=
  [.get "a", .mutate 1 sampleInstance, .begin_, .putAssignment halfKnown, .rollback,
    .put sampleInstance, .list]

theorem cache_coherent_example :
    ∃ s, run (step selectedModels) (new sampleDatabase) rolledBack = some s ∧
      Fresh selectedModels s := by
  have hwhole : AllSteps (step selectedModels) Whole (new sampleDatabase) rolledBack := by decide
  exact ⟨_, rfl, cache_coherent selectedModels (by rfl) hwhole⟩

/-- The half-written assignment is committed behind the cache, which goes on to answer without it. -/
theorem interrupted_assignment_unseen : ∃ s, run (step selectedModels) (new sampleDatabase)
        [.get "a", .begin_, .putAssignment halfKnown, .commit] = some s ∧
      ¬ Fresh selectedModels s := by
  refine ⟨_, rfl, fun h => ?_⟩
  have hget := h.get "a"
  revert hget
  decide

end InstanceRepository

end TaskHandoff.Persistence
