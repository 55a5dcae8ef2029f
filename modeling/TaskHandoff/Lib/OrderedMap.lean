import Mathlib.Algebra.GroupWithZero.Nat
import Mathlib.Data.List.Basic
import Mathlib.Data.List.Nodup

/-! # Insertion-ordered maps

The map of the source language: entries keep the order of their first
insertion, setting a present key keeps its position, deleting and setting again
moves it to the end. The field `nodup` makes two entries of one key impossible
to build, so lookups and iterations speak of the same entries.
-/

namespace TaskHandoff

universe u v w

open List

/-- A finite map whose iteration order is the insertion order. -/
structure OrderedMap (κ : Type u) (ν : Type v) where
  entries : List (κ × ν)
  nodup : (entries.map Prod.fst).Nodup

namespace OrderedMap

variable {κ : Type u} {ν : Type v} [DecidableEq κ]

/-! ## Entry lists -/

/-- Replace the value of a present key, or append the entry. -/
def setEntries (k : κ) (v : ν) : List (κ × ν) → List (κ × ν)
  | [] => [(k, v)]
  | e :: es => if e.1 = k then (k, v) :: es else e :: setEntries k v es

def lookupEntries (k : κ) : List (κ × ν) → Option ν
  | [] => none
  | e :: es => if e.1 = k then some e.2 else lookupEntries k es

def eraseEntries (k : κ) (es : List (κ × ν)) : List (κ × ν) :=
  es.filter fun e => e.1 ≠ k

theorem mem_keys_setEntries (k j : κ) (v : ν) (es : List (κ × ν)) :
    j ∈ (setEntries k v es).map Prod.fst ↔ j = k ∨ j ∈ es.map Prod.fst := by
  induction es with
  | nil => simp [setEntries]
  | cons e es ih =>
    by_cases he : e.1 = k
    · simp [setEntries, he]
    · simp only [setEntries, if_neg he, map_cons, mem_cons, ih]
      tauto

variable {es : List (κ × ν)} {k j : κ} {v w : ν} {m : OrderedMap κ ν}

theorem nodup_setEntries (k : κ) (v : ν) (h : (es.map Prod.fst).Nodup) :
    ((setEntries k v es).map Prod.fst).Nodup := by
  induction es with
  | nil => simp [setEntries]
  | cons e es ih =>
    obtain ⟨hnot, hes⟩ := nodup_cons.mp h
    by_cases he : e.1 = k
    · simpa [setEntries, he] using h
    rw [setEntries, if_neg he, map_cons, nodup_cons]
    refine ⟨?_, ih hes⟩
    rw [mem_keys_setEntries]
    rintro (hk | hmem)
    · exact he hk
    · exact hnot hmem

theorem nodup_eraseEntries (k : κ) (h : (es.map Prod.fst).Nodup) :
    ((eraseEntries k es).map Prod.fst).Nodup :=
  h.sublist (filter_sublist.map Prod.fst)

/-! ## The operations -/

def empty : OrderedMap κ ν := ⟨[], List.nodup_nil⟩

instance : Inhabited (OrderedMap κ ν) := ⟨empty⟩

def get? (m : OrderedMap κ ν) (k : κ) : Option ν := lookupEntries k m.entries

def contains (m : OrderedMap κ ν) (k : κ) : Bool := (m.get? k).isSome

def set (m : OrderedMap κ ν) (k : κ) (v : ν) : OrderedMap κ ν :=
  ⟨setEntries k v m.entries, nodup_setEntries k v m.nodup⟩

def erase (m : OrderedMap κ ν) (k : κ) : OrderedMap κ ν :=
  ⟨eraseEntries k m.entries, nodup_eraseEntries k m.nodup⟩

omit [DecidableEq κ] in
/-- Equal entry lists make equal maps; the invariant field carries no data. -/
@[ext] theorem ext {m n : OrderedMap κ ν} (h : m.entries = n.entries) : m = n := by
  cases m
  cases n
  simpa using h

def keys (m : OrderedMap κ ν) : List κ := m.entries.map Prod.fst

def values (m : OrderedMap κ ν) : List ν := m.entries.map Prod.snd

def size (m : OrderedMap κ ν) : Nat := m.entries.length

/-- Build a map by setting the entries from the left, as the source's constructor does. -/
def ofList (es : List (κ × ν)) : OrderedMap κ ν := es.foldl (fun m e => m.set e.1 e.2) empty

/-! ## Lookups -/

@[simp] theorem get?_empty (k : κ) : (empty : OrderedMap κ ν).get? k = none := rfl

theorem lookupEntries_setEntries (k j : κ) (v : ν) (es : List (κ × ν)) :
    lookupEntries j (setEntries k v es) = if j = k then some v else lookupEntries j es := by
  induction es with
  | nil =>
    by_cases hj : j = k
    · simp [setEntries, lookupEntries, hj]
    · simp [setEntries, lookupEntries, hj, Ne.symm hj]
  | cons e es ih =>
    by_cases he : e.1 = k
    · by_cases hj : j = k
      · simp [setEntries, lookupEntries, he, hj]
      · simp [setEntries, lookupEntries, he, hj, Ne.symm hj]
    by_cases hj : e.1 = j
    · have hjk : j ≠ k := fun h => he (hj.trans h)
      simp [setEntries, lookupEntries, hj, hjk]
    · simp [setEntries, lookupEntries, he, hj, ih]

theorem get?_set (m : OrderedMap κ ν) (k j : κ) (v : ν) :
    (m.set k v).get? j = if j = k then some v else m.get? j :=
  lookupEntries_setEntries k j v m.entries

@[simp] theorem get?_set_self (m : OrderedMap κ ν) (k : κ) (v : ν) :
    (m.set k v).get? k = some v := by
  simp [get?_set]

theorem get?_set_ne (m : OrderedMap κ ν) (v : ν) (h : j ≠ k) : (m.set k v).get? j = m.get? j := by
  simp [get?_set, h]

theorem setEntries_setEntries (k : κ) (v w : ν) (es : List (κ × ν)) :
    setEntries k w (setEntries k v es) = setEntries k w es := by
  induction es with
  | nil => simp [setEntries]
  | cons e es ih =>
    by_cases he : e.1 = k
    · simp [setEntries, he]
    · simp [setEntries, he, ih]

theorem set_set (m : OrderedMap κ ν) (k : κ) (v w : ν) : (m.set k v).set k w = m.set k w :=
  ext (setEntries_setEntries k v w m.entries)

theorem lookupEntries_eraseEntries (k j : κ) (es : List (κ × ν)) :
    lookupEntries j (eraseEntries k es) = if j = k then none else lookupEntries j es := by
  unfold eraseEntries
  induction es with
  | nil => simp [lookupEntries]
  | cons e es ih =>
    by_cases he : e.1 = k
    · by_cases hj : j = k
      · simpa [lookupEntries, he, hj] using ih
      · simpa [lookupEntries, he, hj, Ne.symm hj] using ih
    by_cases hj : e.1 = j
    · have hjk : j ≠ k := fun h => he (hj.trans h)
      simp [lookupEntries, hj, hjk]
    · simpa [lookupEntries, he, hj] using ih

theorem get?_erase (m : OrderedMap κ ν) (k j : κ) :
    (m.erase k).get? j = if j = k then none else m.get? j :=
  lookupEntries_eraseEntries k j m.entries

@[simp] theorem get?_erase_self (m : OrderedMap κ ν) (k : κ) : (m.erase k).get? k = none := by
  simp [get?_erase]

theorem get?_erase_ne (m : OrderedMap κ ν) (h : j ≠ k) : (m.erase k).get? j = m.get? j := by
  simp [get?_erase, h]

/-- Where an entry of the map after `set` comes from. -/
theorem get?_set_eq_some
    (h : (m.set k v).get? j = some w) : (j = k ∧ w = v) ∨ (j ≠ k ∧ m.get? j = some w) := by
  rw [get?_set] at h
  split at h
  next hj => exact .inl ⟨hj, (Option.some.inj h).symm⟩
  next hj => exact .inr ⟨hj, h⟩

theorem get?_erase_eq_some (h : (m.erase k).get? j = some w) : j ≠ k ∧ m.get? j = some w := by
  rw [get?_erase] at h
  split at h
  · cases h
  next hj => exact ⟨hj, h⟩

theorem keys_erase (m : OrderedMap κ ν) (k : κ) :
    (m.erase k).keys = m.keys.filter fun j => j ≠ k := by
  simp only [keys, erase, eraseEntries, filter_map]
  rfl

theorem lookupEntries_eq_some
    (h : (es.map Prod.fst).Nodup) : lookupEntries k es = some v ↔ (k, v) ∈ es := by
  induction es with
  | nil => simp [lookupEntries]
  | cons e es ih =>
    obtain ⟨hnot, hes⟩ := nodup_cons.mp h
    by_cases he : e.1 = k
    · have hfresh : (k, v) ∉ es := fun hm =>
        hnot (mem_map.mpr ⟨(k, v), hm, he.symm⟩)
      obtain ⟨k', v'⟩ := e
      simp only [lookupEntries, if_pos he, Option.some.injEq, mem_cons, Prod.mk.injEq,
        hfresh, or_false]
      constructor
      · intro hv
        exact ⟨he.symm, hv.symm⟩
      · exact fun hv => hv.2.symm
    · have hne : (k, v) ≠ e := fun hk => he (by rw [← hk])
      simp [lookupEntries, he, ih hes, hne]

theorem get?_eq_some : m.get? k = some v ↔ (k, v) ∈ m.entries := lookupEntries_eq_some m.nodup

theorem get?_eq_none : m.get? k = none ↔ k ∉ m.keys := by
  constructor
  · intro h hk
    obtain ⟨e, he, rfl⟩ := mem_map.mp hk
    have hget : m.get? e.1 = some e.2 := get?_eq_some.mpr he
    rw [h] at hget
    cases hget
  · intro h
    cases hv : m.get? k with
    | none => rfl
    | some v => exact (h (mem_map.mpr ⟨(k, v), get?_eq_some.mp hv, rfl⟩)).elim

theorem mem_values : v ∈ m.values ↔ ∃ k, m.get? k = some v := by
  simp only [values, mem_map, get?_eq_some]
  constructor
  · rintro ⟨⟨k, v'⟩, he, rfl⟩
    exact ⟨k, he⟩
  · rintro ⟨k, he⟩
    exact ⟨(k, v), he, rfl⟩

theorem erase_of_get?_eq_none (h : m.get? k = none) : m.erase k = m := by
  apply ext
  refine filter_eq_self.mpr ?_
  intro e he
  have hne : e.1 ≠ k := by
    rintro rfl
    exact get?_eq_none.mp h (mem_map.mpr ⟨e, he, rfl⟩)
  simpa using hne

/-! ## Entries up to order -/

theorem setEntries_perm (k : κ) (v : ν) (h : (es.map Prod.fst).Nodup) :
    (setEntries k v es).Perm ((k, v) :: eraseEntries k es) := by
  unfold eraseEntries
  induction es with
  | nil => simp [setEntries]
  | cons e es ih =>
    obtain ⟨hnot, hes⟩ := nodup_cons.mp h
    by_cases he : e.1 = k
    · have hkeep : es.filter (fun e => e.1 ≠ k) = es := by
        refine filter_eq_self.mpr ?_
        intro f hf
        have hne : f.1 ≠ k := fun hk =>
          hnot (mem_map.mpr ⟨f, hf, hk.trans he.symm⟩)
        simpa using hne
      rw [setEntries, if_pos he, filter_cons_of_neg (by simp [he]), hkeep]
    · rw [setEntries, if_neg he, filter_cons_of_pos (by simp [he])]
      exact ((ih hes).cons e).trans (List.Perm.swap _ _ _)

theorem entries_set_perm (m : OrderedMap κ ν) (k : κ) (v : ν) :
    (m.set k v).entries.Perm ((k, v) :: (m.erase k).entries) :=
  setEntries_perm k v m.nodup

theorem set_of_get? (h : m.get? k = some v) : m.set k v = m := by
  apply ext
  have hmem := get?_eq_some.mp h
  show setEntries k v m.entries = m.entries
  have hnd := m.nodup
  generalize m.entries = es at hmem hnd
  induction es with
  | nil => simp at hmem
  | cons e es ih =>
    obtain ⟨hnot, hes⟩ := nodup_cons.mp hnd
    by_cases he : e.1 = k
    · rcases mem_cons.mp hmem with rfl | hin
      · simp [setEntries]
      · exact (hnot (mem_map.mpr ⟨(k, v), hin, he.symm⟩)).elim
    rcases mem_cons.mp hmem with rfl | hin
    · exact (he rfl).elim
    · simp [setEntries, he, ih hin hes]

theorem keys_setEntries (k : κ) (v : ν) (es : List (κ × ν)) : (setEntries k v es).map Prod.fst =
      if k ∈ es.map Prod.fst then es.map Prod.fst else es.map Prod.fst ++ [k] := by
  induction es with
  | nil => simp [setEntries]
  | cons e es ih =>
    by_cases he : e.1 = k
    · simp [setEntries, he]
    have hne : k ≠ e.1 := fun h => he h.symm
    simp only [setEntries, he, if_false, map_cons, ih, mem_cons, hne, false_or]
    split <;> simp

theorem keys_set_of_get? (h : m.get? k = some w) : (m.set k v).keys = m.keys := by
  have hmem : k ∈ m.entries.map Prod.fst := mem_map.mpr ⟨(k, w), get?_eq_some.mp h, rfl⟩
  exact (keys_setEntries k v m.entries).trans (if_pos hmem)

theorem keys_set_of_none (h : m.get? k = none) : (m.set k v).keys = m.keys ++ [k] :=
  (keys_setEntries k v m.entries).trans (if_neg (get?_eq_none.mp h))

/-- Taking one key out of a map leaves the entries of the others. -/
theorem entries_perm_of_get? (h : m.get? k = some v) :
    m.entries.Perm ((k, v) :: (m.erase k).entries) := by
  conv_lhs => rw [← set_of_get? h]
  exact entries_set_perm m k v

/-- Taking out a key takes its part out of a count over the values. -/
theorem count_flatMap_of_get? {β : Type w} [DecidableEq β]
    (h : m.get? k = some v) (f : ν → List β) (b : β) :
    (m.values.flatMap f).count b = (f v).count b + ((m.erase k).values.flatMap f).count b := by
  have hperm := ((entries_perm_of_get? h).map Prod.snd).flatMap_right f
  have hcount := hperm.count_eq b
  rw [map_cons, flatMap_cons, count_append] at hcount
  exact hcount

theorem count_flatMap_set {β : Type w} [DecidableEq β] (m : OrderedMap κ ν) (k : κ) (v : ν)
    (f : ν → List β) (b : β) : ((m.set k v).values.flatMap f).count b =
      (f v).count b + ((m.erase k).values.flatMap f).count b := by
  have hperm := ((entries_set_perm m k v).map Prod.snd).flatMap_right f
  have hcount := hperm.count_eq b
  rw [map_cons, flatMap_cons, count_append] at hcount
  exact hcount

theorem values_perm_of_get? (h : m.get? k = some v) : m.values.Perm (v :: (m.erase k).values) :=
  (entries_perm_of_get? h).map Prod.snd

theorem values_set_perm (m : OrderedMap κ ν) (k : κ) (v : ν) :
    (m.set k v).values.Perm (v :: (m.erase k).values) :=
  (entries_set_perm m k v).map Prod.snd

omit [DecidableEq κ] in
theorem eq_empty_of_keys (h : m.keys = []) : m = empty := ext (map_eq_nil_iff.mp h)

/-! ## Maps of values -/

variable {ν' : Type w}
variable (f : ν → ν')

def mapValues (m : OrderedMap κ ν) : OrderedMap κ ν' where
  entries := m.entries.map fun e => (e.1, f e.2)
  nodup := by
    rw [List.map_map]
    exact m.nodup

theorem lookupEntries_map (k : κ) (es : List (κ × ν)) :
    lookupEntries k (es.map fun e => (e.1, f e.2)) = (lookupEntries k es).map f := by
  induction es with
  | nil => rfl
  | cons e es ih =>
    by_cases he : e.1 = k
    · simp [lookupEntries, he]
    · simp [lookupEntries, he, ih]

theorem get?_mapValues (m : OrderedMap κ ν) (k : κ) : (m.mapValues f).get? k = (m.get? k).map f :=
  lookupEntries_map f k m.entries

theorem setEntries_map (k : κ) (v : ν) (es : List (κ × ν)) :
    setEntries k (f v) (es.map fun e => (e.1, f e.2)) =
      (setEntries k v es).map fun e => (e.1, f e.2) := by
  induction es with
  | nil => rfl
  | cons e es ih =>
    by_cases he : e.1 = k
    · simp [setEntries, he]
    · simp [setEntries, he, ih]

theorem mapValues_set (m : OrderedMap κ ν) (k : κ) (v : ν) :
    (m.set k v).mapValues f = (m.mapValues f).set k (f v) :=
  ext (setEntries_map f k v m.entries).symm

theorem mapValues_erase (m : OrderedMap κ ν) (k : κ) :
    (m.erase k).mapValues f = (m.mapValues f).erase k := by
  apply ext
  show (m.entries.filter _).map _ = (m.entries.map _).filter _
  rw [filter_map]
  rfl

omit [DecidableEq κ] in
theorem values_mapValues (m : OrderedMap κ ν) : (m.mapValues f).values = m.values.map f := by
  simp [values, mapValues]

end OrderedMap

end TaskHandoff
