import TaskHandoff.Lib.OrderedMap
import Mathlib.Data.List.Perm.Lattice

/-! # Patches of keyed collections

A collection of items that carry their own key is a list without two items of
one key, or the map that indexes it. A patch sets the items that changed and
deletes the keys that are gone; applied to any map that agrees with the old
collection it gives one that agrees with the new collection.
-/

namespace TaskHandoff

universe u v w

open OrderedMap List

namespace OrderedMap

variable {κ : Type u} {ν : Type v} [DecidableEq κ]

theorem entries_perm {m m' : OrderedMap κ ν} (h : ∀ k, m.get? k = m'.get? k) :
    m.entries.Perm m'.entries := by
  refine (perm_ext_iff_of_nodup m.nodup.of_map m'.nodup.of_map).mpr ?_
  rintro ⟨k, v⟩
  rw [← get?_eq_some, ← get?_eq_some, h k]

variable {es : List (κ × ν)} {m : OrderedMap κ ν}

theorem setEntries_of_not_mem {k : κ} {v : ν}
    (h : k ∉ es.map Prod.fst) : setEntries k v es = es ++ [(k, v)] := by
  induction es with
  | nil => rfl
  | cons e es ih =>
    simp only [map_cons, mem_cons, not_or] at h
    rw [setEntries, if_neg (Ne.symm h.1), ih h.2, cons_append]

theorem entries_foldl_set (h : ((m.entries ++ es).map Prod.fst).Nodup) :
    (es.foldl (fun m e => m.set e.1 e.2) m).entries = m.entries ++ es := by
  induction es generalizing m with
  | nil => simp
  | cons e es ih =>
    have hfresh : e.1 ∉ m.entries.map Prod.fst := by
      rw [map_append, nodup_append] at h
      exact fun hmem => h.2.2 _ hmem _ mem_cons_self rfl
    have hset : (m.set e.1 e.2).entries = m.entries ++ [e] := setEntries_of_not_mem hfresh
    rw [foldl_cons, ih (by rw [hset, append_assoc]; exact h), hset, append_assoc]
    rfl

theorem entries_ofList (h : (es.map Prod.fst).Nodup) : (ofList es).entries = es := by
  exact entries_foldl_set h

end OrderedMap

namespace Keyed

variable {α : Type u} {κ : Type v} [DecidableEq κ] (key : α → κ)

/-! ## Indexes -/

/-- The map of a collection; the last item of a key stands. -/
def index (items : List α) : OrderedMap κ α :=
  ofList (items.map fun a => (key a, a))

def upsert (m : OrderedMap κ α) (items : List α) : OrderedMap κ α :=
  items.foldl (fun m a => m.set (key a) a) m

def remove (m : OrderedMap κ α) (keys : List κ) : OrderedMap κ α :=
  keys.foldl (fun m k => m.erase k) m

theorem index_eq_upsert (items : List α) : index key items = upsert key .empty items := by
  unfold index upsert ofList
  rw [foldl_map]

variable {k : κ} {items old new : List α} {a : α} {m : OrderedMap κ α}

theorem get?_upsert_of_not_mem (h : k ∉ items.map key)
    (m : OrderedMap κ α) : (upsert key m items).get? k = m.get? k := by
  unfold upsert
  induction items generalizing m with
  | nil => rfl
  | cons a items ih =>
    simp only [map_cons, mem_cons, not_or] at h
    rw [foldl_cons, ih h.2, get?_set_ne m a h.1]

theorem get?_upsert_of_mem (h : (items.map key).Nodup)
    (ha : a ∈ items) (m : OrderedMap κ α) : (upsert key m items).get? (key a) = some a := by
  induction items generalizing m with
  | nil => cases ha
  | cons b items ih =>
    obtain ⟨hnot, hrest⟩ := nodup_cons.mp h
    have hcons : upsert key m (b :: items) = upsert key (m.set (key b) b) items := rfl
    rw [hcons]
    rcases mem_cons.mp ha with rfl | ha
    · rw [get?_upsert_of_not_mem key hnot, get?_set_self]
    · exact ih hrest ha _

theorem get?_remove (keys : List κ) (m : OrderedMap κ α) (k : κ) :
    (remove m keys).get? k = if k ∈ keys then none else m.get? k := by
  unfold remove
  induction keys generalizing m with
  | nil => simp
  | cons j keys ih =>
    rw [foldl_cons, ih, get?_erase]
    by_cases hj : k = j
    · simp [hj]
    · simp [hj]

theorem get?_index_of_not_mem (h : k ∉ items.map key) : (index key items).get? k = none := by
  rw [index_eq_upsert, get?_upsert_of_not_mem key h]
  rfl

theorem get?_index_of_mem (h : (items.map key).Nodup)
    (ha : a ∈ items) : (index key items).get? (key a) = some a := by
  rw [index_eq_upsert, get?_upsert_of_mem key h ha]

/-! ## Maps whose values carry their key -/

def Own (m : OrderedMap κ α) : Prop :=
  ∀ k a, m.get? k = some a → key a = k

theorem own_empty : Own key (empty : OrderedMap κ α) := fun k a h => by simp at h

theorem Own.set (h : Own key m) (a : α) : Own key (m.set (key a) a) := by
  intro k b hb
  rw [get?_set] at hb
  split at hb
  · next hk => rw [← Option.some.inj hb, hk]
  · exact h k b hb

theorem Own.upsert (h : Own key m) (items : List α) : Own key (upsert key m items) := by
  induction items generalizing m with
  | nil => exact h
  | cons a items ih => exact ih (h.set key a)

theorem Own.remove (h : Own key m) (keys : List κ) : Own key (remove m keys) := by
  intro k a ha
  rw [get?_remove] at ha
  split at ha
  · cases ha
  · exact h k a ha

theorem own_index (items : List α) : Own key (index key items) := by
  rw [index_eq_upsert]
  exact (own_empty key).upsert key items

theorem Own.map_values (h : Own key m) : m.values.map (fun a => (key a, a)) = m.entries := by
  unfold values
  rw [map_map]
  conv_rhs => rw [← map_id m.entries]
  refine map_congr_left ?_
  rintro ⟨k, a⟩ he
  have hkey := h k a (get?_eq_some.mpr he)
  simp [hkey]

theorem Own.index_values (h : Own key m) : index key m.values = m := by
  apply ext
  unfold index
  rw [h.map_values key]
  exact entries_ofList m.nodup

theorem values_index (h : (items.map key).Nodup) : (index key items).values = items := by
  unfold index values
  rw [entries_ofList (by simpa [map_map, Function.comp_def] using h)]
  simp [Function.comp_def]

/-! ## Items changed in place -/

section

variable {β : Type w} {key' : β → κ} {f : α → β}

theorem mapValues_upsert (hf : ∀ a, key' (f a) = key a) (m : OrderedMap κ α) (items : List α) :
    (upsert key m items).mapValues f = upsert key' (m.mapValues f) (items.map f) := by
  unfold upsert
  induction items generalizing m with
  | nil => rfl
  | cons a items ih => rw [foldl_cons, ih, mapValues_set, map_cons, foldl_cons, hf]

theorem mapValues_remove (m : OrderedMap κ α) (keys : List κ) :
    (remove m keys).mapValues f = remove (m.mapValues f) keys := by
  unfold remove
  induction keys generalizing m with
  | nil => rfl
  | cons k keys ih => rw [foldl_cons, ih, mapValues_erase, foldl_cons]

theorem mapValues_index (hf : ∀ a, key' (f a) = key a) (items : List α) :
    (index key items).mapValues f = index key' (items.map f) := by
  rw [index_eq_upsert, index_eq_upsert, mapValues_upsert key hf]
  rfl

end

/-! ## Patches -/

/-- The items of the new collection that the old one does not hold. -/
def changed [DecidableEq α] (old new : List α) : List α :=
  new.filter fun a => (index key old).get? (key a) ≠ some a

/-- The keys of the old collection that the new one does not hold. -/
def gone (old new : List α) : List κ :=
  (old.filter fun a => key a ∉ new.map key).map key

theorem mem_gone : k ∈ gone key old new ↔ k ∈ old.map key ∧ k ∉ new.map key := by
  simp only [gone, mem_map, mem_filter, decide_eq_true_eq]
  constructor
  · rintro ⟨a, ⟨ha, hnot⟩, rfl⟩
    exact ⟨⟨a, ha, rfl⟩, hnot⟩
  · rintro ⟨⟨a, ha, rfl⟩, hnot⟩
    exact ⟨a, ⟨ha, hnot⟩, rfl⟩

/-- A patch takes every map that agrees with the old collection to one that
agrees with the new collection. -/
theorem get?_patch [DecidableEq α] (hnew : (new.map key).Nodup)
    (hm : ∀ k, m.get? k = (index key old).get? k) (k : κ) :
    (remove (upsert key m (changed key old new)) (gone key old new)).get? k =
      (index key new).get? k := by
  have hsub : ((changed key old new).map key).Sublist (new.map key) := filter_sublist.map key
  have hchanged : ((changed key old new).map key).Nodup := hsub.nodup hnew
  rw [get?_remove]
  by_cases hk : k ∈ new.map key
  · rw [if_neg fun hgone => (mem_gone key).mp hgone |>.2 hk]
    obtain ⟨a, ha, rfl⟩ := mem_map.mp hk
    rw [get?_index_of_mem key hnew ha]
    by_cases hsame : (index key old).get? (key a) = some a
    · -- An unchanged item is in the map already, and no other item of its key is sent.
      have hnot : key a ∉ (changed key old new).map key := by
        intro hmem
        obtain ⟨b, hb, hkey⟩ := mem_map.mp hmem
        obtain ⟨hbnew, hdiff⟩ := mem_filter.mp hb
        have hba : b = a := inj_on_of_nodup_map hnew hbnew ha hkey
        subst hba
        simp [hsame] at hdiff
      rw [get?_upsert_of_not_mem key hnot, hm, hsame]
    · have hmem : a ∈ changed key old new := by exact mem_filter.mpr ⟨ha, by simpa using hsame⟩
      exact get?_upsert_of_mem key hchanged hmem m
  · rw [get?_index_of_not_mem key hk]
    by_cases hold : k ∈ old.map key
    · rw [if_pos ((mem_gone key).mpr ⟨hold, hk⟩)]
    rw [if_neg fun hgone => hold ((mem_gone key).mp hgone).1,
      get?_upsert_of_not_mem key fun hmem => hk (hsub.subset hmem), hm,
      get?_index_of_not_mem key hold]

end Keyed

end TaskHandoff
