import Mathlib.Data.List.Basic
import Mathlib.Data.List.Induction

/-! # Compacted logs

A log keeps some of the entries published so far, in the order of their
publication. An entry leaves it because its item settled, because a later entry
replaces it, or with an evicted prefix. A reader folds the same out of the log
as out of everything published when each missing entry is overwritten later on.
-/

namespace TaskHandoff.CompactedLog

open List

variable {α κ τ : Type}

/-! ## Numbered entries -/

/-- Entries stand in the order of their numbers. -/
def Numbered (seq : α → Nat) (history : List α) : Prop :=
  history.Pairwise fun e f => seq e < seq f

variable {history : List α} {seq : α → Nat}

theorem Numbered.append_singleton {a : α}
    (h : Numbered seq history) (ha : ∀ e ∈ history, seq e < seq a) :
    Numbered seq (history ++ [a]) := by
  refine pairwise_append.mpr ⟨h, pairwise_singleton _ _, ?_⟩
  intro e he b hb
  rw [mem_singleton.mp hb]
  exact ha e he

theorem Numbered.eq_of_seq_eq (h : Numbered seq history)
    {e f : α} (he : e ∈ history) (hf : f ∈ history) (hseq : seq e = seq f) : e = f := by
  induction history with
  | nil => cases he
  | cons a rest ih =>
    obtain ⟨hhead, htail⟩ := pairwise_cons.mp h
    rcases mem_cons.mp he with he | he
    · rcases mem_cons.mp hf with hf | hf
      · exact he.trans hf.symm
      · have := hhead f hf
        rw [he] at hseq
        omega
    · rcases mem_cons.mp hf with hf | hf
      · have := hhead e he
        rw [hf] at hseq
        omega
      · exact ih htail he hf

/-! ## Why an entry is missing -/

/-- What the entries of a log are: their numbers, the items they are about,
which of them replace an item as a whole, and which publications settle which
entries. -/
structure Shape (α κ : Type) where
  seq : α → Nat
  key : α → Option κ
  replaces : α → Bool
  settles : α → α → Bool

namespace Shape

variable (S : Shape α κ)

/-- An entry without a key is an item of its own. -/
def SameItem (e f : α) : Prop := e = f ∨ ∃ k, S.key e = some k ∧ S.key f = some k

/-- The entry's item was settled, by a publication not older than the entry. -/
def Settled (history : List α) (e : α) : Prop :=
  ∃ a ∈ history, ∃ f ∈ history,
    S.SameItem e f ∧ S.settles a f = true ∧ S.seq e ≤ S.seq a ∧ S.seq f ≤ S.seq a

/-- `s` replaces the item of `e` after `e` did, and nothing was added to the
item in between. -/
structure Supersedes (history : List α) (s e : α) : Prop where
  later : S.replaces s = true
  earlier : S.replaces e = true
  key : ∃ k, S.key e = some k ∧ S.key s = some k
  seq_lt : S.seq e < S.seq s
  between : ∀ d ∈ history, S.key d = S.key e → S.seq e < S.seq d → S.seq d < S.seq s →
    S.replaces d = true

/-- Why an entry is where it is: in the log, settled, superseded from within
the log, or in the evicted prefix. -/
def Accounted (history log : List α) (evicted : Nat) (e : α) : Prop :=
  e ∈ log ∨ S.Settled history e ∨ (∃ s ∈ log, S.Supersedes history s e) ∨ S.seq e ≤ evicted

variable {S}

theorem SameItem.trans {e f g : α} (h : S.SameItem e f) (hg : S.SameItem f g) : S.SameItem e g := by
  rcases h with rfl | ⟨k, he, hf⟩
  · exact hg
  rcases hg with rfl | ⟨j, hf', hg⟩
  · exact .inr ⟨k, he, hf⟩
  · have hjk : j = k := Option.some.inj (hf'.symm.trans hf)
    exact .inr ⟨k, he, hjk ▸ hg⟩

variable {e f s a : α} {history log history : List α} {evicted : Nat}

theorem Settled.of_sameItem (h : S.Settled history f)
    (hef : S.SameItem e f) (hseq : S.seq e ≤ S.seq f) : S.Settled history e := by
  obtain ⟨a, ha, g, hg, hfg, hset, hfa, hga⟩ := h
  exact ⟨a, ha, g, hg, hef.trans hfg, hset, Nat.le_trans hseq hfa, hga⟩

theorem Settled.append (h : S.Settled history e) (a : α) : S.Settled (history ++ [a]) e := by
  obtain ⟨b, hb, f, hf, hrest⟩ := h
  exact ⟨b, mem_append_left _ hb, f, mem_append_left _ hf, hrest⟩

theorem Supersedes.trans {s t e : α} (h : S.Supersedes history s e)
    (ht : S.Supersedes history t s) (hnum : Numbered S.seq history) (hs : s ∈ history) :
    S.Supersedes history t e where
  later := ht.later
  earlier := h.earlier
  key := by
    obtain ⟨k, he, hs⟩ := h.key
    obtain ⟨j, hs', htj⟩ := ht.key
    have hjk : j = k := Option.some.inj (hs'.symm.trans hs)
    exact ⟨k, he, hjk ▸ htj⟩
  seq_lt := Nat.lt_trans h.seq_lt ht.seq_lt
  between d hd hkey hlt hgt := by
    have hkeys : S.key e = S.key s := by
      obtain ⟨k, he, hs⟩ := h.key
      rw [he, hs]
    rcases Nat.lt_trichotomy (S.seq d) (S.seq s) with hds | hds | hds
    · exact h.between d hd hkey hlt hds
    · have hdeq : d = s := hnum.eq_of_seq_eq hd hs hds
      exact hdeq ▸ h.later
    · exact ht.between d hd (hkey.trans hkeys) hds hgt

theorem Supersedes.append (h : S.Supersedes history s e)
    (ha : S.seq s < S.seq a) : S.Supersedes (history ++ [a]) s e where
  __ := h
  between d hd hkey hlt hgt := by
    rcases mem_append.mp hd with hd | hd
    · exact h.between d hd hkey hlt hgt
    · rw [mem_singleton.mp hd] at hgt
      omega

/-- What an entry of the log may become in a later log, every accounted entry may. -/
theorem Accounted.step {log log' : List α} {evicted evicted' : Nat} (hnum : Numbered S.seq history)
    (hlog : log.Sublist history) (hev : evicted ≤ evicted')
    (hstep : ∀ s ∈ log, S.Accounted history log' evicted' s)
    (h : S.Accounted history log evicted e) : S.Accounted history log' evicted' e := by
  rcases h with hmem | hset | ⟨s, hs, hsup⟩ | hle
  · exact hstep e hmem
  · exact .inr (.inl hset)
  · rcases hstep s hs with hmem | hset | ⟨t, ht, htsup⟩ | hle
    · exact .inr (.inr (.inl ⟨s, hmem, hsup⟩))
    · exact .inr (.inl (hset.of_sameItem (.inr hsup.key) (Nat.le_of_lt hsup.seq_lt)))
    · exact .inr (.inr (.inl ⟨t, ht, hsup.trans htsup hnum (hlog.subset hs)⟩))
    · have := hsup.seq_lt
      exact .inr (.inr (.inr (by omega)))
  · exact .inr (.inr (.inr (by omega)))

theorem Accounted.append
    (h : S.Accounted history log evicted e) (ha : ∀ s ∈ log, S.seq s < S.seq a) :
    S.Accounted (history ++ [a]) log evicted e := by
  rcases h with hmem | hset | ⟨s, hs, hsup⟩ | hle
  · exact .inl hmem
  · exact .inr (.inl (hset.append a))
  · exact .inr (.inr (.inl ⟨s, hs, hsup.append (ha s hs)⟩))
  · exact .inr (.inr (.inr hle))

end Shape

/-! ## Reading the log -/

/-- What a reader makes of an entry does not depend on what came before it. -/
def Overwrites (apply : τ → α → τ) (s : α) : Prop := ∀ t t', apply t s = apply t' s

/-- A reader that skips entries which say nothing to it, or are overwritten
later on, ends as one that reads everything. -/
theorem foldl_sublist {apply : τ → α → τ} {log : List α} (hlog : log.Sublist history)
    (hnum : Numbered seq history) (hmissing : ∀ e ∈ history, e ∈ log ∨ (∀ t, apply t e = t) ∨
      ∃ s ∈ log, seq e < seq s ∧ Overwrites apply s) (t : τ) :
    log.foldl apply t = history.foldl apply t := by
  induction history using reverseRecOn generalizing log with
  | nil => rw [sublist_nil.mp hlog]
  | append_singleton history a ih =>
    obtain ⟨hnum', -, hlt⟩ := pairwise_append.mp hnum
    have hlast : ∀ e ∈ history, seq e < seq a := fun e he => hlt e he a (by simp)
    obtain ⟨front, last, rfl, hfront, hback⟩ := sublist_append_iff.mp hlog
    rw [foldl_append, foldl_append]
    rcases sublist_singleton.mp hback with rfl | rfl
    · have hid : ∀ t, apply t a = t := by
        rcases hmissing a (by simp) with hmem | hid | ⟨s, hs, hseq, -⟩
        · have := hlast a (hfront.subset (by simpa using hmem))
          omega
        · exact hid
        · have := hlast s (hfront.subset (by simpa using hs))
          omega
      simp only [foldl_nil, foldl_cons, hid]
      refine ih hfront hnum' ?_
      intro e he
      simpa using hmissing e (mem_append_left _ he)
    · by_cases hover : Overwrites apply a
      · exact hover _ _
      · congr 1
        refine ih hfront hnum' ?_
        intro e he
        have hne : e ≠ a := by
          rintro rfl
          have := hlast e he
          omega
        rcases hmissing e (mem_append_left _ he) with hmem | hid | ⟨s, hs, hseq, hs'⟩
        · exact .inl (by simpa [hne] using hmem)
        · exact .inr (.inl hid)
        · have hsa : s ≠ a := by
            rintro rfl
            exact hover hs'
          exact .inr (.inr ⟨s, by simpa [hsa] using hs, hseq, hs'⟩)

end TaskHandoff.CompactedLog
