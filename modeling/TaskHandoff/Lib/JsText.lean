import Mathlib.Data.List.Chain
import Mathlib.Data.List.DropRight

/-! # Text as code units

Strings are lists of UTF-16 code units. Trimming takes white space from both
ends, collapsing turns each run of it into one space. Both are idempotent, and
what is collapsed and trimmed stays so under truncation with an ellipsis.
-/

namespace TaskHandoff.JsText

open List Option

abbrev Text := List UInt16

/-- The code units of a string of the basic multilingual plane. -/
def text (s : String) : Text := s.toList.map fun c => UInt16.ofNat c.toNat

/-- White space and line terminators. -/
def isSpace (c : UInt16) : Bool :=
  c ∈ ([0x09, 0x0a, 0x0b, 0x0c, 0x0d, 0x20, 0xa0, 0x1680, 0x2028, 0x2029, 0x202f, 0x205f, 0x3000,
    0xfeff] : List UInt16) || (0x2000 ≤ c && c ≤ 0x200a)

def space : UInt16 := 0x20

/-- `slice(-max)`. -/
def lastUnits (max : Nat) (t : Text) : Text := t.drop (t.length - max)

/-! ## Trimming -/

def trim (t : Text) : Text := (t.dropWhile isSpace).rdropWhile isSpace

/-- Neither end is white space. -/
structure Trimmed (t : Text) : Prop where
  first : ∀ c ∈ t.head?, isSpace c = false
  last : ∀ c ∈ t.getLast?, isSpace c = false

theorem head?_dropWhile (t : Text) : ∀ c ∈ (t.dropWhile isSpace).head?, isSpace c = false := by
  induction t with
  | nil => exact fun _ hc => absurd hc nofun
  | cons a t ih =>
    intro c hc
    cases ha : isSpace a with
    | true => exact ih c (by simpa [dropWhile_cons, ha] using hc)
    | false =>
      simp only [dropWhile_cons, ha, Bool.false_eq_true, if_false, head?_cons,
        mem_def, some.injEq] at hc
      exact hc ▸ ha

theorem trim_trimmed (t : Text) : Trimmed (trim t) where
  first := by
    intro c hc
    obtain ⟨rest, hrest⟩ := rdropWhile_prefix isSpace (t.dropWhile isSpace)
    refine head?_dropWhile t c ?_
    rw [← hrest]
    exact mem_head?_append_of_mem_head? hc
  last := by
    intro c hc
    have hne : trim t ≠ [] := by
      intro hnil
      rw [hnil] at hc
      cases hc
    rw [getLast?_eq_getLast_of_ne_nil hne, mem_def, some.injEq] at hc
    have hlast := rdropWhile_last_not isSpace _ hne
    rw [← hc]
    exact Bool.eq_false_iff.mpr hlast

variable {t : Text} {max : Nat}

theorem Trimmed.trim_eq (h : Trimmed t) : trim t = t := by
  have hdrop : t.dropWhile isSpace = t := by
    cases t with
    | nil => rfl
    | cons a t => simp [h.first a rfl]
  rw [trim, hdrop, rdropWhile_eq_self_iff]
  intro hne
  rw [h.last _ (getLast?_eq_getLast_of_ne_nil hne)]
  exact nofun

theorem trim_trim (t : Text) : trim (trim t) = trim t := (trim_trimmed t).trim_eq

/-! ## Collapsing -/

/-- Replace each run of white space by one space; `afterSpace` tells that one was put. -/
def collapseFrom : Bool → Text → Text
  | _, [] => []
  | afterSpace, c :: t =>
    if isSpace c then
      if afterSpace then collapseFrom true t else space :: collapseFrom true t
    else c :: collapseFrom false t

def collapse (t : Text) : Text := collapseFrom false t

/-- All white space is single spaces. -/
structure Collapsed (t : Text) : Prop where
  single : ∀ c ∈ t, isSpace c = true → c = space
  apart : t.IsChain fun a b => isSpace a = false ∨ isSpace b = false

theorem Collapsed.cons {a : UInt16} (h : Collapsed t)
    (ha : isSpace a = true → a = space ∧ ∀ c ∈ t.head?, isSpace c = false) :
    Collapsed (a :: t) where
  single := by
    intro c hc hspace
    rcases mem_cons.mp hc with rfl | hin
    · exact (ha hspace).1
    · exact h.single c hin hspace
  apart := by
    cases t with
    | nil => exact isChain_singleton a
    | cons b t =>
      refine isChain_cons_cons.mpr ⟨?_, h.apart⟩
      cases hspace : isSpace a with
      | false => exact .inl rfl
      | true => exact .inr ((ha hspace).2 b rfl)

theorem collapseFrom_collapsed (t : Text) : ∀ afterSpace, Collapsed (collapseFrom afterSpace t) ∧
    (afterSpace = true → ∀ c ∈ (collapseFrom afterSpace t).head?, isSpace c = false) := by
  induction t with
  | nil => exact fun _ => ⟨⟨nofun, isChain_nil⟩, fun _ _ hc => absurd hc nofun⟩
  | cons a t ih =>
    intro afterSpace
    cases ha : isSpace a with
    | false =>
      simp only [collapseFrom, ha, Bool.false_eq_true, if_false]
      refine ⟨(ih false).1.cons fun htrue => absurd (ha.symm.trans htrue) nofun, ?_⟩
      rintro - c hc
      exact some.inj hc ▸ ha
    | true =>
      cases afterSpace with
      | true =>
        rw [collapseFrom, if_pos ha]
        exact ih true
      | false =>
        simp only [collapseFrom, ha, if_true, Bool.false_eq_true, if_false]
        exact ⟨(ih true).1.cons fun _ => ⟨rfl, (ih true).2 rfl⟩, nofun⟩

theorem collapse_collapsed (t : Text) : Collapsed (collapse t) := (collapseFrom_collapsed t false).1

theorem collapseFrom_eq (h : Collapsed t) : ∀ afterSpace,
    (afterSpace = true → ∀ c ∈ t.head?, isSpace c = false) → collapseFrom afterSpace t = t := by
  induction t with
  | nil => exact fun _ _ => rfl
  | cons a t ih =>
    intro afterSpace hafter
    have hrest : Collapsed t := ⟨fun c hc => h.single c (mem_cons_of_mem _ hc), h.apart.tail⟩
    cases ha : isSpace a with
    | false =>
      simp only [collapseFrom, ha, Bool.false_eq_true, if_false]
      rw [ih hrest false nofun]
    | true =>
      cases afterSpace with
      | true => cases ha.symm.trans (hafter rfl a rfl)
      | false =>
        simp only [collapseFrom, ha, if_true, Bool.false_eq_true, if_false]
        rw [h.single a mem_cons_self ha, ih hrest true]
        rintro - c hc
        cases t with
        | nil => cases hc
        | cons b t =>
          cases hc
          refine (isChain_cons_cons.mp h.apart).1.resolve_left ?_
          rw [ha]
          exact nofun

theorem Collapsed.collapse_eq (h : Collapsed t) : collapse t = t := collapseFrom_eq h false nofun

theorem Collapsed.within {t u : Text} (h : Collapsed t) (hu : u <:+: t) : Collapsed u where
  single := fun c hc => h.single c (hu.subset hc)
  apart := by
    obtain ⟨before, after, rfl⟩ := hu
    exact h.apart.left_of_append.right_of_append

theorem trim_within (t : Text) : trim t <:+: t :=
  ( rdropWhile_prefix isSpace _).isInfix.trans (dropWhile_suffix isSpace).isInfix

/-! ## Truncation -/

def ellipsis : Text := [0x2e, 0x2e, 0x2e]

/-- Collapse and trim a text, and shorten it to `max` code units. -/
def compact (t : Text) (max : Nat) : Text :=
  let u := trim (collapse t)
  if max < u.length then u.take (max - 3) ++ ellipsis else u

theorem compact_collapsed (t : Text) (max : Nat) : Collapsed (compact t max) := by
  have hu := (collapse_collapsed t).within (trim_within _)
  unfold compact
  dsimp only
  split
  · have htake := hu.within ( take_prefix (max - 3) _).isInfix
    constructor
    · intro c hc hspace
      rcases mem_append.mp hc with hin | hdot
      · exact htake.single c hin hspace
      have hdots : ellipsis.all (fun d => !isSpace d) = true := by decide
      have hc := all_eq_true.mp hdots c hdot
      simp [hspace] at hc
    · refine isChain_append.mpr ⟨htake.apart, by decide, ?_⟩
      intro a _ b hb
      exact .inr (some.inj hb ▸ by decide)
  · exact hu

theorem compact_trimmed (t : Text) (hmax : 3 < max) : Trimmed (compact t max) := by
  have hu := trim_trimmed (collapse t)
  unfold compact
  dsimp only
  split
  swap
  · exact hu
  rename_i hlong
  constructor
  · intro c hc
    refine hu.first c ?_
    cases hcase : trim (collapse t) with
    | nil =>
      rw [hcase] at hlong
      exact absurd hlong (Nat.not_lt_zero _)
    | cons a u =>
      obtain ⟨n, hn⟩ : ∃ n, max - 3 = n + 1 := ⟨max - 4, by omega⟩
      rw [hcase, hn] at hc
      exact hc
  · intro c hc
    have hlast : (take (max - 3) (trim (collapse t)) ++ ellipsis).getLast? = some 0x2e := by
      rw [getLast?_append_of_ne_nil _ (by decide)]
      decide
    rw [hlast] at hc
    exact some.inj hc ▸ by decide

theorem length_compact_le (t : Text) (hmax : 3 < max) : (compact t max).length ≤ max := by
  unfold compact
  dsimp only
  split
  next hlong =>
    simp only [length_append, length_take, ellipsis, length_cons, length_nil]
    omega
  · omega

theorem compact_eq (hcollapsed : Collapsed t) (htrimmed : Trimmed t)
    (hlength : t.length ≤ max) : compact t max = t := by
  simp only [compact, hcollapsed.collapse_eq, htrimmed.trim_eq]
  rw [if_neg (by omega)]

theorem compact_compact (t : Text) (hmax : 3 < max) : compact (compact t max) max = compact t max :=
  compact_eq (compact_collapsed t max) (compact_trimmed t hmax) (length_compact_le t hmax)

end TaskHandoff.JsText
