import Mathlib.Logic.Relation
import Mathlib.Algebra.Order.BigOperators.Group.Finset
import Mathlib.Order.Interval.Finset.Nat

/-! # Ancestors in a forest with depths

Every node has at most one parent, one level above it. So a node has at most one ancestor at each
depth, and a few nodes have few ancestors together.
-/

namespace TaskHandoff.Ancestors

open Finset

universe u

variable {α : Type u} {parent : α → Option α} {depth : α → Nat}

/-- `a` stands strictly above `b`. -/
def Above (parent : α → Option α) : α → α → Prop :=
  Relation.TransGen fun a b => parent b = some a

/-! ## Depths -/

theorem Above.depth_lt (hdepth : ∀ a b, parent b = some a → depth b = depth a + 1) {a b : α}
    (h : Above parent a b) : depth a < depth b := by
  induction h with
  | single hb => rw [hdepth _ _ hb]; exact Nat.lt_succ_self _
  | tail _ hb ih => rw [hdepth _ _ hb]; exact Nat.lt_succ_of_lt ih

theorem Above.eq_or_above {a b p : α} (h : Above parent a b) (hp : parent b = some p) :
    a = p ∨ Above parent a p := by
  cases h with
  | single hb => exact .inl (Option.some.inj (hb.symm.trans hp))
  | tail hac hcb =>
    have hsame := Option.some.inj (hcb.symm.trans hp)
    exact .inr (hsame ▸ hac)

theorem Above.exists_child {a b : α} (h : Above parent a b) : ∃ c, parent c = some a := by
  induction h with
  | single hb => exact ⟨_, hb⟩
  | tail _ _ ih => exact ih

variable (hdepth : ∀ a b, parent b = some a → depth b = depth a + 1)

include hdepth

theorem Above.unique {a a' b : α}
    (h : Above parent a b) (h' : Above parent a' b) (heq : depth a = depth a') : a = a' := by
  induction h with
  | single hb =>
    rcases h'.eq_or_above hb with rfl | habove
    · rfl
    · have hlt := habove.depth_lt hdepth
      omega
  | tail hac hcb ih =>
    rcases h'.eq_or_above hcb with rfl | habove
    · have hlt := Above.depth_lt hdepth hac
      omega
    · exact ih habove

/-! ## How many ancestors a few nodes have -/

/-- Nodes at a depth of at most `d` have at most `d - 1` ancestors each besides the root. -/
theorem card_le_of_above {root : α}
    (hroot : ∀ a b, parent b = some a → depth a = 0 → a = root) {d : Nat} (upper lower : Finset α)
    (habove : ∀ a ∈ upper, ∃ b ∈ lower, Above parent a b) (hd : ∀ b ∈ lower, depth b ≤ d) :
    upper.card ≤ 1 + lower.card * (d - 1) := by
  classical
  let line (b : α) : Finset α := upper.filter fun a => a ≠ root ∧ Above parent a b
  have hline : ∀ b ∈ lower, (line b).card ≤ d - 1 := by
    intro b hb
    have hcard : (Ico 1 d).card = d - 1 := Nat.card_Ico 1 d
    rw [← hcard]
    refine card_le_card_of_injOn depth (fun a ha => ?_) fun a ha a' ha' heq => ?_
    · have ⟨_, hne, hab⟩ := mem_filter.mp ha
      have hlt := hab.depth_lt hdepth
      have hbd := hd b hb
      have hpos : depth a ≠ 0 := by
        intro hzero
        have ⟨c, hc⟩ := hab.exists_child
        exact hne (hroot a c hc hzero)
      exact mem_coe.mpr (mem_Ico.mpr (by omega))
    · have ⟨_, _, hab⟩ := mem_filter.mp ha
      have ⟨_, _, hab'⟩ := mem_filter.mp ha'
      exact hab.unique hdepth hab' heq
  have hcover : upper ⊆ insert root (lower.biUnion line) := by
    intro a ha
    by_cases hr : a = root
    · exact hr ▸ mem_insert_self _ _
    have ⟨b, hb, hab⟩ := habove a ha
    refine mem_insert_of_mem (mem_biUnion.mpr ⟨b, hb, ?_⟩)
    exact mem_filter.mpr ⟨ha, hr, hab⟩
  have hunion : (lower.biUnion line).card ≤ lower.card * (d - 1) :=
    card_biUnion_le_card_mul _ _ _ hline
  have hinsert := (card_le_card hcover).trans (card_insert_le _ _)
  omega

end TaskHandoff.Ancestors
