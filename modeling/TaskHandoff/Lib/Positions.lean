import Mathlib.Data.List.Basic

/-! # A list changed at one position

What is at the position is replaced or removed, all else stays.
-/

namespace TaskHandoff.Positions

open List

universe u

variable {α : Type u} {l : List α} {i : Nat} {x y : α}

theorem mem_set_self (a : α) (hx : l[i]? = some x) : a ∈ l.set i a :=
  List.mem_set (List.getElem?_eq_some_iff.mp hx).1 a

theorem mem_set_of_mem (a : α) (hx : l[i]? = some x) (hy : y ∈ l) : y = x ∨ y ∈ l.set i a := by
  obtain ⟨j, hj⟩ := mem_iff_getElem?.mp hy
  by_cases heq : i = j
  · subst heq
    rw [hx] at hj
    exact .inl (Option.some.inj hj).symm
  · rw [← getElem?_set_ne heq] at hj
    exact .inr (mem_of_getElem? hj)

theorem mem_eraseIdx_of_mem (hx : l[i]? = some x) (hy : y ∈ l) : y = x ∨ y ∈ l.eraseIdx i := by
  obtain ⟨j, hj⟩ := mem_iff_getElem?.mp hy
  by_cases heq : j = i
  · subst heq
    rw [hx] at hj
    exact .inl (Option.some.inj hj).symm
  · exact .inr (mem_eraseIdx_iff_getElem?.mpr ⟨j, heq, hj⟩)

end TaskHandoff.Positions
