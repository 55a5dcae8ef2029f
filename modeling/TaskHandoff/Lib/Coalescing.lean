import Mathlib.Data.List.Basic

/-! # Coalescing a stream of texts

A coalescer joins consecutive pieces of a stream into fewer texts. What it has
put out and the pieces it still holds account for its input when the input
splits into consecutive groups, one for each output, followed by the pieces
held: then nothing is lost, nothing is doubled and the order is kept.
-/

namespace TaskHandoff.Coalescing

/-- The outputs `out` and the pieces `held` account for the pieces `input`, in order. -/
def Coalesced (out held input : List String) : Prop :=
  ∃ groups : List (List String), out = groups.map String.join ∧ groups.flatten ++ held = input

variable {out held taken input : List String}

theorem Coalesced.nil : Coalesced [] [] [] := ⟨[], rfl, rfl⟩

theorem Coalesced.push (h : Coalesced out held input) (piece : String) :
    Coalesced out (held ++ [piece]) (input ++ [piece]) := by
  obtain ⟨groups, hout, hin⟩ := h
  exact ⟨groups, hout, by rw [← List.append_assoc, hin]⟩

theorem Coalesced.emit (h : Coalesced out (taken ++ held) input) :
    Coalesced (out ++ [String.join taken]) held input := by
  obtain ⟨groups, hout, hin⟩ := h
  refine ⟨groups ++ [taken], by simp [hout], ?_⟩
  simpa using hin

end TaskHandoff.Coalescing
