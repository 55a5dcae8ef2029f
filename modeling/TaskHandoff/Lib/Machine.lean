import Mathlib.Data.List.Induction

/-! # Runs of partial step functions

A component is a partial function `step : σ → α → Option σ`: the state before,
the action the environment chooses, and the state after when the action is
possible there. A run folds a list of actions, so every interleaving the
environment can produce is one list. Invariants are proved for one step and
carried over runs here, once, also for runs whose steps all meet a condition on
the state before them.
-/

namespace TaskHandoff

universe u v

/-- The elements of a list behind which a step has put one more. -/
theorem mem_concat {α : Type u} {xs : List α} {x y : α} : y ∈ xs ++ [x] ↔ y ∈ xs ∨ y = x := by
  rw [List.mem_append, List.mem_singleton]

namespace Machine

open Option

variable {σ : Type u} {α : Type v}

/-! ## Runs -/

/-- The state after a list of actions, if each of them was possible. -/
def run (step : σ → α → Option σ) : σ → List α → Option σ
  | s, [] => some s
  | s, a :: as =>
    match step s a with
    | none => none
    | some t => run step t as

@[simp] theorem run_nil (step : σ → α → Option σ) (s : σ) : run step s [] = some s := rfl

variable {a : α} {s t u init s : σ} {step : σ → α → Option σ} {as as : List α} {I : σ → Prop}
  {P : σ → α → Prop}

theorem run_cons_of_step (as : List α)
    (h : step s a = some t) : run step s (a :: as) = run step t as := by
  simp [run, h]

theorem run_cons_some (h : run step s (a :: as) = some u) :
    ∃ t, step s a = some t ∧ run step t as = some u := by
  cases hs : step s a with
  | none => simp [run, hs] at h
  | some t => exact ⟨t, rfl, by simpa [run, hs] using h⟩

theorem run_append (step : σ → α → Option σ) (s : σ) (as bs : List α) :
    run step s (as ++ bs) = (run step s as).bind fun t => run step t bs := by
  induction as generalizing s with
  | nil => rfl
  | cons a as ih =>
    cases hs : step s a with
    | none => simp [run, hs]
    | some t => simpa [run, hs] using ih t

theorem run_snoc (h : run step s as = some t) (ha : step t a = some u) :
    run step s (as ++ [a]) = some u := by
  rw [run_append, h]
  simp [run, ha]

/-- A state some run leads to. -/
def Reachable (step : σ → α → Option σ) (init s : σ) : Prop :=
  ∃ as, run step init as = some s

/-! ## Invariants -/

/-- What one step keeps, a run keeps. -/
theorem run_invariant (hstep : ∀ s a t, step s a = some t → I s → I t) {t : σ}
    (h : run step s as = some t) (hs : I s) : I t := by
  induction as generalizing s with
  | nil =>
    simp only [run_nil, some.injEq] at h
    exact h ▸ hs
  | cons a as ih =>
    obtain ⟨m, hm, hrest⟩ := run_cons_some h
    exact ih hrest (hstep s a m hm hs)

/-- What one step keeps of the actions so far and the state behind them, a run from the
start keeps. -/
theorem run_history {I : List α → σ → Prop}
    (hstep : ∀ as s a t, run step init as = some s → step s a = some t → I as s →
      I (as ++ [a]) t) (hinit : I [] init) (h : run step init as = some s) : I as s := by
  induction as using List.reverseRecOn generalizing s with
  | nil =>
    simp only [run_nil, some.injEq] at h
    exact h ▸ hinit
  | append_singleton as a ih =>
    rw [run_append] at h
    have ⟨m, hm, hlast⟩ := bind_eq_some_iff.mp h
    have ⟨t, ht, hs⟩ := run_cons_some hlast
    have ht : step m a = some s := ht.trans hs
    exact hstep as m a s hm ht (ih hm)

theorem Reachable.invariant (h : Reachable step init s) (hinit : I init)
    (hstep : ∀ s a t, step s a = some t → I s → I t) : I s := by
  obtain ⟨as, has⟩ := h
  exact run_invariant hstep has hinit

/-! ## Runs whose steps all meet a condition -/

/-- Every step of the run meets `P`, a condition on the state before it and its action. -/
def AllSteps (step : σ → α → Option σ) (P : σ → α → Prop) : σ → List α → Prop
  | _, [] => True
  | s, a :: as =>
    P s a ∧
      match step s a with
      | none => True
      | some t => AllSteps step P t as

theorem AllSteps.tail (h : AllSteps step P s (a :: as)) (ha : step s a = some t) :
    AllSteps step P t as := by
  have hrest := h.2
  rw [ha] at hrest
  exact hrest

theorem AllSteps.imp {P Q : σ → α → Prop}
    (h : AllSteps step P s as) (hPQ : ∀ s a, P s a → Q s a) : AllSteps step Q s as := by
  induction as generalizing s with
  | nil => trivial
  | cons a as ih =>
    refine ⟨hPQ s a h.1, ?_⟩
    cases ha : step s a with
    | none => trivial
    | some t => exact ih (h.tail ha)

theorem AllSteps.snoc (h : AllSteps step P s as) (hrun : run step s as = some t) (ha : P t a) :
    AllSteps step P s (as ++ [a]) := by
  induction as generalizing s with
  | nil =>
    cases hrun
    refine ⟨ha, ?_⟩
    cases step t a <;> trivial
  | cons b as ih =>
    have ⟨m, hm, hrest⟩ := run_cons_some hrun
    refine ⟨h.1, ?_⟩
    rw [hm]
    exact ih (h.tail hm) hrest

/-- A run can be checked step by step. -/
instance AllSteps.decidable (step : σ → α → Option σ) (P : σ → α → Prop)
    [∀ s a, Decidable (P s a)] : ∀ s as, Decidable (AllSteps step P s as)
  | _, [] => inferInstanceAs (Decidable True)
  | s, a :: as =>
    match h : step s a with
    | none => decidable_of_iff (P s a) (by simp [AllSteps, h])
    | some t =>
      have := AllSteps.decidable step P t as
      decidable_of_iff (P s a ∧ AllSteps step P t as) (by simp [AllSteps, h])

/-- What the steps that meet `P` keep, a run whose steps all meet `P` keeps. -/
theorem run_invariant_of_steps (hstep : ∀ s a t, step s a = some t → P s a → I s → I t) {t : σ}
    (h : run step s as = some t) (hP : AllSteps step P s as) (hs : I s) : I t := by
  induction as generalizing s with
  | nil =>
    simp only [run_nil, some.injEq] at h
    exact h ▸ hs
  | cons a as ih =>
    obtain ⟨m, hm, hrest⟩ := run_cons_some h
    exact ih hrest (hP.tail hm) (hstep s a m hm hP.1 hs)

/-! ## Loops over a list read before -/

/-- A loop over elements read before it keeps an invariant, when each turn keeps what the
later turns rely on. -/
theorem foldl_invariant {f : σ → α → σ} {R : α → α → Prop} (hturn : ∀ s a, I s → P s a → I (f s a))
    (hlater : ∀ s a b, R a b → I s → P s a → P s b → P (f s a) b) (hR : as.Pairwise R) (hs : I s)
    (hP : ∀ a ∈ as, P s a) : I (as.foldl f s) := by
  induction as generalizing s with
  | nil => exact hs
  | cons a as ih =>
    have ⟨hhead, hrest⟩ := List.pairwise_cons.mp hR
    have ha := hP a List.mem_cons_self
    refine ih hrest (hturn s a hs ha) ?_
    intro b hb
    exact hlater s a b (hhead b hb) hs ha (hP b (List.mem_cons_of_mem _ hb))

/-- Where each step decides by `P` whether `Q` goes on to hold, `Q` at the end says that every step
met `P`. -/
theorem run_iff_allSteps {I Q : σ → Prop} (hstep : ∀ s a t, step s a = some t → I s → I t)
    (hiff : ∀ s a t, step s a = some t → I s → (Q t ↔ Q s ∧ P s a)) {t : σ}
    (h : run step s as = some t) (hs : I s) : Q t ↔ Q s ∧ AllSteps step P s as := by
  induction as generalizing s with
  | nil =>
    simp only [run_nil, some.injEq] at h
    simp [AllSteps, h]
  | cons a as ih =>
    have ⟨m, hm, hrest⟩ := run_cons_some h
    rw [ih hrest (hstep s a m hm hs), hiff s a m hm hs]
    simp [AllSteps, hm, and_assoc]

end Machine

end TaskHandoff
