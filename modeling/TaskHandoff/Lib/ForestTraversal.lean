import Mathlib.Data.Finset.Basic
import Mathlib.Data.List.Nodup
import Mathlib.Logic.Relation
import Mathlib.Order.WellFoundedSet

/-! # Traversing a forest with an explicit stack

A forest is a list of nodes and the children of each. The traversal pops an
entry, puts the node back with a mark and its children above it, and emits the
node when the marked entry comes up. Each node is emitted once, its children
before it.
-/

namespace TaskHandoff.ForestTraversal

universe u

open List Relation

variable {α : Type u}

/-! ## Forests -/

def ChildOf (children : α → List α) (c p : α) : Prop := c ∈ children p

/-- A node and the nodes below it. -/
def InSubtree (children : α → List α) (x n : α) : Prop :=
  ReflTransGen (ChildOf children) x n

/-- No node has two places, and no node lies below itself. -/
structure IsForest (nodes : List α) (children : α → List α) : Prop where
  mem : ∀ p, ∀ c ∈ children p, c ∈ nodes ∧ p ∈ nodes
  nodup : ∀ p, (children p).Nodup
  unique : ∀ p q c, c ∈ children p → c ∈ children q → p = q
  acyclic : ∀ x, ¬ TransGen (ChildOf children) x x

structure IsRoots (nodes : List α) (children : α → List α) (roots : List α) : Prop where
  nodup : roots.Nodup
  mem_iff : ∀ r, r ∈ roots ↔ r ∈ nodes ∧ ∀ p, r ∉ children p

theorem wellFounded_of_acyclic {r : α → α → Prop} {nodes : List α}
    (hmem : ∀ x y, r x y → x ∈ nodes ∧ y ∈ nodes) (hacyclic : ∀ x, ¬ TransGen r x x) :
    WellFounded r := by
  have hstrict : IsStrictOrder α (TransGen r) :=
    { irrefl := hacyclic, trans := fun _ _ _ => TransGen.trans }
  have hfin : {x | x ∈ nodes}.Finite := finite_toSet nodes
  have hwf := Set.wellFoundedOn_iff.mp (hfin.wellFoundedOn (r := TransGen r))
  apply Subrelation.wf _ hwf
  intro x y hxy
  exact ⟨.single hxy, hmem x y hxy⟩

section Forest

variable {nodes roots : List α} {children : α → List α}

section

variable (h : IsForest nodes children)

include h

theorem IsForest.rightUnique : Relator.RightUnique (ChildOf children) :=
  fun c p q hp hq => h.unique p q c hp hq

theorem IsForest.wellFounded : WellFounded (ChildOf children) :=
  wellFounded_of_acyclic (fun c p hc => h.mem p c hc) h.acyclic

theorem IsForest.mem_of_inSubtree {x n : α} (hn : n ∈ nodes)
    (hx : InSubtree children x n) : x ∈ nodes := by
  rcases hx.cases_head with rfl | ⟨p, hp, -⟩
  · exact hn
  · exact (h.mem p x hp).1

end

/-- The subtree of a node is the node and the subtrees of its children. -/
theorem inSubtree_iff {x n : α} :
    InSubtree children x n ↔ x = n ∨ ∃ c ∈ children n, InSubtree children x c := by
  constructor
  · intro hx
    rcases hx.cases_tail with rfl | ⟨c, hxc, hcn⟩
    · exact .inl rfl
    · exact .inr ⟨c, hcn, hxc⟩
  · rintro (rfl | ⟨c, hc, hx⟩)
    · exact .refl
    · exact hx.tail hc

theorem IsForest.exists_root (h : IsForest nodes children) (hr : IsRoots nodes children roots)
    {x : α} (hx : x ∈ nodes) : ∃ r ∈ roots, InSubtree children x r := by
  have hwf : WellFounded (Function.swap (ChildOf children)) := by
    apply wellFounded_of_acyclic (fun p c hc => (h.mem p c hc).symm)
    intro y hy
    exact h.acyclic y (transGen_swap.mp hy)
  induction x using hwf.induction with
  | _ x ih =>
    by_cases hroot : ∀ p, x ∉ children p
    · exact ⟨x, (hr.mem_iff x).mpr ⟨hx, hroot⟩, .refl⟩
    obtain ⟨p, hp⟩ := not_forall.mp hroot
    have hchild : x ∈ children p := not_not.mp hp
    obtain ⟨r, hmem, hpr⟩ := ih p hchild (h.mem p x hchild).2
    exact ⟨r, hmem, .head hchild hpr⟩

/-- Nodes that may be visited side by side: none lies below another. -/
def Apart (children : α → List α) (tops : List α) : Prop :=
  tops.Pairwise fun t t' => ¬ InSubtree children t t' ∧ ¬ InSubtree children t' t

variable {tops : List α}

theorem Apart.reverse (h : Apart children tops) : Apart children tops.reverse :=
  pairwise_reverse.mpr (h.imp fun ha => ⟨ha.2, ha.1⟩)

theorem IsForest.apart_children (h : IsForest nodes children) (n : α) :
    Apart children (children n) := by
  have hbelow : ∀ c ∈ children n, ∀ c' ∈ children n, c ≠ c' → ¬ InSubtree children c c' := by
    intro c hc c' hc' hne hsub
    rcases hsub.cases_head with rfl | ⟨p, hp, hpc⟩
    · exact hne rfl
    · have hpn : p = n := h.unique p n c hp hc
      exact h.acyclic n (TransGen.tail' (hpn ▸ hpc) hc')
  apply (h.nodup n).imp_of_mem
  intro c c' hc hc' hne
  exact ⟨hbelow c hc c' hc' hne, hbelow c' hc' c hc hne.symm⟩

theorem IsRoots.apart (hr : IsRoots nodes children roots) : Apart children roots := by
  have hbelow : ∀ r ∈ roots, ∀ r', r ≠ r' → ¬ InSubtree children r r' := by
    intro r hmem r' hne hsub
    rcases hsub.cases_head with rfl | ⟨p, hp, -⟩
    · exact hne rfl
    · exact ((hr.mem_iff r).mp hmem).2 p hp
  apply hr.nodup.imp_of_mem
  intro r r' hmem hmem' hne
  exact ⟨hbelow r hmem r' hne, hbelow r' hmem' r hne.symm⟩

theorem IsForest.disjoint (h : IsForest nodes children) {t t' x : α}
    (hapart : ¬ InSubtree children t t' ∧ ¬ InSubtree children t' t)
    (hx : InSubtree children x t) (hx' : InSubtree children x t') : False := by
  rcases ReflTransGen.total_of_right_unique h.rightUnique hx hx' with hle | hle
  · exact hapart.1 hle
  · exact hapart.2 hle

end Forest

/-! ## The traversal -/

structure Entry (α : Type u) where
  node : α
  visited : Bool

/-- The stack loop; the top of the stack is the head of the list. -/
def traverse (children : α → List α) : Nat → List (Entry α) → List α → List α
  | 0, _, out => out
  | _ + 1, [], out => out
  | fuel + 1, entry :: stack, out =>
    if entry.visited then traverse children fuel stack (out ++ [entry.node])
    else
      traverse children fuel
        ((children entry.node).reverse.map (⟨·, false⟩) ++ ⟨entry.node, true⟩ :: stack) out

/-- Traverse from some nodes, pushed in their order. -/
def postorder (children : α → List α) (fuel : Nat) (tops : List α) : List α :=
  traverse children fuel (tops.reverse.map (⟨·, false⟩)) []

@[simp] theorem traverse_nil (children : α → List α) (fuel : Nat) (out : List α) :
    traverse children fuel [] out = out := by
  cases fuel <;> rfl

/-- What the traversal of some entries on top of a stack emits. -/
structure Visits (children : α → List α) (tops emitted : List α) : Prop where
  runs : ∀ fuel stack out,
    traverse children (fuel + 2 * emitted.length) (tops.map (⟨·, false⟩) ++ stack) out =
      traverse children fuel stack (out ++ emitted)
  nodup : emitted.Nodup
  mem_iff : ∀ x, x ∈ emitted ↔ ∃ t ∈ tops, InSubtree children x t
  ordered : emitted.Pairwise fun a b => b ∉ children a

section Visits

variable {nodes roots : List α} {children : α → List α}

theorem Visits.nil : Visits children [] [] where
  runs := by simp
  nodup := nodup_nil
  mem_iff := by simp
  ordered := List.Pairwise.nil

variable (h : IsForest nodes children)

include h

theorem Visits.cons {t : α} {emitted rest : List α} (ht : Visits children [t] emitted)
    (hts : Visits children tops rest)
    (hapart : ∀ t' ∈ tops, ¬ InSubtree children t t' ∧ ¬ InSubtree children t' t) :
    Visits children (t :: tops) (emitted ++ rest) where
  runs := by
    intro fuel stack out
    have hfuel : fuel + 2 * (emitted ++ rest).length =
        (fuel + 2 * rest.length) + 2 * emitted.length := by
      rw [length_append]
      omega
    have hfirst := ht.runs (fuel + 2 * rest.length) (tops.map (⟨·, false⟩) ++ stack) out
    rw [hfuel, map_cons, cons_append]
    rw [map_cons, map_nil, cons_append, nil_append] at hfirst
    rw [hfirst, hts.runs, append_assoc]
  nodup := by
    apply ht.nodup.append hts.nodup
    intro x hx hx'
    obtain ⟨u, hu, hxu⟩ := (ht.mem_iff x).mp hx
    obtain ⟨t', ht', hxt'⟩ := (hts.mem_iff x).mp hx'
    exact h.disjoint (hapart t' ht') (mem_singleton.mp hu ▸ hxu) hxt'
  mem_iff := by
    intro x
    rw [mem_append, ht.mem_iff, hts.mem_iff]
    simp
  ordered := by
    refine pairwise_append.mpr ⟨ht.ordered, hts.ordered, ?_⟩
    intro a ha b hb hchild
    obtain ⟨u, hu, hau⟩ := (ht.mem_iff a).mp ha
    obtain ⟨t', ht', hbt'⟩ := (hts.mem_iff b).mp hb
    have hbt : InSubtree children b t := .head hchild (mem_singleton.mp hu ▸ hau)
    exact h.disjoint (hapart t' ht') hbt hbt'

theorem Visits.node {n : α} {emitted : List α}
    (hc : Visits children (children n).reverse emitted) : Visits children [n] (emitted ++ [n]) where
  runs := by
    intro fuel stack out
    have hfuel : fuel + 2 * (emitted ++ [n]).length = (fuel + 1 + 2 * emitted.length) + 1 := by
      simp only [length_append, length_singleton]
      omega
    rw [hfuel]
    simp only [map_cons, map_nil, cons_append, nil_append, traverse]
    rw [hc.runs]
    simp [traverse]
  nodup := by
    apply hc.nodup.append (nodup_singleton n)
    intro x hx hxn
    obtain ⟨c, hmem, hsub⟩ := (hc.mem_iff x).mp hx
    have hchild : c ∈ children n := mem_reverse.mp hmem
    rw [mem_singleton.mp hxn] at hsub
    exact h.acyclic n (TransGen.tail' hsub hchild)
  mem_iff := by
    intro x
    rw [mem_append, hc.mem_iff]
    simp only [mem_reverse, mem_singleton, exists_eq_left]
    rw [inSubtree_iff, or_comm]
  ordered := by
    refine pairwise_append.mpr ⟨hc.ordered, pairwise_singleton _ n, ?_⟩
    intro a ha b hb hchild
    obtain ⟨c, hmem, hsub⟩ := (hc.mem_iff a).mp ha
    have hcn : c ∈ children n := mem_reverse.mp hmem
    rw [mem_singleton.mp hb] at hchild
    exact h.acyclic n (TransGen.tail' (.head hchild hsub) hcn)

theorem Visits.exists_of_each (heach : ∀ t ∈ tops, ∃ emitted, Visits children [t] emitted)
    (hapart : Apart children tops) : ∃ emitted, Visits children tops emitted := by
  induction tops with
  | nil => exact ⟨[], .nil⟩
  | cons t tops ih =>
    obtain ⟨hhead, htail⟩ := pairwise_cons.mp hapart
    obtain ⟨emitted, ht⟩ := heach t mem_cons_self
    obtain ⟨rest, hts⟩ := ih (fun t' ht' => heach t' (mem_cons_of_mem t ht')) htail
    exact ⟨emitted ++ rest, ht.cons h hts hhead⟩

/-- The traversal from one node ends, by induction from the children to the node. -/
theorem IsForest.visits_node (n : α) : ∃ emitted, Visits children [n] emitted := by
  induction n using h.wellFounded.induction with
  | _ n ih =>
    have heach : ∀ c ∈ (children n).reverse, ∃ emitted, Visits children [c] emitted :=
      fun c hc => ih c (mem_reverse.mp hc)
    obtain ⟨emitted, hc⟩ := Visits.exists_of_each h heach (h.apart_children n).reverse
    exact ⟨emitted ++ [n], .node h hc⟩

/-- What the traversal from some nodes returns. -/
structure IsPostorder (children : α → List α) (tops order : List α) : Prop where
  nodup : order.Nodup
  mem_iff : ∀ x, x ∈ order ↔ ∃ t ∈ tops, InSubtree children x t
  ordered : order.Pairwise fun a b => b ∉ children a

theorem IsForest.isPostorder (htops : ∀ t ∈ tops, t ∈ nodes) (hapart : Apart children tops)
    {fuel : Nat} (hfuel : 2 * nodes.length ≤ fuel) :
    IsPostorder children tops (postorder children fuel tops) := by
  obtain ⟨emitted, hv⟩ := Visits.exists_of_each h (fun t _ => h.visits_node t) hapart.reverse
  have hsub : ∀ x ∈ emitted, x ∈ nodes := by
    intro x hx
    obtain ⟨t, ht, hxt⟩ := (hv.mem_iff x).mp hx
    exact h.mem_of_inSubtree (htops t (mem_reverse.mp ht)) hxt
  have hlen : emitted.length ≤ nodes.length := (subperm_of_subset hv.nodup hsub).length_le
  have hrun : postorder children fuel tops = emitted := by
    have hstart := hv.runs (fuel - 2 * emitted.length) [] []
    rw [Nat.sub_add_cancel (by omega), append_nil, traverse_nil] at hstart
    exact hstart
  rw [hrun]
  exact ⟨hv.nodup, by simpa using hv.mem_iff, hv.ordered⟩

/-- From the roots every node is emitted exactly once. -/
theorem IsForest.postorder_perm (hnodes : nodes.Nodup)
    (hr : IsRoots nodes children roots) {fuel : Nat} (hfuel : 2 * nodes.length ≤ fuel) :
    (postorder children fuel roots).Perm nodes := by
  have hpost := h.isPostorder (fun r hmem => ((hr.mem_iff r).mp hmem).1) hr.apart hfuel
  apply (perm_ext_iff_of_nodup hpost.nodup hnodes).mpr
  intro x
  rw [hpost.mem_iff]
  constructor
  · rintro ⟨r, hmem, hxr⟩
    exact h.mem_of_inSubtree ((hr.mem_iff r).mp hmem).1 hxr
  · exact h.exists_root hr

variable {order : List α}

theorem IsPostorder.children_before {before after : List α} {n : α}
    (ho : IsPostorder children tops order) (hsplit : order = before ++ n :: after) :
    ∀ c ∈ children n, c ∈ before := by
  intro c hc
  obtain ⟨t, ht, hnt⟩ := (ho.mem_iff n).mp (hsplit ▸ mem_append_right _ mem_cons_self)
  have hmem : c ∈ order := (ho.mem_iff c).mpr ⟨t, ht, .head hc hnt⟩
  have hord := ho.ordered
  rw [hsplit] at hmem hord
  rcases mem_append.mp hmem with hin | hin
  · exact hin
  rcases mem_cons.mp hin with rfl | hafter
  · exact (h.acyclic c (.single hc)).elim
  · exact ((pairwise_cons.mp (pairwise_append.mp hord).2.1).1 c hafter hc).elim

end Visits

/-! ## Preorder -/

/-- A list of nodes with the nodes below each of them behind it. -/
inductive Preorder (children : α → List α) : List α → List α → Prop
  | nil : Preorder children [] []
  | cons {t : α} {tops below rest : List α} (hbelow : Preorder children (children t) below)
      (hrest : Preorder children tops rest) : Preorder children (t :: tops) (t :: (below ++ rest))

section Preorder

variable {nodes : List α} {children shown : α → List α}

theorem Preorder.mem_iff (hp : Preorder children tops order) (x : α) :
    x ∈ order ↔ ∃ t ∈ tops, InSubtree children x t := by
  induction hp with
  | nil => simp
  | cons _ _ ihbelow ihrest =>
    rw [mem_cons, mem_append, ihbelow, ihrest, ← or_assoc, ← inSubtree_iff]
    simp

theorem Preorder.exists_of_each
    (heach : ∀ t ∈ tops, ∃ below, Preorder children (children t) below) :
    ∃ order, Preorder children tops order := by
  induction tops with
  | nil => exact ⟨[], .nil⟩
  | cons t tops ih =>
    obtain ⟨below, hbelow⟩ := heach t mem_cons_self
    obtain ⟨rest, hrest⟩ := ih fun t' ht' => heach t' (mem_cons_of_mem t ht')
    exact ⟨t :: (below ++ rest), .cons hbelow hrest⟩

theorem IsForest.exists_preorder (h : IsForest nodes children) (tops : List α) :
    ∃ order, Preorder children tops order := by
  have hnode : ∀ t, ∃ below, Preorder children (children t) below := by
    intro t
    induction t using h.wellFounded.induction with
    | _ t ih => exact Preorder.exists_of_each ih
  exact Preorder.exists_of_each fun t _ => hnode t

theorem Preorder.ordered (h : IsForest nodes children) (hp : Preorder children tops order)
    (hapart : Apart children tops) : order.Pairwise fun a b => ¬ InSubtree children a b := by
  induction hp with
  | nil => exact .nil
  | @cons t tops below rest hbelow hrest ihbelow ihrest =>
    obtain ⟨hhead, htail⟩ := pairwise_cons.mp hapart
    refine .cons ?_ (pairwise_append.mpr ⟨ihbelow (h.apart_children t), ihrest htail, ?_⟩)
    · intro b hb hsub
      rcases mem_append.mp hb with hb | hb
      · obtain ⟨c, hc, hbc⟩ := (hbelow.mem_iff b).mp hb
        exact h.acyclic t (TransGen.tail' (hsub.trans hbc) hc)
      · obtain ⟨t', ht', hbt'⟩ := (hrest.mem_iff b).mp hb
        exact (hhead t' ht').1 (hsub.trans hbt')
    · intro a ha b hb hsub
      obtain ⟨c, hc, hac⟩ := (hbelow.mem_iff a).mp ha
      obtain ⟨t', ht', hbt'⟩ := (hrest.mem_iff b).mp hb
      exact h.disjoint (hhead t' ht') (hac.tail hc) (hsub.trans hbt')

theorem InSubtree.mono (hshown : ∀ p, (shown p).Sublist (children p)) {x n : α}
    (hx : InSubtree shown x n) : InSubtree children x n :=
  ReflTransGen.mono (fun _ p hc => (hshown p).subset hc) _ _ hx

theorem IsForest.sublist (h : IsForest nodes children)
    (hshown : ∀ p, (shown p).Sublist (children p)) : IsForest nodes shown where
  mem p c hc := h.mem p c ((hshown p).subset hc)
  nodup p := (h.nodup p).sublist (hshown p)
  unique p q c hp hq := h.unique p q c ((hshown p).subset hp) ((hshown q).subset hq)
  acyclic x hx := h.acyclic x (TransGen.mono (fun _ p hc => (hshown p).subset hc) _ _ hx)

theorem Apart.sublist (h : Apart children tops) (hshown : ∀ p, (shown p).Sublist (children p)) :
    Apart shown tops :=
  h.imp fun hapart => ⟨fun hx => hapart.1 (hx.mono hshown), fun hx => hapart.2 (hx.mono hshown)⟩

end Preorder

end TaskHandoff.ForestTraversal
