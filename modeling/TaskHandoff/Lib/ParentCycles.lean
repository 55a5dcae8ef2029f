import Mathlib.Data.List.Chain
import Mathlib.Data.List.Nodup
import Mathlib.Data.List.Perm.Subperm
import Mathlib.Logic.Relation

/-! # Cycles of a partial successor function

Every node names at most one successor. Following the successors from each node
and remembering the nodes whose walks are over finds the nodes that lie on a
cycle. The walk carries fuel; one more than the number of nodes is always
enough.
-/

namespace TaskHandoff.ParentCycles

universe u

open List Option Relation

variable {α : Type u}

/-! ## The successor relation -/

def Edge (next : α → Option α) (x y : α) : Prop := next x = some y

def OnCycle (next : α → Option α) (x : α) : Prop := TransGen (Edge next) x x

variable {next : α → Option α}

theorem edge_rightUnique : Relator.RightUnique (Edge next) := by
  intro x y z hy hz
  exact some.inj (hy.symm.trans hz)

variable {x y c : α} {l complete path : List α} {fuel : Nat}

/-- From a cycle there is no way out: whatever it leads to leads back. -/
theorem OnCycle.back (h : OnCycle next x) (hxy : ReflTransGen (Edge next) x y) :
    ReflTransGen (Edge next) y x := by
  induction hxy with
  | refl => exact .refl
  | @tail y z _ hyz ih =>
    rcases ih.cases_head with hyx | ⟨w, hyw, hwx⟩
    · obtain ⟨w, hxw, hwx⟩ := TransGen.head'_iff.mp h
      have hwz : w = z := edge_rightUnique hxw (hyx ▸ hyz)
      exact hwz ▸ hwx
    · have hwz : w = z := edge_rightUnique hyw hyz
      exact hwz ▸ hwx

theorem OnCycle.next_ne_none (h : OnCycle next x)
    (hxy : ReflTransGen (Edge next) x y) : next y ≠ none := by
  intro hnone
  rcases (h.back hxy).cases_head with hyx | ⟨w, hyw, -⟩
  · obtain ⟨w, hxw, -⟩ := TransGen.head'_iff.mp h
    rw [Edge, ← hyx, hnone] at hxw
    cases hxw
  · rw [Edge, hnone] at hyw
    cases hyw

theorem mem_of_closed {p : α → Prop} (hclosed : ∀ x, p x → ∀ y, next x = some y → p y) (hx : p x)
    (hxy : ReflTransGen (Edge next) x y) : p y := by
  induction hxy with
  | refl => exact hx
  | tail _ hyz ih => exact hclosed _ ih _ hyz

theorem OnCycle.mono {next' : α → Option α} (hle : ∀ x y, next' x = some y → next x = some y)
    (h : OnCycle next' x) : OnCycle next x :=
  TransGen.mono hle x x h

/-! ## Chains of successors -/

theorem transGen_of_chain (h : l.IsChain (Edge next)) : l.Pairwise (TransGen (Edge next)) :=
  isChain_iff_pairwise.mp (h.imp fun _ _ hxy => TransGen.single hxy)

/-- In a chain every element but the last has its successor in the chain. -/
theorem chain_next {e : α} (h : (l ++ [e]).IsChain (Edge next))
    (hx : x ∈ l) : ∃ y ∈ l ++ [e], next x = some y := by
  induction l with
  | nil => cases hx
  | cons a l ih =>
    have htail : (l ++ [e]).IsChain (Edge next) := h.tail
    rcases mem_cons.mp hx with rfl | hin
    · cases l with
      | nil => exact ⟨e, by simp, (isChain_cons_cons.mp h).1⟩
      | cons b l => exact ⟨b, by simp, (isChain_cons_cons.mp h).1⟩
    · obtain ⟨y, hy, hnext⟩ := ih htail hin
      exact ⟨y, mem_cons_of_mem a hy, hnext⟩

theorem onCycle_of_chain (h : (c :: l ++ [c]).IsChain (Edge next))
    (hx : x ∈ c :: l) : OnCycle next x := by
  have hpair := transGen_of_chain h
  have hback : TransGen (Edge next) x c := (pairwise_append.mp hpair).2.2 x hx c mem_cons_self
  rcases mem_cons.mp hx with rfl | hin
  · exact hback
  · have hout : TransGen (Edge next) c x := (pairwise_cons.mp hpair).1 x (mem_append_left _ hin)
    exact hback.trans hout

/-! ## The walk -/

variable [DecidableEq α]

/-- Follow the successors from `current` until they end, reach a complete node or close a
cycle: the path walked and the part of it that is a cycle. -/
def walk (next : α → Option α) (complete : List α) : Nat → List α → Option α → List α × List α
  | 0, path, _ => (path, [])
  | _ + 1, path, none => (path, [])
  | fuel + 1, path, some current =>
    if current ∈ complete then (path, [])
    else if current ∈ path then (path, path.drop (path.idxOf current))
    else walk next complete fuel (path ++ [current]) (next current)

/-- What the walk knows about its path. -/
structure Trail (next : α → Option α) (complete path : List α) (current : Option α) : Prop where
  chain : path.IsChain (Edge next)
  last : ∀ e ∈ path.getLast?, next e = current
  nodup : path.Nodup
  fresh : ∀ x ∈ path, x ∉ complete

/-- The three ways a walk ends, with the cycle it reports. -/
inductive Stopped (complete path : List α) : Option α → List α → Prop where
  | ended : Stopped complete path none []
  | joined {c : α} (h : c ∈ complete) : Stopped complete path (some c) []
  | closed {c : α} {before after : List α} (h : path = before ++ c :: after) :
      Stopped complete path (some c) (c :: after)

omit [DecidableEq α] in
theorem Trail.start (next : α → Option α) (complete : List α) (current : Option α) :
    Trail next complete [] current where
  chain := .nil
  last := by simp
  nodup := nodup_nil
  fresh := by simp

omit [DecidableEq α] in
theorem Trail.extend (h : Trail next complete path (some c))
    (hfresh : c ∉ complete) (hnew : c ∉ path) : Trail next complete (path ++ [c]) (next c) where
  chain := by
    apply h.chain.append (.singleton c)
    intro e he y hy
    cases hy
    exact h.last e he
  last := by simp
  nodup := h.nodup.append (nodup_singleton c) (by simpa using hnew)
  fresh := by
    intro x hx
    rcases mem_append.mp hx with hin | hc
    · exact h.fresh x hin
    · exact mem_singleton.mp hc ▸ hfresh

/-- With fuel for every node not on the path, the walk stops for one of its reasons. -/
theorem walk_stops {complete support : List α} (hnext : ∀ x y, next x = some y → y ∈ support)
    {current : Option α} (h : Trail next complete path current)
    (hpath : ∀ x ∈ path, x ∈ support) (hcur : ∀ c ∈ current, c ∈ support)
    (hfuel : support.length < path.length + fuel) :
    ∃ last, Trail next complete (walk next complete fuel path current).1 last ∧
      Stopped complete (walk next complete fuel path current).1 last
        (walk next complete fuel path current).2 ∧
      (∀ x ∈ path, x ∈ (walk next complete fuel path current).1) ∧
      ∀ c ∈ current, c ∈ complete ∨ c ∈ (walk next complete fuel path current).1 := by
  induction fuel generalizing path current with
  | zero =>
    have hle : path.length ≤ support.length := (subperm_of_subset h.nodup hpath).length_le
    omega
  | succ fuel ih =>
    cases current with
    | none => exact ⟨none, h, .ended, fun x hx => hx, by simp⟩
    | some c =>
      by_cases hdone : c ∈ complete
      · simp only [walk, if_pos hdone]
        exact ⟨some c, h, .joined hdone, fun x hx => hx, by simpa using .inl hdone⟩
      by_cases hseen : c ∈ path
      · simp only [walk, if_neg hdone, if_pos hseen]
        obtain ⟨before, after, hsplit⟩ := append_of_mem hseen
        have hbefore : c ∉ before := by
          have hnd := h.nodup
          rw [hsplit] at hnd
          exact fun hin => disjoint_of_nodup_append hnd hin mem_cons_self
        have hdrop : path.drop (path.idxOf c) = c :: after := by
          rw [hsplit, idxOf_append_of_notMem hbefore]
          simp
        rw [hdrop]
        exact ⟨some c, h, .closed hsplit, fun x hx => hx, by simpa using .inr hseen⟩
      · have hwalk : walk next complete (fuel + 1) path (some c) =
            walk next complete fuel (path ++ [c]) (next c) := by
          simp only [walk, if_neg hdone, if_neg hseen]
        rw [hwalk]
        have hc : c ∈ support := hcur c rfl
        have hpath' : ∀ x ∈ path ++ [c], x ∈ support := by
          intro x hx
          rcases mem_append.mp hx with hin | hx
          · exact hpath x hin
          · exact mem_singleton.mp hx ▸ hc
        have hcur' : ∀ y ∈ next c, y ∈ support := hnext c
        have hfuel' : support.length < (path ++ [c]).length + fuel := by
          rw [length_append, length_singleton]
          omega
        obtain ⟨last, htrail, hstop, hkeep, -⟩ := ih (h.extend hdone hseen) hpath' hcur' hfuel'
        refine ⟨last, htrail, hstop, ?_, ?_⟩
        · intro x hx
          exact hkeep x (mem_append_left _ hx)
        · rintro x ⟨⟩
          exact .inr (hkeep c (mem_append_right _ (mem_singleton_self c)))

/-! ## What a stopped walk found -/

section Found

variable {complete path cycle : List α} {last : Option α}

omit [DecidableEq α] in
theorem Trail.chain_snoc {c : α} (h : Trail next complete path (some c)) :
    (path ++ [c]).IsChain (Edge next) := by
  apply h.chain.append (.singleton c)
  intro e he y hy
  cases hy
  exact h.last e he

omit [DecidableEq α] in
theorem Trail.next_mem (h : Trail next complete path last) (hstop : Stopped complete path last cycle)
    {x y : α} (hx : x ∈ path) (hxy : next x = some y) : y ∈ complete ∨ y ∈ path := by
  cases hstop with
  | ended =>
    rcases eq_nil_or_concat' path with rfl | ⟨init, e, rfl⟩
    · cases hx
    have he : next e = none := h.last e (by simp)
    rcases mem_append.mp hx with hin | hlast
    · obtain ⟨z, hz, hxz⟩ := chain_next h.chain hin
      rw [hxy] at hxz
      exact .inr (some.inj hxz ▸ hz)
    · rw [mem_singleton.mp hlast, he] at hxy
      cases hxy
  | @joined c hc =>
    obtain ⟨z, hz, hxz⟩ := chain_next h.chain_snoc hx
    obtain rfl : y = z := some.inj (hxy.symm.trans hxz)
    rcases mem_append.mp hz with hin | hlast
    · exact .inr hin
    · exact .inl (mem_singleton.mp hlast ▸ hc)
  | @closed c before after hsplit =>
    obtain ⟨z, hz, hxz⟩ := chain_next h.chain_snoc hx
    obtain rfl : y = z := some.inj (hxy.symm.trans hxz)
    rcases mem_append.mp hz with hin | hlast
    · exact .inr hin
    · exact .inr (mem_singleton.mp hlast ▸ hsplit ▸ by simp)

omit [DecidableEq α] in
theorem Trail.cycle_nodup (h : Trail next complete path last)
    (hstop : Stopped complete path last cycle) : cycle.Nodup := by
  cases hstop with
  | ended => exact nodup_nil
  | joined _ => exact nodup_nil
  | closed hsplit => exact (hsplit ▸ h.nodup).of_append_right

variable {x : α}

omit [DecidableEq α] in
theorem Trail.cycle_onCycle (h : Trail next complete path last)
    (hstop : Stopped complete path last cycle) (hx : x ∈ cycle) : OnCycle next x := by
  cases hstop with
  | ended => cases hx
  | joined _ => cases hx
  | @closed c before after hsplit =>
    have hchain : (before ++ (c :: after ++ [c])).IsChain (Edge next) := by
      have hsnoc := h.chain_snoc
      rwa [hsplit, append_assoc] at hsnoc
    exact onCycle_of_chain hchain.right_of_append hx

omit [DecidableEq α] in
/-- A node of the path that lies on a cycle lies on the cycle the walk found: from a node
before it the walk would lead back, and from the complete nodes nothing leads back. -/
theorem Trail.onCycle_mem (h : Trail next complete path last)
    (hstop : Stopped complete path last cycle)
    (hclosed : ∀ x ∈ complete, ∀ y, next x = some y → y ∈ complete) (hx : x ∈ path)
    (hcyc : OnCycle next x) : x ∈ cycle := by
  cases hstop with
  | ended =>
    rcases eq_nil_or_concat' path with rfl | ⟨init, e, rfl⟩
    · cases hx
    have he : next e = none := h.last e (by simp)
    have hreach : ReflTransGen (Edge next) x e := by
      rcases mem_append.mp hx with hin | hlast
      · exact ((pairwise_append.mp (transGen_of_chain h.chain)).2.2 x hin e
          (mem_singleton_self e)).to_reflTransGen
      · exact mem_singleton.mp hlast ▸ .refl
    exact (hcyc.next_ne_none hreach he).elim
  | @joined c hc =>
    have hreach : TransGen (Edge next) x c :=
      (pairwise_append.mp (transGen_of_chain h.chain_snoc)).2.2 x hx c (mem_singleton_self c)
    have hback := hcyc.back hreach.to_reflTransGen
    exact (h.fresh x hx (mem_of_closed hclosed hc hback)).elim
  | @closed c before after hsplit =>
    have hsnoc := h.chain_snoc
    have hloop : (c :: after ++ [c]).IsChain (Edge next) := by
      rw [hsplit, append_assoc] at hsnoc
      exact hsnoc.right_of_append
    have hinside : ∀ y ∈ c :: after, ∀ z, next y = some z → z ∈ c :: after := by
      intro y hy z hyz
      obtain ⟨w, hw, hyw⟩ := chain_next hloop hy
      obtain rfl : z = w := some.inj (hyz.symm.trans hyw)
      rcases mem_append.mp hw with hin | hlast
      · exact hin
      · exact mem_singleton.mp hlast ▸ mem_cons_self
    have hreach : TransGen (Edge next) x c :=
      (pairwise_append.mp (transGen_of_chain hsnoc)).2.2 x hx c (mem_singleton_self c)
    exact mem_of_closed hinside mem_cons_self (hcyc.back hreach.to_reflTransGen)

end Found

/-! ## Marking from every start -/

/-- The nodes whose walks are over, and the cycle members in the order they were found. -/
structure Marks (α : Type u) where
  complete : List α
  cycleMembers : List α

/-- One walk; its path becomes complete and its cycle is added to the members. -/
def markFrom (next : α → Option α) (fuel : Nat) (m : Marks α) (start : Option α) : Marks α where
  complete := m.complete ++ (walk next m.complete fuel [] start).1
  cycleMembers := m.cycleMembers ++
    (walk next m.complete fuel [] start).2.filter fun x => x ∉ m.cycleMembers

def mark (next : α → Option α) (fuel : Nat) (starts : List (Option α)) : Marks α :=
  starts.foldl (markFrom next fuel) ⟨[], []⟩

theorem markFrom_of_mem (next : α → Option α) {m : Marks α}
    (h : x ∈ m.complete) : markFrom next fuel m (some x) = m := by
  cases fuel with
  | zero => simp [markFrom, walk]
  | succ fuel => simp [markFrom, walk, h]

/-- The marks after some walks: successors of complete nodes are complete, and the members
are the complete nodes that lie on a cycle. -/
structure Marks.Sound (next : α → Option α) (m : Marks α) : Prop where
  closed : ∀ x ∈ m.complete, ∀ y, next x = some y → y ∈ m.complete
  onCycle : ∀ x ∈ m.cycleMembers, OnCycle next x
  marked : ∀ x ∈ m.complete, OnCycle next x → x ∈ m.cycleMembers
  nodup : m.cycleMembers.Nodup

section Mark

variable {support : List α} {fuel : Nat}

variable {m : Marks α} {starts : List (Option α)}

variable (hnext : ∀ x y, next x = some y → y ∈ support)

include hnext

variable (hfuel : support.length < fuel)

include hfuel

theorem markFrom_sound (hm : m.Sound next) {start : Option α}
    (hstart : ∀ x ∈ start, x ∈ support) : (markFrom next fuel m start).Sound next ∧
      ∀ x ∈ start, x ∈ (markFrom next fuel m start).complete := by
  obtain ⟨last, htrail, hstop, -, hreach⟩ := walk_stops hnext
    (Trail.start next m.complete start) (by simp) hstart (by simpa using hfuel)
  refine ⟨⟨?_, ?_, ?_, ?_⟩, ?_⟩
  · intro x hx y hxy
    rcases mem_append.mp hx with hold | hnew
    · exact mem_append_left _ (hm.closed x hold y hxy)
    · exact mem_append.mpr (htrail.next_mem hstop hnew hxy)
  · intro x hx
    rcases mem_append.mp hx with hold | hnew
    · exact hm.onCycle x hold
    · exact htrail.cycle_onCycle hstop (mem_filter.mp hnew).1
  · intro x hx hcyc
    rcases mem_append.mp hx with hold | hnew
    · exact mem_append_left _ (hm.marked x hold hcyc)
    have hin := htrail.onCycle_mem hstop hm.closed hnew hcyc
    by_cases hold : x ∈ m.cycleMembers
    · exact mem_append_left _ hold
    · exact mem_append_right _ (mem_filter.mpr ⟨hin, by simpa using hold⟩)
  · apply hm.nodup.append ((htrail.cycle_nodup hstop).filter _)
    intro x hold hnew
    have hfresh := (mem_filter.mp hnew).2
    simp [hold] at hfresh
  · intro x hx
    exact mem_append.mpr (hreach x hx)

theorem foldl_markFrom_sound
    (hstarts : ∀ start ∈ starts, ∀ x ∈ start, x ∈ support) (hm : m.Sound next) :
    (starts.foldl (markFrom next fuel) m).Sound next ∧
      (∀ x ∈ m.complete, x ∈ (starts.foldl (markFrom next fuel) m).complete) ∧
      ∀ x, some x ∈ starts → x ∈ (starts.foldl (markFrom next fuel) m).complete := by
  induction starts generalizing m with
  | nil => exact ⟨hm, fun x hx => hx, by simp⟩
  | cons start starts ih =>
    obtain ⟨hsound, hfirst⟩ := markFrom_sound hnext hfuel hm (hstarts start mem_cons_self)
    obtain ⟨hall, hkeep, hrest⟩ := ih (fun s hs => hstarts s (mem_cons_of_mem start hs)) hsound
    refine ⟨hall, ?_, ?_⟩
    · intro x hx
      exact hkeep x (mem_append_left _ hx)
    intro x hx
    rcases mem_cons.mp hx with rfl | hin
    · exact hkeep x (hfirst x rfl)
    · exact hrest x hin

/-- Marking from every node that has a successor finds exactly the nodes on cycles. -/
theorem mem_cycleMembers_mark (hstarts : ∀ start ∈ starts, ∀ x ∈ start, x ∈ support)
    (hall : ∀ x, OnCycle next x → some x ∈ starts) (x : α) :
    x ∈ (mark next fuel starts).cycleMembers ↔ OnCycle next x := by
  have hempty : Marks.Sound next (⟨[], []⟩ : Marks α) := ⟨by simp, by simp, by simp, nodup_nil⟩
  obtain ⟨hsound, -, hdone⟩ := foldl_markFrom_sound hnext hfuel hstarts hempty
  constructor
  · exact hsound.onCycle x
  · intro hx
    exact hsound.marked x (hdone x (hall x hx)) hx

theorem nodup_cycleMembers_mark (hstarts : ∀ start ∈ starts, ∀ x ∈ start, x ∈ support) :
    (mark next fuel starts).cycleMembers.Nodup := by
  have hempty : Marks.Sound next (⟨[], []⟩ : Marks α) := ⟨by simp, by simp, by simp, nodup_nil⟩
  exact (foldl_markFrom_sound hnext hfuel hstarts hempty).1.nodup

end Mark

end TaskHandoff.ParentCycles
