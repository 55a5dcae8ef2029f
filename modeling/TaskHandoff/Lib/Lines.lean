import Mathlib.Data.List.Forall2

/-! # Lines and blocks of a byte stream

A line ends with LF, CR or CR LF, the last one also with the stream. An empty line ends a block.
-/

namespace TaskHandoff.Lines

open List

abbrev Bytes := List UInt8

def LF : UInt8 := 0x0a
def CR : UInt8 := 0x0d

/-! ## Lines -/

structure Line where
  content : Bytes
  terminator : Bytes
deriving DecidableEq

def Line.raw (line : Line) : Bytes := line.content ++ line.terminator

/-- Bytes without a line end. -/
def Clean (bytes : Bytes) : Prop := LF ∉ bytes ∧ CR ∉ bytes

/-- The lines of a stream behind the first bytes of its first line. -/
def linesFrom (content : Bytes) : Bytes → List Line
  | [] => if content = [] then [] else [⟨content, []⟩]
  | byte :: rest =>
    if byte = LF then ⟨content, [LF]⟩ :: linesFrom [] rest
    else if byte = CR then
      match rest with
      | [] => [⟨content, [CR]⟩]
      | next :: rest' =>
        if next = LF then ⟨content, [CR, LF]⟩ :: linesFrom [] rest'
        else ⟨content, [CR]⟩ :: linesFrom [] (next :: rest')
    else linesFrom (content ++ [byte]) rest

variable (stream : Bytes)

def lines : List Line := linesFrom [] stream

theorem linesFrom_cons_plain (content : Bytes) {byte : UInt8} (hlf : byte ≠ LF) (hcr : byte ≠ CR)
    (rest : Bytes) : linesFrom content (byte :: rest) = linesFrom (content ++ [byte]) rest := by
  rw [linesFrom.eq_def]
  simp only [if_neg hlf, if_neg hcr]

theorem linesFrom_cons_lf (content rest : Bytes) :
    linesFrom content (LF :: rest) = ⟨content, [LF]⟩ :: linesFrom [] rest := by
  rw [linesFrom.eq_def]
  simp only [if_true]

theorem linesFrom_cons_crlf (content rest : Bytes) :
    linesFrom content (CR :: LF :: rest) = ⟨content, [CR, LF]⟩ :: linesFrom [] rest := by
  rw [linesFrom.eq_def]
  simp only [if_neg (show CR ≠ LF by decide), if_true]

theorem linesFrom_cons_cr (content : Bytes) {rest : Bytes} (h : rest.head? ≠ some LF) :
    linesFrom content (CR :: rest) = ⟨content, [CR]⟩ :: linesFrom [] rest := by
  rw [linesFrom.eq_def]
  simp only [if_neg (show CR ≠ LF by decide), if_true]
  cases rest with
  | nil => rfl
  | cons next rest' =>
    have hnext : next ≠ LF := fun heq => h (congrArg some heq)
    simp only [if_neg hnext]

theorem linesFrom_append_clean (content : Bytes) {more : Bytes} (h : Clean more) (rest : Bytes) :
    linesFrom content (more ++ rest) = linesFrom (content ++ more) rest := by
  induction more generalizing content with
  | nil => simp
  | cons byte more ih =>
    have hlf : byte ≠ LF := fun heq => h.1 (by simp [heq])
    have hcr : byte ≠ CR := fun heq => h.2 (by simp [heq])
    have hmore : Clean more := ⟨fun hmem => h.1 (by simp [hmem]), fun hmem => h.2 (by simp [hmem])⟩
    rw [cons_append, linesFrom_cons_plain content hlf hcr, ih _ hmore, append_assoc,
      singleton_append]

/-- A line that ends before the next one begins. -/
structure Line.Ended (line : Line) : Prop where
  clean : Clean line.content
  terminator : line.terminator = [LF] ∨ line.terminator = [CR] ∨ line.terminator = [CR, LF]

/-- Clean lines, of which all but the last are ended. -/
def WellFormed : List Line → Prop
  | [] => True
  | line :: rest => Clean line.content ∧ (line.Ended ∨ line.terminator = [] ∧ rest = []) ∧
      WellFormed rest

theorem Clean.nil : Clean [] := ⟨not_mem_nil, not_mem_nil⟩

theorem Clean.append_singleton {content : Bytes} (h : Clean content) {byte : UInt8}
    (hlf : byte ≠ LF) (hcr : byte ≠ CR) : Clean (content ++ [byte]) := by
  constructor
  · simp [h.1, Ne.symm hlf]
  · simp [h.2, Ne.symm hcr]

theorem linesFrom_wellFormed (content stream : Bytes) (h : Clean content) :
    WellFormed (linesFrom content stream) := by
  induction content, stream using linesFrom.induct with
  | case1 => trivial
  | case2 content hne =>
    rw [linesFrom, if_neg hne]
    exact ⟨h, .inr ⟨rfl, rfl⟩, trivial⟩
  | case3 content rest ih =>
    rw [linesFrom_cons_lf]
    exact ⟨h, .inl ⟨h, .inl rfl⟩, ih .nil⟩
  | case4 content hlf => exact ⟨h, .inl ⟨h, .inr (.inl rfl)⟩, trivial⟩
  | case5 content rest hlf ih => exact ⟨h, .inl ⟨h, .inr (.inr rfl)⟩, ih .nil⟩
  | case6 content next rest hnext hlf ih =>
    have hhead : (next :: rest).head? ≠ some LF := fun heq => hnext (Option.some.inj heq)
    rw [linesFrom_cons_cr content hhead]
    exact ⟨h, .inl ⟨h, .inr (.inl rfl)⟩, ih .nil⟩
  | case7 content byte rest hlf hcr ih =>
    rw [linesFrom_cons_plain content hlf hcr]
    exact ih (h.append_singleton hlf hcr)

theorem lines_wellFormed : WellFormed (lines stream) := linesFrom_wellFormed [] stream .nil

/-! ## Lines with other contents -/

/-- The same terminators, and clean contents. -/
def SameEnds : List Line → List Line → Prop :=
  List.Forall₂ fun a b => a.terminator = b.terminator ∧ Clean a.content ∧ Clean b.content

theorem content_eq {a b terminator x y : Bytes} (ha : Clean a) (hb : Clean b)
    (hends : terminator = [LF] ∨ terminator = [CR] ∨ terminator = [CR, LF])
    (h : a ++ terminator ++ x = b ++ terminator ++ y) : a = b ∧ x = y := by
  have hplain (c : Bytes) (hc : Clean c) : ∀ byte ∈ c, (byte != LF && byte != CR) = true := by
    intro byte hbyte
    have hlf : byte ≠ LF := fun heq => hc.1 (heq ▸ hbyte)
    have hcr : byte ≠ CR := fun heq => hc.2 (heq ▸ hbyte)
    simp [hlf, hcr]
  have htake (c z : Bytes) (hc : Clean c) :
      (c ++ terminator ++ z).takeWhile (fun byte => byte != LF && byte != CR) = c := by
    rw [append_assoc, takeWhile_append_of_pos (hplain c hc)]
    rcases hends with rfl | rfl | rfl <;> simp
  have hcontent : a = b := by rw [← htake a x ha, ← htake b y hb, h]
  subst hcontent
  exact ⟨rfl, append_cancel_left h⟩

theorem SameEnds.eq {as bs : List Line} (h : SameEnds as bs) (hwell : WellFormed as)
    (hraw : as.flatMap Line.raw = bs.flatMap Line.raw) : as = bs := by
  induction h with
  | nil => rfl
  | @cons a b as bs hab hrest ih =>
    have ⟨hends, ha, hb⟩ := hab
    rw [flatMap_cons, flatMap_cons, Line.raw, Line.raw, ← hends] at hraw
    rcases hwell.2.1 with hended | ⟨hopen, rfl⟩
    · have ⟨hcontent, hmore⟩ := content_eq ha hb hended.terminator hraw
      have heq : a = b := by
        cases a
        simp_all
      rw [heq, ih hwell.2.2 hmore]
    cases hrest
    have heq : a = b := by
      cases a
      cases b
      simp_all
    rw [heq]

/-! ## Parts of a list -/

section Split

variable {α : Type} [BEq α] [LawfulBEq α]

omit [LawfulBEq α] in
theorem length_splitOn (a : α) (l : List α) : (l.splitOn a).length = l.count a + 1 := by
  induction l with
  | nil => rfl
  | cons b l ih =>
    rw [splitOn_cons_eq_if_modifyHead, count_cons]
    split
    · rw [length_cons, ih]
    · rw [length_modifyHead, ih, Nat.add_zero]

theorem mem_splitOn {a : α} {l part : List α} (h : part ∈ l.splitOn a) :
    a ∉ part ∧ ∀ b ∈ part, b ∈ l := by
  induction l generalizing part with
  | nil =>
    rw [splitOn_nil, mem_singleton] at h
    rw [h]
    exact ⟨not_mem_nil, nofun⟩
  | cons b l ih =>
    rw [splitOn_cons_eq_if_modifyHead] at h
    split at h
    · rcases mem_cons.mp h with rfl | hpart
      · exact ⟨not_mem_nil, nofun⟩
      · exact ⟨(ih hpart).1, fun c hc => mem_cons_of_mem b ((ih hpart).2 c hc)⟩
    rename_i hne
    cases hparts : l.splitOn a with
    | nil => exact absurd hparts (splitOn_ne_nil a l)
    | cons head tail =>
      rw [hparts] at h
      rcases mem_cons.mp h with rfl | hpart
      · have ⟨hnot, hsub⟩ := ih (hparts ▸ mem_cons_self : head ∈ l.splitOn a)
        have hab : a ≠ b := fun heq => hne (beq_iff_eq.mpr heq.symm)
        constructor
        · simp [hab, hnot]
        intro c hc
        rcases mem_cons.mp hc with rfl | hc
        · exact mem_cons_self
        · exact mem_cons_of_mem b (hsub c hc)
      · have ⟨hnot, hsub⟩ := ih (hparts ▸ mem_cons_of_mem head hpart : part ∈ l.splitOn a)
        exact ⟨hnot, fun c hc => mem_cons_of_mem b (hsub c hc)⟩

end Split

theorem SameEnds.refl {ls : List Line} (h : ∀ line ∈ ls, Clean line.content) : SameEnds ls ls := by
  induction ls with
  | nil => exact .nil
  | cons line ls ih =>
    have hline := h line mem_cons_self
    exact .cons ⟨rfl, hline, hline⟩ (ih fun l hl => h l (mem_cons_of_mem line hl))

theorem SameEnds.common {cs as bs : List Line} (ha : SameEnds cs as) (hb : SameEnds cs bs) :
    SameEnds as bs := by
  induction ha generalizing bs with
  | nil =>
    cases hb
    exact .nil
  | @cons c a cs as hca _ ih =>
    cases hb with
    | @cons c b cs bs hcb hrest => exact .cons ⟨hca.1.symm.trans hcb.1, hca.2.2, hcb.2.2⟩ (ih hrest)

theorem SameEnds.wellFormed {as bs : List Line} (h : SameEnds as bs) (hwell : WellFormed as) :
    WellFormed bs := by
  induction h with
  | nil => trivial
  | @cons a b as bs hab hrest ih =>
    have ⟨hends, _, hb⟩ := hab
    refine ⟨hb, ?_, ih hwell.2.2⟩
    rcases hwell.2.1 with hended | ⟨hopen, rfl⟩
    · exact .inl ⟨hb, hends ▸ hended.terminator⟩
    · cases hrest
      exact .inr ⟨hends ▸ hopen, rfl⟩

theorem SameEnds.flatMap {β : Type} {f g : β → List Line} {l : List β}
    (h : ∀ b ∈ l, SameEnds (f b) (g b)) : SameEnds (l.flatMap f) (l.flatMap g) := by
  induction l with
  | nil => exact .nil
  | cons b l ih =>
    exact rel_append (h b mem_cons_self) (ih fun b' hb' => h b' (mem_cons_of_mem b hb'))

theorem WellFormed.clean {ls : List Line} (h : WellFormed ls) :
    ∀ line ∈ ls, Clean line.content := by
  induction ls with
  | nil => exact nofun
  | cons line ls ih =>
    intro l hl
    rcases mem_cons.mp hl with rfl | hl
    · exact h.1
    · exact ih h.2.2 l hl

theorem flatMap_eq_iff {α β : Type} {f g : α → List β} {l : List α}
    (h : ∀ a ∈ l, (f a).length = (g a).length) :
    l.flatMap f = l.flatMap g ↔ ∀ a ∈ l, f a = g a := by
  induction l with
  | nil => simp
  | cons a l ih =>
    have hrest := ih fun b hb => h b (mem_cons_of_mem a hb)
    rw [flatMap_cons, flatMap_cons, forall_mem_cons, ← hrest]
    constructor
    · intro happend
      exact append_inj happend (h a mem_cons_self)
    · intro ⟨hfirst, hmore⟩
      rw [hfirst, hmore]

/-! ## Blocks -/

/-- Lines up to an empty one, or up to the end of the stream. -/
structure Block where
  lines : List Line
  blank : Option Line
deriving DecidableEq

def Block.allLines (b : Block) : List Line := b.lines ++ b.blank.toList

def Block.size (b : Block) : Nat := (b.allLines.flatMap Line.raw).length

/-- The blocks of lines behind the first lines of the first one. -/
def blocksFrom (started : List Line) : List Line → List Block
  | [] => [⟨started, none⟩]
  | line :: rest =>
    if line.content = [] then ⟨started, some line⟩ :: blocksFrom [] rest
    else blocksFrom (started ++ [line]) rest

def blocks : List Block := blocksFrom [] (lines stream)

theorem blocksFrom_allLines (started ls : List Line) :
    (blocksFrom started ls).flatMap Block.allLines = started ++ ls := by
  induction ls generalizing started with
  | nil => simp [blocksFrom, Block.allLines]
  | cons line rest ih =>
    rw [blocksFrom]
    split
    · rw [flatMap_cons, ih]
      simp [Block.allLines]
    · rw [ih, append_assoc, singleton_append]

theorem blocks_allLines :
    (blocks stream).flatMap Block.allLines = lines stream := blocksFrom_allLines [] _

end TaskHandoff.Lines
