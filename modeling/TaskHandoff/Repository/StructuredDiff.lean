import TaskHandoff.Lib.TextFields
import Mathlib.Algebra.GroupWithZero.Nat

/-! # Structuring a unified diff

The parser looks at one line at a time and keeps the line numbers. It knows the lines of a hunk by
their first characters only, so a deleted line that starts with `-- ` and an added one that starts
with `++ ` look like the lines of a file header.
-/

namespace TaskHandoff.Repository.StructuredDiff

open JsText TextFields List

def LF : UInt16 := 0x0a

/-- Where `.` of a regular expression does not go on. -/
def isTerminator (c : UInt16) : Bool := c = LF || c = 0x0d || c = 0x2028 || c = 0x2029

/-! ## Parsing -/

inductive LineKind where
  | metadata
  | hunk
  | context
  | addition
  | deletion
deriving DecidableEq

structure HunkHeader where
  oldStart : Nat
  oldCount : Nat
  newStart : Nat
  newCount : Nat
  heading : Option Text
deriving DecidableEq

/-- The `hunkId` is made of the header's four numbers. -/
structure DiffLine where
  kind : LineKind
  content : Text
  oldLine : Option Nat
  newLine : Option Nat
  header : Option HunkHeader
deriving DecidableEq

/-- The group `(?:,(\d+))?`, one without it. -/
def readCount (t : Text) : Nat × Text :=
  match (dropStart "," t).bind readNumber with
  | none => (1, t)
  | some (count, rest) => (count, rest)

/-- `/^@@ -(\d+)(?:,(\d+))? \+(\d+)(?:,(\d+))? @@(?: ?(.*))?$/`; an empty heading is none. -/
def readHunkHeader (line : Text) : Option HunkHeader := do
  let rest ← dropStart "@@ -" line
  let (oldStart, rest) ← readNumber rest
  let (oldCount, rest) := readCount rest
  let rest ← dropStart " +" rest
  let (newStart, rest) ← readNumber rest
  let (newCount, rest) := readCount rest
  let rest ← dropStart " @@" rest
  if rest.any isTerminator then none
  else
    let heading := (dropStart " " rest).getD rest
    some ⟨oldStart, oldCount, newStart, newCount, if heading = [] then none else some heading⟩

def looksLikeHeader (line : Text) : Bool :=
  startsWith "diff --git " line || startsWith "index " line || startsWith "--- " line ||
    startsWith "+++ " line || startsWith "\\ No newline" line

def structuredLines : Option Nat → Option Nat → List Text → List DiffLine
  | _, _, [] => []
  | oldLine, newLine, line :: rest =>
    match readHunkHeader line with
    | some header =>
      ⟨.hunk, line, none, none, some header⟩ ::
        structuredLines (some header.oldStart) (some header.newStart) rest
    | none =>
      if startsWith "@@@" line then
        ⟨.hunk, line, none, none, none⟩ :: structuredLines none none rest
      else
        match oldLine, newLine with
        | some old, some new =>
          if looksLikeHeader line then
            ⟨.metadata, line, none, none, none⟩ :: structuredLines oldLine newLine rest
          else if startsWith "+" line then
            ⟨.addition, line.drop 1, none, some new, none⟩ ::
              structuredLines (some old) (some (new + 1)) rest
          else if startsWith "-" line then
            ⟨.deletion, line.drop 1, some old, none, none⟩ ::
              structuredLines (some (old + 1)) (some new) rest
          else
            ⟨.context, if startsWith " " line then line.drop 1 else line, some old, some new, none⟩ ::
              structuredLines (some (old + 1)) (some (new + 1)) rest
        | _, _ => ⟨.metadata, line, none, none, none⟩ :: structuredLines oldLine newLine rest

def structuredDiffLines (raw : Text) : List DiffLine :=
  let lines := if raw = [] then [] else raw.splitOn LF
  structuredLines none none (if raw.getLast? = some LF then lines.dropLast else lines)

/-! ## What git prints -/

/-- A line without its end. -/
def Line : Type := { line : Text // LF ∉ line }

inductive BodyLine where
  | context (line : Line)
  | addition (line : Line)
  | deletion (line : Line)
  | noNewline

/-- The counts of the header are those of the body. -/
structure Hunk where
  oldStart : Nat
  newStart : Nat
  heading : Line
  body : List BodyLine

/-- The header lines of the file are no hunk headers. -/
structure Diff where
  header : List Line
  hunks : List Hunk
  apart : ∀ line ∈ header, startsWith "@@" line.1 = false

namespace BodyLine

def raw : BodyLine → Text
  | .context line => 0x20 :: line.1
  | .addition line => 0x2b :: line.1
  | .deletion line => 0x2d :: line.1
  | .noNewline => text "\\ No newline at end of file"

def old : BodyLine → Nat
  | .context _ | .deletion _ => 1
  | _ => 0

def new : BodyLine → Nat
  | .context _ | .addition _ => 1
  | _ => 0

end BodyLine

namespace Hunk

def oldCount (hunk : Hunk) : Nat := (hunk.body.map BodyLine.old).sum

def newCount (hunk : Hunk) : Nat := (hunk.body.map BodyLine.new).sum

def rawCount (count : Nat) : Text := if count = 1 then [] else text "," ++ decimal count

def rawHeader (hunk : Hunk) : Text :=
  text "@@ -" ++ (decimal hunk.oldStart ++ (rawCount hunk.oldCount ++ (text " +" ++
    (decimal hunk.newStart ++ (rawCount hunk.newCount ++ (text " @@" ++
      if hunk.heading.1 = [] then [] else 0x20 :: hunk.heading.1))))))

end Hunk

def Diff.raw (diff : Diff) : Text :=
  terminated LF (diff.header.map (·.1) ++
    diff.hunks.flatMap fun hunk => hunk.rawHeader :: hunk.body.map BodyLine.raw)

/-! ## What it means -/

def BodyLine.structured (oldLine newLine : Nat) : BodyLine → DiffLine
  | .context line => ⟨.context, line.1, some oldLine, some newLine, none⟩
  | .addition line => ⟨.addition, line.1, none, some newLine, none⟩
  | .deletion line => ⟨.deletion, line.1, some oldLine, none, none⟩
  | .noNewline => ⟨.metadata, BodyLine.noNewline.raw, none, none, none⟩

def structuredBody : Nat → Nat → List BodyLine → List DiffLine
  | _, _, [] => []
  | oldLine, newLine, line :: body =>
    line.structured oldLine newLine ::
      structuredBody (oldLine + line.old) (newLine + line.new) body

def Hunk.structured (hunk : Hunk) : List DiffLine :=
  ⟨.hunk, hunk.rawHeader, none, none, some ⟨hunk.oldStart, hunk.oldCount, hunk.newStart,
    hunk.newCount, if hunk.heading.1 = [] then none else some hunk.heading.1⟩⟩ ::
    structuredBody hunk.oldStart hunk.newStart hunk.body

def Diff.structured (diff : Diff) : List DiffLine :=
  diff.header.map (fun line => ⟨.metadata, line.1, none, none, none⟩) ++
    diff.hunks.flatMap Hunk.structured

/-- No deleted line starts with `-- ` and no added one with `++ `. -/
def BodyLine.plain : BodyLine → Bool
  | .addition line => !startsWith "++ " line.1
  | .deletion line => !startsWith "-- " line.1
  | _ => true

/-- All of its lines are plain, and the heading has no line terminator. -/
def Hunk.Plain (hunk : Hunk) : Prop :=
  hunk.heading.1.any isTerminator = false ∧ ∀ line ∈ hunk.body, line.plain

/-! ## Hunk headers -/

theorem readCount_rawCount (count : Nat) {rest : Text} (hrest : rest.head? = some 0x20) :
    readCount (Hunk.rawCount count ++ rest) = (count, rest) := by
  unfold Hunk.rawCount
  split
  next hone =>
    cases rest with
    | nil => cases hrest
    | cons c rest =>
      cases hrest
      rw [hone]
      rfl
  · have hstop : ∀ c ∈ rest.head?, isDigit c = false := by
      rw [hrest]
      intro c hc
      cases hc
      rfl
    rw [readCount, append_assoc, dropStart_append, Option.bind_some, readNumber_decimal count hstop]

theorem readNumber_rawCount (n count : Nat) {rest : Text} (hrest : rest.head? = some 0x20) :
    readNumber (decimal n ++ (Hunk.rawCount count ++ rest)) =
      some (n, Hunk.rawCount count ++ rest) := by
  apply readNumber_decimal
  unfold Hunk.rawCount
  split
  · rw [nil_append, hrest]
    intro c hc
    cases hc
    rfl
  · intro c hc
    cases hc
    rfl

theorem readHunkHeader_rawHeader (hunk : Hunk) : readHunkHeader hunk.rawHeader =
      if hunk.heading.1.any isTerminator then none
      else some ⟨hunk.oldStart, hunk.oldCount, hunk.newStart, hunk.newCount,
        if hunk.heading.1 = [] then none else some hunk.heading.1⟩ := by
  unfold readHunkHeader Hunk.rawHeader
  simp only [Option.bind_eq_bind, dropStart_append, Option.bind_some]
  rw [readNumber_rawCount hunk.oldStart hunk.oldCount rfl]
  simp only [Option.bind_some]
  rw [readCount_rawCount hunk.oldCount rfl]
  simp only [dropStart_append, Option.bind_some]
  rw [readNumber_rawCount hunk.newStart hunk.newCount rfl]
  simp only [Option.bind_some]
  rw [readCount_rawCount hunk.newCount rfl]
  simp only [dropStart_append, Option.bind_some]
  cases hunk.heading.1 with
  | nil => rfl
  | cons c heading =>
    have hdrop : dropStart " " (0x20 :: c :: heading) = some (c :: heading) :=
      dropStart_append " " (c :: heading)
    simp [hdrop, isTerminator, LF]

/-! ## One line -/

theorem structuredLines_body (oldLine newLine : Nat) (line : BodyLine) (rest : List Text) :
    structuredLines (some oldLine) (some newLine) (line.raw :: rest) =
      if line.plain then line.structured oldLine newLine ::
        structuredLines (some (oldLine + line.old)) (some (newLine + line.new)) rest
      else ⟨.metadata, line.raw, none, none, none⟩ ::
        structuredLines (some oldLine) (some newLine) rest := by
  cases line with
  | context line => rfl
  | addition line =>
    have hlike : looksLikeHeader (0x2b :: line.1) = startsWith "++ " line.1 := Bool.or_false _
    rw [BodyLine.raw, structuredLines]
    cases h : startsWith "++ " line.1 <;> simp [BodyLine.plain, hlike, h] <;> rfl
  | deletion line =>
    have hlike : looksLikeHeader (0x2d :: line.1) = startsWith "-- " line.1 := by
      have hor : looksLikeHeader (0x2d :: line.1) = (startsWith "-- " line.1 || false || false) :=
        rfl
      rw [hor, Bool.or_false, Bool.or_false]
    rw [BodyLine.raw, structuredLines]
    cases h : startsWith "-- " line.1 <;> simp [BodyLine.plain, hlike, h] <;> rfl
  | noNewline => rfl

theorem structuredBody_iff (oldLine newLine : Nat) (body : List BodyLine) (rest : List Text)
    (expected : List DiffLine) :
    structuredLines (some oldLine) (some newLine) (body.map BodyLine.raw ++ rest) =
        structuredBody oldLine newLine body ++ expected ↔
      (∀ line ∈ body, line.plain) ∧ structuredLines (some (oldLine + (body.map BodyLine.old).sum))
          (some (newLine + (body.map BodyLine.new).sum)) rest = expected := by
  induction body generalizing oldLine newLine with
  | nil => simp [structuredBody]
  | cons line body ih =>
    rw [map_cons, cons_append, structuredLines_body, structuredBody, cons_append]
    split
    next hplain =>
      rw [cons_inj_right, ih]
      simp [hplain, Nat.add_assoc]
    rename_i hplain
    have hkind : LineKind.metadata ≠ (line.structured oldLine newLine).kind := by
      cases line <;> simp_all [BodyLine.plain, BodyLine.structured]
    constructor
    · intro h
      rw [← (cons.inj h).1] at hkind
      exact absurd rfl hkind
    · exact fun h => absurd (h.1 line mem_cons_self) hplain

variable {line : Text}

theorem structuredLines_header {header : HunkHeader} (h : readHunkHeader line = some header)
    (oldLine newLine : Option Nat) (rest : List Text) :
    structuredLines oldLine newLine (line :: rest) = ⟨.hunk, line, none, none, some header⟩ ::
      structuredLines (some header.oldStart) (some header.newStart) rest := by
  rw [structuredLines.eq_def]
  simp only [h]

theorem structuredLines_other (h : readHunkHeader line = none) (hat : startsWith "@@@" line = false)
    (oldLine newLine : Option Nat) (rest : List Text) :
    ∃ first others, structuredLines oldLine newLine (line :: rest) = first :: others ∧
      first.kind ≠ .hunk := by
  rw [structuredLines.eq_def]
  simp only [h, hat, Bool.false_eq_true, if_false]
  split
  · split
    · exact ⟨_, _, rfl, by simp⟩
    · split
      · exact ⟨_, _, rfl, by simp⟩
      · split <;> exact ⟨_, _, rfl, by simp⟩
  · exact ⟨_, _, rfl, by simp⟩

theorem structuredHunks_iff (oldLine newLine : Option Nat) (hunks : List Hunk) :
    structuredLines oldLine newLine
        (hunks.flatMap fun hunk => hunk.rawHeader :: hunk.body.map BodyLine.raw) =
        hunks.flatMap Hunk.structured ↔ ∀ hunk ∈ hunks, hunk.Plain := by
  induction hunks generalizing oldLine newLine with
  | nil => simp [structuredLines]
  | cons hunk hunks ih =>
    rw [flatMap_cons, flatMap_cons, cons_append, Hunk.structured, cons_append, forall_mem_cons]
    have hread := readHunkHeader_rawHeader hunk
    cases hheading : hunk.heading.1.any isTerminator with
    | false =>
      rw [hheading] at hread
      rw [structuredLines_header hread, cons_inj_right, structuredBody_iff, ih, Hunk.Plain,
        hheading, eq_self, true_and]
    | true =>
      -- Without its header the hunk starts with a metadata or a context line.
      rw [hheading] at hread
      obtain ⟨first, others, hlines, hkind⟩ := structuredLines_other hread rfl oldLine newLine
        (hunk.body.map BodyLine.raw ++
          hunks.flatMap fun hunk => hunk.rawHeader :: hunk.body.map BodyLine.raw)
      rw [hlines, Hunk.Plain, hheading]
      constructor
      · intro h
        rw [(cons.inj h).1] at hkind
        exact absurd rfl hkind
      · exact fun h => absurd h.1.1.symm Bool.false_ne_true

/-! ## The whole diff -/

theorem structuredLines_metadata (h : startsWith "@@" line = false) (rest : List Text) :
    structuredLines none none (line :: rest) =
      ⟨.metadata, line, none, none, none⟩ :: structuredLines none none rest := by
  have hread : readHunkHeader line = none ∧ startsWith "@@@" line = false := by
    match line with
    | [] => exact ⟨rfl, rfl⟩
    | [c] => simp [readHunkHeader, dropStart, startsWith, text, isPrefixOf?, isPrefixOf]
    | c :: d :: t => simp_all [readHunkHeader, dropStart, startsWith, text, isPrefixOf?, isPrefixOf]
  rw [structuredLines.eq_def]
  simp only [hread.1, hread.2, Bool.false_eq_true, if_false]

theorem structuredLines_head (header : List Line) (rest : List Text)
    (apart : ∀ line ∈ header, startsWith "@@" line.1 = false) :
    structuredLines none none (header.map (·.1) ++ rest) =
      header.map (fun line => ⟨.metadata, line.1, none, none, none⟩) ++
        structuredLines none none rest := by
  induction header with
  | nil => rfl
  | cons line header ih =>
    obtain ⟨hline, hheader⟩ := forall_mem_cons.mp apart
    rw [map_cons, cons_append, structuredLines_metadata hline, ih hheader, map_cons, cons_append]

theorem structuredDiffLines_terminated {lines : List Text} (h : ∀ line ∈ lines, LF ∉ line) :
    structuredDiffLines (terminated LF lines) = structuredLines none none lines := by
  cases lines using reverseRec with
  | nil => rfl
  | append_singleton lines line =>
    have hsplit := splitOn_terminated h []
    have hend : terminated LF (lines ++ [line]) = terminated LF lines ++ line ++ [LF] := by
      simp [terminated]
    rw [append_nil] at hsplit
    rw [structuredDiffLines, hsplit, hend, getLast?_concat, if_pos rfl, if_neg (by simp)]
    exact congrArg _ dropLast_concat

theorem LF_notMem_rawHeader (hunk : Hunk) : LF ∉ hunk.rawHeader := by
  have hdecimal : ∀ n, LF ∉ decimal n := fun n h => by
    cases isDigit_decimalFrom _ n LF h
  have hcount : ∀ count, LF ∉ Hunk.rawCount count := by
    intro count
    unfold Hunk.rawCount
    split
    · exact not_mem_nil
    · exact fun h => (mem_append.mp h).elim (by decide) (hdecimal count)
  have hheading : LF ∉ (if hunk.heading.1 = [] then [] else 0x20 :: hunk.heading.1) := by
    split
    · exact not_mem_nil
    · exact not_mem_cons_of_ne_of_not_mem (by decide) hunk.heading.2
  have htexts : LF ∉ text "@@ -" ∧ LF ∉ text " +" ∧ LF ∉ text " @@" := by decide
  simp only [Hunk.rawHeader, mem_append, hdecimal, hcount, hheading, htexts, or_self, not_false_eq_true]

theorem LF_notMem_raw (line : BodyLine) : LF ∉ line.raw := by
  cases line with
  | noNewline => decide
  | _ line => exact not_mem_cons_of_ne_of_not_mem (by decide) line.2

theorem structuredDiffLines_iff (diff : Diff) :
    structuredDiffLines diff.raw = diff.structured ↔ ∀ hunk ∈ diff.hunks, hunk.Plain := by
  rw [Diff.raw, structuredDiffLines_terminated, structuredLines_head _ _ diff.apart,
    Diff.structured, append_cancel_left_eq, structuredHunks_iff]
  intro line hline
  rcases mem_append.mp hline with hline | hline
  · obtain ⟨line, -, rfl⟩ := mem_map.mp hline
    exact line.2
  obtain ⟨hunk, -, hline⟩ := mem_flatMap.mp hline
  rcases mem_cons.mp hline with rfl | hline
  · exact LF_notMem_rawHeader hunk
  · obtain ⟨line, -, rfl⟩ := mem_map.mp hline
    exact LF_notMem_raw line

/-- The only line of a file, a comment, is deleted. -/
def commentDeleted : Diff where
  header := [⟨text "--- a/note.sql", by decide⟩, ⟨text "+++ b/note.sql", by decide⟩]
  hunks := [⟨1, 0, ⟨[], not_mem_nil⟩, [.deletion ⟨text "-- note", by decide⟩]⟩]
  apart := forall_mem_cons.mpr ⟨rfl, forall_mem_cons.mpr ⟨rfl, forall_mem_nil _⟩⟩

theorem commentDeleted_misread :
    structuredDiffLines commentDeleted.raw ≠ commentDeleted.structured ∧
      (structuredDiffLines commentDeleted.raw).drop 2 =
        [⟨.hunk, text "@@ -1 +0,0 @@", none, none, some ⟨1, 1, 0, 0, none⟩⟩,
          ⟨.metadata, text "--- note", none, none, none⟩] := by
  decide

end TaskHandoff.Repository.StructuredDiff
