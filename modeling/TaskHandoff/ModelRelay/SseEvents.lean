import TaskHandoff.ModelRelay.SseRewrite

/-! # Which events are rewritten

The stream that rewriting ought to return has each data payload that is a JSON object replaced, and
is otherwise the upstream stream. The relay returns it exactly if every event is read alike.
-/

namespace TaskHandoff.ModelRelay

open List
open JsText (Text)
open Utf8 (Bytes)
open Lines (LF CR Line Block Clean)

/-! ## The events to rewrite -/

def Json.IsObject : Json → Prop
  | .emptyObject _ | .object _ => True
  | _ => False

/-- The bytes are a JSON text with an object at its root. -/
def IsJsonObject (bytes : Bytes) : Prop := ∃ t : JsonText, t.value.IsObject ∧ t.render = bytes

/-- The value of a data line. -/
def dataField (content : Bytes) : Option Bytes :=
  if content.take 5 = dataPrefix then some (afterPrefix content) else none

def payloads (read : Bytes → Option Bytes) (lines : List Line) : List Bytes :=
  lines.filterMap fun line => read line.content

/-- The lines with the parts in place of what was read of them. -/
def replaceContents (read : Bytes → Option Bytes) : List Line → List Bytes → List Line
  | [], _ => []
  | line :: lines, parts =>
    match read line.content, parts with
    | some payload, part :: parts =>
      ⟨line.content.take (line.content.length - payload.length) ++ part, line.terminator⟩ ::
        replaceContents read lines parts
    | _, parts => line :: replaceContents read lines parts

section Events

variable (mapping : JsonModelRewriteMapping)

open Classical in
/-- The lines of an event, with a JSON object rewritten. -/
noncomputable def objectRewritten (lines : List Line) : List Line :=
  let payload := joinPayloads (payloads dataField lines)
  if IsJsonObject payload then
    replaceContents dataField lines (splitOnNewline (rewriteJsonModelBuffer payload mapping))
  else lines

/-- The stream with every JSON object rewritten. -/
noncomputable def rewrittenStream (stream : Bytes) : Bytes :=
  (Lines.blocks stream).flatMap fun block =>
    (objectRewritten mapping block.lines ++ block.blank.toList).flatMap Line.raw

/-! ## The events that are rewritten -/

variable (lines : List Line)

/-- The relay puts the rewritten payload in place. -/
def Edits : Prop :=
  let payload := joinPayloads (payloads dataPayload lines)
  looksLikeJson payload = true ∧ rewriteJsonModelBuffer payload mapping ≠ payload ∧
    (splitOnNewline (rewriteJsonModelBuffer payload mapping)).length =
      (payloads dataPayload lines).length

instance (lines : List Line) : Decidable (Edits mapping lines) := by
  unfold Edits
  infer_instance

def editedLines : List Line :=
  if Edits mapping lines then
    replaceContents dataPayload lines
      (splitOnNewline (rewriteJsonModelBuffer (joinPayloads (payloads dataPayload lines)) mapping))
  else lines

theorem replacePayloads_of (parts : List Bytes) : replacePayloads (lines.map .of) parts =
      (replaceContents dataPayload lines parts).map Line.raw := by
  induction lines generalizing parts with
  | nil => rfl
  | cons line lines ih =>
    rw [map_cons, replacePayloads.eq_def, replaceContents.eq_def]
    simp only [show (SseLine.of line).content = line.content from rfl]
    cases dataPayload line.content with
    | none => exact congrArg (line.raw :: ·) (ih parts)
    | some payload =>
      cases parts with
      | nil => exact congrArg (line.raw :: ·) (ih [])
      | cons part parts => exact congrArg (_ :: ·) (ih parts)

theorem flushEvent_of :
    flushEvent mapping (lines.map .of) = (editedLines mapping lines).map Line.raw := by
  have hpayloads : (lines.map SseLine.of).filterMap (fun line => dataPayload line.content) =
      payloads dataPayload lines := by
    rw [filterMap_map]
    rfl
  have hraw : (lines.map SseLine.of).map SseLine.raw = lines.map Line.raw := by
    rw [map_map]
    rfl
  rw [flushEvent, hpayloads, hraw, editedLines]
  by_cases hedits : Edits mapping lines
  · have ⟨hlooks, hchanges, hcount⟩ := hedits
    have hne : payloads dataPayload lines ≠ [] := by
      intro hempty
      rw [hempty] at hlooks
      cases hlooks
    have hrewrite : rewriteSseEventData (payloads dataPayload lines) mapping =
        some (splitOnNewline (rewriteJsonModelBuffer
          (joinPayloads (payloads dataPayload lines)) mapping)) := by
      rw [rewriteSseEventData, if_neg hne]
      rw [if_pos hlooks, if_neg hchanges, if_pos hcount]
    rw [hrewrite, if_pos hedits]
    exact replacePayloads_of lines _
  · have hrewrite : rewriteSseEventData (payloads dataPayload lines) mapping = none := by
      unfold rewriteSseEventData
      split
      · rfl
      simp only
      split
      next hlooks =>
        split
        · rfl
        next hchanges =>
          have hcount : ¬ _ = _ := fun hcount => hedits ⟨hlooks, hchanges, hcount⟩
          rw [if_neg hcount]
      · rfl
    rw [hrewrite, if_neg hedits]

/-! ## The stream -/

theorem size_started (started lines : List Line) :
    ∃ b ∈ Lines.blocksFrom started lines, (started.flatMap Line.raw).length ≤ b.size := by
  induction lines generalizing started with
  | nil => exact ⟨_, mem_singleton_self _, by simp [Block.size, Block.allLines]⟩
  | cons line lines ih =>
    rw [Lines.blocksFrom]
    split
    · exact ⟨_, mem_cons_self, by simp [Block.size, Block.allLines]⟩
    obtain ⟨b, hb, hsize⟩ := ih (started ++ [line])
    rw [flatMap_append, length_append] at hsize
    exact ⟨b, hb, by omega⟩

theorem rewriteEvents_of (maxEventBytes : Nat) (started lines : List Line)
    (hlimit : ∀ b ∈ Lines.blocksFrom started lines, b.size ≤ maxEventBytes) :
    rewriteEvents mapping maxEventBytes (started.map .of) (started.flatMap Line.raw).length
        (lines.map .of) =
      ((Lines.blocksFrom started lines).flatMap fun block =>
        (editedLines mapping block.lines ++ block.blank.toList).map Line.raw, none) := by
  induction lines generalizing started with
  | nil =>
    rw [map_nil, rewriteEvents, flushEvent_of, Lines.blocksFrom]
    simp
  | cons line lines ih =>
    have hbytes : (started.flatMap Line.raw).length + line.raw.length =
        ((started ++ [line]).flatMap Line.raw).length := by simp
    have hstep : Lines.blocksFrom started (line :: lines) =
        if line.content = [] then ⟨started, some line⟩ :: Lines.blocksFrom [] lines
        else Lines.blocksFrom (started ++ [line]) lines := rfl
    rw [map_cons, rewriteEvents]
    simp only [show (SseLine.of line).raw = line.raw from rfl,
      show (SseLine.of line).content = line.content from rfl, hbytes]
    rw [hstep] at hlimit ⊢
    by_cases hblank : line.content = []
    · rw [if_pos hblank] at hlimit ⊢
      have hsize := hlimit _ mem_cons_self
      have hfits : ¬ maxEventBytes < ((started ++ [line]).flatMap Line.raw).length := by
        exact Nat.not_lt.mpr hsize
      have hrest := ih [] fun b hb => hlimit b (mem_cons_of_mem _ hb)
      rw [if_neg hfits, if_pos hblank, flushEvent_of]
      simp only [map_nil, flatMap_nil, length_nil] at hrest
      rw [hrest]
      simp
    · rw [if_neg hblank] at hlimit ⊢
      obtain ⟨b, hb, hsize⟩ := size_started (started ++ [line]) lines
      have hmax := hlimit b hb
      rw [if_neg (by omega), if_neg hblank, ← ih (started ++ [line]) hlimit, map_append]
      rfl

theorem rewriteSse_edited (maxEventBytes : Nat) (body : List Bytes)
    (hlimit : ∀ b ∈ Lines.blocks body.flatten, b.size ≤ maxEventBytes) :
    rewriteSseModelResponseBody body mapping maxEventBytes =
      ((Lines.blocks body.flatten).flatMap fun block =>
        (editedLines mapping block.lines ++ block.blank.toList).map Line.raw, none) := by
  have hcarried : Carried [] := ⟨[], .nil, .inl rfl⟩
  rw [rewriteSseModelResponseBody, sseLines_eq body hcarried]
  exact rewriteEvents_of mapping maxEventBytes [] _ hlimit

end Events

/-! ## Putting payloads back -/

theorem afterPrefix_suffix (content : Bytes) : afterPrefix content <:+ content := by
  unfold afterPrefix
  simp only
  split
  · exact (tail_suffix _).trans (drop_suffix 5 content)
  · exact drop_suffix 5 content

variable {content payload : Bytes}

theorem dataPayload_suffix (h : dataPayload content = some payload) : payload <:+ content := by
  unfold dataPayload at h
  split at h
  · cases h
    exact afterPrefix_suffix content
  · cases h

theorem dataPayload_of_dataField (h : dataField content = some payload) :
    dataPayload content = some payload := by
  unfold dataField at h
  split at h
  next hdata =>
    have hascii : ascii (content.take 5) = dataPrefix := by
      rw [hdata]
      decide
    rw [dataPayload, if_pos hascii]
    exact h
  · cases h

theorem take_append_payload (h : payload <:+ content) :
    content.take (content.length - payload.length) ++ payload = content := by
  have ⟨before, hcontent⟩ := h
  rw [← hcontent, length_append, Nat.add_sub_cancel, take_left]

variable {lines : List Line} {read : Bytes → Option Bytes}

theorem replaceContents_inj {as bs : List Bytes} (ha : as.length = (payloads read lines).length)
    (hb : bs.length = (payloads read lines).length)
    (h : replaceContents read lines as = replaceContents read lines bs) : as = bs := by
  induction lines generalizing as bs with
  | nil => rw [length_eq_zero_iff.mp ha, length_eq_zero_iff.mp hb]
  | cons line lines ih =>
    rw [payloads, filterMap_cons] at ha hb
    rw [replaceContents.eq_def, replaceContents.eq_def] at h
    cases hread : read line.content with
    | none =>
      simp only [hread] at h ha hb
      exact ih ha hb (cons.inj h).2
    | some payload =>
      simp only [hread] at h ha hb
      cases as with
      | nil => exact absurd ha (Nat.succ_ne_zero _).symm
      | cons a as =>
        cases bs with
        | nil => exact absurd hb (Nat.succ_ne_zero _).symm
        | cons b bs =>
          have ⟨hline, hrest⟩ := cons.inj h
          have hpart := append_cancel_left (congrArg Line.content hline)
          rw [hpart, ih (Nat.succ.inj ha) (Nat.succ.inj hb) hrest]

variable {parts : List Bytes}

theorem replaceContents_sameEnds (read : Bytes → Option Bytes)
    (hlines : ∀ line ∈ lines, Clean line.content) (hparts : ∀ part ∈ parts, Clean part) :
    Lines.SameEnds lines (replaceContents read lines parts) := by
  induction lines generalizing parts with
  | nil => exact .nil
  | cons line lines ih =>
    have hline := hlines line mem_cons_self
    have hrest := fun l hl => hlines l (mem_cons_of_mem line hl)
    rw [replaceContents.eq_def]
    simp only
    cases hread : read line.content with
    | none => exact .cons ⟨rfl, hline, hline⟩ (ih hrest hparts)
    | some payload =>
      cases parts with
      | nil => exact .cons ⟨rfl, hline, hline⟩ (ih hrest hparts)
      | cons part parts =>
        have hpart := hparts part mem_cons_self
        refine .cons ⟨rfl, hline, ?_⟩ (ih hrest fun p hp => hparts p (mem_cons_of_mem part hp))
        constructor
        · intro hmem
          rcases mem_append.mp hmem with hmem | hmem
          · exact hline.1 (mem_of_mem_take hmem)
          · exact hpart.1 hmem
        · intro hmem
          rcases mem_append.mp hmem with hmem | hmem
          · exact hline.2 (mem_of_mem_take hmem)
          · exact hpart.2 hmem

theorem replaceContents_own
    (hsuffix : ∀ content payload, read content = some payload → payload <:+ content)
    (lines : List Line) : replaceContents read lines (payloads read lines) = lines := by
  induction lines with
  | nil => rfl
  | cons line lines ih =>
    rw [replaceContents.eq_def, payloads, filterMap_cons]
    simp only
    cases hread : read line.content with
    | none => exact congrArg (line :: ·) ih
    | some payload =>
      simp only
      rw [take_append_payload (hsuffix _ _ hread)]
      exact congrArg (line :: ·) ih

theorem eq_of_contents {as bs : List Line} (h : Lines.SameEnds as bs)
    (hcontents : as.map Line.content = bs.map Line.content) : as = bs := by
  induction h with
  | nil => rfl
  | @cons a b as bs hab _ ih =>
    have ⟨hcontent, hcontents⟩ := cons.inj hcontents
    have heq : a = b := by
      cases a
      simp_all
    rw [heq, ih hcontents]

/-! ## Events that are read alike -/

/-- The lines, with the parts in place of what was read of them. -/
def markLines (read : Bytes → Option Bytes) : List Line → List (List Mark) → List (List Mark)
  | [], _ => []
  | line :: lines, parts =>
    match read line.content, parts with
    | some payload, part :: parts =>
      ((line.content.take (line.content.length - payload.length)).map .byte ++ part) ::
        markLines read lines parts
    | _, parts => line.content.map .byte :: markLines read lines parts

section Alike

variable (mapping : JsonModelRewriteMapping)

/-- The lines of an event with the model names of the payload set apart. -/
def markedLines (read : Bytes → Option Bytes) (lines : List Line) : List (List Mark) :=
  markLines read lines ((marked mapping (joinPayloads (payloads read lines))).splitOn (.byte LF))

/-- The payload of the data lines is a JSON object with model names. -/
def NamedObject (lines : List Line) : Prop :=
  let payload := joinPayloads (payloads dataField lines)
  IsJsonObject payload ∧ modelNames mapping payload ≠ []

/-- The payload of what is taken for data lines has a brace behind spaces and tabs, and model names
that do not go over a line. -/
def TakenForObject (lines : List Line) : Prop :=
  let payload := joinPayloads (payloads dataPayload lines)
  looksLikeJson payload = true ∧ modelNames mapping payload ≠ [] ∧
    ∀ name ∈ modelNames mapping payload, LF ∉ name

/-- The event is taken for a JSON object with model names exactly if it is one, and then for one
with the same names in the same places. -/
structure ReadAlike (lines : List Line) : Prop where
  taken : TakenForObject mapping lines ↔ NamedObject mapping lines
  names : NamedObject mapping lines →
    markedLines mapping dataPayload lines = markedLines mapping dataField lines

variable {mapping} {lines : List Line}

theorem splitOn_flatMap {f : Mark → Bytes} (hbyte : ∀ b, f (.byte b) = [b]) {ms : List Mark}
    (hnames : ∀ raw, .name raw ∈ ms → LF ∉ f (.name raw)) :
    (ms.splitOn (.byte LF)).map (flatMap f) = splitOnNewline (ms.flatMap f) := by
  have hflat (parts : List (List Mark)) : ([.byte LF].intercalate parts).flatMap f =
      joinPayloads (parts.map (flatMap f)) := by
    induction parts with
    | nil => rfl
    | cons p ps ih =>
      cases ps with
      | nil => simp [joinPayloads]
      | cons q ps =>
        rw [intercalate_cons_cons, flatMap_append, flatMap_append, ih, flatMap_singleton, hbyte]
        exact (intercalate_cons_cons ..).symm
  conv_rhs => rw [← @intercalate_splitOn _ ms _ _ (.byte LF), hflat]
  refine (splitOn_intercalate LF (fun part hpart hmem => ?_) (by simp)).symm
  obtain ⟨marks, hmarks, rfl⟩ := mem_map.mp hpart
  have ⟨hnot, hsub⟩ := Lines.mem_splitOn hmarks
  obtain ⟨m, hm, hlf⟩ := mem_flatMap.mp hmem
  cases m with
  | byte b =>
    rw [hbyte, mem_singleton] at hlf
    exact hnot (hlf ▸ hm)
  | name raw => exact hnames raw (hsub _ hm) hlf

theorem markLines_map (read : Bytes → Option Bytes) {f : Mark → Bytes}
    (hbyte : ∀ b, f (.byte b) = [b]) (lines : List Line) (parts : List (List Mark)) :
    (markLines read lines parts).map (flatMap f) =
      (replaceContents read lines (parts.map (flatMap f))).map Line.content := by
  induction lines generalizing parts with
  | nil => rfl
  | cons line lines ih =>
    have hline := flatMap_bytes hbyte line.content
    rw [markLines.eq_def, replaceContents.eq_def]
    simp only
    cases read line.content with
    | none =>
      simp only [map_cons, hline]
      rw [ih parts]
    | some payload =>
      cases parts with
      | nil =>
        simp only [map_cons, map_nil, hline]
        rw [ih []]
        rfl
      | cons part parts =>
        simp only [map_cons, flatMap_append, flatMap_bytes hbyte]
        rw [ih parts]

theorem markLines_all {P : Mark → Prop} (hbyte : ∀ b, P (.byte b)) (read : Bytes → Option Bytes)
    (lines : List Line) {parts : List (List Mark)} (h : ∀ part ∈ parts, ∀ m ∈ part, P m) :
    ∀ marks ∈ markLines read lines parts, ∀ m ∈ marks, P m := by
  have hbytes (bytes : Bytes) : ∀ m ∈ bytes.map Mark.byte, P m := forall_mem_map.mpr fun b _ => hbyte b
  induction lines generalizing parts with
  | nil => exact nofun
  | cons line lines ih =>
    rw [markLines.eq_def]
    simp only
    cases read line.content with
    | none => exact forall_mem_cons.mpr ⟨hbytes _, ih h⟩
    | some payload =>
      cases parts with
      | nil => exact forall_mem_cons.mpr ⟨hbytes _, ih h⟩
      | cons part parts =>
        have ⟨hpart, hparts⟩ := forall_mem_cons.mp h
        exact forall_mem_cons.mpr ⟨forall_mem_append.mpr ⟨hbytes _, hpart⟩, ih hparts⟩

theorem markedLines_valid (read : Bytes → Option Bytes) (lines : List Line) :
    ∀ marks ∈ markedLines mapping read lines, ∀ m ∈ marks, m.Valid (externalToken mapping) :=
  markLines_all (fun _ => trivial) read lines fun _ hpart m hm =>
    marked_valid _ m ((Lines.mem_splitOn hpart).2 m hm)

theorem markedLines_unique {xs ys : List (List Mark)} {token : Bytes} (htoken : Quoted token)
    (hxs : ∀ x ∈ xs, ∀ m ∈ x, m.Valid token) (hys : ∀ y ∈ ys, ∀ m ∈ y, m.Valid token)
    (hsource : xs.map (flatMap Mark.source) = ys.map (flatMap Mark.source))
    (hrewritten : xs.map (flatMap (Mark.rewritten token)) = ys.map (flatMap (Mark.rewritten token))) :
    xs = ys := by
  induction xs generalizing ys with
  | nil => exact (map_eq_nil_iff.mp hsource.symm).symm
  | cons x xs ih =>
    cases ys with
    | nil => cases hsource
    | cons y ys =>
      have ⟨hx, hxs'⟩ := forall_mem_cons.mp hxs
      have ⟨hy, hys'⟩ := forall_mem_cons.mp hys
      have ⟨hsource, hsources⟩ := cons.inj hsource
      have ⟨hrewritten, hrest⟩ := cons.inj hrewritten
      rw [marks_unique htoken hx hy hsource hrewritten, ih hxs' hys' hsources hrest]

variable {read : Bytes → Option Bytes} {ps : List Bytes} {bytes : Bytes}

theorem payload_clean
    (hsuffix : ∀ content payload, read content = some payload → payload <:+ content)
    (hclean : ∀ line ∈ lines, Clean line.content) :
    ∀ payload ∈ payloads read lines, Clean payload := by
  intro payload hpayload
  have ⟨line, hline, hread⟩ := mem_filterMap.mp hpayload
  have hsubset := (hsuffix _ _ hread).subset
  exact ⟨fun hmem => (hclean line hline).1 (hsubset hmem),
    fun hmem => (hclean line hline).2 (hsubset hmem)⟩

theorem joinPayloads_noReturn (h : ∀ p ∈ ps, Clean p) : CR ∉ joinPayloads ps := by
  unfold joinPayloads
  induction ps with
  | nil => exact not_mem_nil
  | cons p ps ih =>
    cases ps with
    | nil =>
      rw [intercalate_singleton]
      exact (h p mem_cons_self).2
    | cons q ps =>
      rw [intercalate_cons_cons]
      intro hmem
      rcases mem_append.mp hmem with hmem | hmem
      · rcases mem_append.mp hmem with hmem | hmem
        · exact (h p mem_cons_self).2 hmem
        · exact absurd (mem_singleton.mp hmem) (by decide)
      · exact ih (fun r hr => h r (mem_cons_of_mem p hr)) hmem

theorem splitOnNewline_join (h : ∀ p ∈ ps, Clean p) (hne : ps ≠ []) :
    splitOnNewline (joinPayloads ps) = ps :=
  splitOn_intercalate LF (fun p hp => (h p hp).1) hne

theorem parts_clean (h : ∀ p ∈ ps, Clean p) :
    ∀ part ∈ splitOnNewline (rewriteJsonModelBuffer (joinPayloads ps) mapping), Clean part := by
  intro part hpart
  have ⟨hlf, hsub⟩ := Lines.mem_splitOn hpart
  exact ⟨hlf, fun hmem => rewritten_noReturn (joinPayloads_noReturn h) (hsub CR hmem)⟩

theorem dataField_suffix {content payload : Bytes} (h : dataField content = some payload) :
    payload <:+ content := dataPayload_suffix (dataPayload_of_dataField h)

theorem replaceContents_ne
    (hsuffix : ∀ content payload, read content = some payload → payload <:+ content)
    {rewritten : Bytes} (hchanges : rewritten ≠ joinPayloads (payloads read lines))
    (hcount : (splitOnNewline rewritten).length = (payloads read lines).length) :
    replaceContents read lines (splitOnNewline rewritten) ≠ lines := by
  intro heq
  have hown := replaceContents_own hsuffix lines
  have hparts := replaceContents_inj hcount rfl (heq.trans hown.symm)
  apply hchanges
  rw [← hparts]
  exact (intercalate_splitOn LF).symm

theorem object_ne_nil (h : IsJsonObject bytes) : bytes ≠ [] := by
  have ⟨t, hobject, hrender⟩ := h
  rw [← hrender]
  unfold JsonText.render
  cases hvalue : t.value with
  | emptyObject space => simp [Json.render]
  | object members => simp [Json.render]
  | literal | string | emptyArray | array => rw [hvalue] at hobject; exact hobject.elim

theorem IsJsonObject.names (h : IsJsonObject bytes) :
    ∀ name ∈ modelNames mapping bytes, LF ∉ name := by
  have ⟨t, _, hrender⟩ := h
  exact fun name hname => names_of_text (t := t) (hrender ▸ hname)

theorem looks_ne_nil (h : looksLikeJson bytes = true) : bytes ≠ [] := by
  rintro rfl
  cases h

theorem payloads_ne_nil (h : joinPayloads (payloads read lines) ≠ []) : payloads read lines ≠ [] :=
  fun hempty => h (by rw [hempty]; rfl)

theorem length_parts (hpayloads : ∀ payload ∈ payloads read lines, Clean payload)
    (hne : joinPayloads (payloads read lines) ≠ []) {rewritten : Bytes} :
    (splitOnNewline rewritten).length = (payloads read lines).length ↔
      rewritten.count LF = (joinPayloads (payloads read lines)).count LF := by
  have hlength := congrArg length (splitOnNewline_join hpayloads (payloads_ne_nil hne))
  rw [splitOnNewline, Lines.length_splitOn] at hlength ⊢
  omega

theorem editedLines_sameEnds (h : ∀ line ∈ lines, Clean line.content) :
    Lines.SameEnds lines (editedLines mapping lines) := by
  unfold editedLines
  split
  · exact replaceContents_sameEnds dataPayload h
      (parts_clean (payload_clean (fun _ _ => dataPayload_suffix) h))
  · exact .refl h

theorem objectRewritten_sameEnds (h : ∀ line ∈ lines, Clean line.content) :
    Lines.SameEnds lines (objectRewritten mapping lines) := by
  unfold objectRewritten
  simp only
  split
  · exact replaceContents_sameEnds dataField h
      (parts_clean (payload_clean (fun _ _ => dataField_suffix) h))
  · exact .refl h

variable (hclean : ∀ line ∈ lines, Clean line.content)

include hclean

variable {read : Bytes → Option Bytes}

/-- Replacing model names changes the lines. -/
theorem replaced_ne (hsuffix : ∀ content payload, read content = some payload → payload <:+ content)
    (hnamed : modelNames mapping (joinPayloads (payloads read lines)) ≠ [])
    (hnames : ∀ name ∈ modelNames mapping (joinPayloads (payloads read lines)), LF ∉ name)
    (hne : joinPayloads (payloads read lines) ≠ []) : replaceContents read lines (splitOnNewline
      (rewriteJsonModelBuffer (joinPayloads (payloads read lines)) mapping)) ≠ lines :=
  replaceContents_ne hsuffix ((rewriteJsonModelBuffer_same _).not.mpr hnamed)
    ((length_parts (payload_clean hsuffix hclean) hne).mpr ((count_rewritten_iff _).mpr hnames))

theorem edits_iff : Edits mapping lines ↔ TakenForObject mapping lines := by
  unfold Edits TakenForObject
  refine and_congr_right fun hlooks => and_congr (rewriteJsonModelBuffer_same _).not ?_
  rw [← count_rewritten_iff]
  exact length_parts (payload_clean (fun _ _ => dataPayload_suffix) hclean) (looks_ne_nil hlooks)

/-- The parts of a payload whose names keep to their lines. -/
theorem marked_parts
    (hsuffix : ∀ content payload, read content = some payload → payload <:+ content)
    (hsome : payloads read lines ≠ [])
    (hnames : ∀ name ∈ modelNames mapping (joinPayloads (payloads read lines)), LF ∉ name) :
    (markedLines mapping read lines).map (flatMap Mark.source) = lines.map Line.content ∧
      (markedLines mapping read lines).map (flatMap (Mark.rewritten (externalToken mapping))) =
        (replaceContents read lines (splitOnNewline (rewriteJsonModelBuffer
          (joinPayloads (payloads read lines)) mapping))).map Line.content := by
  unfold markedLines
  rw [markLines_map read fun _ => rfl, markLines_map read fun _ => rfl,
    splitOn_flatMap (fun _ => rfl) fun raw hraw => hnames raw (mem_modelNames.mpr hraw),
    splitOn_flatMap (fun _ => rfl) fun _ _ => (externalToken_printed mapping).clean.1,
    marked_source, marked_rewritten, splitOnNewline_join (payload_clean hsuffix hclean) hsome,
    replaceContents_own hsuffix]
  exact ⟨rfl, rfl⟩

theorem objectRewritten_same (h : ¬ NamedObject mapping lines) :
    objectRewritten mapping lines = lines := by
  unfold objectRewritten
  simp only
  split
  next hobject =>
    have hsame : rewriteJsonModelBuffer (joinPayloads (payloads dataField lines)) mapping =
        joinPayloads (payloads dataField lines) :=
      (rewriteJsonModelBuffer_same _).mpr (by_contra fun hnames => h ⟨hobject, hnames⟩)
    rw [hsame, splitOnNewline_join (payload_clean (fun _ _ => dataField_suffix) hclean)
      (payloads_ne_nil (object_ne_nil hobject))]
    exact replaceContents_own (fun _ _ => dataField_suffix) lines
  · rfl

theorem editedLines_eq_iff_readAlike :
    editedLines mapping lines = objectRewritten mapping lines ↔ ReadAlike mapping lines := by
  have hends : Lines.SameEnds (editedLines mapping lines) (objectRewritten mapping lines) :=
    (editedLines_sameEnds hclean).common (objectRewritten_sameEnds hclean)
  have hedits : Edits mapping lines ↔ _ := edits_iff hclean
  by_cases hobject : NamedObject mapping lines
  · have hnames : ∀ name ∈ modelNames mapping _, _ := hobject.1.names
    have hsome := payloads_ne_nil (object_ne_nil hobject.1)
    have hwritten : objectRewritten mapping lines = _ := if_pos hobject.1
    by_cases htaken : TakenForObject mapping lines
    · have hedited : editedLines mapping lines = _ := if_pos (hedits.mpr htaken)
      have ⟨hsource, hrewritten⟩ := marked_parts hclean (fun _ _ => dataField_suffix) hsome hnames
      have ⟨hsource', hrewritten'⟩ := marked_parts hclean (fun _ _ => dataPayload_suffix)
        (payloads_ne_nil (looks_ne_nil htaken.1)) htaken.2.2
      rw [← hwritten] at hrewritten
      rw [← hedited] at hrewritten'
      constructor
      · intro heq
        refine ⟨iff_of_true htaken hobject, fun _ => ?_⟩
        exact markedLines_unique externalToken_quoted (markedLines_valid _ _) (markedLines_valid _ _)
          (hsource'.trans hsource.symm)
          (hrewritten'.trans ((congrArg _ heq).trans hrewritten.symm))
      · intro hread
        refine eq_of_contents hends ?_
        rw [← hrewritten, ← hrewritten', hread.names hobject]
    · rw [show editedLines mapping lines = lines from if_neg fun h => htaken (hedits.mp h), hwritten]
      exact iff_of_false (Ne.symm (replaced_ne hclean (fun _ _ => dataField_suffix) hobject.2 hnames (object_ne_nil hobject.1)))
        fun hread => htaken (hread.taken.mpr hobject)
  · rw [objectRewritten_same hclean hobject]
    by_cases htaken : TakenForObject mapping lines
    · rw [show editedLines mapping lines = _ from if_pos (hedits.mpr htaken)]
      exact iff_of_false (replaced_ne hclean (fun _ _ => dataPayload_suffix) htaken.2.1 htaken.2.2 (looks_ne_nil htaken.1))
        fun hread => hobject (hread.taken.mp htaken)
    · rw [show editedLines mapping lines = lines from if_neg fun h => htaken (hedits.mp h)]
      exact iff_of_true rfl ⟨iff_of_false htaken hobject, fun h => absurd h hobject⟩

end Alike

/-! ## The stream that is returned -/

/-- Whatever its chunks, the stream is returned with its JSON objects rewritten. -/
def RewritesObjects (mapping : JsonModelRewriteMapping) (maxEventBytes : Nat) (body : List Bytes) :
    Prop :=
  let r := rewriteSseModelResponseBody body mapping maxEventBytes
  r.1.flatten = rewrittenStream mapping body.flatten ∧ r.2 = none

theorem flatten_map_raw (blocks : List Block) (f : Block → List Line) :
    (blocks.flatMap fun block => (f block).map Line.raw).flatten =
      (blocks.flatMap f).flatMap Line.raw := by
  induction blocks with
  | nil => rfl
  | cons block blocks ih =>
    simp only [flatMap_cons, flatten_append, flatMap_append, ih]
    rfl

theorem block_lines_clean {stream : Bytes} {block : Block} (h : block ∈ Lines.blocks stream) :
    ∀ line ∈ block.allLines, Clean line.content := by
  intro line hline
  have hmem : line ∈ Lines.lines stream := by
    rw [← Lines.blocks_allLines stream]
    exact mem_flatMap.mpr ⟨block, h, hline⟩
  exact (Lines.lines_wellFormed stream).clean line hmem

section Stream

variable (mapping : JsonModelRewriteMapping)

theorem rewritesObjects_iff_lines {maxEventBytes : Nat} {body : List Bytes}
    (hlimit : ∀ b ∈ Lines.blocks body.flatten, b.size ≤ maxEventBytes) :
    RewritesObjects mapping maxEventBytes body ↔ ∀ b ∈ Lines.blocks body.flatten,
        editedLines mapping b.lines = objectRewritten mapping b.lines := by
  let edited (b : Block) : List Line := editedLines mapping b.lines ++ b.blank.toList
  let object (b : Block) : List Line := objectRewritten mapping b.lines ++ b.blank.toList
  have hends (f : List Line → List Line)
      (hf : ∀ ls : List Line, (∀ l ∈ ls, Clean l.content) → Lines.SameEnds ls (f ls)) :
      ∀ b ∈ Lines.blocks body.flatten, Lines.SameEnds b.allLines (f b.lines ++ b.blank.toList) := by
    intro b hb
    have hclean := block_lines_clean hb
    exact rel_append (hf b.lines fun l hl => hclean l (mem_append_left _ hl))
      (Lines.SameEnds.refl fun l hl => hclean l (mem_append_right _ hl))
  have hedited := hends (editedLines mapping) fun _ => editedLines_sameEnds
  have hobject := hends (objectRewritten mapping) fun _ => objectRewritten_sameEnds
  have hwell := Lines.lines_wellFormed body.flatten
  rw [← Lines.blocks_allLines] at hwell
  have houtput : RewritesObjects mapping maxEventBytes body ↔
      ((Lines.blocks body.flatten).flatMap edited).flatMap Line.raw =
        ((Lines.blocks body.flatten).flatMap object).flatMap Line.raw := by
    have hraw : rewrittenStream mapping body.flatten =
        ((Lines.blocks body.flatten).flatMap object).flatMap Line.raw :=
      (flatMap_assoc).symm
    rw [RewritesObjects, rewriteSse_edited mapping maxEventBytes body hlimit]
    simp only [and_true]
    rw [flatten_map_raw, hraw]
  have hboth : ∀ b ∈ Lines.blocks body.flatten, Lines.SameEnds (edited b) (object b) :=
    fun b hb => (hedited b hb).common (hobject b hb)
  have hlines := (Lines.SameEnds.flatMap hedited).wellFormed hwell
  rw [houtput]
  constructor
  · intro hraw b hb
    have hsame := (Lines.SameEnds.flatMap hboth).eq hlines hraw
    have hblocks := (Lines.flatMap_eq_iff fun b hb => (hboth b hb).length_eq).mp hsame
    exact append_cancel_right (hblocks b hb)
  · intro hsame
    have hblocks := flatMap_congr fun b hb =>
      congrArg (· ++ b.blank.toList) (hsame b hb)
    exact congrArg (flatMap Line.raw) hblocks

/-- The stream is returned with its JSON objects rewritten exactly if every event is read alike. -/
theorem rewriteSse_iff_readAlike {maxEventBytes : Nat} {body : List Bytes}
    (hlimit : ∀ b ∈ Lines.blocks body.flatten, b.size ≤ maxEventBytes) :
    RewritesObjects mapping maxEventBytes body ↔
      ∀ b ∈ Lines.blocks body.flatten, ReadAlike mapping b.lines := by
  rw [rewritesObjects_iff_lines mapping hlimit]
  apply forall₂_congr
  intro b hb
  have hclean := block_lines_clean hb
  exact editedLines_eq_iff_readAlike fun line hline =>
    hclean line (mem_append_left _ hline)

end Stream

def exampleMapping : JsonModelRewriteMapping where
  paths := [[modelName]]
  externalName := some (JsText.text "b")
  expectedUpstreamName := some (JsText.text "a")

/-- The bytes of `{"model":"a"`. -/
def exampleOpen : Bytes :=
  [0x7b, 0x22, 0x6d, 0x6f, 0x64, 0x65, 0x6c, 0x22, 0x3a, 0x22, 0x61, 0x22]

def lineFeeds (n : Nat) : Space := ⟨replicate n LF, fun byte hbyte => by
  rw [eq_of_mem_replicate hbyte]
  rfl⟩

/-- `{"model":"a"}` behind and before line feeds is a JSON object. -/
theorem example_object (before behind : Nat) : IsJsonObject
    (replicate before LF ++ exampleOpen ++ replicate behind LF ++ [0x7d]) :=
  ⟨⟨lineFeeds before, .object (.last noSpace modelKey noSpace noSpace (.string exampleName)
    (lineFeeds behind)), noSpace⟩, trivial, by
    simp [JsonText.render, Json.render, Members.render, noSpace, lineFeeds]
    rfl⟩

/-- The bytes of `data:`, all with their highest bit set. -/
def misreadPrefix : Bytes := dataPrefix.map (· ||| 0x80)

/-- An event with a misread line without a name, in two chunks that are cut behind a CR. -/
def exampleBody : List Bytes :=
  [dataPrefix ++ 0x20 :: exampleOpen ++ [CR], LF :: misreadPrefix ++ LF :: dataPrefix ++ [0x7d, CR]]

theorem rewriteSse_example :
    (∀ b ∈ Lines.blocks exampleBody.flatten, ReadAlike exampleMapping b.lines) ∧
      RewritesObjects exampleMapping 64 exampleBody := by
  have hread : ∀ b ∈ Lines.blocks exampleBody.flatten, ReadAlike exampleMapping b.lines := by
    have hblocks : Lines.blocks exampleBody.flatten = [⟨[⟨dataPrefix ++ 0x20 :: exampleOpen, [CR, LF]⟩,
      ⟨misreadPrefix, [LF]⟩, ⟨dataPrefix ++ [0x7d], [CR]⟩], none⟩] := by decide +kernel
    rw [hblocks]
    refine forall_mem_singleton.mpr ⟨iff_of_true ?_ ⟨?_, ?_⟩, fun _ => ?_⟩
    · exact ⟨by decide +kernel, by decide +kernel, by decide +kernel⟩
    · exact example_object 0 1
    · decide +kernel
    · decide +kernel
  exact ⟨hread, (rewriteSse_iff_readAlike exampleMapping (by decide +kernel)).mpr hread⟩

/-- The lines of an object behind a line without data. -/
def blankLines : List Line := [⟨dataPrefix, [LF]⟩, ⟨dataPrefix ++ exampleOpen ++ [0x7d], [LF]⟩]

/-- The lines of an object without its last brace. -/
def openLines : List Line := [⟨dataPrefix ++ exampleOpen, [LF]⟩]

/-- An object in a line that is no data line. -/
def misreadLines : List Line := [⟨misreadPrefix ++ exampleOpen ++ [0x7d], [LF]⟩]

/-- A stream of one event. -/
def oneEvent (lines : List Line) : List Bytes := [lines.flatMap Line.raw ++ [LF]]

theorem not_rewritesObjects
    (hblock : ⟨lines, some ⟨[], [LF]⟩⟩ ∈ Lines.blocks (oneEvent lines).flatten)
    (hlimit : ∀ b ∈ Lines.blocks (oneEvent lines).flatten, b.size ≤ 64)
    (h : ¬ (TakenForObject exampleMapping lines ↔ NamedObject exampleMapping lines)) :
    ¬ RewritesObjects exampleMapping 64 (oneEvent lines) := by
  intro hrewrites
  have hlines := (rewritesObjects_iff_lines exampleMapping hlimit).mp hrewrites _ hblock
  have hclean := fun line hline => block_lines_clean hblock line (mem_append_left _ hline)
  exact h ((editedLines_eq_iff_readAlike hclean).mp hlines).taken

theorem IsJsonObject.brace (h : IsJsonObject bytes) : 0x7d ∈ bytes := by
  have ⟨t, hobject, hrender⟩ := h
  rw [← hrender]
  unfold JsonText.render
  cases hvalue : t.value with
  | emptyObject space => simp [Json.render]
  | object members => simp [Json.render]
  | literal | string | emptyArray | array => rw [hvalue] at hobject; exact hobject.elim

/-- An object behind a line without data is not rewritten; what is no object, or no data, is. -/
theorem rewriteSse_not_objects : ¬ RewritesObjects exampleMapping 64 (oneEvent blankLines) ∧
      ¬ RewritesObjects exampleMapping 64 (oneEvent openLines) ∧
      ¬ RewritesObjects exampleMapping 64 (oneEvent misreadLines) := by
  refine ⟨not_rewritesObjects (by decide +kernel) (by decide +kernel) fun h => ?_,
    not_rewritesObjects (by decide +kernel) (by decide +kernel) fun h => ?_,
    not_rewritesObjects (by decide +kernel) (by decide +kernel) fun h => ?_⟩
  · exact absurd (h.mpr ⟨example_object 1 0, by decide +kernel⟩).1 (by decide +kernel)
  · have htaken : TakenForObject exampleMapping openLines :=
      ⟨by decide +kernel, by decide +kernel, by decide +kernel⟩
    exact absurd (h.mp htaken).1.brace (by decide +kernel)
  · have htaken : TakenForObject exampleMapping misreadLines :=
      ⟨by decide +kernel, by decide +kernel, by decide +kernel⟩
    exact object_ne_nil (h.mp htaken).1 (by decide +kernel)

end TaskHandoff.ModelRelay
