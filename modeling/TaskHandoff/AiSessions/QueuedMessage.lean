import TaskHandoff.AiSessions.QueueService
import TaskHandoff.AiSessions.SendMessage
import TaskHandoff.Lib.JsText

/-! # Normalizing queued messages

Every mutation of a queue passes all its items through `normalizeQueuedMessage`,
which cleans the texts, drops invalid attachments and references and drops the
item itself where the schema refuses it. What it returns it returns unchanged
the next time.
-/

namespace TaskHandoff.AiSessions.MessageQueue

open JsText Option
open SendMessage (AttachmentKind AiSessionReferenceKind AiSessionPermissionMode)

/-! ## Items -/

inductive AttachmentSourceType where
  | inline
  | runtimePath
deriving DecidableEq

structure AiSessionMessageAttachmentMeta where
  id : Text
  kind : AttachmentKind
  name : Text
  mime : Text
  size : Nat
  sourceType : AttachmentSourceType
deriving DecidableEq

structure AiSessionReference where
  name : Text
  path : Text
  kind : AiSessionReferenceKind
deriving DecidableEq

structure AiSessionQueuedMessage where
  id : Text
  messageId : Option Text
  message : Text
  attachments : List AiSessionMessageAttachmentMeta
  references : List AiSessionReference
  permissionMode : Option AiSessionPermissionMode
  status : QueuedMessageStatus
  createdAt : Text
  updatedAt : Text
  error : Option Text
deriving DecidableEq

def AI_SESSION_MAX_MESSAGE_ATTACHMENTS : Nat := 6
def AI_SESSION_MAX_REFERENCES : Nat := 20
def MAX_SAFE_INTEGER : Nat := 2 ^ 53 - 1

/-! ## Schemas -/

/-- A text that is trimmed, and then neither empty nor too long. -/
def nonEmptyTrimmedText (max : Nat) (t : Text) : Option Text :=
  if trim t ≠ [] ∧ (trim t).length ≤ max then some (trim t) else none

/-- The scheme, and then a name without white space and slashes. -/
def matchesScheme (scheme path : Text) : Bool :=
  scheme.isPrefixOf path && !(path.drop scheme.length).isEmpty &&
    (path.drop scheme.length).all fun c => !isSpace c && c ≠ 0x2f

def appScheme : Text := text "app://"
def pluginScheme : Text := text "plugin://"

def parseReferencePath (kind : AiSessionReferenceKind) (path : Text) : Option Text :=
  let trimmed := trim path
  match kind with
  | .skill =>
    if trimmed ≠ [] ∧ trimmed.length ≤ 4096 ∧ trimmed.head? = some 0x2f then some trimmed
    else none
  | .app =>
    if 7 ≤ trimmed.length ∧ trimmed.length ≤ 4096 ∧ matchesScheme appScheme trimmed then
      some trimmed
    else none
  | .plugin =>
    if 10 ≤ trimmed.length ∧ trimmed.length ≤ 4096 ∧ matchesScheme pluginScheme trimmed then
      some trimmed
    else none

def parseReference (reference : AiSessionReference) : Option AiSessionReference :=
  match nonEmptyTrimmedText 240 reference.name,
      parseReferencePath reference.kind reference.path with
  | some name, some path => some { reference with name := name, path := path }
  | _, _ => none

def parseAttachmentMeta (attachment : AiSessionMessageAttachmentMeta) :
    Option AiSessionMessageAttachmentMeta :=
  match nonEmptyTrimmedText 120 attachment.id, nonEmptyTrimmedText 240 attachment.name,
      nonEmptyTrimmedText 120 attachment.mime with
  | some id, some name, some mime =>
    if attachment.size ≤ MAX_SAFE_INTEGER then
      some { attachment with id := id, name := name, mime := mime }
    else none
  | _, _, _ => none

/-! ## Normalization -/

def messageText (t : Text) : Text := trim t

/-- An id is compacted before the schema sees it. -/
def compactText (max : Nat) (t : Text) : Option Text := nonEmptyTrimmedText max (compact t max)

def normalizeMessageId (messageId : Option Text) : Option Text :=
  messageId.bind fun t => if trim t = [] then none else compactText 240 t

def normalizeAiSessionReferences (references : List AiSessionReference) : List AiSessionReference :=
  (references.filterMap parseReference).take AI_SESSION_MAX_REFERENCES

def normalizeAiSessionMessageAttachmentMetas
    (attachments : List AiSessionMessageAttachmentMeta) : List AiSessionMessageAttachmentMeta :=
  (attachments.filterMap parseAttachmentMeta).take AI_SESSION_MAX_MESSAGE_ATTACHMENTS

def normalizeError (error : Option Text) : Option Text :=
  error.bind fun t => if t = [] then none else some (compact t 4000)

-- The date-time check of the schema.
variable (isDateTime : Text → Bool)

def normalizeQueuedMessage (item : AiSessionQueuedMessage) : Option AiSessionQueuedMessage :=
  match compactText 120 item.id, nonEmptyTrimmedText 20000 (messageText item.message) with
  | some id, some message =>
    if isDateTime item.createdAt && isDateTime item.updatedAt then
      some
        { id := id
          messageId := normalizeMessageId item.messageId
          message := message
          attachments := normalizeAiSessionMessageAttachmentMetas item.attachments
          references := normalizeAiSessionReferences item.references
          permissionMode := item.permissionMode
          status := item.status
          createdAt := item.createdAt
          updatedAt := item.updatedAt
          error := normalizeError item.error }
    else none
  | _, _ => none

/-! ## What is clean stays clean -/

variable {t u : Text} {max : Nat}

theorem nonEmptyTrimmedText_eq_some :
    nonEmptyTrimmedText max t = some u ↔ u = trim t ∧ u ≠ [] ∧ u.length ≤ max := by
  unfold nonEmptyTrimmedText
  split
  next h =>
    constructor
    · intro heq
      cases heq
      exact ⟨rfl, h⟩
    · rintro ⟨rfl, -⟩
      rfl
  next h =>
    constructor
    · exact fun heq => absurd heq nofun
    · rintro ⟨rfl, h'⟩
      exact absurd h' h

theorem nonEmptyTrimmedText_again
    (h : nonEmptyTrimmedText max t = some u) : nonEmptyTrimmedText max u = some u := by
  obtain ⟨rfl, hrest⟩ := nonEmptyTrimmedText_eq_some.mp h
  exact nonEmptyTrimmedText_eq_some.mpr ⟨(trim_trim t).symm, hrest⟩

theorem compactText_eq_some (hmax : 3 < max)
    (h : compactText max t = some u) : u = compact t max := by
  obtain ⟨rfl, -⟩ := nonEmptyTrimmedText_eq_some.mp h
  exact (compact_trimmed t hmax).trim_eq

theorem compactText_again (hmax : 3 < max)
    (h : compactText max t = some u) : compactText max u = some u := by
  obtain rfl := compactText_eq_some hmax h
  have hagain : compactText max (compact t max) = nonEmptyTrimmedText max (compact t max) := by
    rw [compactText, compact_compact t hmax]
  exact hagain.trans h

theorem parseReferencePath_again {kind : AiSessionReferenceKind} {path u : Text}
    (h : parseReferencePath kind path = some u) : parseReferencePath kind u = some u := by
  cases kind with
  | skill =>
    obtain ⟨hcond, heq⟩ := ite_none_right_eq_some.mp h
    cases heq
    simp only [parseReferencePath, trim_trim]
    exact if_pos hcond
  | app =>
    obtain ⟨hcond, heq⟩ := ite_none_right_eq_some.mp h
    cases heq
    simp only [parseReferencePath, trim_trim]
    exact if_pos hcond
  | plugin =>
    obtain ⟨hcond, heq⟩ := ite_none_right_eq_some.mp h
    cases heq
    simp only [parseReferencePath, trim_trim]
    exact if_pos hcond

theorem parseReference_again {reference parsed : AiSessionReference}
    (h : parseReference reference = some parsed) : parseReference parsed = some parsed := by
  unfold parseReference at h
  split at h
  next name path hname hpath =>
    cases h
    simp only [parseReference, nonEmptyTrimmedText_again hname, parseReferencePath_again hpath]
  · cases h

theorem parseAttachmentMeta_again {attachment parsed : AiSessionMessageAttachmentMeta}
    (h : parseAttachmentMeta attachment = some parsed) :
    parseAttachmentMeta parsed = some parsed := by
  unfold parseAttachmentMeta at h
  split at h
  next id name mime hid hname hmime =>
    obtain ⟨hsize, heq⟩ := ite_none_right_eq_some.mp h
    cases heq
    simp only [parseAttachmentMeta, nonEmptyTrimmedText_again hid,
      nonEmptyTrimmedText_again hname, nonEmptyTrimmedText_again hmime]
    exact if_pos hsize
  · cases h

/-- A parser that keeps what it returns keeps a list of parsed values that is short enough. -/
theorem take_filterMap_again {α : Type} {parse : α → Option α}
    (hagain : ∀ a b, parse a = some b → parse b = some b) (l : List α) (n : Nat) :
    (((l.filterMap parse).take n).filterMap parse).take n = (l.filterMap parse).take n := by
  have hkeep : ∀ u : List α, (∀ b ∈ u, parse b = some b) → u.filterMap parse = u := by
    intro u hu
    induction u with
    | nil => rfl
    | cons b u ih =>
      rw [List.filterMap_cons_some (hu b List.mem_cons_self),
        ih fun c hc => hu c (List.mem_cons_of_mem b hc)]
  rw [hkeep]
  · rw [List.take_take, min_self]
  intro b hb
  obtain ⟨a, -, hparsed⟩ := List.mem_filterMap.mp (List.mem_of_mem_take hb)
  exact hagain a b hparsed

theorem normalizeMessageId_again (messageId : Option Text) :
    normalizeMessageId (normalizeMessageId messageId) = normalizeMessageId messageId := by
  cases hn : normalizeMessageId messageId with
  | none => rfl
  | some u =>
    obtain ⟨t, -, ht⟩ := bind_eq_some_iff.mp hn
    obtain ⟨-, hcompact⟩ := ite_none_left_eq_some.mp ht
    have hagain := compactText_again (by decide) hcompact
    obtain ⟨htrim, hne, -⟩ := nonEmptyTrimmedText_eq_some.mp hcompact
    have hutrim : trim u = u := by rw [htrim, trim_trim]
    simp only [normalizeMessageId, bind_some, hutrim, if_neg hne, hagain]

/-- The normalization keeps the item as it is. -/
def Clean (item : AiSessionQueuedMessage) : Prop :=
  normalizeQueuedMessage isDateTime item = some item

variable {isDateTime}

theorem normalizeQueuedMessage_clean {item normalized : AiSessionQueuedMessage}
    (h : normalizeQueuedMessage isDateTime item = some normalized)
    (herror : normalizeError (normalizeError item.error) = normalizeError item.error) :
    Clean isDateTime normalized := by
  unfold normalizeQueuedMessage at h
  split at h
  next id message hid hmessage =>
    obtain ⟨hdates, heq⟩ := ite_none_right_eq_some.mp h
    cases heq
    have hmessage' : nonEmptyTrimmedText 20000 (messageText message) = some message := by
      obtain ⟨rfl, hrest⟩ := nonEmptyTrimmedText_eq_some.mp hmessage
      exact nonEmptyTrimmedText_eq_some.mpr ⟨by simp [messageText, trim_trim], hrest⟩
    simp only [Clean, normalizeQueuedMessage, compactText_again (by decide) hid, hmessage', hdates,
      if_true, normalizeMessageId_again, herror, normalizeAiSessionReferences,
      normalizeAiSessionMessageAttachmentMetas,
      take_filterMap_again (fun _ _ => parseReference_again),
      take_filterMap_again (fun _ _ => parseAttachmentMeta_again)]
  · cases h

theorem normalizeError_compact (t : Text) : normalizeError (some (compact t 4000)) =
      if compact t 4000 = [] then none else some (compact t 4000) := by
  simp only [normalizeError, bind_some, compact_compact t (by decide : 3 < 4000)]

theorem normalizeError_again (t : Text) : normalizeError (normalizeError (some (compact t 4000))) =
      normalizeError (some (compact t 4000)) := by
  rw [normalizeError_compact]
  split
  · rfl
  next h => rw [normalizeError_compact, if_neg h]

end TaskHandoff.AiSessions.MessageQueue
