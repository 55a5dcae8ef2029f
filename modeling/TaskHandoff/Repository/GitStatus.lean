import TaskHandoff.Lib.TextFields

/-! # The status of a working tree

Each record of `git status --porcelain=v2 --branch -z` ends with a NUL. It has a letter, a number
of plain fields that depends on its kind, and a path, which can hold every other code unit. The
old path of a renamed one is a field of its own behind it. Read back, each record counts once for
each of its scopes.
-/

namespace TaskHandoff.Repository.GitStatus

open JsText TextFields List

def NUL : UInt16 := 0
def dot : UInt16 := 0x2e

/-! ## Parsing -/

inductive RecordKind where
  | ordinary
  | renamed
  | unmerged
  | untracked

structure ParsedStatusRecord where
  kind : RecordKind
  xy : Text
  path : Text
  oldPath : Option Text

structure ParsedStatus where
  headOid : Option Text
  branch : Option Text
  upstreamRef : Option Text
  ahead : Nat
  behind : Nat
  records : List ParsedStatusRecord

/-- The groups of `/^# branch\.ab \+(\d+) -(\d+)$/`. -/
def aheadBehind (field : Text) : Option (Nat × Nat) := do
  let rest ← dropStart "# branch.ab +" field
  let (ahead, rest) ← readNumber rest
  let rest ← dropStart " -" rest
  let (behind, rest) ← readNumber rest
  if rest = [] then some (ahead, behind) else none

def ParsedStatus.push (parsed : ParsedStatus) (record : ParsedStatusRecord) : ParsedStatus :=
  { parsed with records := parsed.records ++ [record] }

/-- `xy: parts[1], path: parts.slice(fixed).join(" ")`. -/
def parseRecord (kind : RecordKind) (fixed : Nat) (field : Text) (oldPath : Option Text) :
    ParsedStatusRecord :=
  let parts := field.splitOn space
  ⟨kind, parts.getD 1 [], [space].intercalate (parts.drop fixed), oldPath⟩

def parseFields (parsed : ParsedStatus) : List Text → ParsedStatus
  | [] => parsed
  | field :: rest =>
    if field = [] then parseFields parsed rest
    else if startsWith "# branch.oid " field then
      let oid := field.drop 13
      parseFields { parsed with headOid := if oid = text "(initial)" then none else some oid } rest
    else if startsWith "# branch.head " field then
      parseFields { parsed with branch := some (field.drop 14) } rest
    else if startsWith "# branch.upstream " field then
      parseFields { parsed with upstreamRef := some (field.drop 18) } rest
    else if startsWith "# branch.ab " field then
      match aheadBehind field with
      | none => parseFields parsed rest
      | some (ahead, behind) => parseFields { parsed with ahead, behind } rest
    else if startsWith "1 " field then
      parseFields (parsed.push (parseRecord .ordinary 8 field none)) rest
    else if startsWith "2 " field then
      match rest with
      | [] => parsed.push (parseRecord .renamed 9 field none)
      | oldPath :: rest => parseFields (parsed.push (parseRecord .renamed 9 field (some oldPath))) rest
    else if startsWith "u " field then
      parseFields (parsed.push (parseRecord .unmerged 10 field none)) rest
    else if startsWith "? " field then
      parseFields (parsed.push ⟨.untracked, text "??", field.drop 2, none⟩) rest
    else parseFields parsed rest

def parsePorcelainV2 (output : Text) : ParsedStatus :=
  parseFields ⟨none, none, none, 0, 0, []⟩ (output.splitOn NUL)

/-! ## Scopes -/

inductive ChangeScope where
  | conflict
  | staged
  | unstaged
  | untracked
deriving DecidableEq

inductive ChangeStatus where
  | added | modified | deleted | renamed | copied | typeChanged | unmerged | untracked

structure ChangeSummary where
  conflicts : Nat
  staged : Nat
  unstaged : Nat
  untracked : Nat

structure ChangeEntry where
  path : Text
  oldPath : Option Text
  status : ChangeStatus
  binary : Bool
  scope : ChangeScope
  version : String

structure RepositoryChanges where
  snapshotId : String
  summary : ChangeSummary
  entries : List ChangeEntry

def changeScopes (record : ParsedStatusRecord) : List ChangeScope :=
  match record.kind with
  | .unmerged => [.conflict]
  | .untracked => [.untracked]
  | .ordinary | .renamed =>
    (if record.xy[0]? ≠ some dot then [.staged] else []) ++
      if record.xy[1]? ≠ some dot then [.unstaged] else []

/-- `summary[SUMMARY_KEY[scope]]`. -/
def ChangeSummary.get (summary : ChangeSummary) : ChangeScope → Nat
  | .conflict => summary.conflicts
  | .staged => summary.staged
  | .unstaged => summary.unstaged
  | .untracked => summary.untracked

def ChangeSummary.increment (summary : ChangeSummary) : ChangeScope → ChangeSummary
  | .conflict => { summary with conflicts := summary.conflicts + 1 }
  | .staged => { summary with staged := summary.staged + 1 }
  | .unstaged => { summary with unstaged := summary.unstaged + 1 }
  | .untracked => { summary with untracked := summary.untracked + 1 }

def repositoryChangeSummary (records : List ParsedStatusRecord) : ChangeSummary :=
  records.foldl (fun summary record => (changeScopes record).foldl .increment summary) ⟨0, 0, 0, 0⟩

def changeStatus (record : ParsedStatusRecord) : ChangeStatus :=
  match record.kind with
  | .unmerged => .unmerged
  | .untracked => .untracked
  | .ordinary | .renamed =>
    match (record.xy.filter (· ≠ dot)).head? with
    | some 0x41 => .added
    | some 0x44 => .deleted
    | some 0x52 => .renamed
    | some 0x43 => .copied
    | some 0x54 => .typeChanged
    | _ => .modified

/-- `hashVersion` hashes the version of a path with the scope. -/
def repositoryChanges (hashVersion : Text → ChangeScope → String) (parsed : ParsedStatus)
    (snapshotId : String) : RepositoryChanges where
  snapshotId := snapshotId
  summary := repositoryChangeSummary parsed.records
  entries := parsed.records.flatMap fun record => (changeScopes record).map fun scope =>
    ⟨record.path, record.oldPath, changeStatus record, false, scope, hashVersion record.path scope⟩

/-! ## What git prints -/

/-- A field between spaces. -/
structure Field where
  text : Text
  plain : space ∉ text ∧ NUL ∉ text

def Fixed (n : Nat) : Type := { fields : List Field // fields.length = n }

def Path : Type := { path : Text // NUL ∉ path }

/-- `xy` are the two status letters, `fixed` what is printed between them and the path. -/
inductive GitRecord where
  | ordinary (xy : Field) (fixed : Fixed 6) (path : Path)
  | renamed (xy : Field) (fixed : Fixed 7) (path oldPath : Path)
  | unmerged (xy : Field) (fixed : Fixed 8) (path : Path)
  | untracked (path : Path)

def line (letter : UInt16) (fields : List Field) (path : Path) : Text :=
  terminated space ([letter] :: fields.map (·.text)) ++ path.1

namespace GitRecord

def fields : GitRecord → List Text
  | .ordinary xy fixed path => [line 0x31 (xy :: fixed.1) path]
  | .renamed xy fixed path oldPath => [line 0x32 (xy :: fixed.1) path, oldPath.1]
  | .unmerged xy fixed path => [line 0x75 (xy :: fixed.1) path]
  | .untracked path => [line 0x3f [] path]

/-- What there is to know of a record. -/
def record : GitRecord → ParsedStatusRecord
  | .ordinary xy _ path => ⟨.ordinary, xy.text, path.1, none⟩
  | .renamed xy _ path oldPath => ⟨.renamed, xy.text, path.1, some oldPath.1⟩
  | .unmerged xy _ path => ⟨.unmerged, xy.text, path.1, none⟩
  | .untracked path => ⟨.untracked, text "??", path.1, none⟩

/-- The changes of the index are staged, those of the working tree unstaged. -/
def hasScope : GitRecord → ChangeScope → Bool
  | .ordinary xy _ _, .staged | .renamed xy _ _ _, .staged => xy.text[0]? ≠ some dot
  | .ordinary xy _ _, .unstaged | .renamed xy _ _ _, .unstaged => xy.text[1]? ≠ some dot
  | .unmerged .., .conflict | .untracked _, .untracked => true
  | _, _ => false

end GitRecord

/-- The branch headers are lines behind `# `. -/
def statusOutput (headers : List Path) (records : List GitRecord) : Text :=
  terminated NUL (headers.map (text "# " ++ ·.1) ++ records.flatMap GitRecord.fields)

/-! ## Reading it back -/

section Line

variable {letter : UInt16} {fields : List Field} {path : Path} (hletter : letter ≠ space)
include hletter

theorem splitOn_line : (line letter fields path).splitOn space =
      [letter] :: fields.map (·.text) ++ path.1.splitOn space := by
  refine splitOn_terminated (forall_mem_cons.mpr ⟨?_, ?_⟩) _
  · simpa using hletter.symm
  intro f hf
  obtain ⟨field, -, rfl⟩ := mem_map.mp hf
  exact field.plain.1

theorem parseRecord_line (kind : RecordKind) (xy : Field) (oldPath : Option Text) :
    parseRecord kind (fields.length + 2) (line letter (xy :: fields) path) oldPath =
      ⟨kind, xy.text, path.1, oldPath⟩ := by
  have hdrop : ([letter] :: (xy :: fields).map (·.text) ++ path.1.splitOn space).drop
      (fields.length + 2) = path.1.splitOn space := by
    simp
  rw [parseRecord, splitOn_line hletter, hdrop, intercalate_splitOn]
  rfl

end Line

/-- A header is no record. -/
theorem parseFields_header (header : Path) (parsed : ParsedStatus) (rest : List Text) :
    ∃ parsed', parseFields parsed ((text "# " ++ header.1) :: rest) = parseFields parsed' rest ∧
      parsed'.records = parsed.records := by
  have hordinary : startsWith "1 " (text "# " ++ header.1) = false := rfl
  have hrenamed : startsWith "2 " (text "# " ++ header.1) = false := rfl
  have hunmerged : startsWith "u " (text "# " ++ header.1) = false := rfl
  have huntracked : startsWith "? " (text "# " ++ header.1) = false := rfl
  rw [parseFields.eq_def]
  simp only [hordinary, hrenamed, hunmerged, huntracked, Bool.false_eq_true, if_false]
  split
  · exact ⟨_, rfl, rfl⟩
  split
  · exact ⟨_, rfl, rfl⟩
  split
  · exact ⟨_, rfl, rfl⟩
  · split
    · exact ⟨_, rfl, rfl⟩
    · split
      · split <;> exact ⟨_, rfl, rfl⟩
      · exact ⟨_, rfl, rfl⟩

theorem parseFields_record (record : GitRecord) (parsed : ParsedStatus) (rest : List Text) :
    parseFields parsed (record.fields ++ rest) = parseFields (parsed.push record.record) rest := by
  cases record with
  | ordinary xy fixed path =>
    have hrecord := @parseRecord_line 0x31 fixed.1 path (by decide) .ordinary xy none
    rw [fixed.2] at hrecord
    rw [GitRecord.record, ← hrecord, parseFields.eq_def]
    rfl
  | renamed xy fixed path oldPath =>
    have hrecord := @parseRecord_line 0x32 fixed.1 path (by decide) .renamed xy (some oldPath.1)
    rw [fixed.2] at hrecord
    rw [GitRecord.record, ← hrecord]
    rfl
  | unmerged xy fixed path =>
    have hrecord := @parseRecord_line 0x75 fixed.1 path (by decide) .unmerged xy none
    rw [fixed.2] at hrecord
    rw [GitRecord.record, ← hrecord, parseFields.eq_def]
    rfl
  | untracked path =>
    rw [parseFields.eq_def]
    rfl

theorem parseFields_headers (headers : List Path) (parsed : ParsedStatus) (rest : List Text) :
    ∃ parsed', parseFields parsed (headers.map (text "# " ++ ·.1) ++ rest) =
      parseFields parsed' rest ∧ parsed'.records = parsed.records := by
  induction headers generalizing parsed with
  | nil => exact ⟨parsed, rfl, rfl⟩
  | cons header headers ih =>
    obtain ⟨first, hfirst, hkept⟩ :=
      parseFields_header header parsed (headers.map (text "# " ++ ·.1) ++ rest)
    obtain ⟨parsed', hrest, hrecords⟩ := ih first
    exact ⟨parsed', hfirst.trans hrest, hrecords.trans hkept⟩

theorem parseFields_records (records : List GitRecord) (parsed : ParsedStatus) :
    (parseFields parsed (records.flatMap GitRecord.fields ++ [[]])).records =
      parsed.records ++ records.map GitRecord.record := by
  induction records generalizing parsed with
  | nil => simp [parseFields]
  | cons record records ih =>
    rw [flatMap_cons, append_assoc, parseFields_record, ih, ParsedStatus.push]
    simp

theorem GitRecord.fields_plain (record : GitRecord) : ∀ f ∈ record.fields, NUL ∉ f := by
  have hline (letter : UInt16) (hletter : letter ≠ NUL) (fields : List Field) (path : Path) :
      NUL ∉ line letter fields path := by
    intro hmem
    rcases mem_append.mp hmem with hmem | hmem
    · obtain ⟨f, hf, hin⟩ := mem_flatMap.mp hmem
      rcases mem_append.mp hin with hin | hin
      · rcases mem_cons.mp hf with rfl | hf
        · exact hletter (mem_singleton.mp hin).symm
        · obtain ⟨field, -, rfl⟩ := mem_map.mp hf
          exact field.plain.2 hin
      · exact absurd (mem_singleton.mp hin) (by decide)
    · exact path.2 hmem
  cases record with
  | ordinary xy fixed path => exact forall_mem_singleton.mpr (hline 0x31 (by decide) _ path)
  | renamed xy fixed path oldPath =>
    exact forall_mem_cons.mpr ⟨hline 0x32 (by decide) _ path, forall_mem_singleton.mpr oldPath.2⟩
  | unmerged xy fixed path => exact forall_mem_singleton.mpr (hline 0x75 (by decide) _ path)
  | untracked path => exact forall_mem_singleton.mpr (hline 0x3f (by decide) _ path)

theorem parsePorcelainV2_records (headers : List Path) (records : List GitRecord) :
    (parsePorcelainV2 (statusOutput headers records)).records = records.map GitRecord.record := by
  have hplain : ∀ f ∈ headers.map (text "# " ++ ·.1) ++ records.flatMap GitRecord.fields,
      NUL ∉ f := by
    intro f hf
    rcases mem_append.mp hf with hf | hf
    · obtain ⟨header, -, rfl⟩ := mem_map.mp hf
      intro hmem
      exact (mem_append.mp hmem).elim (by decide) header.2
    · obtain ⟨record, -, hf⟩ := mem_flatMap.mp hf
      exact record.fields_plain f hf
  have hsplit := splitOn_terminated hplain []
  rw [append_nil, splitOn_nil, append_assoc] at hsplit
  rw [parsePorcelainV2, statusOutput, hsplit]
  obtain ⟨parsed, hheaders, hrecords⟩ := parseFields_headers headers ⟨none, none, none, 0, 0, []⟩
    (records.flatMap GitRecord.fields ++ [[]])
  rw [hheaders, parseFields_records, hrecords, nil_append]

/-! ## Counting the scopes -/

theorem filter_changeScopes (record : GitRecord) (scope : ChangeScope) :
    (changeScopes record.record).filter (· = scope) =
      if record.hasScope scope then [scope] else [] := by
  cases record with
  | ordinary xy | renamed xy =>
    by_cases hx : xy.text[0]? = some dot <;> by_cases hy : xy.text[1]? = some dot <;>
      cases scope <;> simp [GitRecord.record, GitRecord.hasScope, changeScopes, hx, hy]
  | unmerged xy fixed path => cases scope <;> rfl
  | untracked path => cases scope <;> rfl

theorem get_increment (summary : ChangeSummary) (scope other : ChangeScope) :
    (summary.increment other).get scope = summary.get scope + if other = scope then 1 else 0 := by
  cases other <;> cases scope <;> rfl

theorem get_foldl_increment (scopes : List ChangeScope) (summary : ChangeSummary)
    (scope : ChangeScope) : (scopes.foldl .increment summary).get scope =
      summary.get scope + (scopes.filter (· = scope)).length := by
  induction scopes generalizing summary with
  | nil => rfl
  | cons other scopes ih =>
    rw [foldl_cons, ih, get_increment]
    by_cases h : other = scope
    · simp [h]
      omega
    · simp [h]

theorem repositoryChangeSummary_get (records : List GitRecord) (scope : ChangeScope) :
    (repositoryChangeSummary (records.map GitRecord.record)).get scope =
      (records.filter (·.hasScope scope)).length := by
  have hfold (summary : ChangeSummary) : ((records.map GitRecord.record).foldl
      (fun summary record => (changeScopes record).foldl .increment summary) summary).get scope =
        summary.get scope + (records.filter (·.hasScope scope)).length := by
    induction records generalizing summary with
    | nil => rfl
    | cons record records ih =>
      rw [map_cons, foldl_cons, ih, get_foldl_increment, filter_changeScopes]
      by_cases h : record.hasScope scope = true
      · simp [h]
        omega
      · simp [h]
  rw [repositoryChangeSummary, hfold]
  cases scope <;> exact Nat.zero_add _

variable (hashVersion : Text → ChangeScope → String) (snapshotId : String)

/-- What git prints is read back as it is, and each record that has a scope is one entry and counts
one in that scope. -/
theorem parsePorcelainV2_statusOutput (headers : List Path) (records : List GitRecord) :
    (parsePorcelainV2 (statusOutput headers records)).records = records.map GitRecord.record ∧
      ∀ scope, ((repositoryChanges hashVersion (parsePorcelainV2 (statusOutput headers records))
          snapshotId).entries.filter (·.scope = scope)).map (fun e => (e.path, e.oldPath, e.status)) =
            (records.filter (·.hasScope scope)).map (fun r =>
              (r.record.path, r.record.oldPath, changeStatus r.record)) ∧
        (repositoryChanges hashVersion (parsePorcelainV2 (statusOutput headers records))
          snapshotId).summary.get scope = (records.filter (·.hasScope scope)).length := by
  refine ⟨parsePorcelainV2_records headers records, fun scope => ?_⟩
  rw [repositoryChanges, parsePorcelainV2_records]
  refine ⟨?_, repositoryChangeSummary_get records scope⟩
  induction records with
  | nil => rfl
  | cons record records ih =>
    rw [map_cons, flatMap_cons, filter_append, map_append, ih, filter_map]
    simp only [Function.comp_def, filter_changeScopes, filter_cons]
    by_cases h : record.hasScope scope = true <;> simp [h]

end TaskHandoff.Repository.GitStatus
