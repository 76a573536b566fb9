import AgentBridge.Paths
import AgentBridge.Systems.Chunks
import AgentBridge.Systems.Lines

/-!
# Batched queries of the Git index

The evidence about the index is asked from `git ls-files --stage -z` in chunks that fit
a command line. Each answer must be a list of records ended by NUL, and every record
must name a path of the chunk that was asked; the records of all answers are grouped by
path, and more than one record for a path must be the stages of a conflict.

`stageRecordsOver` is this procedure for any chunks; the bridge uses those of
`chunkGitIndexStageQueryPaths`. What it accepts is exactly what is rendered from index
entries, with nothing left out.
-/

namespace AgentBridge.Integration

open Paths Systems List

def nul : Char := Char.ofNat 0

def tab : Char := '\t'

/-! ### Chunks of the query -/

def gitIndexStageQueryMaxPaths : Nat := 100

def gitIndexStageQueryArgvBudget : Nat := 8000

/-- `text.length`, in UTF-16 code units. -/
def utf16Length (text : PathText) : Nat :=
  (text.map fun c => if c.toNat < 0x10000 then 1 else 2).sum

def estimateGitIndexQueryArgLength (value : PathText) : Nat :=
  utf16Length value + value.countP (fun c => c == '"' || c == '\\') + 3

/-- `git` and the arguments before the paths. -/
def gitIndexStageQueryArgs : List PathText :=
  [['g', 'i', 't'],
    ['-', '-', 'l', 'i', 't', 'e', 'r', 'a', 'l', '-', 'p', 'a', 't', 'h', 's', 'p', 'e', 'c', 's'],
    ['l', 's', '-', 'f', 'i', 'l', 'e', 's'], ['-', '-', 's', 't', 'a', 'g', 'e'], ['-', 'z'],
    ['-', '-']]

def gitIndexStageQueryBaseLength : Nat :=
  (gitIndexStageQueryArgs.map estimateGitIndexQueryArgLength).sum

def chunkGitIndexStageQueryPaths (paths : List PathText) : List (List PathText) :=
  chunks gitIndexStageQueryBaseLength gitIndexStageQueryMaxPaths gitIndexStageQueryArgvBudget
    estimateGitIndexQueryArgLength paths

/-! ### Answers -/

/-- How a command ended: with a status, or with the name of a failure of the bridge. -/
inductive ExitCode where
  | status (code : Int)
  | named (name : String)
  deriving DecidableEq

structure CommandResult where
  exitCode : ExitCode
  stdout : PathText
  stderr : PathText

/-- Why the evidence is refused. -/
inductive IndexQueryError where
  | omittedPath
  | commandFailed (message : PathText)
  | outputLimitExceeded
  | noResult (path : PathText)
  | truncated
  | emptyRecord
  | noPathnameTab
  | malformedHeader (header : PathText)
  | malformedMode (header : PathText)
  | malformedObjectId (header : PathText)
  | malformedStage (header : PathText)
  | unexpectedPath (pathname : PathText)
  | duplicateRecord (file : PathText)
  | contradictoryStages (file : PathText)

structure StageRecord where
  text : PathText
  path : PathText
  stage : PathText

/-- `/^[0-7]{6}$/` -/
def isMode (text : PathText) : Bool :=
  text.length == 6 && text.all fun c => '0' ≤ c && c ≤ '7'

def isObjectIdDigit (c : Char) : Bool :=
  ('0' ≤ c && c ≤ '9') || ('a' ≤ c && c ≤ 'f') || ('A' ≤ c && c ≤ 'F')

/-- `/^(?:[0-9a-f]{40}|[0-9a-f]{64})$/i` -/
def isIndexObjectId (text : PathText) : Bool :=
  (text.length == 40 || text.length == 64) && text.all isObjectIdDigit

/-- `/^[0-3]$/` -/
def isStage (text : PathText) : Bool :=
  text.length == 1 && text.all fun c => '0' ≤ c && c ≤ '3'

/-- `/[\r\n\u2028\u2029]/` -/
def isLineTerminator (c : Char) : Bool :=
  c == '\r' || c == '\n' || c.toNat == 0x2028 || c.toNat == 0x2029

/-- Reads one record of an answer about the paths of the chunk. -/
def parseRecord (chunk : List PathText) (record : PathText) :
    Except IndexQueryError StageRecord :=
  if record = [] then .error .emptyRecord
  else
    let header := record.takeWhile (· ≠ tab)
    if header = [] ∨ tab ∉ record then .error .noPathnameTab
    else if header.any isLineTerminator then .error (.malformedHeader header)
    else
      match header.splitOn ' ' with
      | [mode, objectId, stage] =>
        if !isMode mode then .error (.malformedMode header)
        else if !isIndexObjectId objectId then .error (.malformedObjectId header)
        else if !isStage stage then .error (.malformedStage header)
        else
          let pathname := record.drop (header.length + 1)
          if pathname = [] ∨ pathname ∉ chunk then .error (.unexpectedPath pathname)
          else .ok ⟨record, pathname, stage⟩
      | _ => .error (.malformedHeader header)

def parseOutput (chunk : List PathText) (output : PathText) :
    Except IndexQueryError (List StageRecord) :=
  if output = [] then .ok []
  else if output.getLast? ≠ some nul then .error .truncated
  else (output.splitOn nul).dropLast.mapM (parseRecord chunk)

/-- One command: its output counts only if it succeeded. -/
def queryChunk (runChunkQuery : List PathText → Option CommandResult) (chunk : List PathText) :
    Except IndexQueryError (List StageRecord) :=
  match runChunkQuery chunk with
  | none => .error (.noResult (chunk.headD []))
  | some result =>
    if result.exitCode = .status 0 then parseOutput chunk result.stdout
    else if result.exitCode = .named "process_output_limit_exceeded" then
      .error .outputLimitExceeded
    else if result.stderr ≠ [] then .error (.commandFailed result.stderr)
    else if result.stdout ≠ [] then .error (.commandFailed result.stdout)
    else .error (.noResult (chunk.headD []))

/-- Several records of one path must be distinct stages of a conflict. -/
def contradiction (file : PathText) (records : List StageRecord) : Option IndexQueryError :=
  if records.length ≤ 1 then none
  else if ¬ (records.map (·.text)).Nodup then some (.duplicateRecord file)
  else if ¬ (records.map (·.stage)).Nodup then some (.contradictoryStages file)
  else if ['0'] ∈ records.map (·.stage) then some (.contradictoryStages file)
  else none

/-- The records of one path, each ended by NUL. -/
def renderRecords (records : List StageRecord) : PathText :=
  records.flatMap fun record => record.text ++ [nul]

/-- The query over the given chunks. -/
def stageRecordsOver (wanted : List PathText) (chunks : List (List PathText))
    (runChunkQuery : List PathText → Option CommandResult) :
    Except IndexQueryError (List (PathText × PathText)) :=
  if chunks.flatten.length ≠ wanted.length then .error .omittedPath
  else do
    let answers ← chunks.mapM (queryChunk runChunkQuery)
    let grouped (file : PathText) := answers.flatten.filter (·.path = file)
    match wanted.findSome? fun file => contradiction file (grouped file) with
    | some error => .error error
    | none => .ok (wanted.map fun file => (file, renderRecords (grouped file)))

def batchedGitIndexStageRecords (files : List PathText)
    (runChunkQuery : List PathText → Option CommandResult) :
    Except IndexQueryError (List (PathText × PathText)) :=
  let wanted := normalizeLockPathList files
  if wanted = [] then .ok []
  else stageRecordsOver wanted (chunkGitIndexStageQueryPaths wanted) runChunkQuery

/-! ### Index entries -/

structure IndexEntry where
  mode : PathText
  objectId : PathText
  stage : PathText
  path : PathText
  mode_valid : isMode mode = true
  objectId_valid : isIndexObjectId objectId = true
  stage_valid : isStage stage = true
  path_ne_nil : path ≠ []
  path_nul : nul ∉ path

namespace IndexEntry

def header (e : IndexEntry) : PathText := e.mode ++ ' ' :: (e.objectId ++ ' ' :: e.stage)

/-- The line of `ls-files --stage -z`, without its NUL. -/
def text (e : IndexEntry) : PathText := e.header ++ tab :: e.path

def record (e : IndexEntry) : StageRecord := ⟨e.text, e.path, e.stage⟩

end IndexEntry

variable {c : Char}

theorem toNat_le_of_isObjectIdDigit (h : isObjectIdDigit c = true) :
    0x30 ≤ c.toNat ∧ c.toNat ≤ 0x66 := by
  simp only [isObjectIdDigit, Bool.or_eq_true, Bool.and_eq_true, decide_eq_true_eq, Char.le_def,
    UInt32.le_iff_toNat_le] at h
  have hnat : c.toNat = c.val.toNat := rfl
  have h0 : '0'.val.toNat = 0x30 := rfl
  have h9 : '9'.val.toNat = 0x39 := rfl
  have ha : 'a'.val.toNat = 0x61 := rfl
  have hf : 'f'.val.toNat = 0x66 := rfl
  have hA : 'A'.val.toNat = 0x41 := rfl
  have hF : 'F'.val.toNat = 0x46 := rfl
  omega

theorem ne_of_isObjectIdDigit {other : Char} (h : isObjectIdDigit c = true)
    (hother : other.toNat < 0x30 ∨ 0x66 < other.toNat) : c ≠ other := by
  rintro rfl
  have hrange := toNat_le_of_isObjectIdDigit h
  omega

theorem isLineTerminator_of_isObjectIdDigit (h : isObjectIdDigit c = true) :
    isLineTerminator c = false := by
  have hrange := toNat_le_of_isObjectIdDigit h
  have hreturn : c ≠ '\r' := ne_of_isObjectIdDigit h (.inl (by decide))
  have hnewline : c ≠ '\n' := ne_of_isObjectIdDigit h (.inl (by decide))
  simp only [isLineTerminator, Bool.or_eq_false_iff, beq_eq_false_iff_ne]
  exact ⟨⟨⟨hreturn, hnewline⟩, by omega⟩, by omega⟩

theorem isObjectIdDigit_of_between {low high : Char} (hlow : '0' ≤ low) (hhigh : high ≤ '9')
    (h : (low ≤ c && c ≤ high) = true) : isObjectIdDigit c = true := by
  rw [Bool.and_eq_true, decide_eq_true_eq, decide_eq_true_eq] at h
  have hc : '0' ≤ c := Char.le_trans hlow h.1
  have hc' : c ≤ '9' := Char.le_trans h.2 hhigh
  simp [isObjectIdDigit, hc, hc']

namespace IndexEntry

variable (e : IndexEntry)

theorem isObjectIdDigit_of_mem_mode (h : c ∈ e.mode) : isObjectIdDigit c = true := by
  have hmode := e.mode_valid
  rw [isMode, Bool.and_eq_true, all_eq_true] at hmode
  exact isObjectIdDigit_of_between (by decide) (by decide) (hmode.2 c h)

theorem isObjectIdDigit_of_mem_objectId (h : c ∈ e.objectId) : isObjectIdDigit c = true := by
  have hobject := e.objectId_valid
  rw [isIndexObjectId, Bool.and_eq_true, all_eq_true] at hobject
  exact hobject.2 c h

theorem isObjectIdDigit_of_mem_stage (h : c ∈ e.stage) : isObjectIdDigit c = true := by
  have hstage := e.stage_valid
  rw [isStage, Bool.and_eq_true, all_eq_true] at hstage
  exact isObjectIdDigit_of_between (by decide) (by decide) (hstage.2 c h)

theorem mem_header (h : c ∈ e.header) : c = ' ' ∨ isObjectIdDigit c = true := by
  simp only [header, mem_append, mem_cons] at h
  obtain hmode | rfl | hobject | rfl | hstage := h
  · exact .inr (e.isObjectIdDigit_of_mem_mode hmode)
  · exact .inl rfl
  · exact .inr (e.isObjectIdDigit_of_mem_objectId hobject)
  · exact .inl rfl
  · exact .inr (e.isObjectIdDigit_of_mem_stage hstage)

theorem not_mem_header (hblank : c ≠ ' ') (h : c.toNat < 0x30 ∨ 0x66 < c.toNat) : c ∉ e.header := by
  intro hmem
  obtain hc | hdigit := e.mem_header hmem
  · exact hblank hc
  · exact ne_of_isObjectIdDigit hdigit h rfl

theorem header_ne_nil : e.header ≠ [] := by
  simp [header]

theorem nul_not_mem_text : nul ∉ e.text := by
  rw [text, mem_append, mem_cons]
  rintro (hheader | htab | hpath)
  · exact e.not_mem_header (by decide) (.inl (by decide)) hheader
  · exact absurd htab (by decide)
  · exact e.path_nul hpath

theorem splitOn_header : e.header.splitOn ' ' = [e.mode, e.objectId, e.stage] := by
  have hmode : ' ' ∉ e.mode := fun h =>
    ne_of_isObjectIdDigit (e.isObjectIdDigit_of_mem_mode h) (.inl (by decide)) rfl
  have hobject : ' ' ∉ e.objectId := fun h =>
    ne_of_isObjectIdDigit (e.isObjectIdDigit_of_mem_objectId h) (.inl (by decide)) rfl
  have hstage : ' ' ∉ e.stage := fun h =>
    ne_of_isObjectIdDigit (e.isObjectIdDigit_of_mem_stage h) (.inl (by decide)) rfl
  rw [header, splitOn_append_cons_self, splitOn_append_cons_self,
    splitOn_eq_singleton hmode, splitOn_eq_singleton hobject,
    splitOn_eq_singleton hstage]
  rfl

end IndexEntry

theorem takeWhile_append_tab {header rest : PathText} (h : tab ∉ header) :
    (header ++ tab :: rest).takeWhile (· ≠ tab) = header := by
  have hall : ∀ c ∈ header, decide (c ≠ tab) = true := fun c hc =>
    decide_eq_true fun heq => h (heq ▸ hc)
  rw [takeWhile_append_of_pos hall]
  simp

theorem drop_append_tab (header rest : PathText) :
    (header ++ tab :: rest).drop (header.length + 1) = rest := by
  rw [← drop_drop, drop_left]
  rfl

variable {chunk : List PathText}

theorem parseRecord_text (e : IndexEntry) (h : e.path ∈ chunk) :
    parseRecord chunk e.text = .ok e.record := by
  have htab : tab ∉ e.header := e.not_mem_header (by decide) (.inl (by decide))
  have hheader : e.text.takeWhile (· ≠ tab) = e.header := takeWhile_append_tab htab
  have hdrop : e.text.drop (e.header.length + 1) = e.path := drop_append_tab e.header e.path
  have hterminator : e.header.any isLineTerminator = false := by
    rw [any_eq_false]
    intro c hc
    obtain rfl | hdigit := e.mem_header hc
    · decide
    · rw [isLineTerminator_of_isObjectIdDigit hdigit]
      exact Bool.false_ne_true
  have hne : e.text ≠ [] := by simp [IndexEntry.text]
  have hmem : tab ∈ e.text := by simp [IndexEntry.text]
  simp only [parseRecord, if_neg hne, hheader, hdrop, e.header_ne_nil, hmem, hterminator,
    e.splitOn_header, e.mode_valid, e.objectId_valid, e.stage_valid, e.path_ne_nil, h,
    not_true_eq_false, or_self, if_false, Bool.not_true, Bool.false_eq_true]
  rfl

theorem header_append_pathname {record : PathText} (h : tab ∈ record) :
    record.takeWhile (· ≠ tab) ++
      tab :: record.drop ((record.takeWhile (· ≠ tab)).length + 1) = record := by
  obtain ⟨before, rest, rfl, hbefore⟩ := eq_append_cons_of_mem h
  rw [takeWhile_append_tab hbefore, drop_append_tab]

theorem exists_entry_of_parseRecord {record : PathText} {r : StageRecord} (hnul : nul ∉ record)
    (h : parseRecord chunk record = .ok r) :
    ∃ e : IndexEntry, e.text = record ∧ e.record = r ∧ e.path ∈ chunk := by
  unfold parseRecord at h
  split at h
  · cases h
  dsimp only at h
  split at h
  · cases h
  next htab =>
  rw [not_or, not_not] at htab
  split at h
  · cases h
  split at h
  next mode objectId stage hsplit =>
    split at h
    · cases h
    next hmode =>
    split at h
    · cases h
    next hobject =>
    split at h
    · cases h
    next hstage =>
    split at h
    · cases h
    next hpath =>
    rw [not_or, not_not] at hpath
    have hrecord := header_append_pathname htab.2
    have hheader : record.takeWhile (· ≠ tab) = mode ++ ' ' :: (objectId ++ ' ' :: stage) := by
      have hparts : [' '].intercalate ((record.takeWhile (· ≠ tab)).splitOn ' ') =
          record.takeWhile (· ≠ tab) := intercalate_splitOn ' '
      rw [hsplit] at hparts
      simpa [List.intercalate] using hparts.symm
    have hpathNul : nul ∉ record.drop ((record.takeWhile (· ≠ tab)).length + 1) :=
      fun hmem => hnul (mem_of_mem_drop hmem)
    let e : IndexEntry :=
      { mode, objectId, stage
        path := record.drop ((record.takeWhile (· ≠ tab)).length + 1)
        mode_valid := by simpa using hmode
        objectId_valid := by simpa using hobject
        stage_valid := by simpa using hstage
        path_ne_nil := hpath.1
        path_nul := hpathNul }
    have htext : e.text = record := by
      rw [IndexEntry.text, IndexEntry.header, ← hheader]
      exact hrecord
    cases h
    exact ⟨e, htext, by rw [IndexEntry.record, htext], hpath.2⟩
  · cases h

/-! ### Accepted answers -/

theorem mapM_eq_ok_iff {α β ε : Type} {f : α → Except ε β} {items : List α} {results : List β} :
    items.mapM f = .ok results ↔ List.Forall₂ (fun a b => f a = .ok b) items results := by
  induction items generalizing results with
  | nil =>
    rw [mapM_nil, forall₂_nil_left_iff]
    exact ⟨fun h => (Except.ok.inj h).symm, fun h => congrArg Except.ok h.symm⟩
  | cons item items ih =>
    rw [mapM_cons, forall₂_cons_left_iff]
    constructor
    · intro h
      cases hitem : f item with
      | error e => rw [hitem] at h; cases h
      | ok result =>
        cases hrest : items.mapM f with
        | error e => rw [hitem, hrest] at h; cases h
        | ok rest =>
          rw [hitem, hrest] at h
          cases h
          exact ⟨result, rest, rfl, ih.mp hrest, rfl⟩
    · rintro ⟨result, rest, hitem, hrest, rfl⟩
      rw [hitem, ih.mpr hrest]
      rfl

/-- The output that lists the entries. -/
def renderEntries (entries : List IndexEntry) : PathText :=
  entries.flatMap fun e => e.text ++ [nul]

theorem renderRecords_map (entries : List IndexEntry) :
    renderRecords (entries.map (·.record)) = renderEntries entries := by
  rw [renderRecords, renderEntries, flatMap_map]
  rfl

/-- An output is accepted exactly when it lists entries of the chunk completely. -/
theorem parseOutput_eq_ok_iff {output : PathText} {records : List StageRecord} :
    parseOutput chunk output = .ok records ↔ ∃ entries : List IndexEntry,
      entries.map (·.record) = records ∧ output = renderEntries entries ∧
        ∀ e ∈ entries, e.path ∈ chunk := by
  constructor
  · intro h
    unfold parseOutput at h
    split at h
    next hempty =>
      cases h
      exact ⟨[], rfl, hempty, nofun⟩
    split at h
    · cases h
    next hlast =>
    obtain ⟨body, rfl⟩ := List.getLast?_eq_some_iff.mp (not_not.mp hlast)
    obtain ⟨lines, hlines, hbody⟩ := exists_lines body nul
    rw [hbody, splitOn_flatMap_concat hlines, dropLast_concat, mapM_eq_ok_iff] at h
    rw [hbody]
    clear hlast hbody
    induction h with
    | nil => exact ⟨[], rfl, rfl, nofun⟩
    | cons hline _ ih =>
      obtain ⟨e, htext, hrecord, hpath⟩ :=
        exists_entry_of_parseRecord (hlines _ mem_cons_self) hline
      obtain ⟨entries, hrecords, hrest, hpaths⟩ :=
        ih fun line hmem => hlines line (mem_cons_of_mem _ hmem)
      refine ⟨e :: entries, ?_, ?_, ?_⟩
      · rw [map_cons, hrecord, hrecords]
      · rw [flatMap_cons, hrest, ← htext]
        rfl
      · intro other hother
        obtain rfl | hold := mem_cons.mp hother
        · exact hpath
        · exact hpaths other hold
  · rintro ⟨entries, rfl, rfl, hpaths⟩
    unfold parseOutput
    by_cases hempty : entries = []
    · rw [hempty]
      rfl
    have hlines : ∀ line ∈ entries.map (·.text), nul ∉ line := by
      intro line hline
      obtain ⟨e, -, rfl⟩ := mem_map.mp hline
      exact e.nul_not_mem_text
    have hrender : renderEntries entries =
        (entries.map (·.text)).flatMap fun line => line ++ [nul] := by
      rw [renderEntries, flatMap_map]
    have hlast : (renderEntries entries).getLast? = some nul := by
      obtain ⟨front, e, rfl⟩ := (eq_nil_or_concat' entries).resolve_left hempty
      simp [renderEntries]
    have hne : renderEntries entries ≠ [] := by
      intro hnil
      rw [hnil] at hlast
      cases hlast
    rw [if_neg hne, if_neg (not_not.mpr hlast), hrender, splitOn_flatMap_concat hlines,
      dropLast_concat, mapM_eq_ok_iff, forall₂_map_left_iff,
      forall₂_map_right_iff, forall₂_same]
    exact fun e he => parseRecord_text e (hpaths e he)

/-- The command succeeded and its output lists the entries, all of paths of the chunk. -/
structure Answered (runChunkQuery : List PathText → Option CommandResult)
    (chunk : List PathText) (entries : List IndexEntry) : Prop where
  output : ∃ result, runChunkQuery chunk = some result ∧ result.exitCode = .status 0 ∧
    result.stdout = renderEntries entries
  asked : ∀ e ∈ entries, e.path ∈ chunk

theorem queryChunk_eq_ok_iff {runChunkQuery : List PathText → Option CommandResult}
    {records : List StageRecord} :
    queryChunk runChunkQuery chunk = .ok records ↔ ∃ entries : List IndexEntry,
      entries.map (·.record) = records ∧ Answered runChunkQuery chunk entries := by
  unfold queryChunk
  cases hresult : runChunkQuery chunk with
  | none =>
    refine ⟨nofun, ?_⟩
    rintro ⟨_, _, ⟨result, hsome, -⟩, -⟩
    rw [hresult] at hsome
    cases hsome
  | some result =>
    by_cases hcode : result.exitCode = .status 0
    · dsimp only
      rw [if_pos hcode, parseOutput_eq_ok_iff]
      constructor
      · rintro ⟨entries, hrecords, houtput, hpaths⟩
        exact ⟨entries, hrecords, ⟨result, hresult, hcode, houtput⟩, hpaths⟩
      · rintro ⟨entries, hrecords, ⟨other, hother, -, houtput⟩, hpaths⟩
        rw [hresult] at hother
        cases hother
        exact ⟨entries, hrecords, houtput, hpaths⟩
    · dsimp only
      rw [if_neg hcode]
      constructor
      · intro h
        split at h
        · cases h
        split at h
        · cases h
        split at h <;> cases h
      · rintro ⟨_, _, ⟨other, hother, hstatus, -⟩, -⟩
        rw [hresult] at hother
        cases hother
        exact absurd hstatus hcode

/-- The stages of a path in an index: at most one entry, or distinct stages other than
zero. -/
def Consistent (entries : List IndexEntry) : Prop :=
  entries.length ≤ 1 ∨ ((entries.map (·.stage)).Nodup ∧ ['0'] ∉ entries.map (·.stage))

theorem IndexEntry.stage_eq_of_text_eq {e other : IndexEntry} (h : e.text = other.text) :
    e.stage = other.stage := by
  have hheader : e.header = other.header := by
    rw [← takeWhile_append_tab (e.not_mem_header (c := tab) (by decide) (.inl (by decide))),
      ← takeWhile_append_tab (other.not_mem_header (c := tab) (by decide) (.inl (by decide)))]
    exact congrArg (List.takeWhile (· ≠ tab)) h
  have hsplit : [e.mode, e.objectId, e.stage] = [other.mode, other.objectId, other.stage] := by
    rw [← e.splitOn_header, ← other.splitOn_header, hheader]
  simp only [List.cons.injEq, and_true] at hsplit
  exact hsplit.2.2

theorem contradiction_eq_none_iff {file : PathText} {entries : List IndexEntry} :
    contradiction file (entries.map (·.record)) = none ↔ Consistent entries := by
  have hstages : (entries.map (·.record)).map (·.stage) = entries.map (·.stage) := by
    rw [map_map]
    rfl
  have htexts : (entries.map (·.record)).map (·.text) = entries.map (·.text) := by
    rw [map_map]
    rfl
  have hdistinct : (entries.map (·.stage)).Nodup → (entries.map (·.text)).Nodup := by
    intro hnodup
    rw [List.Nodup, pairwise_map] at hnodup ⊢
    exact hnodup.imp fun hstage htext => hstage (IndexEntry.stage_eq_of_text_eq htext)
  unfold contradiction Consistent
  rw [hstages, htexts, length_map]
  by_cases hshort : entries.length ≤ 1
  · simp [hshort]
  by_cases hnodup : (entries.map (·.stage)).Nodup
  · by_cases hzero : ['0'] ∈ entries.map (·.stage)
    · simp [hshort, hnodup, hdistinct hnodup, hzero]
    · simp [hshort, hnodup, hdistinct hnodup, hzero]
  · by_cases htext : (entries.map (·.text)).Nodup
    · simp [hshort, hnodup, htext]
    · simp [hshort, hnodup, htext]

def entriesOf (file : PathText) (entries : List IndexEntry) : List IndexEntry :=
  entries.filter (·.path = file)

theorem filter_records (file : PathText) (answers : List (List IndexEntry)) :
    (answers.map fun entries => entries.map (·.record)).flatten.filter (·.path = file) =
      (entriesOf file answers.flatten).map (·.record) := by
  rw [← map_flatten, filter_map, entriesOf]
  rfl

section

variable {runChunkQuery : List PathText → Option CommandResult}

theorem queries_eq_ok_iff {chunks : List (List PathText)} {records : List (List StageRecord)} :
    chunks.mapM (queryChunk runChunkQuery) = .ok records ↔
      ∃ answers : List (List IndexEntry), List.Forall₂ (Answered runChunkQuery) chunks answers ∧
        records = answers.map fun entries => entries.map (·.record) := by
  rw [mapM_eq_ok_iff]
  constructor
  · intro h
    induction h with
    | nil => exact ⟨[], .nil, rfl⟩
    | cons hchunk _ ih =>
      obtain ⟨entries, rfl, hentries⟩ := queryChunk_eq_ok_iff.mp hchunk
      obtain ⟨answers, hanswers, rfl⟩ := ih
      exact ⟨entries :: answers, .cons hentries hanswers, rfl⟩
  · rintro ⟨answers, hanswers, rfl⟩
    rw [forall₂_map_right_iff]
    exact hanswers.imp fun _ entries hentries => queryChunk_eq_ok_iff.mpr ⟨entries, rfl, hentries⟩

/-- The query succeeds exactly when all commands answered and no path is contradictory;
its map then renders all entries of all answers. -/
theorem stageRecordsOver_eq_ok_iff {wanted : List PathText} {chunks : List (List PathText)}
    (hchunks : chunks.flatten = wanted) {snapshot : List (PathText × PathText)} :
    stageRecordsOver wanted chunks runChunkQuery = .ok snapshot ↔
      ∃ answers : List (List IndexEntry),
        List.Forall₂ (Answered runChunkQuery) chunks answers ∧
        (∀ file ∈ wanted, Consistent (entriesOf file answers.flatten)) ∧
        snapshot = wanted.map fun file =>
          (file, renderEntries (entriesOf file answers.flatten)) := by
  have hlength : ¬ chunks.flatten.length ≠ wanted.length := by
    rw [hchunks]
    exact fun h => h rfl
  rw [stageRecordsOver, if_neg hlength]
  -- what follows the answers, for any answers
  have hfinish : ∀ answers : List (List IndexEntry),
      (match wanted.findSome? fun file => contradiction file
          ((answers.map fun entries => entries.map (·.record)).flatten.filter (·.path = file)) with
        | some error => .error error
        | none => .ok (wanted.map fun file => (file, renderRecords
          ((answers.map fun entries => entries.map (·.record)).flatten.filter
            (·.path = file)))) : Except IndexQueryError _) = .ok snapshot ↔
      (∀ file ∈ wanted, Consistent (entriesOf file answers.flatten)) ∧
        snapshot = wanted.map fun file =>
          (file, renderEntries (entriesOf file answers.flatten)) := by
    intro answers
    simp only [filter_records, renderRecords_map]
    cases hfind : wanted.findSome? fun file =>
        contradiction file ((entriesOf file answers.flatten).map (·.record)) with
    | some error =>
      refine ⟨nofun, ?_⟩
      rintro ⟨hconsistent, -⟩
      obtain ⟨file, hfile, herror⟩ := exists_of_findSome?_eq_some hfind
      rw [contradiction_eq_none_iff.mpr (hconsistent file hfile)] at herror
      cases herror
    | none =>
      rw [List.findSome?_eq_none_iff] at hfind
      constructor
      · intro h
        exact ⟨fun file hfile => contradiction_eq_none_iff.mp (hfind file hfile),
          (Except.ok.inj h).symm⟩
      · rintro ⟨-, rfl⟩
        rfl
  constructor
  · intro h
    cases hmap : chunks.mapM (queryChunk runChunkQuery) with
    | error e => rw [hmap] at h; cases h
    | ok records =>
      obtain ⟨answers, hanswers, rfl⟩ := queries_eq_ok_iff.mp hmap
      rw [hmap] at h
      exact ⟨answers, hanswers, (hfinish answers).mp h⟩
  · rintro ⟨answers, hanswers, hrest⟩
    rw [queries_eq_ok_iff.mpr ⟨answers, hanswers, rfl⟩]
    exact (hfinish answers).mpr hrest

end

end AgentBridge.Integration
