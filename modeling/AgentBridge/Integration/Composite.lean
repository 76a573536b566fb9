import AgentBridge.Globs.Validation
import AgentBridge.Integration.Overlaps
import AgentBridge.Systems.Edits
import AgentBridge.Systems.Utf8

/-!
# The composite patch of a batch

`collectIntegrationBatchPatch` and `integrationBatchItemAtLine`. The patches of the items are
concatenated in the caller's order, each with the final newline that it may lack, and the
summary of an item holds the lines of the combined text that are its own. What `git apply`
makes of a patch is a list of edits, one for every section that begins with a header line.
-/

namespace AgentBridge.Integration

open AgentBridge.Globs AgentBridge.Paths AgentBridge.Systems List

/-! ### Items and their patches -/

structure SourceIdentity where
  sourceBaseCommit : String
  patchSha256 : String
  sourceStateSha256 : String
  deriving DecidableEq

structure BatchItem where
  worktreePath : String
  branch : String
  allowedEdits : List PathText
  expectedSourceIdentity : Option SourceIdentity

structure CollectedPatch where
  sourceType : String
  source : String
  changedFiles : List PathText
  patchBytes : List Nat
  patchSha256 : String
  sourceStateSha256 : String
  sourceBaseCommit : String
  sourceHead : String

/-- `patchBytes.toString("utf8")` -/
def CollectedPatch.patch (collected : CollectedPatch) : List Char :=
  Utf8.decode collected.patchBytes

def newline : Nat := 0x0A

/-- The bytes of an item in the combined patch. -/
def CollectedPatch.chunk (collected : CollectedPatch) : List Nat :=
  terminate newline collected.patchBytes

structure BatchSummary where
  index : Nat
  sourceType : String
  source : String
  changedFiles : List PathText
  patchSha256 : String
  sourceStateSha256 : String
  sourceBaseCommit : String
  sourceHead : String
  patchLineStart : Nat
  patchLineCount : Nat
  deriving DecidableEq

structure CompositePatch where
  source : String
  changedFiles : List PathText
  patch : List Char
  patchBytes : List Nat
  patchSha256 : String
  sourceStateSha256 : String
  sourceBaseCommit : String
  items : List BatchSummary
  deriving DecidableEq

/-- `chunk.toString("utf8").split("\n").length - 1` -/
def patchLineCount (collected : CollectedPatch) : Nat :=
  ((Utf8.decode collected.chunk).splitOn '\n').length - 1

def summarize (collected : CollectedPatch) (index lineStart : Nat) : BatchSummary where
  index := index
  sourceType := collected.sourceType
  source := collected.source
  changedFiles := normalizeLockPathList collected.changedFiles
  patchSha256 := collected.patchSha256
  sourceStateSha256 := collected.sourceStateSha256
  sourceBaseCommit := collected.sourceBaseCommit
  sourceHead := collected.sourceHead
  patchLineStart := lineStart
  patchLineCount := patchLineCount collected

/-- The summaries of the items from the given number on, at the given line. -/
def summaries (index lineStart : Nat) : List CollectedPatch → List BatchSummary
  | [] => []
  | collected :: rest =>
    summarize collected index lineStart ::
      summaries (index + 1) (lineStart + patchLineCount collected) rest

/-- The UTF-16 code units of a character, by which `sort` compares. -/
def utf16 (c : Char) : List Nat :=
  if c.toNat < 0x10000 then [c.toNat]
  else [0xD800 + (c.toNat - 0x10000) / 0x400, 0xDC00 + (c.toNat - 0x10000) % 0x400]

/-- `values.sort()` -/
def sortText (values : List PathText) : List PathText :=
  values.insertionSort fun a b => a.flatMap utf16 ≤ b.flatMap utf16

/-! ### The batch -/

/-- The machine, the sources that Git collects and the hashes. -/
structure BatchHost extends MatchHost where
  collect : BatchItem → String → Except String CollectedPatch
  sha256Bytes : List Nat → String
  sha256 : String → String
  stringify : List (List String) → String

structure BatchCall where
  cwd : Option Directory
  items : List BatchItem
  sourceBaseCommit : String
  forbiddenEdits : List PathText
  sharedFiles : List PathText
  serialOnly : List PathText

structure BatchFailure where
  errorType : String
  batchItemNumbers : List Nat := []
  changedFiles : List PathText := []
  disallowedFiles : List PathText := []
  serialOnlyMatches : List PathText := []
  overlappingPaths : List BatchConflict := []
  deriving DecidableEq

def integrationBatchMaxItems : Nat := 25

def defaultForbiddenEditPaths : List PathText :=
  [".env", ".env.*", "**/.env", "**/.env.*", "*.pem", "**/*.pem", "*.key", "**/*.key",
    "secrets/**", "**/secrets/**", ".git", ".git/**", "**/.git", "**/.git/**"].map String.toList

def integrationScopePlan (call : BatchCall) (allowedEdits : List PathText) : LockPlan where
  cwd := call.cwd
  lockType := .write
  allowedEdits := normalizeLockPathList allowedEdits
  forbiddenEdits := mergePathLists [defaultForbiddenEditPaths, call.forbiddenEdits]
  sharedFiles := normalizeLockPathList call.sharedFiles
  serialOnly := normalizeLockPathList call.serialOnly
  scopeContract := none

/-- The numbers, from 1, of the entries that satisfy the check. -/
def itemNumbers {α : Type} (check : α → Bool) (values : List α) : List Nat :=
  (values.zipIdx.filter fun entry => check entry.1).map fun entry => entry.2 + 1

def malformedItem (item : BatchItem) : Bool :=
  (item.worktreePath ≠ "") = (item.branch ≠ "") ∨ normalizeLockPathList item.allowedEdits = []

/-- An item of a queue job collects against the base that its job finished with. -/
def itemBase (call : BatchCall) (item : BatchItem) : String :=
  let baseHint := if isObjectId call.sourceBaseCommit then call.sourceBaseCommit else ""
  match item.expectedSourceIdentity with
  | some expected =>
    if expected.sourceBaseCommit = "" then baseHint else expected.sourceBaseCommit
  | none => baseHint

/-- The patches of all items, or the first failure with the number of its item. -/
def collectItems (host : BatchHost) (call : BatchCall) :
    Nat → List BatchItem → Except BatchFailure (List CollectedPatch)
  | _, [] => .ok []
  | index, item :: rest =>
    match host.collect item (itemBase call item) with
    | .error errorType => .error { errorType := errorType, batchItemNumbers := [index + 1] }
    | .ok collected =>
      match collectItems host call (index + 1) rest with
      | .error failure => .error failure
      | .ok others => .ok (collected :: others)

def changedSource (entry : BatchItem × CollectedPatch) : Bool :=
  match entry.1.expectedSourceIdentity with
  | none => false
  | some expected => decide (SourceIdentity.mk entry.2.sourceBaseCommit entry.2.patchSha256
      entry.2.sourceStateSha256 ≠ expected)

def changedFileValidationErrorType (report : Report) : String :=
  if report.scopeViolations.forbiddenFiles ≠ [] then "forbidden_file_changed"
  else if report.scopeViolations.outsideWriteScope ≠ [] ∨
      report.scopeViolations.readOnlyChangedFiles ≠ [] then "changed_file_validation_error"
  else if report.forbiddenFiles ≠ [] then "forbidden_file_changed"
  else if report.sharedFiles ≠ [] then "shared_file_parallel_write"
  else if report.serialOnlyMatches ≠ [] then "serial_only_parallel_write"
  else "changed_file_validation_error"

/-- The report of every item whose patch leaves its scope, with the index of the item. -/
def outOfScope (host : BatchHost) (call : BatchCall) (entries : List (BatchItem × CollectedPatch)) :
    Except String (List (Nat × Report)) :=
  entries.zipIdx.filterMapM fun (entry, index) => do
    let report ← validateChangedFilesForPlan host.toMatchHost entry.2.changedFiles
      (integrationScopePlan call entry.1.allowedEdits) false
    return if report.disallowedFiles = [] then none else some (index, report)

/-- The serial-only paths of the caller that each item of a larger batch changes. -/
def serialItems (host : BatchHost) (call : BatchCall) (collected : List CollectedPatch) :
    Except String (List (Nat × List PathText)) :=
  let patterns := normalizeLockPathList call.serialOnly
  if collected.length ≤ 1 ∨ patterns = [] then .ok []
  else collected.zipIdx.filterMapM fun (patch, index) => do
    let pairs := (normalizeLockPathList patch.changedFiles).flatMap fun file =>
      patterns.map fun pattern => (file, pattern)
    let found ← pairs.filterMapM (serialMatch host.toMatchHost call.cwd)
    return if found = [] then none else some (index, found)

def compose (host : BatchHost) (collected : List CollectedPatch) : CompositePatch :=
  let patchBytes := (collected.map CollectedPatch.chunk).flatten
  let identity := collected.map fun patch => [patch.sourceType, patch.source,
    patch.sourceBaseCommit, patch.sourceHead, patch.patchSha256, patch.sourceStateSha256]
  let bases := (collected.map CollectedPatch.sourceBaseCommit).eraseDups
  { source := "batch of " ++ toString collected.length ++ " item(s)"
    changedFiles := sortText (normalizeLockPathList (collected.flatMap CollectedPatch.changedFiles))
    patch := Utf8.decode patchBytes
    patchBytes := patchBytes
    patchSha256 := host.sha256Bytes patchBytes
    sourceStateSha256 :=
      host.sha256 ("integration-batch-v1\x00" ++ host.sha256 (host.stringify identity))
    sourceBaseCommit := match bases with
      | [base] => base
      | _ => "batch:" ++ host.sha256 ("\x00".intercalate bases)
    items := summaries 1 1 collected }

/-- The checks of the patches before they are composed. -/
def checkCollected (host : BatchHost) (call : BatchCall) (collected : List CollectedPatch) :
    Except String (Option BatchFailure) := do
  let changedFiles := normalizeLockPathList (collected.flatMap CollectedPatch.changedFiles)
  let entries := call.items.zip collected
  let changed := itemNumbers changedSource entries
  if changed ≠ [] then
    return some { errorType := "pipeline_source_identity_changed", batchItemNumbers := changed }
  let empty := itemNumbers (fun patch => decide (trim patch.patch = [])) collected
  if empty ≠ [] then
    return some { errorType := "integration_batch_item_empty", batchItemNumbers := empty }
  let pathless :=
    itemNumbers (fun patch => decide (normalizeLockPathList patch.changedFiles = [])) collected
  if pathless ≠ [] then
    return some { errorType := "integration_patch_paths_unknown", batchItemNumbers := pathless }
  let outside ← outOfScope host call entries
  match outside with
  | (_, first) :: _ =>
    return some {
      errorType := changedFileValidationErrorType first
      batchItemNumbers := outside.map fun entry => entry.1 + 1
      changedFiles := changedFiles
      disallowedFiles := normalizeLockPathList (outside.flatMap fun entry =>
        entry.2.disallowedFiles)
      serialOnlyMatches := first.serialOnlyMatches }
  | [] =>
    let overlapping :=
      integrationBatchOverlaps host.platform (collected.map CollectedPatch.changedFiles)
    if overlapping ≠ [] then
      return some {
        errorType := "integration_batch_overlap"
        batchItemNumbers := ((overlapping.flatMap fun conflict =>
          [conflict.items.1, conflict.items.2]).eraseDups).insertionSort (· ≤ ·)
        changedFiles := changedFiles
        overlappingPaths := overlapping.take 50 }
    let serial ← serialItems host call collected
    if serial ≠ [] then
      return some {
        errorType := "serial_only_parallel_write"
        batchItemNumbers := serial.map fun entry => entry.1 + 1
        changedFiles := changedFiles
        serialOnlyMatches := (serial.flatMap fun entry => entry.2).take 50 }
    return none

/-- The outer error is one that the matcher of a pattern throws. -/
def collectIntegrationBatchPatch (host : BatchHost) (call : BatchCall) :
    Except String (Except BatchFailure CompositePatch) :=
  if call.items = [] then .ok (.error { errorType := "integration_batch_empty" })
  else if integrationBatchMaxItems < call.items.length then
    .ok (.error { errorType := "integration_batch_too_large" })
  else if itemNumbers malformedItem call.items ≠ [] then
    .ok (.error { errorType := "integration_batch_item_invalid"
                  batchItemNumbers := itemNumbers malformedItem call.items })
  else
    match collectItems host call 0 call.items with
    | .error failure => .ok (.error failure)
    | .ok collected =>
      match checkCollected host call collected with
      | .error error => .error error
      | .ok (some failure) => .ok (.error failure)
      | .ok none => .ok (.ok (compose host collected))

structure BatchLine where
  item : Nat
  source : String
  line : Nat
deriving DecidableEq

def integrationBatchItemAtLine (items : List BatchSummary) (line : Nat) : Option BatchLine :=
  (items.find? fun candidate => candidate.patchLineStart ≤ line ∧
    line < candidate.patchLineStart + candidate.patchLineCount).map fun item =>
      ⟨item.index, item.source, line - item.patchLineStart + 1⟩

/-! ### The sections of a patch -/

/-- `diff --git ` -/
def headerMark : List Nat :=
  [0x64, 0x69, 0x66, 0x66, 0x20, 0x2D, 0x2D, 0x67, 0x69, 0x74, 0x20]

def isHeader (line : List Nat) : Bool := headerMark.isPrefixOf line

/-- The lines before the first header, and the sections from there on. -/
def sectionsFrom : List (List Nat) → List (List Nat) × List (List (List Nat))
  | [] => ([], [])
  | line :: lines =>
    if isHeader line then ([], (line :: (sectionsFrom lines).1) :: (sectionsFrom lines).2)
    else (line :: (sectionsFrom lines).1, (sectionsFrom lines).2)

/-- The sections of a patch; what stands before the first header is ignored. -/
def patchSections (bytes : List Nat) : List (List (List Nat)) :=
  (sectionsFrom (linesOf newline bytes)).2

/-- The edits of a patch, given how a section is read. -/
def patchEdits {Content : Type} (readSection : List (List Nat) → FileEdit PathText Content)
    (bytes : List Nat) : List (FileEdit PathText Content) :=
  (patchSections bytes).map readSection

/-- A patch as `git diff` writes it begins with a header. -/
def BeginsWithHeader (bytes : List Nat) : Prop :=
  ∃ line rest, linesOf newline bytes = line :: rest ∧ isHeader line

theorem sectionsFrom_append (lines : List (List Nat)) {others : List (List Nat)}
    (h : (sectionsFrom others).1 = []) :
    sectionsFrom (lines ++ others) =
      ((sectionsFrom lines).1, (sectionsFrom lines).2 ++ (sectionsFrom others).2) := by
  induction lines with
  | nil => exact Prod.ext h rfl
  | cons line lines ih =>
    rw [cons_append, sectionsFrom, sectionsFrom, ih]
    split <;> rfl

theorem sectionsFrom_of_begins {bytes : List Nat} (h : BeginsWithHeader bytes) :
    (sectionsFrom (linesOf newline bytes)).1 = [] := by
  obtain ⟨line, rest, hlines, hheader⟩ := h
  rw [hlines, sectionsFrom, if_pos hheader]

/-! ### The lines of the combined text -/

/-- The lines of a text, without the empty one after a final newline. -/
abbrev textLines (text : List Char) : List (List Char) := linesOf '\n' text

theorem linesOf_newline_decode (bytes : List Nat) :
    textLines (Utf8.decode bytes) = (linesOf newline bytes).map Utf8.decode :=
  Utf8.linesOf_decode (show newline < 0x80 by decide) bytes

theorem linesOf_chunks (collected : List CollectedPatch) :
    linesOf newline (collected.map CollectedPatch.chunk).flatten =
      (collected.map fun patch => linesOf newline patch.patchBytes).flatten := by
  rw [linesOf_flatten, map_map]
  · exact congrArg _ (map_congr_left fun patch _ => linesOf_terminate patch.patchBytes)
  · intro text htext
    obtain ⟨patch, -, rfl⟩ := mem_map.mp htext
    exact terminated_terminate patch.patchBytes

theorem textLines_compose (host : BatchHost) (collected : List CollectedPatch) :
    textLines (compose host collected).patch =
      (collected.map fun patch => textLines patch.patch).flatten := by
  show textLines (Utf8.decode (collected.map CollectedPatch.chunk).flatten) = _
  rw [linesOf_newline_decode, linesOf_chunks, map_flatten, map_map]
  exact congrArg _ (map_congr_left fun patch _ => (linesOf_newline_decode _).symm)

theorem patchLineCount_eq (collected : CollectedPatch) :
    patchLineCount collected = (textLines collected.patch).length := by
  have hsplit : (Utf8.decode collected.chunk).splitOn '\n' =
      (collected.chunk.splitOn newline).map Utf8.decode :=
    Utf8.splitOn_decode (show newline < 0x80 by decide) collected.chunk
  rw [patchLineCount, hsplit, length_map, CollectedPatch.chunk,
    ← length_linesOf (terminated_terminate _), linesOf_terminate, CollectedPatch.patch,
    linesOf_newline_decode, length_map]

variable {collected : List CollectedPatch}

theorem itemAtLine_summaries {i : Nat} {patch : CollectedPatch}
    (hpatch : collected[i]? = some patch) {l : Nat} (hpos : 1 ≤ l) (hl : l ≤ patchLineCount patch)
    (index lineStart : Nat) :
    integrationBatchItemAtLine (summaries index lineStart collected)
        (lineStart + ((collected.take i).map patchLineCount).sum + l - 1) =
      some ⟨index + i, patch.source, l⟩ := by
  induction collected generalizing i index lineStart with
  | nil => cases hpatch
  | cons first rest ih =>
    cases i with
    | zero =>
      cases hpatch
      rw [summaries, integrationBatchItemAtLine, List.find?_cons_of_pos]
      · show some (BatchLine.mk index patch.source _) = _
        simp only [summarize, take_zero, map_nil, sum_nil]
        congr 2
        omega
      · simp only [summarize, take_zero, map_nil, sum_nil, decide_eq_true_eq]
        omega
    | succ i =>
      have hrest := ih hpatch (index + 1) (lineStart + patchLineCount first)
      rw [integrationBatchItemAtLine] at hrest ⊢
      rw [summaries, List.find?_cons_of_neg]
      · rw [take_succ_cons, map_cons, sum_cons, ← Nat.add_assoc, hrest]
        congr 2
        omega
      · simp only [summarize, take_succ_cons, map_cons, sum_cons,
          decide_eq_true_eq]
        omega

theorem exists_item_of_line {line : Nat} (hpos : 1 ≤ line)
    (h : line ≤ (collected.map patchLineCount).sum) :
    ∃ i patch l, collected[i]? = some patch ∧ 1 ≤ l ∧ l ≤ patchLineCount patch ∧
      line = ((collected.take i).map patchLineCount).sum + l := by
  induction collected generalizing line with
  | nil =>
    rw [map_nil, sum_nil] at h
    omega
  | cons first rest ih =>
    rw [map_cons, sum_cons] at h
    by_cases hfirst : line ≤ patchLineCount first
    · exact ⟨0, first, line, rfl, hpos, hfirst, by simp⟩
    · obtain ⟨i, patch, l, hpatch, hl, hcount, hline⟩ :=
        ih (show 1 ≤ line - patchLineCount first by omega) (by omega)
      refine ⟨i + 1, patch, l, hpatch, hl, hcount, ?_⟩
      rw [take_succ_cons, map_cons, sum_cons]
      omega

/-! ### The composite patch is faithful -/

/-- Read as edits in whatever way, the combined patch does to every tree what the patches of
the items do in every order, provided that they edit paths that are apart. -/
def AppliesAsItems (patchBytes : List Nat) (collected : List CollectedPatch) : Prop :=
  ∀ (Content : Type) (readSection : List (List Nat) → FileEdit PathText Content),
    (∀ patch ∈ collected, BeginsWithHeader patch.patchBytes) →
    collected.Pairwise (fun first second => PatchesApart Above
      (patchEdits readSection first.patchBytes) (patchEdits readSection second.patchBytes)) →
    ∀ order, collected.Perm order → ∀ tree,
      applyPatch Above (patchEdits readSection patchBytes) tree =
        applyPatches Above (order.map fun patch => patchEdits readSection patch.patchBytes) tree

/-- Items that edit the paths that they list are apart. -/
def ListedAreApart (platform : Platform) (collected : List CollectedPatch) : Prop :=
  LowerCase platform.toLowerCase →
    ∀ (Content : Type) (readSection : List (List Nat) → FileEdit PathText Content),
      (∀ patch ∈ collected, ∀ edit ∈ patchEdits readSection patch.patchBytes,
        edit.path ∈ normalizeLockPathList patch.changedFiles) →
      collected.Pairwise (fun first second => PatchesApart Above
        (patchEdits readSection first.patchBytes) (patchEdits readSection second.patchBytes))

/-- The line is line `l` of item `i`: it counts the lines of the items before and has the text
that line `l` of the item's own patch has. -/
structure LineOf (composite : CompositePatch) (collected : List CollectedPatch) (line i l : Nat)
    (patch : CollectedPatch) : Prop where
  item : collected[i]? = some patch
  positive : 1 ≤ l
  within : l ≤ (textLines patch.patch).length
  position : line = ((collected.take i).map fun before => (textLines before.patch).length).sum + l
  text : (textLines composite.patch)[line - 1]? = (textLines patch.patch)[l - 1]?

/-- Every line of the combined text is placed. -/
def LinesNamed (composite : CompositePatch) (collected : List CollectedPatch) : Prop :=
  ∀ line, 1 ≤ line → line ≤ (textLines composite.patch).length →
    ∃ i l patch, LineOf composite collected line i l patch ∧
      integrationBatchItemAtLine composite.items line = some ⟨i + 1, patch.source, l⟩

theorem patchEdits_chunks {Content : Type}
    (readSection : List (List Nat) → FileEdit PathText Content)
    (begins : ∀ patch ∈ collected, BeginsWithHeader patch.patchBytes) :
    patchEdits readSection (collected.map CollectedPatch.chunk).flatten =
      (collected.map fun patch => patchEdits readSection patch.patchBytes).flatten := by
  have hsections : (sectionsFrom
      (collected.map fun patch => linesOf newline patch.patchBytes).flatten) =
        ([], (collected.map fun patch => patchSections patch.patchBytes).flatten) := by
    induction collected with
    | nil => rfl
    | cons first rest ih =>
      have hrest := ih fun patch hpatch => begins patch (mem_cons_of_mem _ hpatch)
      rw [map_cons, flatten_cons, sectionsFrom_append _ (by rw [hrest]), hrest,
        sectionsFrom_of_begins (begins first mem_cons_self)]
      rfl
  rw [patchEdits, patchSections, linesOf_chunks, hsections, map_flatten, map_map]
  rfl

theorem compose_appliesAsItems (host : BatchHost) (collected : List CollectedPatch) :
    AppliesAsItems (compose host collected).patchBytes collected := by
  intro Content readSection begins apart order perm tree
  show applyPatch Above
    (patchEdits readSection (collected.map CollectedPatch.chunk).flatten) tree = _
  rw [patchEdits_chunks readSection begins, applyPatch_flatten]
  refine (applyPatches_perm ?_ (perm.map _) tree).symm
  exact pairwise_map.mpr apart

theorem listedAreApart_of_noOverlap {platform : Platform}
    (h : integrationBatchOverlaps platform (collected.map CollectedPatch.changedFiles) = []) :
    ListedAreApart platform collected := by
  intro lower Content readSection listed
  rw [pairwise_iff_getElem]
  intro i j hi hj hij e he f hf
  have hfiles : ∀ {k : Nat} (hk : k < collected.length) {path : PathText},
      path ∈ normalizeLockPathList collected[k].changedFiles →
        (k, path) ∈ batchFiles (collected.map CollectedPatch.changedFiles) := by
    intro k hk path hpath
    refine mem_batchFiles.mpr ⟨collected[k].changedFiles, ?_, hpath⟩
    rw [List.getElem?_map, List.getElem?_eq_getElem hk]
    rfl
  have hdisjoint : ¬KeysOverlap (platform.toLowerCase e.path) (platform.toLowerCase f.path) :=
    fun hoverlap => overlaps_ne_nil
      (hfiles hi (listed _ (getElem_mem hi) e he))
      (hfiles hj (listed _ (getElem_mem hj) f hf)) (by omega) hoverlap h
  constructor
  · intro heq
    exact hdisjoint (.inl (by rw [heq]))
  · intro habove
    exact hdisjoint (.inr (.inl (habove.folded lower)))
  · intro hbelow
    exact hdisjoint (.inr (.inr (hbelow.folded lower)))

theorem compose_linesNamed (host : BatchHost) (collected : List CollectedPatch) :
    LinesNamed (compose host collected) collected := by
  intro line hpos hline
  have hcounts : ∀ patches : List CollectedPatch, patches.map patchLineCount =
      (patches.map fun patch => textLines patch.patch).map List.length := by
    intro patches
    rw [map_map]
    exact map_congr_left fun patch _ => patchLineCount_eq patch
  rw [textLines_compose, length_flatten, ← hcounts] at hline
  obtain ⟨i, patch, l, hpatch, hl, hcount, hposition⟩ := exists_item_of_line hpos hline
  refine ⟨i, l, patch, ⟨hpatch, hl, patchLineCount_eq patch ▸ hcount, ?_, ?_⟩, ?_⟩
  · rw [hposition, hcounts, map_map]
    rfl
  · have hgroup : (collected.map fun patch => textLines patch.patch)[i]? =
        some (textLines patch.patch) := by
      rw [List.getElem?_map, hpatch]
      rfl
    rw [textLines_compose, ← getElem?_flatten_of_getElem? hgroup
      (show l - 1 < _ by rw [← patchLineCount_eq]; omega), ← map_take, ← hcounts]
    congr 1
    omega
  · have hnamed := itemAtLine_summaries hpatch hl hcount 1 1
    rw [show 1 + ((collected.take i).map patchLineCount).sum + l - 1 = line by omega,
      Nat.add_comm] at hnamed
    exact hnamed

theorem mem_changedFiles_compose (host : BatchHost) (collected : List CollectedPatch)
    (file : PathText) :
    file ∈ (compose host collected).changedFiles ↔
      ∃ patch ∈ collected, file ∈ normalizeLockPathList patch.changedFiles := by
  show file ∈ sortText _ ↔ _
  rw [sortText, mem_insertionSort, mem_normalizeLockPathList]
  simp only [mem_normalizeLockPathList, mem_flatMap]
  constructor
  · rintro ⟨hne, value, ⟨patch, hpatch, hvalue⟩, hfile⟩
    exact ⟨patch, hpatch, hne, value, hvalue, hfile⟩
  · rintro ⟨patch, hpatch, hne, value, hvalue, hfile⟩
    exact ⟨hne, value, ⟨patch, hpatch, hvalue⟩, hfile⟩

variable {call : BatchCall} {host : BatchHost}

theorem noOverlap_of_checkCollected (h : checkCollected host call collected = .ok none) :
    integrationBatchOverlaps host.platform (collected.map CollectedPatch.changedFiles) = [] := by
  by_contra hne
  unfold checkCollected at h
  dsimp only at h
  split at h
  · cases h
  split at h
  · cases h
  split at h
  · cases h
  cases houtside : outOfScope host call (call.items.zip collected) with
  | error thrown =>
    rw [houtside] at h
    cases h
  | ok outside =>
    rw [houtside] at h
    cases outside with
    | cons first others => cases h
    | nil =>
      cases h

theorem composed_of_accepted {composite : CompositePatch}
    (h : collectIntegrationBatchPatch host call = .ok (.ok composite)) :
    ∃ collected, collectItems host call 0 call.items = .ok collected ∧
      checkCollected host call collected = .ok none ∧ composite = compose host collected := by
  rw [collectIntegrationBatchPatch] at h
  split at h
  · cases h
  split at h
  · cases h
  split at h
  · cases h
  cases hitems : collectItems host call 0 call.items with
  | error failure =>
    rw [hitems] at h
    cases h
  | ok collected =>
    rw [hitems] at h
    dsimp only at h
    cases hcheck : checkCollected host call collected with
    | error thrown =>
      rw [hcheck] at h
      cases h
    | ok verdict =>
      rw [hcheck] at h
      cases verdict with
      | some failure => cases h
      | none =>
        cases h
        exact ⟨collected, rfl, hcheck, rfl⟩

/-- The branch creates one file of one line. -/
def creationPatch (name : String) (content : String) : CollectedPatch where
  sourceType := "branch"
  source := name
  changedFiles := [name.toList]
  patchBytes := ("diff --git a/" ++ name ++ " b/" ++ name ++ "\n" ++ content).toList.map Char.toNat
  patchSha256 := name
  sourceStateSha256 := name
  sourceBaseCommit := "base"
  sourceHead := ""

/-- The patch of the first branch lacks its final newline. -/
def twoBranchHost : BatchHost where
  toMatchHost := posixHost
  collect item _ :=
    .ok (creationPatch item.branch (if item.branch = "a" then "+x" else "+y\n"))
  sha256Bytes bytes := toString bytes.length
  sha256 := id
  stringify lists := toString lists.length

def twoBranchCall : BatchCall where
  cwd := none
  items := [⟨"", "a", [['a']], none⟩, ⟨"", "b", [['b']], none⟩]
  sourceBaseCommit := ""
  forbiddenEdits := []
  sharedFiles := []
  serialOnly := []

def twoBranches : List CollectedPatch := [creationPatch "a" "+x", creationPatch "b" "+y\n"]

/-- Line 4 of the combined text is line 2 of the second patch. -/
example : integrationBatchItemAtLine (compose twoBranchHost twoBranches).items 4 =
    some ⟨2, "b", 2⟩ := by decide

end AgentBridge.Integration
