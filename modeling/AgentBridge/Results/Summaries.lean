import AgentBridge.Paths
import AgentBridge.Queue.Row
import AgentBridge.Results.Fit
import AgentBridge.Systems.Run

/-!
# Durable summaries of finished jobs

`queueRecordDurableSummary` of `lib/queue/store.js` and what a finished record goes through in
memory: its summary is stored, `releaseFinishedQueueDetails` drops its texts and keeps the
summary, and later calls summarise it again. A field that a release deletes or that a record
never had is `none`; the texts of JSON values stand for the values.
-/

namespace AgentBridge.Results

open Systems Bool

abbrev Text := List Char

/-- `record_json` keeps lengths and hashes of what only the encrypted details hold. -/
structure SummaryMetadata where
  taskSha256 : Text
  taskChars : Nat
  resultTextChars : Nat
  resultTextSha256 : Text
  resultTextTruncated : Bool
  resultDetailTextChars : Nat
  resultDetailTextTruncated : Bool
  errorReasonChars : Nat
  errorReasonSha256 : Text
  validationResultSha256 : Text
  privateDetailsChars : Nat
  privateDetailsSha256 : Text

structure JobRecord where
  status : QueueStatus
  errorType : Text
  completionOutcome : Text
  /-- `executionPromise` or `abortController` is there. -/
  executing : Bool
  writeMode : Bool
  noChanges : Bool
  hasChangedFiles : Bool
  hasPatchSha256 : Bool
  task : Option Text
  request : Option Text
  requestEncrypted : Option Text
  resultEncrypted : Option Text
  cancellationResultEncrypted : Option Text
  resultText : Option Text
  resultDetailText : Option Text
  errorReason : Option Text
  validationResult : Option Text
  sanitizedWorkspaceVerification : Option Text
  actualModelEvidence : Option Text
  dependencyRequest : Text
  resultReportTruncated : Bool
  resultFullChars : Nat
  metadata : SummaryMetadata

structure PrivateDetails where
  resultText : Text
  resultTextChars : Nat
  resultTextSha256 : Text
  resultTextTruncated : Bool
  resultDetailText : Text
  resultDetailTextChars : Nat
  resultDetailTextTruncated : Bool
  errorReason : Text
  validationResult : Text
  sanitizedWorkspaceVerification : Text
  actualModelEvidence : Text
  dependencyRequest : Text

structure DurableSummary where
  status : QueueStatus
  errorType : Text
  completionOutcome : Text
  dependencyRequest : Text
  metadata : SummaryMetadata

/-- What the summaries use from elsewhere: the redaction of texts and of the texts in a JSON
value, the hash, `JSON.stringify`, the encryption and the limits. A redacted hash is the hash. -/
structure SummaryHost where
  sqliteMode : Bool
  queueResultMaxChars : Nat
  maxSnapshotFileBytes : Nat
  sha256 : Text → Text
  redactSensitiveText : Text → Text
  sanitizePersistedValue : Text → Text
  stringify : PrivateDetails → Text
  byteLength : Text → Nat
  truncatedValidation : Text → Text
  encrypt : PrivateDetails → Text
  sha256_injective : Function.Injective sha256
  sha256_ne_nil : ∀ text, sha256 text ≠ []
  redact_sha256 : ∀ text, redactSensitiveText (sha256 text) = sha256 text
  redact_nil : redactSensitiveText [] = []

variable (host : SummaryHost)

def jsonNull : Text := "null".toList

namespace JobRecord

variable (record : JobRecord)

def redactedResult : Text := host.redactSensitiveText (record.resultText.getD [])

def redactedDetail : Text := host.redactSensitiveText (record.resultDetailText.getD [])

/-- The error text that the details hold before they are redacted. -/
def cutError : Text := truncateText (record.errorReason.getD []) 12000

end JobRecord

/-- The details with everything in them. -/
def fullDetails (record : JobRecord) : PrivateDetails where
  resultText := host.redactSensitiveText
    (truncateResultText (record.redactedResult host) host.queueResultMaxChars)
  resultTextChars := max (record.redactedResult host).length
    (max record.resultFullChars record.metadata.resultTextChars)
  resultTextSha256 := host.redactSensitiveText (host.sha256 (record.redactedResult host))
  resultTextTruncated := record.resultReportTruncated || record.metadata.resultTextTruncated
    || decide (host.queueResultMaxChars < (record.redactedResult host).length)
  resultDetailText := host.redactSensitiveText
    (truncateText (record.redactedDetail host) host.queueResultMaxChars)
  resultDetailTextChars := (record.redactedDetail host).length
  resultDetailTextTruncated := record.metadata.resultDetailTextTruncated
    || decide (host.queueResultMaxChars < (record.redactedDetail host).length)
  errorReason := host.redactSensitiveText record.cutError
  validationResult := host.sanitizePersistedValue (record.validationResult.getD jsonNull)
  sanitizedWorkspaceVerification :=
    host.sanitizePersistedValue (record.sanitizedWorkspaceVerification.getD jsonNull)
  actualModelEvidence := host.redactSensitiveText (record.actualModelEvidence.getD [])
  dependencyRequest := host.sanitizePersistedValue record.dependencyRequest

/-- The full details do not fit the limit. -/
def oversized (record : JobRecord) : Bool :=
  decide (host.maxSnapshotFileBytes < host.byteLength (host.stringify (fullDetails host record)))

/-- Details that are too long are redacted once more, without their largest parts. -/
def shortDetails (details : PrivateDetails) : PrivateDetails where
  resultText := host.redactSensitiveText details.resultText
  resultTextChars := details.resultTextChars
  resultTextSha256 := host.redactSensitiveText details.resultTextSha256
  resultTextTruncated := details.resultTextTruncated
  resultDetailText := host.redactSensitiveText details.resultDetailText
  resultDetailTextChars := details.resultDetailTextChars
  resultDetailTextTruncated := details.resultDetailTextTruncated
  errorReason := host.redactSensitiveText details.errorReason
  validationResult := host.truncatedValidation details.validationResult
  sanitizedWorkspaceVerification := jsonNull
  actualModelEvidence := host.redactSensitiveText details.actualModelEvidence
  dependencyRequest := host.sanitizePersistedValue details.dependencyRequest

def queuePrivateDetails (record : JobRecord) : PrivateDetails :=
  if oversized host record then shortDetails host (fullDetails host record)
  else fullDetails host record

namespace JobRecord

variable (record : JobRecord)

/-- `hasRawPrivateDetails` -/
def hasRawPrivateDetails : Bool :=
  record.resultText.isSome || record.resultDetailText.isSome || record.errorReason.isSome
    || record.validationResult.isSome || record.sanitizedWorkspaceVerification.isSome
    || record.actualModelEvidence.isSome

def preservePrivateMetadata : Bool :=
  !record.hasRawPrivateDetails && record.metadata.privateDetailsSha256 != []

/-- The report was cut or does not fit. -/
def resultCut : Bool :=
  record.resultReportTruncated || record.metadata.resultTextTruncated
    || decide (host.queueResultMaxChars < (record.redactedResult host).length)

end JobRecord

def completedWithTruncatedOutput : Text := "completed_with_truncated_output".toList

/-- The hash and the length of the task: of the text in memory, or as they were. -/
def taskMetadata (record : JobRecord) : Text × Nat :=
  match record.task with
  | some task => (host.sha256 task, task.length)
  | none =>
    (host.redactSensitiveText (if record.metadata.taskSha256 = [] then host.sha256 []
      else record.metadata.taskSha256), record.metadata.taskChars)

/-- The metadata recomputed from the details. -/
def computedMetadata (record : JobRecord) : SummaryMetadata :=
  let details := queuePrivateDetails host record
  { taskSha256 := (taskMetadata host record).1
    taskChars := (taskMetadata host record).2
    resultTextChars := details.resultTextChars
    resultTextSha256 := details.resultTextSha256
    resultTextTruncated := details.resultTextTruncated
    resultDetailTextChars := details.resultDetailTextChars
    resultDetailTextTruncated := details.resultDetailTextTruncated
    errorReasonChars := details.errorReason.length
    errorReasonSha256 := host.sha256 details.errorReason
    validationResultSha256 := host.sha256 details.validationResult
    privateDetailsChars := (host.stringify details).length
    privateDetailsSha256 := host.redactSensitiveText (host.sha256 (host.stringify details)) }

/-- The metadata that the record carries. -/
def preservedMetadata (record : JobRecord) : SummaryMetadata :=
  { record.metadata with
    taskSha256 := (taskMetadata host record).1
    taskChars := (taskMetadata host record).2
    resultTextSha256 := host.redactSensitiveText record.metadata.resultTextSha256
    errorReasonSha256 := host.redactSensitiveText record.metadata.errorReasonSha256
    validationResultSha256 := host.redactSensitiveText record.metadata.validationResultSha256
    privateDetailsSha256 := host.redactSensitiveText record.metadata.privateDetailsSha256 }

def queueRecordDurableSummary (record : JobRecord) : DurableSummary where
  status := record.status
  errorType := host.redactSensitiveText record.errorType
  completionOutcome :=
    if record.completionOutcome ≠ [] then host.redactSensitiveText record.completionOutcome
    else if record.status = .completed ∧ record.resultCut host = true then
      completedWithTruncatedOutput
    else []
  dependencyRequest := host.sanitizePersistedValue record.dependencyRequest
  metadata :=
    if record.preservePrivateMetadata then preservedMetadata host record
    else computedMetadata host record

/-! ### What a finished record goes through -/

/-- One of the fields that a release starts from is there. -/
def JobRecord.hasReleasable (record : JobRecord) : Bool :=
  record.task.isSome || record.request.isSome || record.requestEncrypted.isSome
    || record.resultEncrypted.isSome || record.cancellationResultEncrypted.isSome
    || record.resultText.isSome || record.resultDetailText.isSome

/-- `releaseFinishedQueueDetails` does something. -/
def JobRecord.releasable (record : JobRecord) : Bool :=
  host.sqliteMode && !record.executing && record.status.terminal && record.hasReleasable

/-- `Object.assign(record, summary)` -/
def JobRecord.assign (record : JobRecord) (summary : DurableSummary) : JobRecord :=
  { record with
    status := summary.status
    errorType := summary.errorType
    completionOutcome := summary.completionOutcome
    dependencyRequest := summary.dependencyRequest
    metadata := summary.metadata }

/-- The record without its texts and envelopes; `errorReason` stays. -/
def JobRecord.withoutDetails (record : JobRecord) : JobRecord :=
  { record with
    task := none
    request := none
    requestEncrypted := none
    resultEncrypted := none
    cancellationResultEncrypted := none
    resultText := none
    resultDetailText := none
    validationResult := none
    sanitizedWorkspaceVerification := none
    actualModelEvidence := none }

def releaseFinishedQueueDetails (record : JobRecord) : JobRecord :=
  if record.releasable host then
    record.withoutDetails.assign (queueRecordDurableSummary host record)
  else record

namespace JobRecord

variable (record : JobRecord)

def completedWithoutFinal : Bool :=
  decide (record.status = .completed) && decide (Paths.trim (record.redactedResult host) = [])

def completedWriteWithoutEvidence : Bool :=
  decide (record.status = .completed) && record.writeMode && !record.noChanges
    && !record.hasChangedFiles && !record.hasPatchSha256

/-- The record ended as completed without what that takes. -/
def lacksEvidence : Bool :=
  record.completedWithoutFinal host || record.completedWriteWithoutEvidence

def timedOut : Bool :=
  record.errorType == "agent_timeout".toList || record.errorType == "agent_idle_timeout".toList

end JobRecord

def missingFinalReason : Text :=
  "A completed job must include a non-empty verified final response.".toList

def missingPatchReason : Text :=
  "A completed write job must include changed-file or patch evidence.".toList

def evidenceOutcome (record : JobRecord) : Text :=
  if record.status = .completed ∧ (record.resultReportTruncated = true
      ∨ host.queueResultMaxChars < (record.redactedResult host).length) then
    completedWithTruncatedOutput
  else if record.completionOutcome ≠ [] then record.completionOutcome
  else if record.status = .completed ∧ record.writeMode = true ∧ record.noChanges = true then
    "completed_no_changes".toList
  else if record.status = .failed ∧ record.writeMode = true ∧ record.timedOut = true
      ∧ record.hasChangedFiles = true then
    "timed_out_with_changes".toList
  else record.completionOutcome

def enforceQueueResultEvidence (record : JobRecord) : JobRecord :=
  if record.lacksEvidence host then
    let final := record.completedWithoutFinal host
    { record with
      status := .failed
      errorType := if final then "completion_evidence_missing".toList
        else "write_completion_evidence_missing".toList
      errorReason := some (if final then missingFinalReason else missingPatchReason) }
  else { record with completionOutcome := evidenceOutcome host record }

/-- The record in memory and the row that its summary was stored in. -/
structure SummaryState where
  record : JobRecord
  row : DurableSummary

/-- The envelope that `persistQueueRecord` makes of the details before it opens the database. -/
def JobRecord.encrypted (record : JobRecord) : JobRecord :=
  { record with
    resultEncrypted := some (host.encrypt (queuePrivateDetails host record))
    cancellationResultEncrypted := none }

/-- `persistQueueRecord` of a record whose row is terminal: no statement writes such a row, and the
record is loaded from it. -/
def persistFinished (s : SummaryState) : SummaryState :=
  let record := enforceQueueResultEvidence host s.record
  if host.sqliteMode then { s with record := (record.encrypted host).assign s.row }
  else { s with record := record }

inductive SummaryEvent where
  /-- The worker of the job drops its promise and its abort controller. -/
  | workerEnds
  | release
  | persist

def summaryStep (s : SummaryState) : SummaryEvent → SummaryState
  | .workerEnds => { s with record := { s.record with executing := false } }
  | .release => { s with record := releaseFinishedQueueDetails host s.record }
  | .persist => persistFinished host s

/-- The state right after the terminal summary of a record was stored. -/
def stored (record : JobRecord) : SummaryState :=
  let final := enforceQueueResultEvidence host record
  ⟨final.encrypted host, queueRecordDurableSummary host final⟩

/-! ### The stored hashes and lengths -/

/-- The hash and the length of the result and of the error. -/
structure Fingerprint where
  resultTextSha256 : Text
  resultTextChars : Nat
  errorReasonSha256 : Text
  errorReasonChars : Nat
deriving DecidableEq

def SummaryMetadata.fingerprint (metadata : SummaryMetadata) : Fingerprint :=
  ⟨metadata.resultTextSha256, metadata.resultTextChars, metadata.errorReasonSha256,
    metadata.errorReasonChars⟩

/-- The error text of the details: redacted once, or twice where the details are too long. -/
def persistedError (record : JobRecord) : Text :=
  if oversized host record then
    host.redactSensitiveText (host.redactSensitiveText record.cutError)
  else host.redactSensitiveText record.cutError

/-- What the texts of a record hash and measure to. -/
def textFingerprint (record : JobRecord) : Fingerprint where
  resultTextSha256 := host.sha256 (record.redactedResult host)
  resultTextChars := max (record.redactedResult host).length
    (max record.resultFullChars record.metadata.resultTextChars)
  errorReasonSha256 := host.sha256 (persistedError host record)
  errorReasonChars := (persistedError host record).length

/-- The stored row and another summary of the record both have the fingerprint. -/
def SummaryState.Keeps (s : SummaryState) (fingerprint : Fingerprint) : Prop :=
  s.row.metadata.fingerprint = fingerprint ∧
    (queueRecordDurableSummary host s.record).metadata.fingerprint = fingerprint

/-- The redacted error is the same on both sides of the size limit, or the side stays. -/
def ErrorStable (record record' : JobRecord) : Prop :=
  host.redactSensitiveText (host.redactSensitiveText record.cutError) =
      host.redactSensitiveText record.cutError ∨
    oversized host record = oversized host record'

/-- A release meets no record that keeps its error text beside a result that it loses, and a
completed record is not persisted again after its result is gone. -/
def SummarySafe (s : SummaryState) : SummaryEvent → Prop
  | .workerEnds => True
  | .release => s.record.releasable host = true → s.record.errorReason = none ∨
      (s.record.redactedResult host = [] ∧
        ErrorStable host s.record (releaseFinishedQueueDetails host s.record))
  | .persist => s.record.lacksEvidence host = false ∧
      ErrorStable host s.record (persistFinished host s).record

section

variable {host}

/-! ### Which fingerprint a summary has -/

theorem errorReason_queuePrivateDetails (record : JobRecord) :
    (queuePrivateDetails host record).errorReason = persistedError host record := by
  unfold queuePrivateDetails persistedError
  split_ifs <;> rfl

theorem resultTextSha256_queuePrivateDetails (record : JobRecord) :
    (queuePrivateDetails host record).resultTextSha256 =
      host.sha256 (record.redactedResult host) := by
  unfold queuePrivateDetails
  split_ifs
  · show host.redactSensitiveText (host.redactSensitiveText _) = _
    rw [host.redact_sha256, host.redact_sha256]
  · exact host.redact_sha256 _

theorem resultTextChars_queuePrivateDetails (record : JobRecord) :
    (queuePrivateDetails host record).resultTextChars =
      max (record.redactedResult host).length
        (max record.resultFullChars record.metadata.resultTextChars) := by
  unfold queuePrivateDetails
  split_ifs <;> rfl

theorem fingerprint_of_not_preserved {record : JobRecord}
    (h : record.preservePrivateMetadata = false) :
    (queueRecordDurableSummary host record).metadata.fingerprint =
      textFingerprint host record := by
  have hmetadata : (queueRecordDurableSummary host record).metadata =
      computedMetadata host record := by simp [queueRecordDurableSummary, h]
  rw [hmetadata]
  unfold SummaryMetadata.fingerprint textFingerprint computedMetadata
  simp only [resultTextSha256_queuePrivateDetails, resultTextChars_queuePrivateDetails,
    errorReason_queuePrivateDetails]

theorem fingerprint_of_preserved {record : JobRecord}
    (h : record.preservePrivateMetadata = true) :
    (queueRecordDurableSummary host record).metadata.fingerprint =
      { record.metadata.fingerprint with
        resultTextSha256 := host.redactSensitiveText record.metadata.resultTextSha256
        errorReasonSha256 := host.redactSensitiveText record.metadata.errorReasonSha256 } := by
  simp [queueRecordDurableSummary, h, preservedMetadata, SummaryMetadata.fingerprint]

theorem keeps_of_carried {record final : JobRecord}
    (h : record.preservePrivateMetadata = true)
    (hcarried : record.metadata.fingerprint = textFingerprint host final) :
    (queueRecordDurableSummary host record).metadata.fingerprint = textFingerprint host final := by
  have hresult : record.metadata.resultTextSha256 = host.sha256 (final.redactedResult host) :=
    congrArg Fingerprint.resultTextSha256 hcarried
  have herror : record.metadata.errorReasonSha256 = host.sha256 (persistedError host final) :=
    congrArg Fingerprint.errorReasonSha256 hcarried
  rw [fingerprint_of_preserved h, hresult, herror, host.redact_sha256, host.redact_sha256, hcarried]
  rfl

/-- The hash of the details that a summary holds is one that a redaction leaves alone. -/
theorem privateDetailsSha256_ne_nil {record : JobRecord}
    (h : record.preservePrivateMetadata = true →
      host.redactSensitiveText record.metadata.privateDetailsSha256 =
        record.metadata.privateDetailsSha256) :
    (queueRecordDurableSummary host record).metadata.privateDetailsSha256 ≠ [] ∧
      host.redactSensitiveText
          (queueRecordDurableSummary host record).metadata.privateDetailsSha256 =
        (queueRecordDurableSummary host record).metadata.privateDetailsSha256 := by
  cases hpreserve : record.preservePrivateMetadata with
  | false =>
    have hsame : (queueRecordDurableSummary host record).metadata.privateDetailsSha256 =
        host.sha256 (host.stringify (queuePrivateDetails host record)) := by
      simp [queueRecordDurableSummary, hpreserve, computedMetadata, host.redact_sha256]
    rw [hsame]
    exact ⟨host.sha256_ne_nil _, host.redact_sha256 _⟩
  | true =>
    have hsame : (queueRecordDurableSummary host record).metadata.privateDetailsSha256 =
        record.metadata.privateDetailsSha256 := by
      simp [queueRecordDurableSummary, hpreserve, preservedMetadata, h hpreserve]
    rw [hsame]
    refine ⟨?_, h hpreserve⟩
    intro hnil
    simp [JobRecord.preservePrivateMetadata, hnil] at hpreserve

/-! ### What the steps leave of a record -/

theorem texts_of_preserved {record : JobRecord} (h : record.hasRawPrivateDetails = false) :
    record.resultText = none ∧ record.errorReason = none := by
  simp only [JobRecord.hasRawPrivateDetails, or_eq_false_iff, Option.isSome_eq_false_iff,
    Option.isNone_iff_eq_none] at h
  exact ⟨h.1.1.1.1.1, h.1.1.1.2⟩

theorem redactedResult_of_none {record : JobRecord} (h : record.resultText = none) :
    record.redactedResult host = [] := by
  rw [JobRecord.redactedResult, h, Option.getD_none, host.redact_nil]

theorem errorStable_iff {record record' : JobRecord}
    (hsame : record'.errorReason = record.errorReason) :
    ErrorStable host record record' ↔
      persistedError host record' = persistedError host record := by
  have hcut : record'.cutError = record.cutError := by
    rw [JobRecord.cutError, hsame, JobRecord.cutError]
  unfold ErrorStable persistedError
  rw [hcut]
  cases hbefore : oversized host record <;> cases hafter : oversized host record' <;>
    simp [eq_comm]

theorem errorStable_of_none {record record' : JobRecord} (h : record.errorReason = none) :
    ErrorStable host record record' := by
  left
  have hcut : record.cutError = [] := by
    rw [JobRecord.cutError, h]
    rfl
  rw [hcut, host.redact_nil, host.redact_nil]

/-! ### The invariant of a record whose fingerprint is kept -/

/-- A finished record that persisting has checked, with its texts still in memory. -/
structure Finished (host : SummaryHost) (final : JobRecord) : Prop where
  terminal : final.status.terminal = true
  evidence : final.lacksEvidence host = false
  texts : final.preservePrivateMetadata = false

structure SummaryInvariant (host : SummaryHost) (final : JobRecord) (s : SummaryState) :
    Prop where
  row : s.row = queueRecordDurableSummary host final
  status : s.record.status = final.status
  evidence : s.record.completedWriteWithoutEvidence = false
  chars : max (s.record.redactedResult host).length
      (max s.record.resultFullChars s.record.metadata.resultTextChars) =
    (textFingerprint host final).resultTextChars
  keeps : (queueRecordDurableSummary host s.record).metadata.fingerprint =
    textFingerprint host final
  memory : host.sqliteMode = false → s.record.preservePrivateMetadata = false
  digest : s.record.preservePrivateMetadata = true →
    host.redactSensitiveText s.record.metadata.privateDetailsSha256 =
      s.record.metadata.privateDetailsSha256

variable {final : JobRecord} {s : SummaryState}

theorem row_fingerprint (hfinal : Finished host final) :
    (queueRecordDurableSummary host final).metadata.fingerprint = textFingerprint host final :=
  fingerprint_of_not_preserved hfinal.texts

theorem textFingerprint_of_not_preserved (h : SummaryInvariant host final s)
    (htexts : s.record.preservePrivateMetadata = false) :
    textFingerprint host s.record = textFingerprint host final := by
  rw [← h.keeps, fingerprint_of_not_preserved htexts]

theorem preserved_of_lacksEvidence (hfinal : Finished host final)
    (h : SummaryInvariant host final s) (hlacks : s.record.lacksEvidence host = true) :
    s.record.preservePrivateMetadata = true ∧ final.redactedResult host ≠ [] := by
  have hwithout : s.record.completedWithoutFinal host = true := by
    simpa [JobRecord.lacksEvidence, h.evidence] using hlacks
  simp only [JobRecord.completedWithoutFinal, and_eq_true, decide_eq_true_eq] at hwithout
  have hkept : final.completedWithoutFinal host = false := by
    have hevidence := hfinal.evidence
    rw [JobRecord.lacksEvidence, or_eq_false_iff] at hevidence
    exact hevidence.1
  have htrim : Paths.trim (final.redactedResult host) ≠ [] := by
    intro hnil
    simp [JobRecord.completedWithoutFinal, hnil, ← h.status, hwithout.1] at hkept
  constructor
  · by_contra htexts
    have hsame := congrArg Fingerprint.resultTextSha256
      (textFingerprint_of_not_preserved h (not_eq_true _ ▸ htexts))
    have hresult : s.record.redactedResult host = final.redactedResult host :=
      host.sha256_injective hsame
    exact htrim (hresult ▸ hwithout.2)
  · intro hnil
    exact htrim (by rw [hnil]; rfl)

/-! #### Releases -/

theorem metadata_assign (record : JobRecord) (summary : DurableSummary) :
    (record.assign summary).metadata = summary.metadata := rfl

/-- A released record without an error text carries the fingerprint. -/
theorem preserved_release {record : JobRecord} (herror : record.errorReason = none)
    (hdigest : record.preservePrivateMetadata = true →
      host.redactSensitiveText record.metadata.privateDetailsSha256 =
        record.metadata.privateDetailsSha256) :
    (record.withoutDetails.assign (queueRecordDurableSummary host record)).preservePrivateMetadata
      = true := by
  have hraw : (record.withoutDetails.assign
      (queueRecordDurableSummary host record)).hasRawPrivateDetails = false := by
    simp [JobRecord.hasRawPrivateDetails, JobRecord.assign, JobRecord.withoutDetails, herror]
  rw [JobRecord.preservePrivateMetadata, hraw, metadata_assign]
  simpa using (privateDetailsSha256_ne_nil hdigest).1

/-- A released record that keeps its error text is summarised anew. -/
theorem not_preserved_release {record : JobRecord} (herror : record.errorReason ≠ none)
    (summary : DurableSummary) :
    (record.withoutDetails.assign summary).preservePrivateMetadata = false := by
  cases htext : record.errorReason with
  | none => exact absurd htext herror
  | some text =>
    simp [JobRecord.preservePrivateMetadata, JobRecord.hasRawPrivateDetails, JobRecord.assign,
      JobRecord.withoutDetails, htext]

section

variable (h : SummaryInvariant host final s)

include h

/-- The length of the result is never forgotten. -/
theorem chars_release :
    max s.record.resultFullChars
        (queueRecordDurableSummary host s.record).metadata.resultTextChars =
      (textFingerprint host final).resultTextChars := by
  have hkept : (queueRecordDurableSummary host s.record).metadata.resultTextChars =
      (textFingerprint host final).resultTextChars :=
    congrArg Fingerprint.resultTextChars h.keeps
  have hchars := h.chars
  omega

theorem release_keeps_iff (hrelease : s.record.releasable host = true)
    (herror : s.record.errorReason ≠ none) :
    (queueRecordDurableSummary host
        (releaseFinishedQueueDetails host s.record)).metadata.fingerprint =
      textFingerprint host final ↔
      s.record.redactedResult host = [] ∧
        ErrorStable host s.record (releaseFinishedQueueDetails host s.record) := by
  have hraw : s.record.preservePrivateMetadata = false := by
    cases htext : s.record.errorReason with
    | none => exact absurd htext herror
    | some text =>
      simp [JobRecord.preservePrivateMetadata, JobRecord.hasRawPrivateDetails, htext]
  have hsame := textFingerprint_of_not_preserved h hraw
  have hreleased : releaseFinishedQueueDetails host s.record =
      s.record.withoutDetails.assign (queueRecordDurableSummary host s.record) := if_pos hrelease
  have hresult : (releaseFinishedQueueDetails host s.record).redactedResult host = [] := by
    rw [hreleased]
    exact redactedResult_of_none rfl
  have hchars : max (releaseFinishedQueueDetails host s.record).resultFullChars
      (releaseFinishedQueueDetails host s.record).metadata.resultTextChars =
        (textFingerprint host final).resultTextChars := by
    rw [hreleased]
    exact chars_release h
  rw [errorStable_iff (by rw [hreleased]; rfl), fingerprint_of_not_preserved
    (hreleased ▸ not_preserved_release herror _), ← hsame]
  rw [← hsame] at hchars
  unfold textFingerprint
  rw [hresult]
  constructor
  · intro heq
    injection heq with hhash _ hreason _
    exact ⟨(host.sha256_injective hhash).symm, host.sha256_injective hreason⟩
  · rintro ⟨hempty, hreason⟩
    rw [hempty, hreason]
    simpa [textFingerprint, hempty] using hchars

/-- Without an error text, the released record carries what it is summarised to. -/
theorem release_keeps_of_none (herror : s.record.errorReason = none) :
    (queueRecordDurableSummary host (s.record.withoutDetails.assign
      (queueRecordDurableSummary host s.record))).metadata.fingerprint =
        textFingerprint host final :=
  keeps_of_carried (preserved_release herror h.digest) h.keeps

theorem release_keeps :
    SummarySafe host s .release ↔
      (queueRecordDurableSummary host
        (releaseFinishedQueueDetails host s.record)).metadata.fingerprint =
          textFingerprint host final := by
  unfold SummarySafe
  by_cases hrelease : s.record.releasable host = true
  · by_cases herror : s.record.errorReason = none
    · have hreleased : releaseFinishedQueueDetails host s.record =
          s.record.withoutDetails.assign (queueRecordDurableSummary host s.record) :=
        if_pos hrelease
      rw [hreleased]
      exact iff_of_true (fun _ => .inl herror) (release_keeps_of_none h herror)
    · rw [release_keeps_iff h hrelease herror]
      exact ⟨fun hsafe => (hsafe hrelease).resolve_left herror, fun hkept _ => .inr hkept⟩
  · have hreleased : releaseFinishedQueueDetails host s.record = s.record := if_neg hrelease
    rw [hreleased]
    exact iff_of_true (fun hcan => absurd hcan hrelease) h.keeps

theorem invariant_release (hsafe : SummarySafe host s .release) :
    SummaryInvariant host final (summaryStep host s .release) := by
  have hkeeps := (release_keeps h).mp hsafe
  by_cases hrelease : s.record.releasable host = true
  · have hreleased : releaseFinishedQueueDetails host s.record =
        s.record.withoutDetails.assign (queueRecordDurableSummary host s.record) := if_pos hrelease
    have hmode : host.sqliteMode = true := by
      simp only [JobRecord.releasable, and_eq_true] at hrelease
      exact hrelease.1.1.1
    have hresult : (releaseFinishedQueueDetails host s.record).redactedResult host = [] := by
      rw [hreleased]
      exact redactedResult_of_none rfl
    refine ⟨h.row, ?_, ?_, ?_, hkeeps, ?_, ?_⟩
    · show (releaseFinishedQueueDetails host s.record).status = final.status
      rw [hreleased]
      exact h.status
    · show (releaseFinishedQueueDetails host s.record).completedWriteWithoutEvidence = false
      rw [hreleased]
      exact h.evidence
    · show max ((releaseFinishedQueueDetails host s.record).redactedResult host).length _ = _
      rw [hresult]
      show max 0 (max (releaseFinishedQueueDetails host s.record).resultFullChars
        (releaseFinishedQueueDetails host s.record).metadata.resultTextChars) = _
      rw [hreleased, Nat.zero_max]
      exact chars_release h
    · intro hmemory
      rw [hmode] at hmemory
      cases hmemory
    · intro _
      show host.redactSensitiveText
          (releaseFinishedQueueDetails host s.record).metadata.privateDetailsSha256 =
        (releaseFinishedQueueDetails host s.record).metadata.privateDetailsSha256
      rw [hreleased]
      exact (privateDetailsSha256_ne_nil h.digest).2
  · have hreleased : summaryStep host s .release = s := by
      simp [summaryStep, releaseFinishedQueueDetails, hrelease]
    rw [hreleased]
    exact h

/-! #### Persisting again -/

end

/-- The record that is persisted again, before the row is loaded. -/
theorem enforced_of_evidence {record : JobRecord} (h : record.lacksEvidence host = false) :
    enforceQueueResultEvidence host record =
      { record with completionOutcome := evidenceOutcome host record } := by
  rw [enforceQueueResultEvidence, h]
  rfl

/-- Loading the row leaves the texts and gives the record the stored metadata. -/
def reloaded (host : SummaryHost) (s : SummaryState) : JobRecord :=
  ({ s.record with completionOutcome := evidenceOutcome host s.record }.encrypted host).assign s.row

theorem persist_of_evidence (h : s.record.lacksEvidence host = false) :
    (persistFinished host s).record =
      if host.sqliteMode then reloaded host s
      else { s.record with completionOutcome := evidenceOutcome host s.record } := by
  unfold persistFinished
  rw [enforced_of_evidence h]
  split_ifs <;> rfl

theorem metadata_reloaded : (reloaded host s).metadata = s.row.metadata := rfl

theorem hasRaw_reloaded : (reloaded host s).hasRawPrivateDetails = s.record.hasRawPrivateDetails :=
  rfl

theorem row_digest (hfinal : Finished host final) (h : SummaryInvariant host final s) :
    s.row.metadata.privateDetailsSha256 ≠ [] ∧
      host.redactSensitiveText s.row.metadata.privateDetailsSha256 =
        s.row.metadata.privateDetailsSha256 := by
  rw [h.row]
  apply privateDetailsSha256_ne_nil
  intro hpreserve
  rw [hfinal.texts] at hpreserve
  cases hpreserve

theorem chars_reloaded (hfinal : Finished host final) (h : SummaryInvariant host final s) :
    max (s.record.redactedResult host).length
        (max s.record.resultFullChars s.row.metadata.resultTextChars) =
      (textFingerprint host final).resultTextChars := by
  have hrow : s.row.metadata.resultTextChars = (textFingerprint host final).resultTextChars := by
    rw [h.row]
    exact congrArg Fingerprint.resultTextChars (row_fingerprint hfinal)
  have hchars := h.chars
  omega

/-- A record with its texts is summarised to the same hashes after the row is loaded, except that
its error may move over the size limit. -/
theorem reloaded_keeps_iff (hfinal : Finished host final) (h : SummaryInvariant host final s) :
    (queueRecordDurableSummary host (reloaded host s)).metadata.fingerprint =
        textFingerprint host final ↔
      ErrorStable host s.record (reloaded host s) := by
  have hrow : (reloaded host s).metadata.fingerprint = textFingerprint host final := by
    show s.row.metadata.fingerprint = _
    rw [h.row]
    exact row_fingerprint hfinal
  cases hraw : s.record.hasRawPrivateDetails with
  | false =>
    have hpreserve : (reloaded host s).preservePrivateMetadata = true := by
      rw [JobRecord.preservePrivateMetadata, hasRaw_reloaded, hraw, metadata_reloaded]
      simpa using (row_digest hfinal h).1
    exact iff_of_true (keeps_of_carried hpreserve hrow)
      (errorStable_of_none (texts_of_preserved hraw).2)
  | true =>
    have htexts : s.record.preservePrivateMetadata = false := by
      rw [JobRecord.preservePrivateMetadata, hraw]
      rfl
    have htexts' : (reloaded host s).preservePrivateMetadata = false := by
      rw [JobRecord.preservePrivateMetadata, hasRaw_reloaded, hraw]
      rfl
    have hsame := textFingerprint_of_not_preserved h htexts
    have hchars := chars_reloaded hfinal h
    have hresult : (reloaded host s).redactedResult host = s.record.redactedResult host := rfl
    have herror : (reloaded host s).errorReason = s.record.errorReason := rfl
    rw [errorStable_iff herror, fingerprint_of_not_preserved htexts', ← hsame]
    rw [← hsame] at hchars
    unfold textFingerprint
    constructor
    · intro heq
      injection heq with _ _ hreason _
      exact host.sha256_injective hreason
    · intro hreason
      rw [hreason]
      exact congrArg₂ (fun chars length => (⟨_, chars, _, length⟩ : Fingerprint)) hchars rfl

/-- A record that a persist fails over its evidence gets an error text and no result. -/
theorem not_keeps_of_lacksEvidence (hfinal : Finished host final)
    (h : SummaryInvariant host final s) (hlacks : s.record.lacksEvidence host = true) :
    (queueRecordDurableSummary host (persistFinished host s).record).metadata.fingerprint ≠
      textFingerprint host final := by
  obtain ⟨hpreserve, hne⟩ := preserved_of_lacksEvidence hfinal h hlacks
  have hraw : s.record.hasRawPrivateDetails = false := by
    simp only [JobRecord.preservePrivateMetadata, and_eq_true, not_eq_true'] at hpreserve
    exact hpreserve.1
  have hnone := (texts_of_preserved hraw).1
  have hresult : (persistFinished host s).record.resultText = none := by
    unfold persistFinished enforceQueueResultEvidence
    split_ifs <;> exact hnone
  have herror : (persistFinished host s).record.errorReason.isSome = true := by
    unfold persistFinished enforceQueueResultEvidence
    split_ifs <;> rfl
  have htexts : (persistFinished host s).record.preservePrivateMetadata = false := by
    simp [JobRecord.preservePrivateMetadata, JobRecord.hasRawPrivateDetails, herror]
  rw [fingerprint_of_not_preserved htexts]
  intro heq
  have hhash := congrArg Fingerprint.resultTextSha256 heq
  apply hne
  rw [← host.sha256_injective hhash]
  exact redactedResult_of_none hresult

/-- In memory mode nothing is loaded, and the summary depends on nothing that changes. -/
theorem fingerprint_of_outcome (record : JobRecord) (outcome : Text) :
    (queueRecordDurableSummary host
      { record with completionOutcome := outcome }).metadata.fingerprint =
        (queueRecordDurableSummary host record).metadata.fingerprint := rfl

theorem persist_keeps (hfinal : Finished host final) (h : SummaryInvariant host final s) :
    SummarySafe host s .persist ↔
      (queueRecordDurableSummary host (persistFinished host s).record).metadata.fingerprint =
        textFingerprint host final := by
  unfold SummarySafe
  cases hlacks : s.record.lacksEvidence host with
  | true =>
    apply iff_of_false
    · rintro ⟨hevidence, -⟩
      cases hevidence
    · exact not_keeps_of_lacksEvidence hfinal h hlacks
  | false =>
    rw [persist_of_evidence hlacks]
    split_ifs with hmode
    · rw [reloaded_keeps_iff hfinal h]
      exact and_iff_right rfl
    · rw [fingerprint_of_outcome]
      exact iff_of_true ⟨rfl, .inr rfl⟩ h.keeps

theorem invariant_persist (hfinal : Finished host final) (h : SummaryInvariant host final s)
    (hsafe : SummarySafe host s .persist) :
    SummaryInvariant host final (summaryStep host s .persist) := by
  have hkeeps := (persist_keeps hfinal h).mp hsafe
  have hrecord := persist_of_evidence hsafe.1
  have hrow : (persistFinished host s).row = s.row := by
    unfold persistFinished
    split_ifs <;> rfl
  by_cases hmode : host.sqliteMode = true
  · rw [if_pos hmode] at hrecord
    refine ⟨hrow.trans h.row, ?_, ?_, ?_, hkeeps, ?_, ?_⟩
    · show (persistFinished host s).record.status = final.status
      rw [hrecord]
      show s.row.status = final.status
      rw [h.row]
      rfl
    · show (persistFinished host s).record.completedWriteWithoutEvidence = false
      rw [hrecord]
      have hstatus : s.row.status = s.record.status := by
        rw [h.row, h.status]
        rfl
      have hevidence := h.evidence
      rw [JobRecord.completedWriteWithoutEvidence, ← hstatus] at hevidence
      exact hevidence
    · show max ((persistFinished host s).record.redactedResult host).length
        (max (persistFinished host s).record.resultFullChars
          (persistFinished host s).record.metadata.resultTextChars) = _
      rw [hrecord]
      exact chars_reloaded hfinal h
    · intro hmemory
      rw [hmode] at hmemory
      cases hmemory
    · intro _
      show host.redactSensitiveText
          (persistFinished host s).record.metadata.privateDetailsSha256 =
        (persistFinished host s).record.metadata.privateDetailsSha256
      rw [hrecord, metadata_reloaded]
      exact (row_digest hfinal h).2
  · rw [if_neg hmode] at hrecord
    have hstate : summaryStep host s .persist =
        { s with record := { s.record with completionOutcome := evidenceOutcome host s.record } } :=
      congrArg₂ SummaryState.mk hrecord hrow
    rw [hstate]
    exact ⟨h.row, h.status, h.evidence, h.chars, h.keeps, h.memory, h.digest⟩

/-! ### Every run -/

theorem invariant_workerEnds (h : SummaryInvariant host final s) :
    SummaryInvariant host final (summaryStep host s .workerEnds) :=
  ⟨h.row, h.status, h.evidence, h.chars, h.keeps, h.memory, h.digest⟩

theorem summaryStep_invariant (hfinal : Finished host final) (event : SummaryEvent)
    (h : SummaryInvariant host final s) (hsafe : SummarySafe host s event) :
    SummaryInvariant host final (summaryStep host s event) := by
  cases event with
  | workerEnds => exact invariant_workerEnds h
  | release => exact invariant_release h hsafe
  | persist => exact invariant_persist hfinal h hsafe

/-- A step is safe exactly when both summaries have the fingerprint after it. -/
theorem safe_iff_keeps (hfinal : Finished host final) (event : SummaryEvent)
    (h : SummaryInvariant host final s) :
    SummarySafe host s event ↔
      (summaryStep host s event).Keeps host (textFingerprint host final) := by
  have hrow : (summaryStep host s event).row.metadata.fingerprint =
      textFingerprint host final := by
    have hsame : (summaryStep host s event).row = s.row := by
      cases event with
      | workerEnds => rfl
      | release => rfl
      | persist =>
        show (persistFinished host s).row = s.row
        unfold persistFinished
        split_ifs <;> rfl
    rw [hsame, h.row]
    exact row_fingerprint hfinal
  unfold SummaryState.Keeps
  rw [and_iff_right hrow]
  cases event with
  | workerEnds => exact iff_of_true trivial h.keeps
  | release => exact release_keeps h
  | persist => exact persist_keeps hfinal h

theorem finished_of_enforced {record : JobRecord} (hterminal : record.status.terminal = true)
    (htexts : record.preservePrivateMetadata = false) :
    Finished host (enforceQueueResultEvidence host record) := by
  by_cases hlacks : record.lacksEvidence host = true
  · rw [enforceQueueResultEvidence, if_pos hlacks]
    refine ⟨rfl, ?_, ?_⟩
    · simp [JobRecord.lacksEvidence, JobRecord.completedWithoutFinal,
        JobRecord.completedWriteWithoutEvidence]
    · simp [JobRecord.preservePrivateMetadata, JobRecord.hasRawPrivateDetails]
  · rw [not_eq_true] at hlacks
    rw [enforced_of_evidence hlacks]
    exact ⟨hterminal, hlacks, htexts⟩

theorem invariant_stored {record : JobRecord}
    (hfinal : Finished host (enforceQueueResultEvidence host record)) :
    SummaryInvariant host (enforceQueueResultEvidence host record) (stored host record) := by
  have hevidence := hfinal.evidence
  rw [JobRecord.lacksEvidence, or_eq_false_iff] at hevidence
  refine ⟨rfl, rfl, hevidence.2, rfl, ?_, fun _ => hfinal.texts, ?_⟩
  · show (queueRecordDurableSummary host
      (enforceQueueResultEvidence host record)).metadata.fingerprint = _
    exact row_fingerprint hfinal
  intro hpreserve
  have htexts := hfinal.texts
  rw [show (enforceQueueResultEvidence host record).preservePrivateMetadata = true from hpreserve]
    at htexts
  cases htexts

end

/-- After the summary of a finished record was stored, the stored and every recomputed summary keep
the hash and the length of its result and of its error exactly through the runs in which no release
leaves the error text of a record behind whose result it drops, no persist meets a completed record
whose result is gone, and the error text does not move over the limit of the details. -/
theorem summaries_stable_iff (record : JobRecord) (hterminal : record.status.terminal = true)
    (htexts : record.preservePrivateMetadata = false) (events : List SummaryEvent) :
    (stored host record).Keeps host
        (textFingerprint host (enforceQueueResultEvidence host record)) ∧
      (Along (summaryStep host) (fun s event => (summaryStep host s event).Keeps host
          (textFingerprint host (enforceQueueResultEvidence host record)))
        (stored host record) events ↔
      Along (summaryStep host) (SummarySafe host) (stored host record) events) := by
  have hfinal := @finished_of_enforced host record hterminal htexts
  have hinitial := invariant_stored hfinal
  refine ⟨⟨row_fingerprint hfinal, hinitial.keeps⟩, ?_⟩
  generalize stored host record = s at hinitial
  induction events generalizing s with
  | nil => exact Iff.rfl
  | cons event events ih =>
    rw [along_cons, along_cons, safe_iff_keeps hfinal event hinitial]
    apply and_congr_right
    intro hkeeps
    exact ih _ (summaryStep_invariant hfinal event hinitial
      ((safe_iff_keeps hfinal event hinitial).mpr hkeeps))

/-- A host in the default mode that redacts nothing, as for texts without secrets. -/
def plainHost : SummaryHost where
  sqliteMode := true
  queueResultMaxChars := 24000
  maxSnapshotFileBytes := 1048576
  sha256 := fun text => '#' :: text
  redactSensitiveText := id
  sanitizePersistedValue := id
  stringify := fun details => details.resultText ++ details.errorReason
  byteLength := List.length
  truncatedValidation := id
  encrypt := fun details => details.resultText ++ details.errorReason
  sha256_injective := fun _ _ h => (List.cons.inj h).2
  sha256_ne_nil := fun _ => List.cons_ne_nil _ _
  redact_sha256 := fun _ => rfl
  redact_nil := rfl

/-- A completed job as the queue leaves it: its error text is there and empty. -/
def completedJob : JobRecord where
  status := .completed
  errorType := []
  completionOutcome := []
  executing := false
  writeMode := false
  noChanges := false
  hasChangedFiles := false
  hasPatchSha256 := false
  task := some ['t']
  request := none
  requestEncrypted := none
  resultEncrypted := none
  cancellationResultEncrypted := none
  resultText := some ['d', 'o', 'n', 'e']
  resultDetailText := some []
  errorReason := some []
  validationResult := none
  sanitizedWorkspaceVerification := none
  actualModelEvidence := none
  dependencyRequest := jsonNull
  resultReportTruncated := false
  resultFullChars := 0
  metadata := ⟨[], 0, 0, [], false, 0, false, 0, [], [], 0, []⟩

theorem summaries_stable_iff_of_completed :
    (stored plainHost completedJob).Keeps plainHost
        (textFingerprint plainHost (enforceQueueResultEvidence plainHost completedJob)) ∧
      (Along (summaryStep plainHost) (fun s event => (summaryStep plainHost s event).Keeps plainHost
          (textFingerprint plainHost (enforceQueueResultEvidence plainHost completedJob)))
        (stored plainHost completedJob) [.persist, .release] ↔
      Along (summaryStep plainHost) (SummarySafe plainHost) (stored plainHost completedJob)
        [.persist, .release]) :=
  summaries_stable_iff plainHost completedJob rfl rfl [.persist, .release]

/-- Once the details of a completed job are released, its summary has the hash of no text. -/
theorem released_summary_hashes_nothing :
    (queueRecordDurableSummary plainHost (summaryStep plainHost
        (stored plainHost completedJob) .release).record).metadata.fingerprint =
      ⟨plainHost.sha256 [], 4, plainHost.sha256 [], 0⟩ ∧
      (stored plainHost completedJob).row.metadata.fingerprint =
        ⟨plainHost.sha256 ['d', 'o', 'n', 'e'], 4, plainHost.sha256 [], 0⟩ ∧
      ¬ (summaryStep plainHost (stored plainHost completedJob) .release).Keeps plainHost
        (textFingerprint plainHost (enforceQueueResultEvidence plainHost completedJob)) := by
  unfold SummaryState.Keeps
  decide

end AgentBridge.Results
