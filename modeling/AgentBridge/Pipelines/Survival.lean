import AgentBridge.Pipelines.Storage

/-!
# What a stored record gives back

The fields of a pipeline that integration and finalization decide on, and when they are the
same after the record has been stored and read.
-/

namespace AgentBridge.Pipelines.Storage

open Redaction Systems List Option

/-! ## The decision fields -/

/-- The fields of an integration item that its integration reads. -/
def itemDecisionNames : List String :=
  ["jobId", "agent", "worktreePath", "branch", "sourceBaseCommit", "sourceBaseTree",
    "patchSha256", "sourceStateSha256", "allowedEdits", "lockedPaths", "forbiddenEdits",
    "sharedFiles", "serialOnly", "changedFiles", "status", "operationId", "validationCommand",
    "validationSpec", "validationSource"]

def policyIdentityNames : List String := ["path", "sha256"]

/-- What integration and finalization read of a record. -/
structure Decisions where
  status : Option Json
  revision : Option Json
  policy : List (Option Json)
  integrationQueue : List (List (Option Json))
  finalValidationCommand : Json
  finalValidationSource : Json
  finalValidationSpec : Json
  reviewerJob : Json
  testerJob : Json

def decisionsOf (record : Fields) : Decisions where
  status := record.lookup "status"
  revision := record.lookup "revision"
  policy := policyIdentityNames.map fun name =>
    (record.lookup "policy").bind fun policy => policy.field name
  integrationQueue := (itemsOf (fieldOr record "integrationQueue" emptyArray)).map fun item =>
    itemDecisionNames.map fun name => item.field name
  finalValidationCommand := fieldOr record "finalValidationCommand" emptyText
  finalValidationSource := finalValidationSourceOf record
  finalValidationSpec := fieldOr record "finalValidationSpec" .null
  reviewerJob := fieldOr record "reviewerJob" .null
  testerJob := fieldOr record "testerJob" .null

/-! ## Pipelines as the bridge makes them -/

/-- `status` as it is written -/
def statusText : RecordStatus → String
  | .planned => "planned"
  | .running => "running"
  | .awaitingIntegration => "awaiting_integration"
  | .awaitingFinalization => "awaiting_finalization"
  | .finalizing => "finalizing"
  | .cleanupPending => "cleanup_pending"
  | .cleanupFailed => "cleanup_failed"
  | .completed => "completed"
  | .failed => "failed"
  | .cancelled => "cancelled"

/-- `finalValidationSource` -/
inductive CommandSource where
  | caller | policy | none | legacyUnknown

def CommandSource.toText : CommandSource → String
  | .caller => "caller"
  | .policy => "policy"
  | .none => "none"
  | .legacyUnknown => "legacy_unknown"

/-- `reviewerJob` and `testerJob`, as the tool's schema leaves them. -/
structure GateJob where
  agent : Text
  task : Text

def GateJob.toJson (job : GateJob) : Json :=
  .object [("agent", .text job.agent), ("task", .text job.task)]

/-- The names of the fields that a pipeline document has a place for. -/
def documentNames : List String :=
  ["status", "revision", "policy", "integrationQueue", "finalValidationCommand",
    "finalValidationSource", "finalValidationSpec", "reviewerJob", "testerJob"]

/-- A pipeline record: the fields that decisions are taken on and any others. -/
structure PipelineDocument where
  status : RecordStatus
  revision : Nat
  policy : Option Fields
  integrationQueue : List Fields
  finalValidationCommand : Text
  finalValidationSource : Option CommandSource
  finalValidationSpec : Option Fields
  reviewerJob : Option GateJob
  testerJob : Option GateJob
  others : Fields
  othersFree : ∀ entry ∈ others, entry.1 ∉ documentNames

/-- A value that may be missing, as the source writes it. -/
def orNull {α : Type} (toJson : α → Json) : Option α → Json
  | some value => toJson value
  | none => .null

def PipelineDocument.toFields (document : PipelineDocument) : Fields :=
  [("status", .ofString (statusText document.status)), ("revision", number document.revision),
    ("policy", orNull .object document.policy),
    ("integrationQueue", .array (document.integrationQueue.map .object)),
    ("finalValidationCommand", .text document.finalValidationCommand),
    ("finalValidationSource",
      orNull (fun source => .ofString source.toText) document.finalValidationSource),
    ("finalValidationSpec", orNull .object document.finalValidationSpec),
    ("reviewerJob", orNull GateJob.toJson document.reviewerJob),
    ("testerJob", orNull GateJob.toJson document.testerJob)] ++ document.others

/-- What the patches of the source set: no update touches the policy, the final validation
or the gates. -/
structure DocumentChanges where
  status : Option RecordStatus
  integrationQueue : Option (List Fields)
  others : Fields
  othersFree : ∀ entry ∈ others, entry.1 ∉ documentNames

def PipelineDocument.update (document : PipelineDocument) (changes : DocumentChanges) :
    PipelineDocument :=
  { document with
    status := changes.status.getD document.status
    revision := document.revision + 1
    integrationQueue := changes.integrationQueue.getD document.integrationQueue
    others := document.others.assign changes.others
    othersFree := by
      intro entry hentry
      cases List.mem_append.mp hentry with
      | inl hnew => exact changes.othersFree entry hnew
      | inr hold => exact document.othersFree entry (List.mem_filter.mp hold).1 }

structure StoredPipeline where
  document : PipelineDocument
  row : PipelineRow

variable (host : StorageHost)

def StoredPipeline.create (time : WriteTime) (document : PipelineDocument) : StoredPipeline :=
  ⟨document, persistPipelineRecord host time document.toFields⟩

def StoredPipeline.update (stored : StoredPipeline) (write : WriteTime × DocumentChanges) :
    StoredPipeline :=
  let candidate := stored.document.update write.2
  ⟨candidate, updatePipelineRecord host write.1 candidate.toFields stored.row⟩

/-! ## The condition -/

/-- How often the texts of the details are redacted before they are stored. -/
def redactionPasses (document : PipelineDocument) : Nat :=
  if detailsFit host document.toFields then 1 else 2

/-- Redaction leaves every text of the value alone, and no key of it is dropped or hashed. -/
def LeftAlone (document : PipelineDocument) (value : Json) : Prop :=
  Kept (fun text => redactSensitiveText^[redactionPasses host document] text = text) value

/-- What has to hold of a record for its decision fields to come back: redaction leaves the
policy's identity, the decision fields of every item and the validation spec alone, and what
the shorter form keeps of details that do not fit is within what the decryption accepts. -/
structure Survives (document : PipelineDocument) : Prop where
  policy : ∀ fields, document.policy = some fields → ∀ name ∈ policyIdentityNames, ∀ value,
    fields.lookup name = some value → LeftAlone host document value
  integrationQueue : ∀ item ∈ document.integrationQueue, ∀ name ∈ itemDecisionNames, ∀ value,
    item.lookup name = some value → LeftAlone host document value
  finalValidationSpec : ∀ fields, document.finalValidationSpec = some fields →
    LeftAlone host document (.object fields)
  bounds : detailsFit host document.toFields = false →
    host.jsonBytes (.object (truncatedDetails host (fullDetails host document.toFields))) ≤
      host.maxSnapshotFileBytes + 1024

/-! ## Fields after redaction -/

/-- The names that redaction makes of hashed keys. -/
def derivedNames : List Text :=
  hashedKeys.flatMap fun key => [key ++ lowerKey "Sha256", key ++ lowerKey "Chars"]

/-- A name that redaction keeps and that it makes of no other. -/
def plainName (name : String) : Bool :=
  keptKey name && !derivedNames.contains (lowerKey name)

/-- The decision fields that a read takes from the details or from the summary. -/
def storedNames : List String :=
  ["status", "revision", "policy", "integrationQueue", "finalValidationSource",
    "finalValidationSpec"]

theorem plainName_stored : ∀ name ∈ storedNames, plainName name = true := by
  decide +kernel

variable {host}

variable {name : String}

theorem ne_derived {key : String} (hname : plainName name = true) (hkey : hashedKey key = true) :
    name ≠ key ++ "Sha256" ∧ name ≠ key ++ "Chars" := by
  have hmem : lowerKey key ∈ hashedKeys := contains_iff_mem.mp hkey
  have hderived : lowerKey name ∉ derivedNames := by
    simp only [plainName, Bool.and_eq_true, Bool.not_eq_true'] at hname
    intro h
    have hcontains := contains_iff_mem.mpr h
    rw [hname.2] at hcontains
    cases hcontains
  constructor
  · rintro rfl
    refine hderived (mem_flatMap.mpr ⟨lowerKey key, hmem, ?_⟩)
    rw [lowerKey_append]
    exact mem_cons_self
  · rintro rfl
    refine hderived (mem_flatMap.mpr ⟨lowerKey key, hmem, ?_⟩)
    rw [lowerKey_append]
    exact mem_cons_of_mem _ mem_cons_self

variable {textHost : TextHost}

/-- Redaction keeps a field under a plain name, redacted. -/
theorem lookup_sanitizeFields (h : plainName name = true) (fields : Fields) :
    List.lookup name (sanitizeFields textHost fields) =
      (List.lookup name fields).map (sanitizePersistedValue textHost) := by
  have hkept : keptKey name = true := by
    simp only [plainName, Bool.and_eq_true] at h
    exact h.1
  induction fields with
  | nil => rfl
  | cons field fields ih =>
    obtain ⟨key, child⟩ := field
    by_cases hname : name = key
    · subst hname
      rw [sanitizeFields_cons hkept, lookup_cons_self, lookup_cons_self]
      rfl
    · have hbeq : (name == key) = false := by simpa using hname
      rw [lookup_cons, hbeq]
      unfold sanitizeFields
      split
      · exact ih
      · split
        · rename_i hhashed
          obtain ⟨hsha, hchars⟩ := ne_derived h hhashed
          have hsha' : (name == key ++ "Sha256") = false := by simpa using hsha
          have hchars' : (name == key ++ "Chars") = false := by simpa using hchars
          rw [lookup_cons, hsha', lookup_cons, hchars']
          exact ih
        · rw [lookup_cons, hbeq]
          exact ih

theorem lookup_iterate_sanitizeFields (h : plainName name = true) (n : Nat) (fields : Fields) :
    List.lookup name ((sanitizeFields textHost)^[n] fields) =
      (List.lookup name fields).map (sanitizePersistedValue textHost)^[n] := by
  induction n generalizing fields with
  | zero => exact (congrFun map_id _).symm
  | succ n ih =>
    rw [Function.iterate_succ_apply, ih, lookup_sanitizeFields h, Option.map_map]
    rfl

/-! ## The fields of a document -/

section

variable (document : PipelineDocument)

@[simp] theorem lookup_status :
    List.lookup "status" document.toFields = some (.ofString (statusText document.status)) := by
  simp [PipelineDocument.toFields]

@[simp] theorem lookup_revision :
    List.lookup "revision" document.toFields = some (number document.revision) := by
  simp [PipelineDocument.toFields, lookup_cons]

@[simp] theorem lookup_policy :
    List.lookup "policy" document.toFields = some (orNull .object document.policy) := by
  simp [PipelineDocument.toFields, lookup_cons]

@[simp] theorem lookup_integrationQueue :
    List.lookup "integrationQueue" document.toFields =
      some (.array (document.integrationQueue.map .object)) := by
  simp [PipelineDocument.toFields, lookup_cons]

@[simp] theorem lookup_finalValidationCommand :
    List.lookup "finalValidationCommand" document.toFields =
      some (.text document.finalValidationCommand) := by
  simp [PipelineDocument.toFields, lookup_cons]

@[simp] theorem lookup_finalValidationSource :
    List.lookup "finalValidationSource" document.toFields =
      some (orNull (fun source => .ofString source.toText) document.finalValidationSource) := by
  simp [PipelineDocument.toFields, lookup_cons]

@[simp] theorem lookup_finalValidationSpec :
    List.lookup "finalValidationSpec" document.toFields =
      some (orNull .object document.finalValidationSpec) := by
  simp [PipelineDocument.toFields, lookup_cons]

@[simp] theorem lookup_reviewerJob :
    List.lookup "reviewerJob" document.toFields =
      some (orNull GateJob.toJson document.reviewerJob) := by
  simp [PipelineDocument.toFields, lookup_cons]

@[simp] theorem lookup_testerJob :
    List.lookup "testerJob" document.toFields =
      some (orNull GateJob.toJson document.testerJob) := by
  simp [PipelineDocument.toFields, lookup_cons]

end

/-- A value that `value || other` keeps whatever its content: null, an object or an array. -/
def Solid : Json → Prop
  | .null | .object _ | .array _ => True
  | _ => False

theorem solid_object_orNull : ∀ fields : Option Fields, Solid (orNull .object fields)
  | some _ => trivial
  | none => trivial

theorem solid_gate_orNull : ∀ job : Option GateJob, Solid (orNull GateJob.toJson job)
  | some _ => trivial
  | none => trivial

variable {value : Json}

theorem Solid.sanitize (h : Solid value) : Solid (sanitizePersistedValue textHost value) := by
  cases value with
  | null | object | array => trivial
  | bool | number | text => cases h

theorem Solid.orElse_null (h : Solid value) : Json.orElse (some value) .null = value := by
  cases value with
  | null => rfl
  | object | array => rfl
  | bool | number | text => cases h

/-! ## What the details hold -/

/-- A field of the details that both forms hold: redacted once, or twice in the shorter
form. -/
theorem lookup_pipelinePrivateDetails {record : Fields} {other : Json}
    (hfull : List.lookup name (fullDetails host record) =
      some (sanitizePersistedValue host.toTextHost value))
    (hshort : List.lookup name (truncatedDetails host (fullDetails host record)) =
      some (sanitizePersistedValue host.toTextHost (fieldOr (fullDetails host record) name other)))
    (hkeep : Json.orElse (some (sanitizePersistedValue host.toTextHost value)) other =
      sanitizePersistedValue host.toTextHost value) :
    List.lookup name (pipelinePrivateDetails host record) =
      some ((sanitizePersistedValue host.toTextHost)^[if detailsFit host record then 1 else 2]
        value) := by
  unfold pipelinePrivateDetails
  split
  · exact hfull
  · rw [hshort, fieldOr, hfull, hkeep]
    rfl

section

variable (document : PipelineDocument)

theorem lookup_details_policy :
    List.lookup "policy" (pipelinePrivateDetails host document.toFields) =
      some ((sanitizePersistedValue host.toTextHost)^[redactionPasses host document]
        (orNull .object document.policy)) := by
  have hplain : plainName "policy" = true := plainName_stored _ (by simp [storedNames])
  have hsolid : Solid (orNull Json.object document.policy) := solid_object_orNull _
  refine lookup_pipelinePrivateDetails ?_ ?_ hsolid.sanitize.orElse_null
  · rw [fullDetails, lookup_sanitizeFields hplain, lookup_cons_self, fieldOr, lookup_policy,
      hsolid.orElse_null]
    rfl
  · rw [truncatedDetails, lookup_sanitizeFields hplain, lookup_cons_self]
    rfl

theorem lookup_details_integrationQueue :
    List.lookup "integrationQueue" (pipelinePrivateDetails host document.toFields) =
      some ((sanitizePersistedValue host.toTextHost)^[redactionPasses host document]
        (.array (document.integrationQueue.map .object))) := by
  have hplain : plainName "integrationQueue" = true := plainName_stored _ (by simp [storedNames])
  have harray : ∀ items, Json.orElse (some (sanitizePersistedValue host.toTextHost (.array items)))
      emptyArray = sanitizePersistedValue host.toTextHost (.array items) := fun _ => rfl
  refine lookup_pipelinePrivateDetails ?_ ?_ (harray _)
  · rw [fullDetails, lookup_sanitizeFields hplain]
    simp only [lookup_cons, String.reduceBEq]
    rw [fieldOr, lookup_integrationQueue]
    rfl
  · rw [truncatedDetails, lookup_sanitizeFields hplain]
    simp only [lookup_cons, String.reduceBEq]
    rfl

theorem lookup_details_finalValidationSpec :
    List.lookup "finalValidationSpec" (pipelinePrivateDetails host document.toFields) =
      some ((sanitizePersistedValue host.toTextHost)^[redactionPasses host document]
        (orNull .object document.finalValidationSpec)) := by
  have hplain : plainName "finalValidationSpec" = true := plainName_stored _ (by simp [storedNames])
  have hsolid : Solid (orNull Json.object document.finalValidationSpec) := solid_object_orNull _
  refine lookup_pipelinePrivateDetails ?_ ?_ hsolid.sanitize.orElse_null
  · rw [fullDetails, lookup_sanitizeFields hplain]
    simp only [lookup_cons, String.reduceBEq]
    rw [fieldOr, lookup_finalValidationSpec, hsolid.orElse_null]
    rfl
  · rw [truncatedDetails, lookup_sanitizeFields hplain]
    simp only [lookup_cons, String.reduceBEq]
    rfl

end

/-! ## What a read gives -/

/-- The details are read when they are within the bound, and a field then comes from the
replay request, else from the details, else from the summary. -/
theorem readPersistedPipelineRecord_eq {row : PipelineRow} {details replay : Fields}
    (hdetails : row.detailsEncrypted = some details)
    (hreplay : row.requestEncrypted = some replay) :
    (¬host.jsonBytes (.object details) ≤ host.maxSnapshotFileBytes + 1024 ∧
      readPersistedPipelineRecord host row = none) ∨
    (host.jsonBytes (.object details) ≤ host.maxSnapshotFileBytes + 1024 ∧
      ∃ back, readPersistedPipelineRecord host row = some back ∧
        ∀ name, name ≠ "privateDetailsAvailable" → name ≠ "replayRequestAvailable" →
          List.lookup name back = (List.lookup name replay).or
            ((List.lookup name details).or (List.lookup name (storedSummary row)))) := by
  unfold readPersistedPipelineRecord decryptPipelinePrivateDetails
  rw [hdetails, hreplay]
  by_cases hbound : host.maxSnapshotFileBytes + 1024 < host.jsonBytes (.object details)
  · left
    refine ⟨by omega, ?_⟩
    simp only [hbound, if_true]
    rfl
  · right
    simp only [hbound, if_false]
    refine ⟨by omega, _, rfl, fun name hprivate hreplayed => ?_⟩
    have hprivate' : (name == "privateDetailsAvailable") = false := by simpa using hprivate
    have hreplayed' : (name == "replayRequestAvailable") = false := by simpa using hreplayed
    simp only [Fields.lookup_assign, lookup_cons, hprivate', hreplayed', lookup_nil,
      none_or]

theorem redact_fixedTexts : ∀ text ∈ ["planned", "running", "awaiting_integration",
    "awaiting_finalization", "finalizing", "cleanup_pending", "cleanup_failed", "completed",
    "failed", "cancelled", "caller", "policy", "none", "legacy_unknown"],
    redactSensitiveText text.toList = text.toList := by
  decide +kernel

theorem redact_statusText (status : RecordStatus) :
    redactSensitiveText (statusText status).toList = (statusText status).toList :=
  redact_fixedTexts _ (by cases status <;> simp [statusText])

theorem redact_sourceText (source : CommandSource) :
    redactSensitiveText source.toText.toList = source.toText.toList :=
  redact_fixedTexts _ (by cases source <;> simp [CommandSource.toText])

/-- A field of the summary that is not put in place of a detail, and that redaction leaves
alone. -/
theorem lookup_durableSummary {record : Fields} (hplain : plainName name = true)
    (hoverride : List.lookup name (summaryOverrides host record) = none)
    (hsnapshot : List.lookup name (pipelineRecordSnapshot host record) =
      some (sanitizePersistedValue host.toTextHost value))
    (hfixed : sanitizePersistedValue host.toTextHost value = value) :
    List.lookup name (pipelineRecordDurableSummary host record) = some value := by
  rw [pipelineRecordDurableSummary, lookup_sanitizeFields hplain, Fields.lookup_assign, hoverride,
    hsnapshot, none_or, map_some, hfixed, hfixed]

/-- The row of a document, for any encrypted columns. -/
def rowOf (host : StorageHost) (document : PipelineDocument) (time : WriteTime)
    (requestEncrypted detailsEncrypted : Option Fields) : PipelineRow :=
  writePipelineRecordSnapshot host time (pipelineRecordDurableSummary host document.toFields)
    requestEncrypted detailsEncrypted

section

variable (document : PipelineDocument) (time : WriteTime)
  (requestEncrypted detailsEncrypted : Option Fields)

theorem sanitize_status (status : RecordStatus) :
    sanitizePersistedValue host.toTextHost (.ofString (statusText status)) =
      .ofString (statusText status) := by
  rw [Json.ofString, sanitizePersistedValue, redact_statusText]

/-- A field that the write does not date has the value of the summary. -/
theorem lookup_committed {summary : Fields}
    (hname : name ∉ ["updatedAt", "ownerHeartbeatAt", "ownerLeaseExpiresAt"]) :
    (summary.assign [("updatedAt", .text time.commitAt), ("ownerHeartbeatAt", .text time.commitAt),
      ("ownerLeaseExpiresAt", .text time.leaseExpiresAt)]).lookup name = summary.lookup name :=
  Fields.lookup_assign_of_notMem hname

theorem lookup_columns_status (summary : Fields) :
    (writePipelineRecordSnapshot host time summary requestEncrypted
      detailsEncrypted).columns.lookup "status" =
      some ((summary.lookup "status").getD .null) := by
  change List.lookup "status" (("status", _) :: _) = _
  rw [lookup_cons_self, lookup_committed time (by simp)]

theorem lookup_columns_revision (summary : Fields) :
    (writePipelineRecordSnapshot host time summary requestEncrypted
      detailsEncrypted).columns.lookup "revision" =
      some (numberOf (summary.lookup "revision")) := by
  have hsecond : ∀ (status revision : Json) (rest : Fields),
      List.lookup "revision" (("status", status) :: ("revision", revision) :: rest) =
        some revision := fun _ _ _ => rfl
  change List.lookup "revision" (("status", _) :: ("revision", _) :: _) = _
  rw [hsecond, lookup_committed time (by simp)]

theorem lookup_summary_status :
    List.lookup "status" (storedSummary
      (rowOf host document time requestEncrypted detailsEncrypted)) =
      some (.ofString (statusText document.status)) := by
  have hplain : plainName "status" = true := plainName_stored _ (by simp [storedNames])
  have hsnapshot : List.lookup "status" (pipelineRecordSnapshot host document.toFields) =
      some (sanitizePersistedValue host.toTextHost (.ofString (statusText document.status))) := by
    rw [pipelineRecordSnapshot, lookup_sanitizeFields hplain]
    simp only [lookup_cons, String.reduceBEq]
    rw [lookup_status, getD_some, map_some]
  have hsummary := lookup_durableSummary hplain
    (by simp only [summaryOverrides, lookup_cons, String.reduceBEq, lookup_nil]) hsnapshot
    (sanitize_status document.status)
  rw [storedSummary, Fields.lookup_assign, lookup_cons_self, rowOf, lookup_columns_status,
    hsummary, some_or, getD_some, getD_some]

theorem lookup_summary_revision :
    List.lookup "revision" (storedSummary
      (rowOf host document time requestEncrypted detailsEncrypted)) =
      some (number document.revision) := by
  have hplain : plainName "revision" = true := plainName_stored _ (by simp [storedNames])
  have hsnapshot : List.lookup "revision" (pipelineRecordSnapshot host document.toFields) =
      some (sanitizePersistedValue host.toTextHost (number document.revision)) := by
    rw [pipelineRecordSnapshot, lookup_sanitizeFields hplain]
    simp only [lookup_cons, String.reduceBEq]
    rw [lookup_revision, map_some]
    rfl
  have hsummary := lookup_durableSummary hplain
    (by simp only [summaryOverrides, lookup_cons, String.reduceBEq, lookup_nil]) hsnapshot
    rfl
  rw [storedSummary, Fields.lookup_assign, rowOf, lookup_columns_revision, hsummary]
  rfl

theorem exists_finalValidationSourceOf :
    ∃ source : CommandSource,
      finalValidationSourceOf document.toFields = .ofString source.toText := by
  unfold finalValidationSourceOf
  rw [lookup_finalValidationSource]
  cases document.finalValidationSource with
  | some source => exact ⟨source, by cases source <;> rfl⟩
  | none =>
    simp only [orNull, Json.orElse, Json.truthy, Bool.false_eq_true, if_false]
    split
    · exact ⟨.legacyUnknown, rfl⟩
    · exact ⟨.none, rfl⟩

theorem sanitize_source (source : CommandSource) :
    sanitizePersistedValue host.toTextHost (.ofString source.toText) =
      .ofString source.toText := by
  rw [Json.ofString, sanitizePersistedValue, redact_sourceText]

theorem lookup_summary_source :
    List.lookup "finalValidationSource" (storedSummary
      (rowOf host document time requestEncrypted detailsEncrypted)) =
      some (finalValidationSourceOf document.toFields) := by
  obtain ⟨source, hsource⟩ := exists_finalValidationSourceOf document
  have hplain : plainName "finalValidationSource" = true := plainName_stored _ (by simp [storedNames])
  have hsnapshot :
      List.lookup "finalValidationSource" (pipelineRecordSnapshot host document.toFields) =
        some (sanitizePersistedValue host.toTextHost (.ofString source.toText)) := by
    rw [pipelineRecordSnapshot, lookup_sanitizeFields hplain, hsource]
    simp only [lookup_cons, String.reduceBEq, map_some]
  have hsummary := lookup_durableSummary hplain
    (by simp only [summaryOverrides, lookup_cons, String.reduceBEq, lookup_nil]) hsnapshot
    (sanitize_source source)
  rw [storedSummary, Fields.lookup_assign_of_notMem (by simp), hsource]
  change List.lookup _ (sanitizeFields host.toTextHost (Fields.assign _ _)) = _
  rw [lookup_sanitizeFields hplain, lookup_committed time (by simp), hsummary, map_some,
    sanitize_source]

/-- The request holds the gates and the command of the document. -/
structure ReplayOf (document : PipelineDocument) (request : Fields) : Prop where
  reviewerJob : List.lookup "reviewerJob" request =
    some (orNull GateJob.toJson document.reviewerJob)
  testerJob : List.lookup "testerJob" request = some (orNull GateJob.toJson document.testerJob)
  finalValidationCommand : List.lookup "finalValidationCommand" request =
    some (.text document.finalValidationCommand)
  others : ∀ name ∈ ["status", "revision", "policy", "integrationQueue",
    "finalValidationSource", "finalValidationSpec"], List.lookup name request = none

theorem pipelineReplayJob_gate : ∀ job : Option GateJob,
    pipelineReplayJob (orNull GateJob.toJson job) = orNull GateJob.toJson job
  | none => rfl
  | some job => by
    have hfields : withoutToken [("agent", .text job.agent), ("task", .text job.task)] =
        [("agent", .text job.agent), ("task", .text job.task)] := by
      simp only [withoutToken, filter_cons, filter_nil, bne, String.reduceBEq,
        Bool.not_false, if_true]
    rw [orNull, GateJob.toJson, pipelineReplayJob, hfields]
    simp only [map_cons, map_nil, replayField, String.reduceEq, if_false]

theorem orElse_emptyText (text : Text) :
    Json.orElse (some (.text text)) emptyText = .text text := by
  cases text <;> rfl

theorem replayOf_pipelineReplayRequest :
    ReplayOf document (pipelineReplayRequest document.toFields) := by
  have hreviewer := (solid_gate_orNull document.reviewerJob).orElse_null
  have htester := (solid_gate_orNull document.testerJob).orElse_null
  refine ⟨?_, ?_, ?_, fun name hname => ?_⟩
  · simp only [pipelineReplayRequest, lookup_cons, String.reduceBEq]
    rw [fieldOr, lookup_reviewerJob, hreviewer, pipelineReplayJob_gate]
  · simp only [pipelineReplayRequest, lookup_cons, String.reduceBEq]
    rw [fieldOr, lookup_testerJob, htester, pipelineReplayJob_gate]
  · simp only [pipelineReplayRequest, lookup_cons, String.reduceBEq]
    rw [fieldOr, lookup_finalValidationCommand, orElse_emptyText]
  · refine lookup_eq_none_iff.mpr fun entry hentry => ?_
    have hnames : entry.1 ∈ ["jobs", "reviewerJob", "testerJob", "finalValidationCommand"] :=
      mem_map_of_mem (f := Prod.fst) hentry
    have hne : ∀ name ∈ ["status", "revision", "policy", "integrationQueue",
        "finalValidationSource", "finalValidationSpec"], ∀ other ∈ ["jobs", "reviewerJob",
        "testerJob", "finalValidationCommand"], (name == other) = false := by decide +kernel
    simpa using hne name hname entry.1 hnames

end

end AgentBridge.Pipelines.Storage
