import AgentBridge.Pipelines.Survival

/-!
# Records after a restart

Over a run of writes, what a read of the row decides on: the decisions of the record in
memory under the redaction of the details, and when these are the same.
-/

namespace AgentBridge.Pipelines.Storage

open Redaction Systems List

variable {host : StorageHost}

/-! ## The decisions of a read -/

/-- The decisions with the fields that come from the details redacted. -/
def redactedDecisions (host : StorageHost) (document : PipelineDocument) : Decisions :=
  let redact := (sanitizePersistedValue host.toTextHost)^[redactionPasses host document]
  let decisions := decisionsOf document.toFields
  { decisions with
    policy := decisions.policy.map (Option.map redact)
    integrationQueue := decisions.integrationQueue.map (List.map (Option.map redact))
    finalValidationSpec := redact decisions.finalValidationSpec }

theorem lookup_details_absent {name : String} (record : Fields)
    (hname : name ∈ ["status", "revision", "finalValidationSource"]) :
    List.lookup name (pipelinePrivateDetails host record) = none := by
  have hplain : plainName name = true := by
    refine plainName_stored name ?_
    simp only [mem_cons, not_mem_nil, or_false] at hname
    obtain rfl | rfl | rfl := hname <;> simp [storedNames]
  unfold pipelinePrivateDetails
  split
  · rw [fullDetails, lookup_sanitizeFields hplain, Option.map_eq_none_iff]
    simp only [mem_cons, not_mem_nil, or_false] at hname
    obtain rfl | rfl | rfl := hname <;>
      simp only [lookup_cons, String.reduceBEq, lookup_nil]
  · rw [truncatedDetails, lookup_sanitizeFields hplain, Option.map_eq_none_iff]
    simp only [mem_cons, not_mem_nil, or_false] at hname
    obtain rfl | rfl | rfl := hname <;>
      simp only [lookup_cons, String.reduceBEq, lookup_nil]

theorem field_iterate_sanitize {textHost : TextHost} {name : String} (h : plainName name = true)
    (n : Nat) (fields : Fields) :
    ((sanitizePersistedValue textHost)^[n] (.object fields)).field name =
      (Json.field (.object fields) name).map (sanitizePersistedValue textHost)^[n] := by
  rw [iterate_object]
  exact lookup_iterate_sanitizeFields h n fields

theorem bind_field_iterate {textHost : TextHost} {name : String} (h : plainName name = true)
    (n : Nat) : ∀ fields : Option Fields,
    ((sanitizePersistedValue textHost)^[n] (orNull .object fields)).field name =
      ((orNull Json.object fields).field name).map (sanitizePersistedValue textHost)^[n]
  | some fields => field_iterate_sanitize h n fields
  | none => by
    have hnull : (sanitizePersistedValue textHost)^[n] Json.null = .null :=
      Function.iterate_fixed rfl n
    rw [orNull, hnull]
    rfl

theorem iterate_items_map (textHost : TextHost) (n : Nat) (items : List Fields) :
    (sanitizeItems textHost)^[n] (items.map .object) =
      items.map fun fields => (sanitizePersistedValue textHost)^[n] (.object fields) := by
  induction items with
  | nil => exact Function.iterate_fixed rfl n
  | cons item items ih => rw [map_cons, iterate_items_cons, ih, map_cons]

theorem plainName_policy : ∀ name ∈ policyIdentityNames, plainName name = true := by
  decide

theorem plainName_item : ∀ name ∈ itemDecisionNames, plainName name = true := by
  decide

theorem iterate_solid {textHost : TextHost} {value : Json} (h : Solid value) (n : Nat) :
    Solid ((sanitizePersistedValue textHost)^[n] value) := by
  induction n generalizing value with
  | zero => exact h
  | succ n ih => exact ih h.sanitize

section

variable (document : PipelineDocument) (time : WriteTime) {replay : Fields}

structure ReadFields (host : StorageHost) (document : PipelineDocument) (back : Fields) :
    Prop where
  status : List.lookup "status" back = some (.ofString (statusText document.status))
  revision : List.lookup "revision" back = some (number document.revision)
  policy : List.lookup "policy" back =
    some ((sanitizePersistedValue host.toTextHost)^[redactionPasses host document]
      (orNull .object document.policy))
  integrationQueue : List.lookup "integrationQueue" back =
    some ((sanitizePersistedValue host.toTextHost)^[redactionPasses host document]
      (.array (document.integrationQueue.map .object)))
  finalValidationCommand : List.lookup "finalValidationCommand" back =
    some (.text document.finalValidationCommand)
  finalValidationSource : List.lookup "finalValidationSource" back =
    some (finalValidationSourceOf document.toFields)
  finalValidationSpec : List.lookup "finalValidationSpec" back =
    some ((sanitizePersistedValue host.toTextHost)^[redactionPasses host document]
      (orNull .object document.finalValidationSpec))
  reviewerJob : List.lookup "reviewerJob" back =
    some (orNull GateJob.toJson document.reviewerJob)
  testerJob : List.lookup "testerJob" back = some (orNull GateJob.toJson document.testerJob)

theorem readFields_of_lookup (hreplay : ReplayOf document replay)
    {details summary back : Fields}
    (hdetails : details = pipelinePrivateDetails host document.toFields)
    (hsummary : summary = storedSummary (rowOf host document time (some replay) (some details)))
    (hlookup : ∀ name ∈ documentNames, List.lookup name back = (List.lookup name replay).or
      ((List.lookup name details).or (List.lookup name summary))) :
    ReadFields host document back := by
  have hcolumn : ∀ name ∈ ["status", "revision", "finalValidationSource"],
      List.lookup name back = List.lookup name summary := by
    intro name hname
    have habsent := @lookup_details_absent host name document.toFields hname
    rw [← hdetails] at habsent
    have hsubset : ∀ name ∈ ["status", "revision", "finalValidationSource"],
        name ∈ documentNames ∧ name ∈ ["status", "revision", "policy", "integrationQueue",
          "finalValidationSource", "finalValidationSpec"] := by simp [documentNames]
    rw [hlookup name (hsubset name hname).1, hreplay.others name (hsubset name hname).2, habsent,
      Option.none_or, Option.none_or]
  have hdetail : ∀ name ∈ ["policy", "integrationQueue", "finalValidationSpec"], ∀ value,
      List.lookup name (pipelinePrivateDetails host document.toFields) = some value →
      List.lookup name back = some value := by
    intro name hname value hvalue
    have hsubset : ∀ name ∈ ["policy", "integrationQueue", "finalValidationSpec"],
        name ∈ documentNames ∧ name ∈ ["status", "revision", "policy", "integrationQueue",
          "finalValidationSource", "finalValidationSpec"] := by simp [documentNames]
    rw [hlookup name (hsubset name hname).1, hreplay.others name (hsubset name hname).2, hdetails,
      hvalue, Option.none_or, Option.some_or]
  have hrequest : ∀ name ∈ ["finalValidationCommand", "reviewerJob", "testerJob"], ∀ value,
      List.lookup name replay = some value → List.lookup name back = some value := by
    intro name hname value hvalue
    have hsubset : ∀ name ∈ ["finalValidationCommand", "reviewerJob", "testerJob"],
        name ∈ documentNames := by simp [documentNames]
    rw [hlookup name (hsubset name hname), hvalue, Option.some_or]
  exact {
    status := by
      rw [hcolumn "status" (by simp), hsummary]
      exact lookup_summary_status document time _ _
    revision := by
      rw [hcolumn "revision" (by simp), hsummary]
      exact lookup_summary_revision document time _ _
    policy := hdetail "policy" (by simp) _ (lookup_details_policy document)
    integrationQueue :=
      hdetail "integrationQueue" (by simp) _ (lookup_details_integrationQueue document)
    finalValidationCommand :=
      hrequest "finalValidationCommand" (by simp) _ hreplay.finalValidationCommand
    finalValidationSource := by
      rw [hcolumn "finalValidationSource" (by simp), hsummary]
      exact lookup_summary_source document time _ _
    finalValidationSpec :=
      hdetail "finalValidationSpec" (by simp) _ (lookup_details_finalValidationSpec document)
    reviewerJob := hrequest "reviewerJob" (by simp) _ hreplay.reviewerJob
    testerJob := hrequest "testerJob" (by simp) _ hreplay.testerJob }

theorem ReadFields.decisionsOf_eq {back : Fields} (h : ReadFields host document back) :
    decisionsOf back = redactedDecisions host document := by
  have hsolid : ∀ fields : Option Fields, .orElse
      (some ((sanitizePersistedValue host.toTextHost)^[redactionPasses host document]
        (orNull .object fields))) .null =
      (sanitizePersistedValue host.toTextHost)^[redactionPasses host document]
        (orNull .object fields) :=
    fun fields => (iterate_solid (solid_object_orNull fields) _).orElse_null
  have hpolicy : (policyIdentityNames.map fun name =>
      (List.lookup "policy" back).bind fun policy => policy.field name) =
      (redactedDecisions host document).policy := by
    simp only [redactedDecisions, decisionsOf, map_map, h.policy, lookup_policy,
      Option.bind_some]
    exact map_congr_left fun name hname => bind_field_iterate (plainName_policy name hname) _ _
  have hqueue : (itemsOf (fieldOr back "integrationQueue" emptyArray)).map (fun item =>
      itemDecisionNames.map fun name => item.field name) =
      (redactedDecisions host document).integrationQueue := by
    have hfield : fieldOr document.toFields "integrationQueue" emptyArray =
        .array (document.integrationQueue.map .object) := by
      rfl
    have hback : fieldOr back "integrationQueue" emptyArray =
        .array (document.integrationQueue.map fun fields =>
          (sanitizePersistedValue host.toTextHost)^[redactionPasses host document]
            (.object fields)) := by
      rw [fieldOr, h.integrationQueue, iterate_array, iterate_items_map]
      rfl
    simp only [redactedDecisions, decisionsOf, hback, hfield, itemsOf, map_map]
    refine map_congr_left fun item _ => ?_
    exact map_congr_left fun name hname =>
      field_iterate_sanitize (plainName_item name hname) _ _
  have hsource : finalValidationSourceOf back = finalValidationSourceOf document.toFields := by
    obtain ⟨source, hsource⟩ := exists_finalValidationSourceOf document
    rw [finalValidationSourceOf, h.finalValidationSource, hsource]
    cases source <;> rfl
  have hspec : fieldOr back "finalValidationSpec" .null =
      (redactedDecisions host document).finalValidationSpec := by
    simp only [redactedDecisions, decisionsOf, fieldOr, h.finalValidationSpec,
      lookup_finalValidationSpec, hsolid, (solid_object_orNull _).orElse_null]
  have hcommand : fieldOr back "finalValidationCommand" emptyText =
      (redactedDecisions host document).finalValidationCommand := by
    simp only [redactedDecisions, decisionsOf, fieldOr, h.finalValidationCommand,
      lookup_finalValidationCommand]
  have hreviewer : fieldOr back "reviewerJob" .null =
      (redactedDecisions host document).reviewerJob := by
    simp only [redactedDecisions, decisionsOf, fieldOr, h.reviewerJob, lookup_reviewerJob]
  have htester : fieldOr back "testerJob" .null =
      (redactedDecisions host document).testerJob := by
    simp only [redactedDecisions, decisionsOf, fieldOr, h.testerJob, lookup_testerJob]
  rw [decisionsOf, h.status, h.revision, hpolicy, hqueue, hcommand, hsource, hspec, hreviewer,
    htester]
  simp only [redactedDecisions, decisionsOf, lookup_status, lookup_revision]

theorem decisions_readPersistedPipelineRecord (hreplay : ReplayOf document replay)
    {details : Fields} (hdetails : details = pipelinePrivateDetails host document.toFields) :
    (¬host.jsonBytes (.object details) ≤ host.maxSnapshotFileBytes + 1024 ∧
      readPersistedPipelineRecord host
        (rowOf host document time (some replay) (some details)) = none) ∨
    (host.jsonBytes (.object details) ≤ host.maxSnapshotFileBytes + 1024 ∧
      (readPersistedPipelineRecord host
        (rowOf host document time (some replay) (some details))).map decisionsOf =
        some (redactedDecisions host document)) := by
  have hnames : ∀ name ∈ documentNames,
      name ≠ "privateDetailsAvailable" ∧ name ≠ "replayRequestAvailable" := by
    simp [documentNames]
  have hread := @readPersistedPipelineRecord_eq host
    (rowOf host document time (some replay) (some details)) _ _ rfl rfl
  refine hread.imp_right fun ⟨hbound, back, hback, hlookup⟩ => ⟨hbound, ?_⟩
  have hfields : ReadFields host document back :=
    readFields_of_lookup document time hreplay hdetails rfl fun name hname =>
      hlookup name (hnames name hname).1 (hnames name hname).2
  rw [hback, Option.map_some, hfields.decisionsOf_eq]

end

/-! ## When the decisions are the same -/

theorem map_eq_self_iff {α : Type} {f : α → α} {items : List α} :
    items.map f = items ↔ ∀ item ∈ items, f item = item := by
  conv_lhs => rhs; rw [← map_id items]
  exact map_inj_left

theorem option_map_eq_self_iff {α : Type} {f : α → α} {value : Option α} :
    value.map f = value ↔ ∀ inner, value = some inner → f inner = inner := by
  cases value <;> simp

section

variable (document : PipelineDocument)

theorem iterate_eq_self_iff_leftAlone (value : Json) :
    (sanitizePersistedValue host.toTextHost)^[redactionPasses host document] value = value ↔
      LeftAlone host document value := by
  unfold LeftAlone redactionPasses
  split
  · exact iterate_eq_self_iff 0 value
  · exact iterate_eq_self_iff 1 value

theorem redacted_policy_iff :
    (redactedDecisions host document).policy = (decisionsOf document.toFields).policy ↔
      ∀ fields, document.policy = some fields → ∀ name ∈ policyIdentityNames, ∀ value,
        fields.lookup name = some value → LeftAlone host document value := by
  simp only [redactedDecisions, decisionsOf, map_eq_self_iff, forall_mem_map,
    option_map_eq_self_iff, lookup_policy, Option.bind_some, iterate_eq_self_iff_leftAlone]
  cases hpolicy : document.policy with
  | none => simp [orNull, Json.field]
  | some fields => simp [orNull, Json.field]

theorem redacted_queue_iff :
    (redactedDecisions host document).integrationQueue =
        (decisionsOf document.toFields).integrationQueue ↔
      ∀ item ∈ document.integrationQueue, ∀ name ∈ itemDecisionNames, ∀ value,
        item.lookup name = some value → LeftAlone host document value := by
  have hfield : fieldOr document.toFields "integrationQueue" emptyArray =
      .array (document.integrationQueue.map .object) := by
    rw [fieldOr, lookup_integrationQueue]
    rfl
  simp only [redactedDecisions, decisionsOf, hfield, itemsOf, map_eq_self_iff, forall_mem_map,
    option_map_eq_self_iff, Json.field, iterate_eq_self_iff_leftAlone]

theorem redacted_spec_iff :
    (redactedDecisions host document).finalValidationSpec =
        (decisionsOf document.toFields).finalValidationSpec ↔
      ∀ fields, document.finalValidationSpec = some fields →
        LeftAlone host document (.object fields) := by
  simp only [redactedDecisions, decisionsOf, fieldOr, lookup_finalValidationSpec,
    (solid_object_orNull _).orElse_null, iterate_eq_self_iff_leftAlone]
  cases document.finalValidationSpec with
  | none => simp [orNull, LeftAlone, Kept]
  | some fields => simp [orNull]

theorem redactedDecisions_eq_iff :
    redactedDecisions host document = decisionsOf document.toFields ↔
      (∀ fields, document.policy = some fields → ∀ name ∈ policyIdentityNames, ∀ value,
        fields.lookup name = some value → LeftAlone host document value) ∧
      (∀ item ∈ document.integrationQueue, ∀ name ∈ itemDecisionNames, ∀ value,
        item.lookup name = some value → LeftAlone host document value) ∧
      (∀ fields, document.finalValidationSpec = some fields →
        LeftAlone host document (.object fields)) := by
  rw [← redacted_policy_iff, ← redacted_queue_iff, ← redacted_spec_iff]
  constructor
  · intro h
    exact ⟨congrArg Decisions.policy h, congrArg Decisions.integrationQueue h,
      congrArg Decisions.finalValidationSpec h⟩
  · intro ⟨hpolicy, hqueue, hspec⟩
    have hparts : redactedDecisions host document =
        { decisionsOf document.toFields with
          policy := (redactedDecisions host document).policy
          integrationQueue := (redactedDecisions host document).integrationQueue
          finalValidationSpec := (redactedDecisions host document).finalValidationSpec } := rfl
    rw [hparts, hpolicy, hqueue, hspec]

end

/-! ## Runs of writes -/

/-- The row is a write of the document with its own gates and command. -/
structure RowAgrees (host : StorageHost) (stored : StoredPipeline) : Prop where
  row : ∃ time replay, ReplayOf stored.document replay ∧
    stored.row = rowOf host stored.document time (some replay)
      (some (pipelinePrivateDetails host stored.document.toFields))

theorem RowAgrees.create (time : WriteTime) (document : PipelineDocument) :
    RowAgrees host (StoredPipeline.create host time document) :=
  ⟨time, pipelineReplayRequest document.toFields, replayOf_pipelineReplayRequest document, rfl⟩

/-- An update leaves the gates and the command as they were, and so the replay request is
still theirs. -/
theorem RowAgrees.update {stored : StoredPipeline} (h : RowAgrees host stored)
    (write : WriteTime × DocumentChanges) : RowAgrees host (stored.update host write) := by
  obtain ⟨time, replay, hreplay, hrow⟩ := h.row
  have hcandidate : ReplayOf (stored.document.update write.2) replay :=
    ⟨hreplay.reviewerJob, hreplay.testerJob, hreplay.finalValidationCommand, hreplay.others⟩
  refine ⟨write.1, replay, hcandidate, ?_⟩
  unfold StoredPipeline.update updatePipelineRecord
  rw [hrow]
  rfl

theorem RowAgrees.foldl (updates : List (WriteTime × DocumentChanges)) :
    ∀ {stored : StoredPipeline}, RowAgrees host stored →
      RowAgrees host (updates.foldl (StoredPipeline.update host) stored) := by
  induction updates with
  | nil => exact id
  | cons write updates ih => exact fun h => ih (h.update write)

/-- Details that fit are within what the decryption accepts. -/
theorem bounds_iff (fields : Fields) :
    host.jsonBytes (.object (pipelinePrivateDetails host fields)) ≤
        host.maxSnapshotFileBytes + 1024 ↔
      (detailsFit host fields = false →
        host.jsonBytes (.object (truncatedDetails host (fullDetails host fields))) ≤
          host.maxSnapshotFileBytes + 1024) := by
  unfold pipelinePrivateDetails
  cases hfit : detailsFit host fields with
  | false => simp
  | true =>
    have hfull : host.jsonBytes (.object (fullDetails host fields)) ≤ host.maxSnapshotFileBytes :=
      of_decide_eq_true hfit
    simp only [if_true, Bool.true_eq_false, false_imp_iff, iff_true]
    omega

/-- A read of an agreeing row gives the decisions of the record exactly when redaction leaves
them alone and the details can be decrypted. -/
theorem RowAgrees.read_iff {stored : StoredPipeline} (h : RowAgrees host stored) :
    (readPersistedPipelineRecord host stored.row).map decisionsOf =
        some (decisionsOf stored.document.toFields) ↔
      Survives host stored.document := by
  obtain ⟨time, replay, hreplay, hrow⟩ := h.row
  rw [hrow]
  have hread := @decisions_readPersistedPipelineRecord host stored.document time replay hreplay _ rfl
  cases hread with
  | inl hfails =>
    rw [hfails.2]
    refine iff_of_false (by simp) fun hsurvives => hfails.1 ?_
    exact (bounds_iff _).mpr hsurvives.bounds
  | inr hreads =>
    rw [hreads.2, Option.some.injEq, redactedDecisions_eq_iff]
    constructor
    · intro ⟨hpolicy, hqueue, hspec⟩
      exact ⟨hpolicy, hqueue, hspec, (bounds_iff _).mp hreads.1⟩
    · intro hsurvives
      exact ⟨hsurvives.policy, hsurvives.integrationQueue, hsurvives.finalValidationSpec⟩

/-- After a creation and any updates, what is read back decides as the record in memory
exactly when redaction leaves its decision fields alone and its details can be decrypted. -/
theorem stored_record_survives_iff (host : StorageHost) (time : WriteTime)
    (created : PipelineDocument) (updates : List (WriteTime × DocumentChanges)) :
    let stored := updates.foldl (StoredPipeline.update host)
      (StoredPipeline.create host time created)
    (readPersistedPipelineRecord host stored.row).map decisionsOf =
        some (decisionsOf stored.document.toFields) ↔
      Survives host stored.document :=
  (RowAgrees.foldl updates (RowAgrees.create time created)).read_iff

/-! ## A command that is redacted -/

mutual

/-- A value as it is written when its texts need no escapes. -/
def writeValue : Json → Text
  | .null => "null".toList
  | .bool value => (toString value).toList
  | .number literal => literal.toList
  | .text value => '"' :: value ++ ['"']
  | .array items => '[' :: writeItems items ++ [']']
  | .object fields => '\x7b' :: writeFields fields ++ ['\x7d']

def writeItems : List Json → Text
  | [] => []
  | item :: items => writeValue item ++ (if items.isEmpty then [] else [',']) ++ writeItems items

def writeFields : Fields → Text
  | [] => []
  | (key, child) :: fields =>
    '"' :: key.toList ++ ['"', ':'] ++ writeValue child ++
      (if fields.isEmpty then [] else [',']) ++ writeFields fields

end

/-- A host that writes plain values, with the text itself for its hash. -/
def plainHost : StorageHost where
  sha256 := id
  string := fun value => match value with
    | .text text => text
    | .null => []
    | other => writeValue other
  stringify := writeValue
  jsonBytes := fun value => (writeValue value).length
  maxSnapshotFileBytes := 10 * 1024 * 1024

/-- A pipeline with one item, whose validation runs the tests with "basic" in their name. -/
def basicTests : PipelineDocument where
  status := .awaitingIntegration
  revision := 3
  policy := none
  integrationQueue :=
    [[("jobId", .ofString "job-1"), ("status", .ofString "pending"),
      ("validationCommand", .ofString "pytest -k basic tests")]]
  finalValidationCommand := "pytest".toList
  finalValidationSource := some .caller
  finalValidationSpec := none
  reviewerJob := none
  testerJob := none
  others := []
  othersFree := by simp

theorem basicTests_not_survives (host : StorageHost) : ¬Survives host basicTests := by
  intro h
  have hcommand := h.integrationQueue _ mem_cons_self "validationCommand"
    (by decide) (.ofString "pytest -k basic tests") rfl
  have hchanged : redactSensitiveText^[1] "pytest -k basic tests".toList ≠
        "pytest -k basic tests".toList ∧
      redactSensitiveText^[2] "pytest -k basic tests".toList ≠
        "pytest -k basic tests".toList := by decide +kernel
  simp only [LeftAlone, Json.ofString, Kept, redactionPasses] at hcommand
  split at hcommand
  · exact hchanged.1 hcommand
  · exact hchanged.2 hcommand

/-- The item's command comes back changed. -/
theorem basicTests_validation_command_lost :
    ((StoredPipeline.create plainHost ⟨"now".toList, "later".toList⟩ basicTests).row |>
      readPersistedPipelineRecord plainHost).map decisionsOf ≠
      some (decisionsOf basicTests.toFields) :=
  fun h => basicTests_not_survives plainHost
    ((RowAgrees.create ⟨"now".toList, "later".toList⟩ basicTests).read_iff.mp h)

end AgentBridge.Pipelines.Storage
