import AgentBridge.Pipelines.Integration
import AgentBridge.Pipelines.Store

/-!
# Updates of a pipeline are serializable until an object is stale

Every write of the row raises its revision. An object that has read the row or has written
it last, and still has its revision, holds its content, so the patch of an update from it
is a patch of the row. An object that took over the revision alone passes the same check
with other content.
-/

namespace AgentBridge.Pipelines

open Systems List Nat

variable {Request : Type} {runtime : StoreRuntime Request}
  {allowed : Request → PipelineRecord → Bool} {s : StoreState Request}
  {event : StoreEvent Request}

/-- The object has not taken over the revision of the row without its content. -/
def isFresh (s : StoreState Request) (object : RecordObject) : Bool :=
  !object.tookOver || object.record.revision ≠ s.row.revision || object.record = s.row

/-- The update starts from an object that is not stale, and what it makes of the private
details can be stored. -/
def startsFresh (runtime : StoreRuntime Request) (s : StoreState Request) (object : RecordObject)
    (outcome : PatchOutcome) : Bool :=
  isFresh s object && match outcome with
    | .changes changes => runtime.detailsFit (updateCandidate object.record changes)
    | _ => true

/-- An update starts fresh, with a request that is allowed for the record it starts from. -/
def serializableStep (runtime : StoreRuntime Request)
    (allowed : Request → PipelineRecord → Bool) (s : StoreState Request) :
    StoreEvent Request → Bool
  | .begin index =>
    (s.calls[index]?).all fun call => (s.objects[call.object]?).all fun object =>
      allowed call.request object.record
        && startsFresh runtime s object (runtime.patch call.request object.record)
  | .activate index _ time =>
    (s.objects[index]?).all fun object =>
      startsFresh runtime s object (.changes (activationChanges object.record time))
  | _ => true

/-- The lists of the row are those of the patch of a row. -/
def patchesTo (row row' : PipelineRecord) (patch : PipelinePatch) : Bool :=
  match patch row with
  | .changes changes => row'.lists = (row.assign changes).lists
  | _ => false

/-- The step leaves the lists of the row alone, or gives it those of a patch of the row. -/
def patchesRow (runtime : StoreRuntime Request) (s s' : StoreState Request)
    (event : StoreEvent Request) : Bool :=
  s'.row.lists = s.row.lists || match event with
    | .commit index _ => (s.writes[index]?).any fun write =>
      patchesTo s.row s'.row (runtime.patch write.request)
    | .activate _ _ time =>
      patchesTo s.row s'.row fun record => .changes (activationChanges record time)
    | _ => false

inductive RowStep (runtime : StoreRuntime Request) (allowed : Request → PipelineRecord → Bool)
    (row : PipelineRecord) : PipelineRecord → Prop where
  | same : RowStep runtime allowed row row
  | claimed (bridgeInstanceId generation : String) :
      RowStep runtime allowed row
        { row with
          ownerInstanceId := bridgeInstanceId
          ownerGeneration := generation
          revision := row.revision + 1 }
  | propagated (failed : Bool) (time : Nat)
      (status : row.status = .planned ∨ row.status = .running) :
      RowStep runtime allowed row
        { row with
          status := if failed then .failed else .cancelled
          finishedAt := some time
          revision := row.revision + 1 }
  | activated (time : Nat) (status : row.status = .planned) :
      RowStep runtime allowed row (updateCandidate row (activationChanges row time))
  | updated (request : Request) (changes : PipelineChanges)
      (granted : allowed request row = true) (patch : runtime.patch request row = .changes changes) :
      RowStep runtime allowed row (updateCandidate row changes)

structure StoreInvariant (runtime : StoreRuntime Request)
    (allowed : Request → PipelineRecord → Bool) (s : StoreState Request) : Prop where
  behind : ∀ object ∈ s.objects, object.record.revision ≤ s.row.revision
  current : ∀ object ∈ s.objects, object.tookOver = false →
    object.record.revision = s.row.revision → object.record = s.row
  expected : ∀ write ∈ s.writes, write.expectedRevision ≤ s.row.revision ∧
    write.candidate.revision = write.expectedRevision + 1
  stored : ∀ write ∈ s.writes, runtime.detailsFit write.candidate = true
  patched : ∀ write ∈ s.writes, write.expectedRevision = s.row.revision →
    allowed write.request s.row = true ∧ ∃ changes,
      runtime.patch write.request s.row = .changes changes ∧
        write.candidate = updateCandidate s.row changes

theorem patchesRow_of_same {s' : StoreState Request} (h : s'.row.lists = s.row.lists) :
    patchesRow runtime s s' event = true := by
  simp [patchesRow, h]

variable {row : PipelineRecord}

theorem patchesTo_of {row' : PipelineRecord} {patch : PipelinePatch} {changes : PipelineChanges}
    (h : patch row = .changes changes) (lists : row'.lists = (row.assign changes).lists) :
    patchesTo row row' patch = true := by
  simp [patchesTo, h, lists]

theorem storeInvariant_created (record : PipelineRecord) :
    StoreInvariant runtime allowed (.created record) := by
  constructor
  · intro object hobject
    obtain rfl := mem_singleton.mp hobject
    exact le_refl _
  · intro object hobject _ _
    obtain rfl := mem_singleton.mp hobject
    rfl
  all_goals
    intro write hwrite
    cases hwrite

@[simp] theorem updateCandidate_revision (record : PipelineRecord) (changes : PipelineChanges) :
    (updateCandidate record changes).revision = record.revision + 1 := rfl

@[simp] theorem updateCandidate_lists (record : PipelineRecord) (changes : PipelineChanges) :
    (updateCandidate record changes).lists = (record.assign changes).lists := rfl

theorem storedRecord_of_fit {record : PipelineRecord} (h : runtime.detailsFit record = true) :
    storedRecord runtime record = record := if_pos h

theorem writeMatches_revision {candidate : PipelineRecord} {expectedRevision : Nat}
    {ownerLive : Bool} (h : writeMatches row expectedRevision candidate ownerLive = true) :
    row.revision = expectedRevision := by
  simp only [writeMatches, Bool.and_eq_true, decide_eq_true_eq] at h
  exact h.1.1.1.1

/-! ### Objects -/

variable {writes : List (PipelineWrite Request)}

section

variable (h : StoreInvariant runtime allowed s)

include h

/-- The row stays, and one object is rewritten to another that is behind and current. -/
theorem StoreInvariant.modify {index : Nat} {f : RecordObject → RecordObject}
    (rewritten : ∀ object, s.objects[index]? = some object →
      (f object).record.revision ≤ s.row.revision ∧
        ((f object).tookOver = false → (f object).record.revision = s.row.revision →
          (f object).record = s.row)) {calls : List (PipelineCall Request)}
    (kept : ∀ w ∈ writes, w ∈ s.writes) :
    StoreInvariant runtime allowed
      { s with objects := s.objects.modify index f, calls := calls, writes := writes } := by
  constructor
  · intro object' hobject'
    rcases mem_of_mem_modify hobject' with hold | ⟨object, hobject, rfl⟩
    · exact h.behind object' hold
    · exact (rewritten object hobject).1
  · intro object' hobject'
    rcases mem_of_mem_modify hobject' with hold | ⟨object, hobject, rfl⟩
    · exact h.current object' hold
    · exact (rewritten object hobject).2
  · exact fun write hwrite => h.expected write (kept write hwrite)
  · exact fun write hwrite => h.stored write (kept write hwrite)
  · exact fun write hwrite => h.patched write (kept write hwrite)

/-- The row takes a new content and its next revision: what has not been given the new
content is behind. -/
theorem StoreInvariant.advance (revision : row.revision = s.row.revision + 1)
    {objects : List RecordObject} (given : ∀ object ∈ objects, object ∈ s.objects ∨
      (object.record.revision ≤ row.revision ∧ (object.tookOver = false → object.record = row)))
    (kept : ∀ w ∈ writes, w ∈ s.writes) :
    StoreInvariant runtime allowed { s with row := row, objects := objects, writes := writes } := by
  constructor
  · intro object hobject
    rcases given object hobject with hold | hnew
    · have hbehind := h.behind object hold
      show object.record.revision ≤ row.revision
      omega
    · exact hnew.1
  · intro object hobject hown hrevision
    rcases given object hobject with hold | hnew
    · have hbehind := h.behind object hold
      change object.record.revision = row.revision at hrevision
      omega
    · exact hnew.2 hown
  · intro write hwrite
    have hexpected := h.expected write (kept write hwrite)
    refine ⟨?_, hexpected.2⟩
    show write.expectedRevision ≤ row.revision
    omega
  · exact fun write hwrite => h.stored write (kept write hwrite)
  · intro write hwrite hrevision
    have hexpected := h.expected write (kept write hwrite)
    change write.expectedRevision = row.revision at hrevision
    omega

/-- One object is given the new content. -/
theorem StoreInvariant.advance_one (revision : row.revision = s.row.revision + 1) {index : Nat}
    {f : RecordObject → RecordObject} (rewritten : ∀ object, s.objects[index]? = some object →
      (f object).record.revision ≤ row.revision ∧
        ((f object).tookOver = false → (f object).record = row)) (kept : ∀ w ∈ writes, w ∈ s.writes) :
    StoreInvariant runtime allowed
      { s with row := row, objects := s.objects.modify index f, writes := writes } := by
  refine h.advance revision (fun object' hobject' => ?_) kept
  rcases mem_of_mem_modify hobject' with hold | ⟨object, hobject, rfl⟩
  · exact .inl hold
  · exact .inr (rewritten object hobject)

theorem StoreInvariant.holdsRow {object : RecordObject} (hobject : object ∈ s.objects)
    (fresh : isFresh s object = true) (revision : object.record.revision = s.row.revision) :
    object.record = s.row := by
  cases htook : object.tookOver
  · exact h.current object hobject htook revision
  · simpa [isFresh, htook, revision] using fresh

/-! ### Steps -/

theorem StoreInvariant.begin (index : Nat)
    (starts : serializableStep runtime allowed s (.begin index) = true) :
    StoreInvariant runtime allowed (beginUpdate runtime s index) := by
  have hquiet (calls : List (PipelineCall Request)) :
      StoreInvariant runtime allowed { s with calls := calls } :=
    ⟨h.behind, h.current, h.expected, h.stored, h.patched⟩
  simp only [beginUpdate]
  split
  · exact h
  next call hcall =>
    split
    · exact h
    next object hobject =>
      simp only [serializableStep, hcall, Option.all_some, hobject, startsFresh,
        Bool.and_eq_true] at starts
      obtain ⟨hallowed, hfresh, hfit⟩ := starts
      have hmem : object ∈ s.objects := mem_of_getElem? hobject
      split
      · split
        next changes hchanges =>
          simp only [hchanges] at hfit
          constructor
          · exact h.behind
          · exact h.current
          · intro write hwrite
            rcases mem_append.mp hwrite with hold | hnew
            · exact h.expected write hold
            · obtain rfl := mem_singleton.mp hnew
              exact ⟨h.behind object hmem, rfl⟩
          · intro write hwrite
            rcases mem_append.mp hwrite with hold | hnew
            · exact h.stored write hold
            · obtain rfl := mem_singleton.mp hnew
              exact hfit
          · intro write hwrite hrevision
            rcases mem_append.mp hwrite with hold | hnew
            · exact h.patched write hold hrevision
            · obtain rfl := mem_singleton.mp hnew
              have hrow := h.holdsRow hmem hfresh hrevision
              rw [hrow] at hallowed hchanges
              refine ⟨hallowed, changes, hchanges, ?_⟩
              rw [hrow]
        · exact hquiet _
        · exact hquiet _
      · exact h

end

theorem beginUpdate_row (runtime : StoreRuntime Request) (s : StoreState Request) (index : Nat) :
    (beginUpdate runtime s index).row = s.row := by
  simp only [beginUpdate]
  split
  · rfl
  · split
    · rfl
    · split
      · split <;> rfl
      · rfl

/-- What a step keeps: the invariant, the lists of the row up to a patch of the row, and the
row up to one of its writes. -/
structure Serialized (runtime : StoreRuntime Request)
    (allowed : Request → PipelineRecord → Bool) (s s' : StoreState Request)
    (event : StoreEvent Request) : Prop where
  invariant : StoreInvariant runtime allowed s'
  patches : patchesRow runtime s s' event = true
  row : RowStep runtime allowed s.row s'.row

theorem Serialized.of_same {s' : StoreState Request} (h : StoreInvariant runtime allowed s')
    (row : s'.row = s.row) : Serialized runtime allowed s s' event :=
  ⟨h, patchesRow_of_same (congrArg PipelineRecord.lists row), row ▸ .same⟩

theorem StoreInvariant.commit (h : StoreInvariant runtime allowed s) (index : Nat)
    (ownerLive : Bool) :
    Serialized runtime allowed s (commitUpdate runtime s index ownerLive)
      (.commit index ownerLive) := by
  simp only [commitUpdate]
  split
  · exact .of_same h rfl
  next write hwrite =>
    have hmem : write ∈ s.writes := mem_of_getElem? hwrite
    have hrest : ∀ w ∈ s.writes.eraseIdx index, w ∈ s.writes := fun w hw =>
      mem_of_mem_eraseIdx hw
    split
    next hmatches =>
      have hrevision := writeMatches_revision hmatches
      have hexpected := (h.expected write hmem).2
      obtain ⟨hallowed, changes, hpatch, hcandidate⟩ := h.patched write hmem hrevision.symm
      rw [storedRecord_of_fit (h.stored write hmem)]
      have hnext : write.candidate.revision = s.row.revision + 1 := by omega
      constructor
      · refine h.advance_one hnext (fun object _ => ?_) hrest
        exact ⟨le_refl _, fun _ => rfl⟩
      · have hpatched : patchesTo s.row write.candidate (runtime.patch write.request) = true :=
          patchesTo_of hpatch (by rw [hcandidate, updateCandidate_lists])
        simp [patchesRow, hwrite, hpatched]
      · rw [hcandidate]
        exact .updated write.request changes hallowed hpatch
    · refine .of_same (h.modify (fun object hobject => ⟨le_refl _, fun hown _ => ?_⟩) hrest) rfl
      -- The object keeps its content only if its revision was already the row's.
      simp only [RecordObject.refused, Bool.or_eq_false_iff, decide_eq_false_iff_not, not_not]
        at hown
      have hrow := h.current object (mem_of_getElem? hobject) hown.1 hown.2
      simp [RecordObject.refused, takeOverState, hrow]

theorem claimedState_self (row : PipelineRecord) : claimedState row row = row := by
  simp [claimedState, orText]

/-- What a claim leaves: the row as it is or under a new owner, and the record at the
revision of the row. -/
structure Claimed (runtime : StoreRuntime Request) (allowed : Request → PipelineRecord → Bool)
    (record row record' row' : PipelineRecord) : Prop where
  step : RowStep runtime allowed row row'
  lists : row'.lists = row.lists
  revision : record'.revision = row'.revision ∨ record' = record
  same : record = row → record' = row'
  advances : row' = row ∨ row'.revision = row.revision + 1

theorem claimPersistedPipeline_spec (runtime : StoreRuntime Request)
    (allowed : Request → PipelineRecord → Bool) (bridgeInstanceId freshGeneration : String)
    (view : ClaimView) (record row : PipelineRecord) :
    let claimed := claimPersistedPipeline bridgeInstanceId freshGeneration view record row
    Claimed runtime allowed record row claimed.2.1 claimed.2.2 := by
  simp only [claimPersistedPipeline]
  have hself (h : record = row) : claimedState record row = row := h ▸ claimedState_self row
  split_ifs
  · exact ⟨.same, rfl, .inl rfl, hself, .inl rfl⟩
  · exact ⟨.same, rfl, .inl rfl, hself, .inl rfl⟩
  · exact ⟨.same, rfl, .inl rfl, hself, .inl rfl⟩
  · exact ⟨.same, rfl, .inl rfl, hself, .inl rfl⟩
  · refine ⟨.claimed bridgeInstanceId freshGeneration, rfl, .inl rfl, fun h => ?_, .inr rfl⟩
    rw [hself h]
  · exact ⟨.same, rfl, .inr rfl, id, .inl rfl⟩

theorem StoreInvariant.claim (h : StoreInvariant runtime allowed s) (index : Nat)
    (freshGeneration : String) (view : ClaimView) :
    Serialized runtime allowed s (storeStep runtime s (.claim index freshGeneration view))
      (.claim index freshGeneration view) := by
  simp only [storeStep]
  split
  · exact .of_same h rfl
  next object hobject =>
    have hmem : object ∈ s.objects := mem_of_getElem? hobject
    have hclaimed := claimPersistedPipeline_spec runtime allowed object.bridgeInstanceId
      freshGeneration view object.record s.row
    generalize claimPersistedPipeline object.bridgeInstanceId freshGeneration view object.record
      s.row = claimed at hclaimed
    obtain ⟨hstep, hlists, hrevision, hsame, hrow⟩ := hclaimed
    have hbehind := h.behind object hmem
    have hheld (other : RecordObject) (hother : s.objects[index]? = some other) :
        claimed.2.1.revision ≤ claimed.2.2.revision ∧
          ((other.tookOver || decide (other.record.revision ≠ s.row.revision)) = false →
            claimed.2.1 = claimed.2.2) := by
      obtain rfl : object = other := Option.some.inj (hobject.symm.trans hother)
      refine ⟨?_, fun hown => hsame ?_⟩
      · rcases hrevision with hrecord | hrecord
        · omega
        · rcases hrow with hrow | hrow <;> rw [hrecord, hrow] <;> omega
      · simp only [Bool.or_eq_false_iff, decide_eq_false_iff_not, not_not] at hown
        exact h.current object hmem hown.1 hown.2
    refine ⟨?_, patchesRow_of_same hlists, hstep⟩
    rcases hrow with hrow | hrow
    · rw [hrow] at hheld ⊢
      exact h.modify (fun other hother => ⟨(hheld other hother).1, fun hown _ =>
        (hheld other hother).2 hown⟩) fun _ hw => hw
    · exact h.advance_one hrow hheld fun _ hw => hw

theorem StoreInvariant.activate (h : StoreInvariant runtime allowed s) (index : Nat)
    (ownerLive : Bool) (time : Nat)
    (starts : serializableStep runtime allowed s (.activate index ownerLive time) = true) :
    Serialized runtime allowed s (activateBatch runtime s index ownerLive time)
      (.activate index ownerLive time) := by
  simp only [activateBatch]
  split
  · exact .of_same h rfl
  next object hobject =>
    split
    next hguard =>
      simp only [serializableStep, startsFresh, hobject, Option.all_some, Bool.and_eq_true]
        at starts
      obtain ⟨hfresh, hfit⟩ := starts
      simp only [Bool.and_eq_true, decide_eq_true_eq] at hguard
      have hrevision := writeMatches_revision hguard.2
      have hrow := h.holdsRow (mem_of_getElem? hobject) hfresh hrevision.symm
      rw [storedRecord_of_fit hfit, hrow]
      refine ⟨?_, by simp [patchesRow, patchesTo], .activated time hguard.1.1.1.2⟩
      refine h.advance_one (updateCandidate_revision ..) (fun other _ => ?_) fun _ hw => hw
      exact ⟨le_refl _, fun _ => rfl⟩
    · exact .of_same h rfl

theorem storeInvariant_step (h : StoreInvariant runtime allowed s)
    (starts : serializableStep runtime allowed s event = true) :
    Serialized runtime allowed s (storeStep runtime s event) event := by
  cases event with
  | read bridgeInstanceId =>
    refine .of_same ⟨?_, ?_, h.expected, h.stored, h.patched⟩ rfl
    · intro object hobject
      rcases mem_append.mp hobject with hold | hnew
      · exact h.behind object hold
      · obtain rfl := mem_singleton.mp hnew
        exact le_refl _
    · intro object hobject hown hrevision
      rcases mem_append.mp hobject with hold | hnew
      · exact h.current object hold hown hrevision
      · obtain rfl := mem_singleton.mp hnew
        rfl
  | reread index =>
    refine .of_same (h.modify (fun object hobject => ?_) fun _ hw => hw) rfl
    split
    · exact ⟨le_refl _, fun _ _ => rfl⟩
    · have hmem := mem_of_getElem? hobject
      exact ⟨h.behind object hmem, h.current object hmem⟩
  | claim index freshGeneration view => exact h.claim index freshGeneration view
  | call index request =>
    simp only [storeStep]
    split
    · exact .of_same h rfl
    · split
      · exact .of_same ⟨h.behind, h.current, h.expected, h.stored, h.patched⟩ rfl
      · exact .of_same h rfl
  | begin index => exact .of_same (h.begin index starts) (beginUpdate_row runtime s index)
  | commit index ownerLive => exact h.commit index ownerLive
  | propagate failed time =>
    simp only [storeStep]
    split
    next hopen =>
      simp only [Bool.or_eq_true, decide_eq_true_eq] at hopen
      refine ⟨h.advance rfl (fun _ hobject => .inl hobject) fun _ hw => hw,
        patchesRow_of_same rfl, .propagated failed time hopen⟩
    · exact .of_same h rfl
  | activate index ownerLive time => exact h.activate index ownerLive time starts

/-! ### Runs -/

theorem storeInvariant_run (runtime : StoreRuntime Request)
    (allowed : Request → PipelineRecord → Bool) (record : PipelineRecord)
    (events : List (StoreEvent Request))
    (along : Along (storeStep runtime)
      (fun s event => serializableStep runtime allowed s event = true) (.created record) events) :
    StoreInvariant runtime allowed (run (storeStep runtime) (.created record) events) := by
  have hstep : ∀ s event, StoreInvariant runtime allowed s →
      serializableStep runtime allowed s event = true →
      StoreInvariant runtime allowed (storeStep runtime s event) := fun s event h starts =>
    (storeInvariant_step h starts).invariant
  exact run_invariant hstep (storeInvariant_created record) events along

theorem RowStep.advanced {row row' : PipelineRecord} (h : RowStep runtime allowed row row') :
    row' = row ∨ row.revision < row'.revision := by
  cases h with
  | same => exact .inl rfl
  | _ => exact .inr (lt_succ_self _)

/-- A store for short records, whose callers pass their patches. -/
def roomyStore : StoreRuntime PipelinePatch := ⟨id, fun _ => true⟩

/-- A host whose paths are compared as they are written. -/
def plainHost : PipelineRuntime := ⟨fun _ path => path⟩

/-- An item that waits for its integration. -/
def pendingItem (jobId branch : String) : IntegrationItem where
  jobId := jobId
  agent := "implementer"
  worktreePath := ""
  branch := branch
  sourceBaseCommit := "base"
  patchSha256 := "patch"
  sourceStateSha256 := "state"
  allowedEdits := ["src"]
  changedFiles := ["src/a.js"]
  status := .pending
  operationId := ""
  errorType := ""
  noChanges := false
  cleanupRequested := false

def integratingPipeline (items : List IntegrationItem) : PipelineRecord where
  pipelineId := "pipeline-1"
  cwd := "/repo"
  status := .awaitingIntegration
  revision := 1
  ownerInstanceId := "bridge-1"
  ownerGeneration := "gen-1"
  batchState := "released"
  cleanupState := "none"
  cleanupPending := false
  finishedAt := none
  integrationQueue := items
  events := []
  errors := []
  sourceCleanupResults := []
  policy := none
  finalValidationCommand := ""
  finalValidationSource := "none"
  finalValidationSpec := none
  sanitizedWorkspace := false
  reviewerJob := none
  testerJob := none
  finalValidationResult := none
  reviewerResult := none
  testerResult := none

def appliedAttempt (branch operationId : String) : IntegrationAttempt where
  source := ⟨"", branch⟩
  result :=
    { ok := true
      status := "applied"
      errorType := ""
      operationId := operationId
      operationIds := []
      sourceBaseCommit := "base"
      patchSha256 := "patch"
      sourceStateSha256 := "state"
      applied := true
      validationPassed := true }
  dryRun := false
  cleanupAfterSuccess := true
  heldOperationId := operationId
  time := 20

/-- An attempt at a branch that an error ended. -/
def failedAttempt (branch errorType : String) : IntegrationAttempt where
  source := ⟨"", branch⟩
  result :=
    { ok := false
      status := ""
      errorType := errorType
      operationId := ""
      operationIds := []
      sourceBaseCommit := ""
      patchSha256 := ""
      sourceStateSha256 := ""
      applied := false
      validationPassed := false }
  dryRun := false
  cleanupAfterSuccess := true
  heldOperationId := ""
  time := 30

/-- Two objects of one pipeline in one process; the update of the second is refused. -/
def refusedReservation : List (StoreEvent PipelinePatch) :=
  [.read "bridge-1",
    .call 0 (integrationResultPatch plainHost (appliedAttempt "writer-1" "operation-1")),
    .begin 0, .commit 0 true,
    .call 1 (onIntegrationPrepared plainHost ⟨"", "writer-2"⟩ "operation-2" "job-2" 25),
    .begin 0, .commit 0 true]

/-- The result of the refused attempt, from the same object. -/
def resultAfterRefusal : List (StoreEvent PipelinePatch) :=
  [.call 1 (integrationResultPatch plainHost
      (failedAttempt "writer-2" "pipeline_concurrent_update")),
    .begin 0]

def twoWriters : PipelineRecord :=
  integratingPipeline [pendingItem "job-1" "writer-1", pendingItem "job-2" "writer-2"]

end AgentBridge.Pipelines
