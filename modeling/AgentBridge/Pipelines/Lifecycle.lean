import AgentBridge.Pipelines.Items

/-!
# A closed pipeline

Every operation on a pipeline ends in updates of its record. Most of them compute their
patch when the write runs, from the record as it stands then. Others compute it before:
what `finalizePipelineRecordWhileLocked` writes when it rejects an attempt or has finished
one, what `resumeAuthorizedPipelineCleanup` writes, and the failure of a start. The system
below adds to the store the removal of sources, by a finalizer whose authorization has
been written and by the recovery of a cleanup.
-/

namespace AgentBridge.Pipelines

open Systems List Option Bool Nat

/-! ### The updates -/

/-- `abandon_multi_agent_pipeline` -/
def abandonPatch (time : Nat) : PipelinePatch := fun current =>
  if current.status = .finalizing || current.status = .cleanupPending then
    .refused "pipeline_finalization_in_progress"
  else if current.integrationQueue.any fun item => item.status = .integrating then
    .refused "pipeline_integration_in_progress"
  else
    .changes
      { status := some .cancelled
        finishedAt := some (some time)
        cleanupPending := some false
        cleanupState := some "abandoned_sources_retained"
        events := some (current.events ++ [{ type := "pipeline_abandoned", time := time }]) }

/-- The reservation of a finalization, with the events of the record as it was looked at. -/
def finalizingPatch (events : List AuditEvent) : PipelinePatch := fun current =>
  if current.status.closed then .refused "pipeline_terminal"
  else .changes { status := some .finalizing, events := some events }

/-- `deferPipelineFinalization`, with what else it keeps of the attempt -/
def deferPatch (patch : PipelineChanges) (type errorType : String) (time : Nat) :
    PipelinePatch := fun current =>
  if current.status.closed then .changes {}
  else
    .changes
      { patch with
        status := some .awaitingFinalization
        finishedAt := some none
        errors := some (current.errors ++ [⟨type, errorType, ""⟩])
        events := some (current.events ++
          [{ type := "finalization_deferred", time := time, errorType := errorType }]) }

inductive LifecycleRequest where
  | item (request : ItemRequest)
  | abandon (time : Nat)
  | finalizing (events : List AuditEvent)
  | defer (patch : PipelineChanges) (type errorType : String) (time : Nat)
  /-- Changes computed before the call: `recordRejection`, the results of a finalization or
  of a recovered cleanup, and the failure of a start. -/
  | plain (changes : PipelineChanges)
  deriving Inhabited

/-- An item request of this system is a writer of the items. -/
def LifecycleRequest.patch (host : PipelineRuntime) (children : PipelineChildren) :
    LifecycleRequest → PipelinePatch
  | .item (.other _) => fun _ => .unchanged
  | .item request => request.patch host children
  | .abandon time => abandonPatch time
  | .finalizing events => finalizingPatch events
  | .defer patch type errorType time => deferPatch patch type errorType time
  | .plain changes => changes.plain

def lifecycleStore (host : PipelineRuntime) (children : PipelineChildren)
    (detailsFit : PipelineRecord → Bool) : StoreRuntime LifecycleRequest :=
  ⟨LifecycleRequest.patch host children, detailsFit⟩

/-- Changes that authorize the removal of sources. -/
def LifecycleRequest.authorizesCleanup : LifecycleRequest → Bool
  | .plain changes => changes.status = some .cleanupPending
  | _ => false

def LifecycleRequest.abandons : LifecycleRequest → Bool
  | .abandon _ => true
  | _ => false

def LifecycleRequest.reserves : LifecycleRequest → Bool
  | .item (.prepared ..) => true
  | _ => false

/-! ### The system -/

structure LifecycleState where
  store : StoreState LifecycleRequest
  /-- The cleanups under way, of finalizers and of the recovery. -/
  cleanups : Nat
  /-- The sources removed so far. -/
  removed : Nat

inductive LifecycleEvent where
  | store (event : StoreEvent LifecycleRequest)
  /-- The recovery claims the pipeline with an object it has read, and resumes the cleanup. -/
  | recover (object : Nat) (freshGeneration : String) (view : ClaimView)
  | remove
  | finishCleanup
  /-- The recovery of rows that an earlier version completed with a cleanup pending. -/
  | legacyCleanup (ownerLive : Bool)

/-- The request of the write that the event carries out, if the row accepts it. -/
def carriesOut (s : StoreState LifecycleRequest) :
    StoreEvent LifecycleRequest → Option LifecycleRequest
  | .commit index ownerLive => (s.writes[index]?).bind fun write =>
    if writeMatches s.row write.expectedRevision write.candidate ownerLive then
      some write.request
    else none
  | _ => none

/-- Whether the claim gives the process a pipeline whose cleanup it may resume: one that
was another's, or its own that rests in `cleanup_failed`. -/
def resumesCleanup (object : RecordObject) (freshGeneration : String) (view : ClaimView)
    (row : PipelineRecord) : Bool :=
  let claimed := claimPersistedPipeline object.bridgeInstanceId freshGeneration view object.record
    row
  let own := claimed.2.2.ownerGeneration = row.ownerGeneration
  claimed.1 && (!own || claimed.2.1.status = .cleanupFailed)

def lifecycleStep (runtime : StoreRuntime LifecycleRequest) (s : LifecycleState) :
    LifecycleEvent → LifecycleState
  | .store event =>
    { s with
      store := storeStep runtime s.store event
      cleanups := if (carriesOut s.store event).any LifecycleRequest.authorizesCleanup then
        s.cleanups + 1 else s.cleanups }
  | .recover index freshGeneration view =>
    { s with
      store := storeStep runtime s.store (.claim index freshGeneration view)
      cleanups := if (s.store.objects[index]?).any fun object =>
          resumesCleanup object freshGeneration view s.store.row then
        s.cleanups + 1 else s.cleanups }
  | .remove => if s.cleanups = 0 then s else { s with removed := s.removed + 1 }
  | .finishCleanup => { s with cleanups := s.cleanups - 1 }
  | .legacyCleanup ownerLive =>
    if s.store.row.status = .completed && s.store.row.cleanupPending && !ownerLive then
      { s with store := { s.store with row :=
        { s.store.row with
          status := .cleanupPending
          cleanupState := "authorized"
          revision := s.store.row.revision + 1 } } }
    else s

def LifecycleState.created (record : PipelineRecord) : LifecycleState := ⟨.created record, 0, 0⟩

/-! ### The condition -/

/-- No patch that was computed before, and no abandonment, starts its write on a record that
has been closed meanwhile, unless it keeps the status. -/
def inTime (request : LifecycleRequest) (record : PipelineRecord) : Bool :=
  match request with
  | .plain changes => !record.status.closed || changes.status.all fun status =>
    status = record.status
  | .abandon _ => !record.status.closed
  | _ => true

/-- The object does not have the revision of the row with other items. -/
def itemsFresh (s : StoreState LifecycleRequest) (object : RecordObject) : Bool :=
  object.record.revision ≠ s.row.revision
    || object.record.integrationQueue = s.row.integrationQueue

def lifecycleAllowed (s : LifecycleState) : LifecycleEvent → Bool
  | .store (.begin index) =>
    (s.store.calls[index]?).all fun call => (s.store.objects[call.object]?).all fun object =>
      inTime call.request object.record
        && (!call.request.abandons || itemsFresh s.store object)
  | .store event =>
    !(carriesOut s.store event).any LifecycleRequest.abandons || s.cleanups = 0
  | .legacyCleanup _ => !(s.store.row.status = .completed && s.store.row.cleanupPending)
  | _ => true

/-! ### What an update does to a closed status -/

variable {host : PipelineRuntime} {children : PipelineChildren}
  {detailsFit : PipelineRecord → Bool} {s : StoreState LifecycleRequest}

variable {record : PipelineRecord}

theorem guarded_closed {patch : PipelinePatch} (closed : record.status.closed = true) :
    guarded patch record = .unchanged := by
  simp [guarded, RecordStatus.frozen_of_closed closed]

theorem reconciliationPatch_closed {changes : List JournalChange} {refreshing : Bool} {time : Nat}
    (closed : record.status.closed = true) {given : PipelineChanges}
    (patch : reconciliationPatch changes refreshing time record = .changes given) :
    given.status.getD record.status = record.status := by
  simp only [reconciliationPatch] at patch
  split at patch
  · cases patch
  · cases patch
    split
    next hawaiting =>
      simp only [and_eq_true, decide_eq_true_eq] at hawaiting
      rw [hawaiting.2] at closed
      cases closed
    · rfl

variable {changes : PipelineChanges} {request : LifecycleRequest}

/-- Every writer but the ones that are not in time keeps a closed status. -/
theorem LifecycleRequest.patch_closed (closed : record.status.closed = true)
    (early : inTime request record = true)
    (patch : request.patch host children record = .changes changes) :
    changes.status.getD record.status = record.status := by
  cases request with
  | item request =>
    cases request with
    | prepared =>
      simp only [LifecycleRequest.patch, ItemRequest.patch, onIntegrationPrepared, closed,
        if_true] at patch
      cases patch
    | attempted attempt =>
      simp only [LifecycleRequest.patch, ItemRequest.patch, integrationResultPatch, closed,
        Bool.not_true, Bool.and_false, Bool.false_eq_true, if_false] at patch
      cases patch
      rfl
    | reconciled looked journal refreshing time =>
      simp only [LifecycleRequest.patch, ItemRequest.patch] at patch
      split at patch
      · rw [guarded_closed closed] at patch
        cases patch
      · exact reconciliationPatch_closed closed patch
    | finishedRefresh =>
      simp only [LifecycleRequest.patch, ItemRequest.patch, refreshPatch,
        guarded_closed closed] at patch
      cases patch
    | unfinishedRefresh =>
      simp only [LifecycleRequest.patch, ItemRequest.patch] at patch
      split at patch
      · cases patch
      · rw [refreshPatch, guarded_closed closed] at patch
        cases patch
    | brokenManifest =>
      simp only [LifecycleRequest.patch, ItemRequest.patch, brokenManifestPatch,
        guarded_closed closed] at patch
      cases patch
    | other => cases patch
  | abandon =>
    rw [inTime, closed] at early
    cases early
  | finalizing =>
    simp only [LifecycleRequest.patch, finalizingPatch, closed, if_true] at patch
    cases patch
  | defer =>
    simp only [LifecycleRequest.patch, deferPatch, closed, if_true] at patch
    cases patch
    rfl
  | plain given =>
    cases patch
    simp only [inTime, closed, Bool.not_true, Bool.false_or] at early
    cases hstatus : changes.status with
    | none => rfl
    | some status => simpa [hstatus] using early

theorem LifecycleRequest.patch_of_closed (closed : record.status.closed = true)
    (early : inTime request record = true)
    (patch : request.patch host children record = .changes changes) :
    request.reserves = false ∧ request.authorizesCleanup = false ∧ request.abandons = false := by
  cases request with
  | item request =>
    refine ⟨?_, rfl, rfl⟩
    cases request with
    | prepared =>
      simp only [LifecycleRequest.patch, ItemRequest.patch, onIntegrationPrepared, closed,
        if_true] at patch
      cases patch
    | _ => rfl
  | abandon =>
    rw [inTime, closed] at early
    cases early
  | finalizing => exact ⟨rfl, rfl, rfl⟩
  | defer => exact ⟨rfl, rfl, rfl⟩
  | plain given =>
    refine ⟨rfl, ?_, rfl⟩
    simp only [inTime, closed, Bool.not_true, Bool.false_or] at early
    cases hstatus : given.status with
    | none => simp [LifecycleRequest.authorizesCleanup, hstatus]
    | some status =>
      simp only [hstatus, all_some, decide_eq_true_eq] at early
      rw [← early] at closed
      have hne : status ≠ .cleanupPending := by
        rintro rfl
        cases closed
      simp [LifecycleRequest.authorizesCleanup, hstatus, hne]

/-! ### The invariant -/

/-- The write was computed from a record with the status of the row, and an abandonment from
one with its items. -/
structure ComputedFrom (host : PipelineRuntime) (children : PipelineChildren)
    (row : PipelineRecord) (write : PipelineWrite LifecycleRequest) (record : PipelineRecord)
    (changes : PipelineChanges) : Prop where
  status : record.status = row.status
  early : inTime write.request record = true
  items : write.request.abandons = true → record.integrationQueue = row.integrationQueue
  patch : write.request.patch host children record = .changes changes
  candidate : write.candidate = updateCandidate record changes

structure StatusInvariant (host : PipelineRuntime) (children : PipelineChildren)
    (s : StoreState LifecycleRequest) : Prop where
  behind : ∀ object ∈ s.objects, object.record.revision ≤ s.row.revision
  status : ∀ object ∈ s.objects, object.record.revision = s.row.revision →
    object.record.status = s.row.status
  expected : ∀ write ∈ s.writes, write.expectedRevision ≤ s.row.revision ∧
    write.candidate.revision = write.expectedRevision + 1
  computed : ∀ write ∈ s.writes, write.expectedRevision = s.row.revision →
    ∃ record changes, ComputedFrom host children s.row write record changes

theorem statusInvariant_created (record : PipelineRecord) :
    StatusInvariant host children (.created record) := by
  constructor
  · intro object hobject
    obtain rfl := mem_singleton.mp hobject
    exact le_refl _
  · intro object hobject _
    obtain rfl := mem_singleton.mp hobject
    rfl
  all_goals
    intro write hwrite
    cases hwrite

@[simp] theorem storedRecord_status (runtime : StoreRuntime LifecycleRequest)
    (record : PipelineRecord) : (storedRecord runtime record).status = record.status := by
  simp only [storedRecord]
  split <;> rfl

@[simp] theorem storedRecord_revision (runtime : StoreRuntime LifecycleRequest)
    (record : PipelineRecord) : (storedRecord runtime record).revision = record.revision := by
  simp only [storedRecord]
  split <;> rfl

/-- What a claim that takes the pipeline over leaves. -/
structure TakenOver (row record' row' : PipelineRecord) : Prop where
  unclosed : row.status.closed = false
  revision : row'.revision = row.revision + 1
  status : row'.status = row.status
  record : record'.revision = row.revision + 1
  recordStatus : record'.status = row.status

theorem claimPersistedPipeline_row (bridgeInstanceId freshGeneration : String) (view : ClaimView)
    (record row : PipelineRecord) :
    let claimed := claimPersistedPipeline bridgeInstanceId freshGeneration view record row
    (claimed.2.2 = row ∧ (claimed.2.1 = claimedState record row ∨ claimed.2.1 = record)) ∨
      TakenOver row claimed.2.1 claimed.2.2 := by
  simp only [claimPersistedPipeline]
  split_ifs with hclosed
  · exact .inl ⟨rfl, .inl rfl⟩
  · exact .inl ⟨rfl, .inl rfl⟩
  · exact .inl ⟨rfl, .inl rfl⟩
  · exact .inl ⟨rfl, .inl rfl⟩
  · exact .inr ⟨not_eq_true _ ▸ hclosed, rfl, rfl, rfl, rfl⟩
  · exact .inl ⟨rfl, .inr rfl⟩

variable {event : StoreEvent LifecycleRequest} {index : Nat} {row : PipelineRecord}

namespace StatusInvariant

variable {writes : List (PipelineWrite LifecycleRequest)}

section

variable (h : StatusInvariant host children s)

include h

/-- The row stays, and one object is rewritten. -/
theorem modify {f : RecordObject → RecordObject}
    (rewritten : ∀ object, s.objects[index]? = some object →
      (f object).record.revision ≤ s.row.revision ∧
        ((f object).record.revision = s.row.revision →
          (f object).record.status = s.row.status)) (kept : ∀ w ∈ writes, w ∈ s.writes) :
    StatusInvariant host children
      { s with objects := s.objects.modify index f, writes := writes } := by
  constructor
  · intro object' hobject'
    rcases mem_of_mem_modify hobject' with hold | ⟨object, hobject, rfl⟩
    · exact h.behind object' hold
    · exact (rewritten object hobject).1
  · intro object' hobject'
    rcases mem_of_mem_modify hobject' with hold | ⟨object, hobject, rfl⟩
    · exact h.status object' hold
    · exact (rewritten object hobject).2
  · exact fun write hwrite => h.expected write (kept write hwrite)
  · exact fun write hwrite => h.computed write (kept write hwrite)

/-- The row takes its next revision. -/
theorem advance (revision : row.revision = s.row.revision + 1) {objects : List RecordObject}
    (given : ∀ object ∈ objects, object ∈ s.objects ∨
      (object.record.revision ≤ row.revision ∧
        (object.record.revision = row.revision → object.record.status = row.status)))
    (kept : ∀ w ∈ writes, w ∈ s.writes) :
    StatusInvariant host children { s with row := row, objects := objects, writes := writes } := by
  constructor
  · intro object hobject
    rcases given object hobject with hold | hnew
    · have hbehind := h.behind object hold
      show object.record.revision ≤ row.revision
      omega
    · exact hnew.1
  · intro object hobject hrevision
    rcases given object hobject with hold | hnew
    · have hbehind := h.behind object hold
      change object.record.revision = row.revision at hrevision
      omega
    · exact hnew.2 hrevision
  · intro write hwrite
    have hexpected := h.expected write (kept write hwrite)
    refine ⟨?_, hexpected.2⟩
    show write.expectedRevision ≤ row.revision
    omega
  · intro write hwrite hrevision
    have hexpected := h.expected write (kept write hwrite)
    change write.expectedRevision = row.revision at hrevision
    omega

theorem advance_one (revision : row.revision = s.row.revision + 1) {f : RecordObject → RecordObject}
    (rewritten : ∀ object, s.objects[index]? = some object →
      (f object).record.revision ≤ row.revision ∧
        ((f object).record.revision = row.revision → (f object).record.status = row.status))
    (kept : ∀ w ∈ writes, w ∈ s.writes) :
    StatusInvariant host children
      { s with row := row, objects := s.objects.modify index f, writes := writes } := by
  refine h.advance revision (fun object' hobject' => ?_) kept
  rcases mem_of_mem_modify hobject' with hold | ⟨object, hobject, rfl⟩
  · exact .inl hold
  · exact .inr (rewritten object hobject)

/-- What the row accepts was computed from its status. -/
theorem carriedOut (carries : carriesOut s event = some request) :
    ∃ write ∈ s.writes, ∃ record changes, write.request = request ∧
      ComputedFrom host children s.row write record changes := by
  cases event with
  | commit index ownerLive =>
    obtain ⟨write, hwrite, hrequest⟩ := bind_eq_some_iff.mp carries
    split at hrequest
    next hmatches =>
      have hmem := mem_of_getElem? hwrite
      obtain ⟨record, changes, hcomputed⟩ :=
        h.computed write hmem (writeMatches_revision hmatches).symm
      exact ⟨write, hmem, record, changes, Option.some.inj hrequest, hcomputed⟩
    · cases hrequest
  | _ => cases carries

theorem begin
    (early : (s.calls[index]?).all (fun call => (s.objects[call.object]?).all fun object =>
      inTime call.request object.record
        && (!call.request.abandons || itemsFresh s object)) = true) :
    StatusInvariant host children
      (beginUpdate (lifecycleStore host children detailsFit) s index) := by
  simp only [beginUpdate]
  split
  · exact h
  next call hcall =>
    split
    · exact h
    next object hobject =>
      have hmem : object ∈ s.objects := mem_of_getElem? hobject
      simp only [hcall, hobject, all_some, and_eq_true, or_eq_true,
        not_eq_true'] at early
      obtain ⟨hearly, hitems⟩ := early
      split
      · split
        next changes hpatch =>
          refine ⟨h.behind, h.status, fun write hwrite => ?_, fun write hwrite hexpected => ?_⟩
          · rcases mem_append.mp hwrite with hold | hnew
            · exact h.expected write hold
            · obtain rfl := mem_singleton.mp hnew
              exact ⟨h.behind object hmem, rfl⟩
          · rcases mem_append.mp hwrite with hold | hnew
            · exact h.computed write hold hexpected
            · obtain rfl := mem_singleton.mp hnew
              have hrevision : object.record.revision = s.row.revision := hexpected
              refine ⟨object.record, changes, h.status object hmem hrevision, hearly,
                fun habandons => ?_, hpatch, rfl⟩
              rcases hitems with hother | hfresh
              · rw [habandons] at hother
                cases hother
              · simpa [itemsFresh, hrevision] using hfresh
        · exact ⟨h.behind, h.status, h.expected, h.computed⟩
        · exact ⟨h.behind, h.status, h.expected, h.computed⟩
      · exact h

variable (runtime : StoreRuntime LifecycleRequest)

theorem commit (index : Nat) (ownerLive : Bool) :
    StatusInvariant host children (commitUpdate runtime s index ownerLive) := by
  simp only [commitUpdate]
  split
  · exact h
  next write hwrite =>
    have hrest : ∀ w ∈ s.writes.eraseIdx index, w ∈ s.writes := fun _ hw =>
      mem_of_mem_eraseIdx hw
    split
    next hmatches =>
      have hrevision := writeMatches_revision hmatches
      have hexpected := (h.expected write (mem_of_getElem? hwrite)).2
      refine h.advance_one ?_ (fun object _ => ?_) hrest
      · rw [storedRecord_revision]
        omega
      · rw [storedRecord_revision, storedRecord_status]
        exact ⟨le_refl _, fun _ => rfl⟩
    · exact h.modify (fun object _ => ⟨le_refl _, fun _ => rfl⟩) hrest

theorem claim (index : Nat) (freshGeneration : String) (view : ClaimView) :
    StatusInvariant host children (storeStep runtime s (.claim index freshGeneration view)) := by
  simp only [storeStep]
  split
  · exact h
  next object hobject =>
    have hmem : object ∈ s.objects := mem_of_getElem? hobject
    rcases claimPersistedPipeline_row object.bridgeInstanceId freshGeneration view object.record
      s.row with ⟨hrow, hrecord⟩ | htaken
    · rw [hrow]
      refine h.modify (fun _ _ => ?_) fun _ hw => hw
      rcases hrecord with hstate | hsame
      · rw [hstate]
        exact ⟨le_refl _, fun _ => rfl⟩
      · rw [hsame]
        exact ⟨h.behind object hmem, h.status object hmem⟩
    · refine h.advance_one htaken.revision (fun _ _ => ?_) fun _ hw => hw
      rw [htaken.record, htaken.status, htaken.revision]
      exact ⟨le_refl _, fun _ => htaken.recordStatus⟩

theorem activate (index : Nat) (ownerLive : Bool) (time : Nat) :
    StatusInvariant host children (activateBatch runtime s index ownerLive time) := by
  simp only [activateBatch]
  split
  · exact h
  next object _ =>
    split
    next hguard =>
      simp only [and_eq_true] at hguard
      have hrevision := writeMatches_revision hguard.2
      refine h.advance_one ?_ (fun _ _ => ?_) fun _ hw => hw
      · rw [storedRecord_revision, updateCandidate_revision, hrevision]
      · rw [storedRecord_revision, storedRecord_status]
        exact ⟨le_refl _, fun _ => rfl⟩
    · exact h

theorem step {cleanups removed : Nat}
    (allowed : lifecycleAllowed ⟨s, cleanups, removed⟩ (.store event) = true) :
    StatusInvariant host children
      (storeStep (lifecycleStore host children detailsFit) s event) := by
  cases event with
  | read bridgeInstanceId =>
    refine ⟨fun object hobject => ?_, fun object hobject hrevision => ?_, h.expected,
      h.computed⟩
    · rcases mem_append.mp hobject with hold | hnew
      · exact h.behind object hold
      · obtain rfl := mem_singleton.mp hnew
        exact le_refl _
    · rcases mem_append.mp hobject with hold | hnew
      · exact h.status object hold hrevision
      · obtain rfl := mem_singleton.mp hnew
        rfl
  | reread index =>
    refine h.modify (fun object hobject => ?_) fun _ hw => hw
    split
    · exact ⟨le_refl _, fun _ => rfl⟩
    · have hmem := mem_of_getElem? hobject
      exact ⟨h.behind object hmem, h.status object hmem⟩
  | claim index freshGeneration view => exact h.claim _ index freshGeneration view
  | call index request =>
    simp only [storeStep]
    split
    · exact h
    · split
      · exact ⟨h.behind, h.status, h.expected, h.computed⟩
      · exact h
  | begin index => exact h.begin allowed
  | commit index ownerLive => exact h.commit _ index ownerLive
  | propagate failed time =>
    simp only [storeStep]
    split
    · exact h.advance rfl (fun _ hobject => .inl hobject) fun _ hw => hw
    · exact h
  | activate index ownerLive time => exact h.activate _ index ownerLive time

end

end StatusInvariant

/-! ### Runs -/

section

variable {host : PipelineRuntime} {children : PipelineChildren}
  {detailsFit : PipelineRecord → Bool} {s : LifecycleState}

theorem StatusInvariant.lifecycle (h : StatusInvariant host children s.store)
    (event : LifecycleEvent) (allowed : lifecycleAllowed s event = true) :
    StatusInvariant host children
      (lifecycleStep (lifecycleStore host children detailsFit) s event).store := by
  cases event with
  | store event => exact h.step allowed
  | recover index freshGeneration view =>
    exact h.claim (lifecycleStore host children detailsFit) index freshGeneration view
  | remove =>
    simp only [lifecycleStep]
    split <;> exact h
  | finishCleanup => exact h
  | legacyCleanup ownerLive =>
    simp only [lifecycleAllowed, Bool.not_eq_true'] at allowed
    simp only [lifecycleStep, allowed, Bool.false_and, Bool.false_eq_true, if_false]
    exact h

theorem storeStep_closed (h : StatusInvariant host children s.store)
    (closed : s.store.row.status.closed = true) :
    (storeStep (lifecycleStore host children detailsFit) s.store event).row.status
      = s.store.row.status := by
  cases event with
  | read | reread => rfl
  | claim index freshGeneration view =>
    simp only [storeStep]
    split
    · rfl
    next object _ =>
      rcases claimPersistedPipeline_row object.bridgeInstanceId freshGeneration view
        object.record s.store.row with ⟨hrow, -⟩ | htaken
      · rw [hrow]
      · exact htaken.status
  | call index request =>
    simp only [storeStep]
    split
    · rfl
    · split <;> rfl
  | begin index =>
    show (beginUpdate _ s.store index).row.status = _
    rw [beginUpdate_row]
  | commit index ownerLive =>
    simp only [storeStep, commitUpdate]
    split
    · rfl
    next write hwrite =>
      split
      next hmatches =>
        have hmem := mem_of_getElem? hwrite
        obtain ⟨record, changes, hcomputed⟩ :=
          h.computed write hmem (writeMatches_revision hmatches).symm
        have hkept := LifecycleRequest.patch_closed (hcomputed.status ▸ closed)
          hcomputed.early hcomputed.patch
        rw [storedRecord_status, hcomputed.candidate]
        exact hkept.trans hcomputed.status
      · rfl
  | propagate failed time =>
    simp only [storeStep]
    split
    next hopen =>
      simp only [or_eq_true, decide_eq_true_eq] at hopen
      rcases hopen with hplanned | hrunning
      · rw [hplanned] at closed
        cases closed
      · rw [hrunning] at closed
        cases closed
    · rfl
  | activate index ownerLive time =>
    simp only [storeStep, activateBatch]
    split
    · rfl
    · split
      next hguard =>
        simp only [and_eq_true, decide_eq_true_eq] at hguard
        rw [hguard.1.1.1.2] at closed
        cases closed
      · rfl

/-- The row of a closed pipeline accepts neither a reservation nor an authorization of a
cleanup. -/
theorem carriesOut_closed (h : StatusInvariant host children s.store)
    (closed : s.store.row.status.closed = true)
    (carries : carriesOut s.store event = some request) :
    request.reserves = false ∧ request.authorizesCleanup = false := by
  obtain ⟨write, -, record, changes, rfl, hcomputed⟩ := h.carriedOut carries
  have hopen := LifecycleRequest.patch_of_closed (hcomputed.status ▸ closed) hcomputed.early
    hcomputed.patch
  exact ⟨hopen.1, hopen.2.1⟩

theorem resumesCleanup_closed {object : RecordObject} {freshGeneration : String} {view : ClaimView}
    (closed : row.status.closed = true) :
    resumesCleanup object freshGeneration view row = false := by
  have hclosed : (claimedState object.record row).status.closed = true := closed
  simp [resumesCleanup, claimPersistedPipeline, hclosed]

/-- What an allowed event leaves of a closed pipeline. -/
structure StaysClosed (s s' : LifecycleState) : Prop where
  status : s'.store.row.status = s.store.row.status
  cleanups : s'.cleanups ≤ s.cleanups
  removed : s.cleanups = 0 → s'.removed = s.removed

theorem lifecycleStep_closed (h : StatusInvariant host children s.store)
    (closed : s.store.row.status.closed = true) (event : LifecycleEvent)
    (allowed : lifecycleAllowed s event = true) :
    StaysClosed s (lifecycleStep (lifecycleStore host children detailsFit) s event) := by
  cases event with
  | store event =>
    refine ⟨storeStep_closed h closed, ?_, fun _ => rfl⟩
    cases hcarries : carriesOut s.store event with
    | none => simp [lifecycleStep, hcarries]
    | some request =>
      have hother := (carriesOut_closed h closed hcarries).2
      simp [lifecycleStep, hcarries, hother]
  | recover index freshGeneration view =>
    refine ⟨storeStep_closed h closed, ?_, fun _ => rfl⟩
    cases hobject : s.store.objects[index]? with
    | none => simp [lifecycleStep, hobject]
    | some object => simp [lifecycleStep, hobject, resumesCleanup_closed closed]
  | remove =>
    simp only [lifecycleStep]
    split
    · exact ⟨rfl, le_refl _, fun _ => rfl⟩
    next hnone => exact ⟨rfl, le_refl _, fun hzero => absurd hzero hnone⟩
  | finishCleanup => exact ⟨rfl, sub_le _ _, fun _ => rfl⟩
  | legacyCleanup ownerLive =>
    simp only [lifecycleAllowed, Bool.not_eq_true'] at allowed
    simp only [lifecycleStep, allowed, Bool.false_and, Bool.false_eq_true, if_false]
    exact ⟨rfl, le_refl _, fun _ => rfl⟩

/-- Every event of the run meets the condition in the state that it is executed in. -/
def EachAllowed (runtime : StoreRuntime LifecycleRequest) (s : LifecycleState)
    (events : List LifecycleEvent) : Prop :=
  Along (lifecycleStep runtime) (fun s event => lifecycleAllowed s event = true) s events

instance (runtime : StoreRuntime LifecycleRequest) (s : LifecycleState)
    (events : List LifecycleEvent) : Decidable (EachAllowed runtime s events) :=
  inferInstanceAs (Decidable (Along _ _ _ _))

theorem statusInvariant_run (h : StatusInvariant host children s.store)
    (events : List LifecycleEvent)
    (along : EachAllowed (lifecycleStore host children detailsFit) s events) :
    StatusInvariant host children
      (run (lifecycleStep (lifecycleStore host children detailsFit)) s events).store := by
  have hstep : ∀ s event, StatusInvariant host children s.store →
      lifecycleAllowed s event = true → StatusInvariant host children
        (lifecycleStep (lifecycleStore host children detailsFit) s event).store :=
    fun s event h allowed => h.lifecycle event allowed
  exact run_invariant hstep h events along

theorem lifecycle_closed_run (h : StatusInvariant host children s.store)
    (closed : s.store.row.status.closed = true) (events : List LifecycleEvent)
    (along : EachAllowed (lifecycleStore host children detailsFit) s events) :
    StaysClosed s (run (lifecycleStep (lifecycleStore host children detailsFit)) s events) := by
  induction events generalizing s with
  | nil => exact ⟨rfl, le_refl _, fun _ => rfl⟩
  | cons event events ih =>
    have hstep : StaysClosed s (lifecycleStep (lifecycleStore host children detailsFit) s event) :=
      lifecycleStep_closed h closed event along.1
    have hrest := ih (h.lifecycle event along.1) (hstep.status ▸ closed) along.2
    refine ⟨hrest.status.trans hstep.status, le_trans hrest.cleanups hstep.cleanups, ?_⟩
    intro hzero
    have hnone := hstep.cleanups
    exact (hrest.removed (by omega)).trans (hstep.removed hzero)

/-- An abandonment does not remove sources, and none of its items is reserved. -/
theorem LifecycleRequest.patch_abandons (abandons : request.abandons = true)
    (patch : request.patch host children record = .changes changes) :
    changes.status = some .cancelled ∧ request.authorizesCleanup = false ∧
      ∀ item ∈ record.integrationQueue, item.status ≠ .integrating := by
  cases request with
  | abandon time =>
    simp only [LifecycleRequest.patch, abandonPatch] at patch
    split_ifs at patch with hbusy hintegrating
    cases patch
    refine ⟨rfl, rfl, fun item hitem hstatus => hintegrating ?_⟩
    exact any_eq_true.mpr ⟨item, hitem, by simp [hstatus]⟩
  | _ => cases abandons

theorem commitUpdate_row {runtime : StoreRuntime LifecycleRequest} {s : StoreState LifecycleRequest}
    {ownerLive : Bool} {write : PipelineWrite LifecycleRequest}
    (hwrite : s.writes[index]? = some write)
    (hmatches : writeMatches s.row write.expectedRevision write.candidate ownerLive = true) :
    (commitUpdate runtime s index ownerLive).row = storedRecord runtime write.candidate := by
  simp only [commitUpdate, hwrite, hmatches, if_true]

structure Abandoned (s s' : LifecycleState) : Prop where
  cancelled : s'.store.row.status = .cancelled
  cleanups : s'.cleanups = 0
  free : ∀ item ∈ s.store.row.integrationQueue, item.status ≠ .integrating

/-- Whether the event carries out a request of the kind. -/
def carriesOutOf (kind : LifecycleRequest → Bool) (s : LifecycleState) : LifecycleEvent → Bool
  | .store event => (carriesOut s.store event).any kind
  | _ => false

theorem lifecycleStep_abandoned (h : StatusInvariant host children s.store)
    {event : LifecycleEvent} (allowed : lifecycleAllowed s event = true)
    (abandons : carriesOutOf LifecycleRequest.abandons s event = true) :
    Abandoned s (lifecycleStep (lifecycleStore host children detailsFit) s event) := by
  cases event with
  | store event =>
    cases event with
    | commit index ownerLive =>
      simp only [carriesOutOf, Option.any_eq_true] at abandons
      obtain ⟨request, hcarries, habandons⟩ := abandons
      have hcleanups : s.cleanups = 0 := by
        simpa [lifecycleAllowed, hcarries, habandons] using allowed
      obtain ⟨write, hwrite, hrequest⟩ := Option.bind_eq_some_iff.mp hcarries
      split at hrequest
      next hmatches =>
        cases hrequest
        obtain ⟨record, changes, hcomputed⟩ := h.computed write (mem_of_getElem? hwrite)
          (writeMatches_revision hmatches).symm
        obtain ⟨hcancelled, hauthorizes, hfree⟩ :=
          LifecycleRequest.patch_abandons habandons hcomputed.patch
        refine ⟨?_, ?_, ?_⟩
        · show (commitUpdate _ s.store index ownerLive).row.status = .cancelled
          rw [commitUpdate_row hwrite hmatches, storedRecord_status, hcomputed.candidate]
          show changes.status.getD record.status = .cancelled
          rw [hcancelled, getD_some]
        · simp [lifecycleStep, hcarries, hauthorizes, hcleanups]
        · rw [← hcomputed.items habandons]
          exact hfree
      · cases hrequest
    | _ => cases abandons
  | _ => cases abandons

end

/-- In every run that meets the condition a closed status stays, and after an abandonment
that succeeded no item is reserved or being integrated, and no source removed. -/
theorem closed_pipeline_stays_closed (host : PipelineRuntime) (children : PipelineChildren)
    (detailsFit : PipelineRecord → Bool) (record : PipelineRecord)
    (before later : List LifecycleEvent) (event : LifecycleEvent)
    (along : EachAllowed (lifecycleStore host children detailsFit) (.created record)
      (before ++ event :: later)) :
    let step := lifecycleStep (lifecycleStore host children detailsFit)
    let s := run step (.created record) before
    let s' := run step (.created record) (before ++ [event])
    let s'' := run step (.created record) (before ++ event :: later)
    (s'.store.row.status.closed = true → s''.store.row.status = s'.store.row.status) ∧
    (carriesOutOf LifecycleRequest.abandons s event = true →
      s'.store.row.status = .cancelled ∧ s''.removed = s'.removed ∧
      (∀ item ∈ s.store.row.integrationQueue, item.status ≠ .integrating) ∧
      ∀ first rest next, later = first ++ next :: rest →
        carriesOutOf LifecycleRequest.reserves
          (run step (.created record) (before ++ event :: first)) next = false) := by
  intro step s s' s''
  obtain ⟨hbefore, hevent, hlater⟩ := (along_append _ _ _).mp along
  have hcreated : StatusInvariant host children (LifecycleState.created record).store :=
    statusInvariant_created record
  have hs : StatusInvariant host children s.store := statusInvariant_run hcreated before hbefore
  have hrun : s' = step s event := by simp [s', s]
  have hs' : StatusInvariant host children s'.store := hrun ▸ hs.lifecycle event hevent
  have hsplit (events : List LifecycleEvent) :
      run step (.created record) (before ++ event :: events) = run step s' events := by
    simp [hrun, s]
  have hrest : EachAllowed (lifecycleStore host children detailsFit) s' later := hrun ▸ hlater
  have hfinal : s'' = run step s' later := hsplit later
  rw [hfinal]
  refine ⟨fun hclosed => (lifecycle_closed_run hs' hclosed later hrest).status, ?_⟩
  intro habandons
  have habandoned : Abandoned s s' := hrun ▸ lifecycleStep_abandoned hs hevent habandons
  have hclosed : s'.store.row.status.closed = true := by
    rw [habandoned.cancelled]
    rfl
  refine ⟨habandoned.cancelled, ?_, habandoned.free, ?_⟩
  · exact (lifecycle_closed_run hs' hclosed later hrest).removed habandoned.cleanups
  · intro first rest next hfirst
    obtain ⟨hpre, -⟩ := (along_append s' first (next :: rest)).mp (hfirst ▸ hrest)
    have hthere : StatusInvariant host children (run step s' first).store :=
      statusInvariant_run hs' first hpre
    have hstays := lifecycle_closed_run hs' hclosed first hpre
    rw [hsplit first]
    cases next with
    | store event =>
      cases hcarries : carriesOut (run step s' first).store event with
      | none => simp [carriesOutOf, hcarries]
      | some request =>
        have hnone := (carriesOut_closed hthere (hstays.status ▸ hclosed) hcarries).1
        simp [carriesOutOf, hcarries, hnone]
    | _ => rfl

/-- What a finalization that may not skip the configured gates records. -/
def gatesRequired : PipelineChanges where
  status := some .awaitingFinalization
  events := some [{ type := "finalization_started", time := 40 }]
  errors := some [⟨"finalization", "pipeline_configured_gates_required", ""⟩]

def plainLifecycle : StoreRuntime LifecycleRequest :=
  lifecycleStore plainHost oneWriter fun _ => true

/-- A pipeline whose items are all integrated. -/
def finalizablePipeline : PipelineRecord :=
  { integratingPipeline [{ pendingItem "job-1" "writer-1" with status := .integrated }] with
    status := .awaitingFinalization
    reviewerJob := some "reviewer" }

/-- The pipeline is abandoned while a finalization waits to record its rejection. -/
def abandonedMeanwhile : List LifecycleEvent :=
  [.store (.call 0 (.abandon 30)), .store (.call 0 (.plain gatesRequired)), .store (.begin 0)]

def rejectionRecorded : List LifecycleEvent :=
  [.store (.begin 0), .store (.commit 0 true)]

def lifecycleAfter (events : List LifecycleEvent) : LifecycleState :=
  run (lifecycleStep plainLifecycle) (.created finalizablePipeline) events

theorem closed_pipeline_stays_closed_of_refusals :
    carriesOutOf LifecycleRequest.abandons
        (lifecycleAfter [.store (.call 0 (.abandon 30)), .store (.begin 0)])
        (.store (.commit 0 true)) = true ∧
      (lifecycleAfter [.store (.call 0 (.abandon 30)), .store (.begin 0),
        .store (.commit 0 true)]).store.row.status = .cancelled ∧
      (lifecycleAfter ([.store (.call 0 (.abandon 30)), .store (.begin 0)]
        ++ .store (.commit 0 true) :: [.store (.call 0 (.finalizing [])), .store (.begin 0),
          .remove])).removed = 0 := by
  have hresult := closed_pipeline_stays_closed plainHost oneWriter (fun _ => true)
    finalizablePipeline [.store (.call 0 (.abandon 30)), .store (.begin 0)]
    [.store (.call 0 (.finalizing [])), .store (.begin 0), .remove] (.store (.commit 0 true))
    (by decide)
  have habandons : carriesOutOf LifecycleRequest.abandons
      (lifecycleAfter [.store (.call 0 (.abandon 30)), .store (.begin 0)])
      (.store (.commit 0 true)) = true := by decide
  have habandoned := hresult.2 habandons
  exact ⟨habandons, habandoned.1, habandoned.2.1⟩

/-- The rejection was computed before the abandonment, and puts the pipeline back. -/
theorem closed_pipeline_stays_closed_fails :
    (lifecycleAfter (abandonedMeanwhile ++ [.store (.commit 0 true)])).store.row.status
        = .cancelled ∧
      (lifecycleAfter (abandonedMeanwhile ++ .store (.commit 0 true)
        :: rejectionRecorded)).store.row.status = .awaitingFinalization := by
  constructor <;> decide

end AgentBridge.Pipelines
