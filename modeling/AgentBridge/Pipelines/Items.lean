import AgentBridge.Pipelines.Serializable

/-!
# An integrated item of a pipeline

The item list of a pipeline starts as planned and is bound to the finished writers by the
first refresh that finds every child completed. From then on every writer of the list
keeps the order and the job of the items, so an item can be followed by its job id. What
can take an integrated item back is an attempt at it that began before it was integrated.
-/

namespace AgentBridge.Pipelines

open Systems List

/-- The children of the pipeline once all of them have completed: a job that has completed
does not change any more. -/
structure PipelineChildren where
  jobs : List JobSnapshot
  named : ∀ job ∈ jobs, job.jobId ≠ ""
  distinct : (jobs.map JobSnapshot.jobId).Nodup

/-- The writers that left something to integrate. -/
def PipelineChildren.sources (children : PipelineChildren) : List JobSnapshot :=
  children.jobs.filter JobSnapshot.hasSource

/-- The writers of the item list, and the other updates of a pipeline. -/
inductive ItemRequest where
  | prepared (source : IntegrationSource) (operationId jobId : String) (time : Nat)
  | attempted (attempt : IntegrationAttempt)
  /-- The reconciliation reads the journal for the items of the record it was called with. -/
  | reconciled (record : PipelineRecord) (journal : String → Option OperationSummary)
      (refreshing : Bool) (time : Nat)
  | finishedRefresh (observed : Bool) (time : Nat)
  | unfinishedRefresh (jobs : List JobSnapshot) (observed : Bool) (time : Nat)
  | brokenManifest (time : Nat)
  | other (patch : PipelinePatch)

/-- A patch that sets everything but the item list. -/
def withoutQueue : PatchOutcome → PatchOutcome
  | .changes changes => .changes { changes with integrationQueue := none }
  | outcome => outcome

def ItemRequest.patch (host : PipelineRuntime) (children : PipelineChildren) :
    ItemRequest → PipelinePatch
  | .prepared source operationId jobId time =>
    onIntegrationPrepared host source operationId jobId time
  | .attempted attempt => integrationResultPatch host attempt
  | .reconciled record journal refreshing time =>
    if refreshing then guarded (reconciliationPatch (journalChanges record journal) true time)
    else reconciliationPatch (journalChanges record journal) false time
  | .finishedRefresh observed time => refreshPatch children.jobs observed time
  | .unfinishedRefresh jobs observed time =>
    if jobs.all fun job => job.status = .completed then fun _ => .unchanged
    else refreshPatch jobs observed time
  | .brokenManifest time => brokenManifestPatch time
  | .other patch => fun current => withoutQueue (patch current)

def itemStore (host : PipelineRuntime) (children : PipelineChildren)
    (detailsFit : PipelineRecord → Bool) : StoreRuntime ItemRequest :=
  ⟨ItemRequest.patch host children, detailsFit⟩

def namesNoIntegrated (host : PipelineRuntime) (record : PipelineRecord)
    (source : IntegrationSource) : Bool :=
  record.integrationQueue.all fun item =>
    item.status ≠ .integrated || !pipelineIntegrationItemMatches host record item source

/-- No item is reserved, and no failure recorded for it, that is integrated already. -/
def attemptInTime (host : PipelineRuntime) (request : ItemRequest) (record : PipelineRecord) :
    Bool :=
  match request with
  | .prepared source _ _ _ => namesNoIntegrated host record source
  | .attempted attempt =>
    attempt.dryRun || attempt.result.ok || namesNoIntegrated host record attempt.source
  | _ => true

variable {host : PipelineRuntime} {children : PipelineChildren}
  {queue queue' queue'' : List IntegrationItem}

/-! ### Following an item -/

/-- An integrated item has a successor, and it is integrated. -/
def ItemsKept (queue queue' : List IntegrationItem) : Prop :=
  ∀ item ∈ queue, item.status = .integrated →
    (∃ item' ∈ queue', item'.jobId = item.jobId) ∧
      ∀ item' ∈ queue', item'.jobId = item.jobId → item'.status = .integrated

theorem ItemsKept.trans (first : ItemsKept queue queue') (second : ItemsKept queue' queue'') :
    ItemsKept queue queue'' := by
  intro item hitem hstatus
  obtain ⟨⟨item', hitem', hjob⟩, hall⟩ := first item hitem hstatus
  have hnext := second item' hitem' (hall item' hitem' hjob)
  rwa [hjob] at hnext

/-- An item of a pipeline whose writers have not finished. -/
def IntegrationItem.isPlanned (item : IntegrationItem) : Bool :=
  item.status = .planned && item.jobId = "" && item.worktreePath = "" && item.branch = ""
    && item.operationId = ""

/-- The list is as planned, or has one item for every source. -/
inductive QueueShape (children : PipelineChildren) (queue : List IntegrationItem) : Prop where
  | planned (items : ∀ item ∈ queue, item.isPlanned = true)
  | bound (jobs : queue.map IntegrationItem.jobId = children.sources.map JobSnapshot.jobId)

theorem PipelineChildren.distinct_sources (children : PipelineChildren) :
    (children.sources.map JobSnapshot.jobId).Nodup :=
  children.distinct.sublist (filter_sublist.map _)

variable {item : IntegrationItem}

theorem isPlanned_spec (h : item.isPlanned = true) :
    item.status = .planned ∧ item.worktreePath = "" ∧ item.branch = "" ∧ item.operationId = "" := by
  simp only [IntegrationItem.isPlanned, Bool.and_eq_true, decide_eq_true_eq] at h
  exact ⟨h.1.1.1.1, h.1.1.2, h.1.2, h.2⟩

theorem eq_of_jobId
    (jobs : queue.map IntegrationItem.jobId = children.sources.map JobSnapshot.jobId)
    {other : IntegrationItem} (hitem : item ∈ queue) (hother : other ∈ queue)
    (h : other.jobId = item.jobId) : other = item := by
  have hnodup : (queue.map IntegrationItem.jobId).Nodup := jobs ▸ children.distinct_sources
  exact inj_on_of_nodup_map hnodup hother hitem h

/-- Rewriting the items one by one. -/
theorem QueueShape.map (shape : QueueShape children queue) {f : IntegrationItem → IntegrationItem}
    (jobId : ∀ item, (f item).jobId = item.jobId)
    (planned : ∀ item, item.isPlanned = true → f item = item)
    (integrated : ∀ item ∈ queue, item.status = .integrated → (f item).status = .integrated) :
    QueueShape children (queue.map f) ∧ ItemsKept queue (queue.map f) := by
  cases shape with
  | planned items =>
    constructor
    · apply QueueShape.planned
      intro item' hitem'
      obtain ⟨item, hitem, rfl⟩ := mem_map.mp hitem'
      rw [planned item (items item hitem)]
      exact items item hitem
    · intro item hitem hstatus
      rw [(isPlanned_spec (items item hitem)).1] at hstatus
      cases hstatus
  | bound jobs =>
    constructor
    · apply QueueShape.bound
      rw [map_map, ← jobs]
      exact map_congr_left fun item _ => jobId item
    · intro item hitem hstatus
      refine ⟨⟨f item, mem_map_of_mem hitem, jobId item⟩, ?_⟩
      intro item' hitem' hjob
      obtain ⟨other, hother, rfl⟩ := mem_map.mp hitem'
      rw [jobId] at hjob
      rw [eq_of_jobId jobs hitem hother hjob]
      exact integrated item hitem hstatus

theorem QueueShape.kept (shape : QueueShape children queue) : ItemsKept queue queue := by
  have hmap := shape.map (f := id) (fun _ => rfl) (fun _ _ => rfl) fun _ _ h => h
  rw [map_id] at hmap
  exact hmap.2

/-! ### The merge -/

theorem priorItem_own {existing : List IntegrationItem} {used : List Nat} {job : JobSnapshot}
    {index : Nat} (found : existing[index]? = some item) (own : item.jobId = job.jobId)
    (named : job.jobId ≠ "") (unused : index ∉ used)
    (first : ∀ earlier < index, ∀ other, existing[earlier]? = some other →
      other.jobId ≠ job.jobId) :
    priorItem existing used job = some index := by
  have hlt : index < existing.length := (List.getElem?_eq_some_iff.mp found).1
  have hfind : (List.range existing.length).find? (fun position =>
      !used.contains position && (existing[position]?).any fun item =>
        item.jobId ≠ "" && item.jobId = job.jobId) = some index := by
    rw [List.find?_range_eq_some]
    refine ⟨?_, mem_range.mpr hlt, fun earlier hearlier => ?_⟩
    · simp [unused, found, own, named]
    · cases hother : existing[earlier]? with
      | none => simp
      | some other => simp [first earlier hearlier other hother]
  simp only [priorItem, hfind, Option.some_or]

/-- The merge of a bound list takes every item for its own job. -/
theorem mergeStep_foldl {existing : List IntegrationItem}
    (distinct : (existing.map IntegrationItem.jobId).Nodup) (jobs : List JobSnapshot) :
    ∀ (before rest merged : List IntegrationItem), existing = before ++ rest →
      rest.map IntegrationItem.jobId = jobs.map JobSnapshot.jobId →
      (∀ job ∈ jobs, job.jobId ≠ "") →
      (jobs.foldl (mergeStep existing) (List.range before.length, merged)).2
        = merged ++ List.zipWith (fun job item => mergedItem job (some item)) jobs rest := by
  induction jobs with
  | nil => intro before rest merged _ _ _; simp
  | cons job jobs ih =>
    intro before rest merged hexisting hids hnamed
    cases rest with
    | nil => simp at hids
    | cons item rest =>
      rw [map_cons, map_cons, List.cons.injEq] at hids
      have hfound : existing[before.length]? = some item := by
        rw [hexisting]
        simp
      have hprior : priorItem existing (List.range before.length) job
          = some before.length := by
        apply priorItem_own hfound hids.1 (hnamed job (mem_cons_self ..)) (by simp)
        intro earlier hearlier other hother hsame
        have hlt := (List.getElem?_eq_some_iff.mp hother).1
        have hposition := (nodup_iff_getElem?_ne_getElem?.mp distinct) earlier
          before.length hearlier
          (by rw [length_map]; exact (List.getElem?_eq_some_iff.mp hfound).1)
        apply hposition
        rw [List.getElem?_map, List.getElem?_map, hother, hfound, Option.map_some,
          Option.map_some, hsame, hids.1]
      have hrange : List.range before.length ++ [before.length]
          = List.range (before ++ [item]).length := by
        rw [length_append, length_singleton, range_succ]
      rw [foldl_cons]
      simp only [mergeStep, hprior, Option.toList_some, Option.bind_some, hfound]
      rw [hrange, ih (before ++ [item]) rest _ (by simp [hexisting]) hids.2
        fun other hother => hnamed other (mem_cons_of_mem _ hother)]
      simp

theorem mergedItem_jobId (job : JobSnapshot) (prior : Option IntegrationItem) :
    (mergedItem job prior).jobId = job.jobId := by
  cases prior <;> rfl

theorem mergePipelineIntegrationQueue_jobId (existing : List IntegrationItem)
    (jobs : List JobSnapshot) :
    (mergePipelineIntegrationQueue existing jobs).map IntegrationItem.jobId
      = (jobs.filter JobSnapshot.hasSource).map JobSnapshot.jobId := by
  have hfold (sources : List JobSnapshot) : ∀ state : List Nat × List IntegrationItem,
      (sources.foldl (mergeStep existing) state).2.map IntegrationItem.jobId
        = state.2.map IntegrationItem.jobId ++ sources.map JobSnapshot.jobId := by
    induction sources with
    | nil => intro state; simp
    | cons job sources ih =>
      intro state
      rw [foldl_cons, ih]
      simp [mergeStep, mergedItem_jobId]
  rw [mergePipelineIntegrationQueue, hfold]
  rfl

theorem QueueShape.merge (shape : QueueShape children queue) :
    QueueShape children (mergePipelineIntegrationQueue queue children.jobs) ∧
      ItemsKept queue (mergePipelineIntegrationQueue queue children.jobs) := by
  refine ⟨.bound (mergePipelineIntegrationQueue_jobId queue children.jobs), ?_⟩
  cases shape with
  | planned items =>
    intro item hitem hstatus
    rw [(isPlanned_spec (items item hitem)).1] at hstatus
    cases hstatus
  | bound jobs =>
    have hdistinct : (queue.map IntegrationItem.jobId).Nodup := jobs ▸ children.distinct_sources
    have hnamed : ∀ job ∈ children.sources, job.jobId ≠ "" := fun job hjob =>
      children.named job (mem_filter.mp hjob).1
    have hmerged : mergePipelineIntegrationQueue queue children.jobs
        = List.zipWith (fun job item => mergedItem job (some item)) children.sources queue :=
      mergeStep_foldl hdistinct children.sources [] queue [] rfl jobs hnamed
    have hids := mergePipelineIntegrationQueue_jobId queue children.jobs
    intro item hitem hstatus
    constructor
    · have hmem : item.jobId ∈ (mergePipelineIntegrationQueue queue children.jobs).map
          IntegrationItem.jobId := by
        rw [hids]
        show item.jobId ∈ children.sources.map JobSnapshot.jobId
        rw [← jobs]
        exact mem_map_of_mem hitem
      exact mem_map.mp hmem
    · intro item' hitem' hjob
      rw [hmerged] at hitem'
      obtain ⟨index, hindex⟩ := mem_iff_getElem?.mp hitem'
      rw [List.getElem?_zipWith] at hindex
      split at hindex
      next job other hjob' hother =>
        have hsame : other.jobId = job.jobId := by
          have hposition := congrArg (fun ids => ids[index]?) jobs
          simpa [hjob', hother] using hposition
        rw [Option.some.injEq] at hindex
        subst hindex
        rw [mergedItem_jobId, ← hsame] at hjob
        rw [eq_of_jobId jobs hitem (mem_of_getElem? hother) hjob]
        show keptStatus item.status = .integrated
        rw [hstatus]
        rfl
      · cases hindex

/-! ### The writers -/

variable {record : PipelineRecord}

theorem matches_planned (h : item.isPlanned = true) (source : IntegrationSource) :
    pipelineIntegrationItemMatches host record item source = false := by
  obtain ⟨-, hworktree, hbranch, -⟩ := isPlanned_spec h
  simp only [pipelineIntegrationItemMatches, hworktree, hbranch, Bool.or_eq_false_iff]
  by_cases hsource : source.branch = ""
  · simp [hsource]
  · simp [Ne.symm hsource]

theorem namesNoIntegrated_spec {source : IntegrationSource}
    (h : namesNoIntegrated host record source = true) (hitem : item ∈ record.integrationQueue)
    (status : item.status = .integrated) :
    pipelineIntegrationItemMatches host record item source = false := by
  have hitems := all_eq_true.mp h item hitem
  simpa [status] using hitems

theorem nextPipelineIntegrationItemStatus_of_ok {result : IntegrationResult} (ok : result.ok = true)
    (status : item.status = .integrated) :
    nextPipelineIntegrationItemStatus item result = .integrated := by
  simp only [nextPipelineIntegrationItemStatus, ok, if_true, status]
  split_ifs with hintegrated
  · rfl
  · contradiction
  · rfl

theorem reconciledItem_jobId (changes : List JournalChange) (item : IntegrationItem) :
    (reconciledItem changes item).jobId = item.jobId := by
  simp only [reconciledItem]
  split
  · rfl
  · split <;> rfl

theorem journalChanges_was {journal : String → Option OperationSummary} {change : JournalChange}
    (h : change ∈ journalChanges record journal) :
    change.was = .integrating ∨ change.was = .quarantined := by
  obtain ⟨item, -, hitem⟩ := mem_filterMap.mp h
  split at hitem
  next hdecides =>
    simp only at hitem
    split at hitem
    · rw [Option.some.injEq] at hitem
      subst hitem
      simp only [JournalDecides, Bool.and_eq_true, Bool.or_eq_true, decide_eq_true_eq] at hdecides
      exact hdecides.1
    · cases hitem
  · cases hitem

theorem reconciledItem_integrated {journal : String → Option OperationSummary}
    (status : item.status = .integrated) :
    (reconciledItem (journalChanges record journal) item).status = .integrated := by
  simp only [reconciledItem]
  split
  · exact status
  next change hchange =>
    split
    next hwas =>
      simp only [changeFor] at hchange
      split at hchange
      · cases hchange
      · have hmem := mem_reverse.mp (mem_of_find?_eq_some hchange)
        rcases journalChanges_was hmem with hcase | hcase <;>
          rw [status, hcase] at hwas <;> cases hwas
    · exact status

theorem QueueShape.request {row : PipelineRecord} (shape : QueueShape children row.integrationQueue)
    {request : ItemRequest} (inTime : attemptInTime host request row = true)
    {changes : PipelineChanges} (patch : request.patch host children row = .changes changes) :
    QueueShape children (changes.integrationQueue.getD row.integrationQueue) ∧
      ItemsKept row.integrationQueue (changes.integrationQueue.getD row.integrationQueue) := by
  have hsame : QueueShape children row.integrationQueue ∧
      ItemsKept row.integrationQueue row.integrationQueue := ⟨shape, shape.kept⟩
  have hreconciled (record : PipelineRecord) (journal : String → Option OperationSummary)
      (refreshing : Bool) (time : Nat)
      (h : reconciliationPatch (journalChanges record journal) refreshing time row
        = .changes changes) :
      QueueShape children (changes.integrationQueue.getD row.integrationQueue) ∧
        ItemsKept row.integrationQueue
          (changes.integrationQueue.getD row.integrationQueue) := by
    simp only [reconciliationPatch] at h
    split at h
    · cases h
    · cases h
      refine shape.map (reconciledItem_jobId _) (fun item hplanned => ?_)
        fun item _ hstatus => reconciledItem_integrated hstatus
      simp [reconciledItem, changeFor, (isPlanned_spec hplanned).2.2.2]
  have hrefreshed (jobs : List JobSnapshot) (observed : Bool) (time : Nat)
      (merged : (∀ job ∈ jobs, job.status = .completed) → jobs = children.jobs)
      (h : refreshPatch jobs observed time row = .changes changes) :
      QueueShape children (changes.integrationQueue.getD row.integrationQueue) ∧
        ItemsKept row.integrationQueue
          (changes.integrationQueue.getD row.integrationQueue) := by
    simp only [refreshPatch, guarded] at h
    split at h
    · cases h
    · split at h
      · cases h
      next next hnext =>
        split at h
        · cases h
        · cases h
          simp only [refreshChanges] at hnext
          split at hnext
          · cases hnext
          · split at hnext
            · cases hnext
              exact hsame
            · split at hnext
              next hcompleted =>
                cases hnext
                rw [merged (by simpa using hcompleted)]
                exact shape.merge
              · split at hnext
                · cases hnext
                  exact hsame
                · cases hnext
  cases request with
  | prepared source operationId jobId time =>
    simp only [ItemRequest.patch, onIntegrationPrepared] at patch
    split at patch
    · cases patch
    · cases patch
      refine shape.map (fun item => ?_) (fun item hplanned => ?_) fun item hitem hstatus => ?_
      · split_ifs <;> rfl
      · rw [if_neg (by simp [matches_planned hplanned])]
      · rw [if_neg (by simp [namesNoIntegrated_spec inTime hitem hstatus])]
        exact hstatus
  | attempted attempt =>
    simp only [ItemRequest.patch, integrationResultPatch] at patch
    cases patch
    refine shape.map (fun item => ?_) (fun item hplanned => ?_) fun item hitem hstatus => ?_
    · split_ifs <;> rfl
    · rw [if_pos (by simp [matches_planned hplanned])]
    · by_cases hleft : (attempt.dryRun || !pipelineIntegrationItemMatches host row item
          attempt.source) = true
      · rw [if_pos hleft]
        exact hstatus
      · rw [if_neg hleft]
        simp only [Bool.or_eq_true, Bool.not_eq_true', not_or, Bool.not_eq_false] at hleft
        simp only [attemptInTime, Bool.or_eq_true, hleft.1, Bool.false_eq_true, false_or]
          at inTime
        rcases inTime with hok | hnames
        · exact nextPipelineIntegrationItemStatus_of_ok hok hstatus
        · rw [namesNoIntegrated_spec hnames hitem hstatus] at hleft
          cases hleft.2
  | reconciled record journal refreshing time =>
    simp only [ItemRequest.patch] at patch
    split at patch
    · simp only [guarded] at patch
      split at patch
      · cases patch
      · exact hreconciled record journal true time patch
    · exact hreconciled record journal false time patch
  | finishedRefresh observed time =>
    exact hrefreshed children.jobs observed time (fun _ => rfl) patch
  | unfinishedRefresh jobs observed time =>
    simp only [ItemRequest.patch] at patch
    split at patch
    · cases patch
    next hopen =>
      refine hrefreshed jobs observed time (fun hall => ?_) patch
      exact absurd (by simpa using hall) hopen
  | brokenManifest time =>
    simp only [ItemRequest.patch, brokenManifestPatch, guarded] at patch
    split at patch
    · cases patch
    · cases patch
      exact hsame
  | other anything =>
    simp only [ItemRequest.patch] at patch
    cases hanything : anything row with
    | changes given =>
      rw [hanything] at patch
      cases patch
      exact hsame
    | unchanged =>
      rw [hanything] at patch
      cases patch
    | refused =>
      rw [hanything] at patch
      cases patch

/-! ### Runs -/

variable {detailsFit : PipelineRecord → Bool}

theorem QueueShape.rowStep {row row' : PipelineRecord}
    (shape : QueueShape children row.integrationQueue)
    (step : RowStep (itemStore host children detailsFit) (attemptInTime host) row row') :
    QueueShape children row'.integrationQueue ∧
      ItemsKept row.integrationQueue row'.integrationQueue := by
  cases step with
  | same => exact ⟨shape, shape.kept⟩
  | claimed => exact ⟨shape, shape.kept⟩
  | propagated => exact ⟨shape, shape.kept⟩
  | activated => exact ⟨shape, shape.kept⟩
  | updated request changes inTime patch => exact shape.request inTime patch

/-- In every run that starts from a planned pipeline, in which updates start from objects
that are not stale and no attempt reserves an item that is integrated or records a failure
for it, an item that is integrated stays integrated. -/
theorem integrated_item_stays (host : PipelineRuntime) (children : PipelineChildren)
    (detailsFit : PipelineRecord → Bool) (record : PipelineRecord)
    (planned : ∀ item ∈ record.integrationQueue, item.isPlanned = true)
    (before after : List (StoreEvent ItemRequest))
    (along : Along (storeStep (itemStore host children detailsFit))
      (fun s event => serializableStep (itemStore host children detailsFit) (attemptInTime host) s
        event = true) (.created record) (before ++ after)) :
    ItemsKept
      (run (storeStep (itemStore host children detailsFit)) (.created record)
        before).row.integrationQueue
      (run (storeStep (itemStore host children detailsFit)) (.created record)
        (before ++ after)).row.integrationQueue := by
  let runtime := itemStore host children detailsFit
  let allowed (s : StoreState ItemRequest) (event : StoreEvent ItemRequest) : Prop :=
    serializableStep runtime (attemptInTime host) s event = true
  let Good (s : StoreState ItemRequest) : Prop :=
    StoreInvariant runtime (attemptInTime host) s ∧ QueueShape children s.row.integrationQueue
  have hstep : ∀ s event, Good s → allowed s event → Good (storeStep runtime s event) := by
    intro s event ⟨hinvariant, hshape⟩ hallowed
    have hserialized := storeInvariant_step hinvariant hallowed
    exact ⟨hserialized.invariant, (hshape.rowStep hserialized.row).1⟩
  rw [along_append] at along
  have hbefore : Good (run (storeStep runtime) (.created record) before) :=
    run_invariant hstep ⟨storeInvariant_created record, .planned planned⟩ before along.1
  have hlater : ∀ (events : List (StoreEvent ItemRequest)) (s : StoreState ItemRequest), Good s →
      Along (storeStep runtime) allowed s events →
      ItemsKept s.row.integrationQueue (run (storeStep runtime) s events).row.integrationQueue := by
    intro events
    induction events with
    | nil => exact fun s hs _ => hs.2.kept
    | cons event events ih =>
      intro s hs halong
      have hserialized := storeInvariant_step hs.1 halong.1
      exact (hs.2.rowStep hserialized.row).2.trans (ih _ (hstep s event hs halong.1) halong.2)
  rw [run_append]
  exact hlater after _ hbefore along.2

/-- One writer that has finished with a change. -/
def oneWriter : PipelineChildren where
  jobs :=
    [{ jobId := "job-1"
       status := .completed
       agent := "implementer"
       errorType := ""
       worktreePath := "/worktrees/job-1"
       worktreeBranch := "writer-1"
       worktreeBaseCommit := "base"
       worktreePatchSha256 := "patch"
       worktreeSourceStateSha256 := "state"
       allowedEdits := ["src"]
       changedFiles := ["src/a.js"]
       noChanges := false }]
  named := by decide
  distinct := by decide

/-- The pipeline of that writer, while it runs. -/
def runningPipeline : PipelineRecord :=
  { integratingPipeline
      [{ pendingItem "" "" with
         status := .planned
         sourceBaseCommit := ""
         patchSha256 := ""
         sourceStateSha256 := ""
         changedFiles := [] }] with
    status := .running }

def plainItemStore : StoreRuntime ItemRequest := itemStore plainHost oneWriter fun _ => true

/-- An update from the first object, carried out at once. -/
def updateNow (request : ItemRequest) : List (StoreEvent ItemRequest) :=
  [.call 0 request, .begin 0, .commit 0 true]

/-- The writer has finished, its item is reserved and its patch applied. -/
def firstAttempt : List (StoreEvent ItemRequest) :=
  updateNow (.finishedRefresh false 10)
    ++ updateNow (.prepared ⟨"", "writer-1"⟩ "operation-1" "job-1" 15)
    ++ updateNow (.attempted (appliedAttempt "writer-1" "operation-1"))

def itemsAfter (events : List (StoreEvent ItemRequest)) : List (String × ItemStatus) :=
  (run (storeStep plainItemStore) (.created runningPipeline) events).row.integrationQueue.map
    fun item => (item.jobId, item.status)

theorem integrated_item_stays_of_refresh :
    ItemsKept
      (run (storeStep plainItemStore) (.created runningPipeline)
        firstAttempt).row.integrationQueue
      (run (storeStep plainItemStore) (.created runningPipeline)
        (firstAttempt ++ updateNow (.finishedRefresh false 40))).row.integrationQueue :=
  integrated_item_stays plainHost oneWriter (fun _ => true) runningPipeline (by decide)
    firstAttempt (updateNow (.finishedRefresh false 40)) (by decide)

/-- A second attempt at the item began while it was pending, and is refused because its
receipt is stale: the item is integrated when it records that. -/
theorem integrated_item_stays_fails :
    itemsAfter firstAttempt = [("job-1", .integrated)] ∧
      itemsAfter (firstAttempt ++ updateNow
        (.attempted (failedAttempt "writer-1" "integration_preview_stale")))
          = [("job-1", .pending)] := by
  constructor <;> decide

end AgentBridge.Pipelines
