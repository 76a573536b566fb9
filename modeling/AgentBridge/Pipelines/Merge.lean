import AgentBridge.Pipelines.Items

/-!
# The merge of an item list with the finished writers

`mergePipelineIntegrationQueue` for any item list and any list of children. Every source takes
its turn and claims an unused item by its job id, else by its agent and edits, else an item of
no other job. The second of these criteria does not look at the job of the item.
-/

namespace AgentBridge.Pipelines

open Systems List Option

/-- The first unused item that satisfies a criterion. -/
def firstUnused (existing : List IntegrationItem) (used : List Nat)
    (criterion : IntegrationItem → Bool) : Option Nat :=
  (List.range existing.length).find? fun index =>
    !used.contains index && (existing[index]?).any criterion

def ownItem (job : JobSnapshot) (item : IntegrationItem) : Bool :=
  item.jobId ≠ "" && item.jobId = job.jobId

def sameWork (job : JobSnapshot) (item : IntegrationItem) : Bool :=
  (item.agent = "" || item.agent = job.agent) && sameEdits item.allowedEdits job.allowedEdits

def unclaimed (job : JobSnapshot) (item : IntegrationItem) : Bool :=
  item.jobId = "" || item.jobId = job.jobId

theorem priorItem_eq (existing : List IntegrationItem) (used : List Nat) (job : JobSnapshot) :
    priorItem existing used job = (firstUnused existing used (ownItem job)).or
      ((firstUnused existing used (sameWork job)).or (firstUnused existing used (unclaimed job))) :=
  rfl

/-- The place of the item that each source claims, in the order of the turns. -/
def chosenItems (existing : List IntegrationItem) :
    List Nat → List JobSnapshot → List (Option Nat)
  | _, [] => []
  | used, job :: jobs =>
    priorItem existing used job ::
      chosenItems existing (used ++ (priorItem existing used job).toList) jobs

def pipelineSources (jobs : List JobSnapshot) : List JobSnapshot :=
  jobs.filter JobSnapshot.hasSource

def ItemStatus.settled : ItemStatus → Bool
  | .integrated | .rejected => true
  | _ => false

/-- The merge is a matching of sources with items that settles no job by the item of another. -/
structure FaithfulMerge (existing : List IntegrationItem) (jobs : List JobSnapshot) : Prop where
  perJob : (mergePipelineIntegrationQueue existing jobs).map IntegrationItem.jobId =
    (pipelineSources jobs).map JobSnapshot.jobId
  matched : mergePipelineIntegrationQueue existing jobs =
    List.zipWith (fun job index => mergedItem job (index.bind fun index => existing[index]?))
      (pipelineSources jobs) (chosenItems existing [] (pipelineSources jobs))
  once : (chosenItems existing [] (pipelineSources jobs)).reduceOption.Nodup
  idempotent : mergePipelineIntegrationQueue (mergePipelineIntegrationQueue existing jobs) jobs =
    mergePipelineIntegrationQueue existing jobs
  owned : ∀ (turn index : Nat) (job : JobSnapshot) (item : IntegrationItem),
    (pipelineSources jobs)[turn]? = some job →
    (chosenItems existing [] (pipelineSources jobs))[turn]? = some (some index) →
    existing[index]? = some item → item.status.settled = true →
      item.jobId = "" ∨ item.jobId = job.jobId

/-- At the turn of the job, the first unused item with its agent and its edits is not a settled
one of another job, unless the job finds its own item before. -/
def FallbackKeepsOwners (existing : List IntegrationItem) (state : List Nat × List IntegrationItem)
    (job : JobSnapshot) : Prop :=
  firstUnused existing state.1 (ownItem job) = none →
    ∀ (index : Nat) (item : IntegrationItem),
      firstUnused existing state.1 (sameWork job) = some index → existing[index]? = some item →
        item.status.settled = true → item.jobId = ""

/-! ### One turn -/

section

variable {existing : List IntegrationItem} {used : List Nat} {job : JobSnapshot} {index : Nat}

theorem firstUnused_spec {criterion : IntegrationItem → Bool}
    (h : firstUnused existing used criterion = some index) :
    index ∉ used ∧ ∃ item, existing[index]? = some item ∧ criterion item = true := by
  have hfound := List.find?_some h
  rw [Bool.and_eq_true, Bool.not_eq_true', Option.any_eq_true] at hfound
  obtain ⟨hunused, hitem⟩ := hfound
  refine ⟨?_, hitem⟩
  intro hmem
  rw [contains_iff_mem.mpr hmem] at hunused
  cases hunused

theorem criterion_of_firstUnused_none {criterion : IntegrationItem → Bool} {item : IntegrationItem}
    (h : firstUnused existing used criterion = none) (unused : index ∉ used)
    (found : existing[index]? = some item) : criterion item = false := by
  have hlt : index < existing.length := (List.getElem?_eq_some_iff.mp found).1
  have hnone := List.find?_eq_none.mp h index (mem_range.mpr hlt)
  rw [found] at hnone
  simpa [unused] using hnone

theorem priorItem_unused (h : priorItem existing used job = some index) : index ∉ used := by
  rw [priorItem_eq, or_eq_some_iff, or_eq_some_iff] at h
  obtain hown | ⟨-, hwork | ⟨-, hfree⟩⟩ := h
  · exact (firstUnused_spec hown).1
  · exact (firstUnused_spec hwork).1
  · exact (firstUnused_spec hfree).1

/-- A turn settles its job by no item of another exactly if its fallback does not. -/
theorem turn_owned_iff {merged : List IntegrationItem} :
    (∀ (index : Nat) (item : IntegrationItem), priorItem existing used job = some index →
      existing[index]? = some item → item.status.settled = true →
        item.jobId = "" ∨ item.jobId = job.jobId) ↔
      FallbackKeepsOwners existing (used, merged) job := by
  constructor
  · intro owned hnone index item hwork hitem hsettled
    have hprior : priorItem existing used job = some index := by
      rw [priorItem_eq, hnone, hwork]
      rfl
    cases owned index item hprior hitem hsettled with
    | inl hempty => exact hempty
    | inr hsame =>
      have hother := criterion_of_firstUnused_none hnone (firstUnused_spec hwork).1 hitem
      by_contra hne
      simp [ownItem, hsame, hsame ▸ hne] at hother
  · intro keeps index item hprior hitem hsettled
    rw [priorItem_eq, or_eq_some_iff, or_eq_some_iff] at hprior
    have found {criterion : IntegrationItem → Bool}
        (h : firstUnused existing used criterion = some index) : criterion item = true := by
      obtain ⟨-, other, hother, hcriterion⟩ := firstUnused_spec h
      rw [hitem] at hother
      cases hother
      exact hcriterion
    obtain hown | ⟨hnone, hwork | ⟨-, hfree⟩⟩ := hprior
    · have hcriterion := found hown
      rw [ownItem, Bool.and_eq_true, decide_eq_true_eq] at hcriterion
      exact .inr (of_decide_eq_true hcriterion.2)
    · exact .inl (keeps hnone index item hwork hitem hsettled)
    · have hcriterion := found hfree
      rw [unclaimed, Bool.or_eq_true, decide_eq_true_eq, decide_eq_true_eq] at hcriterion
      exact hcriterion

end

/-! ### The whole merge -/

section

variable {existing : List IntegrationItem}

variable (jobs : List JobSnapshot)

/-- The fold writes the chosen items one after another. -/
theorem mergeStep_foldl_eq : ∀ state : List Nat × List IntegrationItem,
    (jobs.foldl (mergeStep existing) state).2 = state.2 ++
      List.zipWith (fun job index => mergedItem job (index.bind fun index => existing[index]?))
        jobs (chosenItems existing state.1 jobs) := by
  induction jobs with
  | nil => intro state; simp
  | cons job jobs ih =>
    intro state
    rw [foldl_cons, ih, chosenItems, zipWith_cons_cons]
    simp [mergeStep]

theorem mergePipelineIntegrationQueue_eq :
    mergePipelineIntegrationQueue existing jobs =
      List.zipWith (fun job index => mergedItem job (index.bind fun index => existing[index]?))
        (pipelineSources jobs) (chosenItems existing [] (pipelineSources jobs)) := by
  rw [mergePipelineIntegrationQueue, mergeStep_foldl_eq]
  rfl

theorem chosenItems_nodup : ∀ used : List Nat,
    (chosenItems existing used jobs).reduceOption.Nodup ∧
      ∀ index ∈ (chosenItems existing used jobs).reduceOption, index ∉ used := by
  induction jobs with
  | nil => intro used; simp [chosenItems, List.reduceOption]
  | cons job jobs ih =>
    intro used
    obtain ⟨hnodup, hfresh⟩ := ih (used ++ (priorItem existing used job).toList)
    rw [chosenItems]
    cases hprior : priorItem existing used job with
    | none =>
      rw [hprior] at hnodup hfresh
      rw [reduceOption_cons_of_none]
      simpa using And.intro hnodup hfresh
    | some index =>
      rw [hprior] at hnodup hfresh
      rw [reduceOption_cons_of_some]
      constructor
      · refine nodup_cons.mpr ⟨?_, hnodup⟩
        intro hmem
        exact hfresh index hmem (by simp)
      · intro other hother
        cases mem_cons.mp hother with
        | inl heq => exact heq ▸ priorItem_unused hprior
        | inr hmem =>
          intro hused
          exact hfresh other hmem (mem_append_left _ hused)

/-- The turns own what they settle exactly if no fallback of the run takes a settled item of
another job. -/
theorem owned_iff_along : ∀ state : List Nat × List IntegrationItem,
    (∀ (turn index : Nat) (job : JobSnapshot) (item : IntegrationItem), jobs[turn]? = some job →
      (chosenItems existing state.1 jobs)[turn]? = some (some index) →
      existing[index]? = some item → item.status.settled = true →
        item.jobId = "" ∨ item.jobId = job.jobId) ↔
      Along (mergeStep existing) (FallbackKeepsOwners existing) state jobs := by
  induction jobs with
  | nil => intro state; simp
  | cons job jobs ih =>
    intro state
    rw [along_cons, ← ih, ← @turn_owned_iff existing state.1 job state.2]
    constructor
    · intro owned
      constructor
      · intro index item hprior hitem
        exact owned 0 index job item rfl (by rw [chosenItems, hprior]; rfl) hitem
      · intro turn index later item hlater hchosen
        exact owned (turn + 1) index later item hlater hchosen
    · rintro ⟨first, rest⟩ turn index later item hlater hchosen
      cases turn with
      | zero =>
        cases hlater
        rw [chosenItems, List.getElem?_cons_zero, Option.some.injEq] at hchosen
        exact first index item hchosen
      | succ turn => exact rest turn index later item hlater hchosen

end

/-! ### The merge of its own output -/

section

variable {merged : List IntegrationItem}

theorem chosenItems_own (jobs : List JobSnapshot) : ∀ done : Nat,
    (merged.drop done).map IntegrationItem.jobId = jobs.map JobSnapshot.jobId →
    (∀ job ∈ jobs, job.jobId ≠ "") →
      chosenItems merged (List.range done) jobs = (List.range' done jobs.length).map some := by
  induction jobs with
  | nil => intro done _ _; rfl
  | cons job jobs ih =>
    intro done ids named
    have hlength := congrArg List.length ids
    rw [length_map, length_map, length_drop, length_cons] at hlength
    have hlt : done < merged.length := by omega
    rw [drop_eq_getElem_cons hlt, map_cons, map_cons, List.cons.injEq] at ids
    have hown : ownItem job merged[done] = true := by
      simp [ownItem, ids.1, named job mem_cons_self]
    have hprior : priorItem merged (List.range done) job = some done := by
      have hfind : firstUnused merged (List.range done) (ownItem job) = some done := by
        rw [firstUnused, List.find?_range_eq_some]
        refine ⟨?_, mem_range.mpr hlt, fun earlier hearlier => ?_⟩
        · simp [hlt, hown]
        · simp [hearlier]
      rw [priorItem_eq, hfind]
      rfl
    have hrange : List.range done ++ [done] = List.range (done + 1) := range_succ.symm
    rw [chosenItems, hprior, toList_some, hrange,
      ih (done + 1) ids.2 fun later hlater => named later (mem_cons_of_mem _ hlater),
      length_cons, List.range'_succ, map_cons]

theorem mergedItem_mergedItem (job : JobSnapshot) (prior : Option IntegrationItem) :
    mergedItem job (some (mergedItem job prior)) = mergedItem job prior := by
  have hor (first second : String) : orText first (orText first second) = orText first second := by
    unfold orText
    split_ifs <;> rfl
  have hback (first second : String) : orText (orText first second) second =
      orText first second := by
    unfold orText
    split_ifs <;> simp_all
  have hself (text : String) : orText text text = text := by
    unfold orText
    split_ifs <;> rfl
  cases prior with
  | none => simp only [mergedItem, hself, keptStatus]
  | some prior =>
    have hstatus : keptStatus (keptStatus prior.status) = keptStatus prior.status := by
      cases prior.status <;> rfl
    simp only [mergedItem, hor, hback, hstatus]

theorem zipWith_range'_self {α β : Type} (f : β → Option α → α) (items : List α) :
    ∀ (jobs : List β) (done : Nat), (items.drop done).length = jobs.length →
      List.zipWith (fun job index => f job (index.bind fun index => items[index]?)) jobs
        ((List.range' done jobs.length).map some) =
      List.zipWith (fun job item => f job (some item)) jobs (items.drop done) := by
  intro jobs
  induction jobs with
  | nil => intro done _; rfl
  | cons job jobs ih =>
    intro done hlength
    rw [length_drop, length_cons] at hlength
    have hlt : done < items.length := by omega
    have hrest : (items.drop (done + 1)).length = jobs.length := by
      rw [length_drop]
      omega
    rw [length_cons, List.range'_succ, map_cons, zipWith_cons_cons, ih _ hrest,
      drop_eq_getElem_cons hlt, zipWith_cons_cons]
    simp [hlt]

theorem zipWith_merged (choose : List (Option IntegrationItem)) :
    ∀ jobs : List JobSnapshot,
      List.zipWith (fun job item => mergedItem job (some item)) jobs
        (List.zipWith mergedItem jobs choose) = List.zipWith mergedItem jobs choose := by
  induction choose with
  | nil => intro jobs; cases jobs <;> rfl
  | cons prior choose ih =>
    intro jobs
    cases jobs with
    | nil => rfl
    | cons job jobs =>
      rw [zipWith_cons_cons, zipWith_cons_cons, ih, mergedItem_mergedItem]

end

theorem merge_idempotent {jobs : List JobSnapshot} (existing : List IntegrationItem)
    (named : ∀ job ∈ jobs, job.jobId ≠ "") :
    mergePipelineIntegrationQueue (mergePipelineIntegrationQueue existing jobs) jobs =
      mergePipelineIntegrationQueue existing jobs := by
  have hids := mergePipelineIntegrationQueue_jobId existing jobs
  have hnamed : ∀ job ∈ pipelineSources jobs, job.jobId ≠ "" :=
    fun job hjob => named job (mem_of_mem_filter hjob)
  have hlength : (mergePipelineIntegrationQueue existing jobs).length =
      (pipelineSources jobs).length := by
    have hcount := congrArg List.length hids
    rwa [length_map, length_map] at hcount
  rw [mergePipelineIntegrationQueue_eq jobs]
  rw [show ([] : List Nat) = List.range 0 from rfl,
    chosenItems_own (pipelineSources jobs) 0 (by rw [drop_zero]; exact hids) hnamed,
    zipWith_range'_self mergedItem _ _ 0 (by rw [drop_zero]; exact hlength), drop_zero,
    mergePipelineIntegrationQueue_eq jobs]
  have hsplit : List.zipWith
      (fun job index => mergedItem job (index.bind fun index => existing[index]?))
      (pipelineSources jobs) (chosenItems existing [] (pipelineSources jobs)) =
      List.zipWith mergedItem (pipelineSources jobs)
        ((chosenItems existing [] (pipelineSources jobs)).map
          fun index => index.bind fun index => existing[index]?) := by
    rw [zipWith_map_right]
  rw [hsplit]
  exact zipWith_merged _ _

/-- Every merge gives one item to each source, uses an item at most once and is idempotent. It
settles no job by the item of another exactly if no fallback to agent and edits meets one. -/
theorem merge_faithful_iff {existing : List IntegrationItem} {jobs : List JobSnapshot}
    (named : ∀ job ∈ jobs, job.jobId ≠ "") :
    FaithfulMerge existing jobs ↔ Along (mergeStep existing) (FallbackKeepsOwners existing)
      ([], []) (pipelineSources jobs) := by
  rw [← owned_iff_along]
  constructor
  · intro faithful
    exact faithful.owned
  · intro owned
    exact {
      perJob := mergePipelineIntegrationQueue_jobId existing jobs
      matched := mergePipelineIntegrationQueue_eq jobs
      once := (chosenItems_nodup (pipelineSources jobs) []).1
      idempotent := merge_idempotent existing named
      owned := owned }

/-! ### Two writers with the same edits -/

def finishedWriter (jobId : String) : JobSnapshot where
  jobId := jobId
  status := .completed
  agent := "builder"
  errorType := ""
  worktreePath := "/worktrees/" ++ jobId
  worktreeBranch := ""
  worktreeBaseCommit := "base"
  worktreePatchSha256 := jobId
  worktreeSourceStateSha256 := jobId
  allowedEdits := ["src"]
  changedFiles := ["src/" ++ jobId]
  noChanges := false

/-- The item of the first of two writers, after it was integrated. -/
def integratedFirst : List IntegrationItem :=
  [{ mergedItem (finishedWriter "first") none with status := .integrated }]

/-- In the order in which the first writer comes first, each job keeps its own item. -/
theorem merge_faithful_iff_of_two_writers :
    (∀ job ∈ [finishedWriter "first", finishedWriter "second"], job.jobId ≠ "") ∧
      (FaithfulMerge integratedFirst [finishedWriter "first", finishedWriter "second"] ↔
        Along (mergeStep integratedFirst) (FallbackKeepsOwners integratedFirst) ([], [])
          (pipelineSources [finishedWriter "first", finishedWriter "second"])) :=
  have named : ∀ job ∈ [finishedWriter "first", finishedWriter "second"], job.jobId ≠ "" := by
    decide
  ⟨named, merge_faithful_iff named⟩

/-- The second writer takes the integrated item of the first and counts as integrated. -/
theorem second_writer_counts_as_integrated :
    ¬FaithfulMerge integratedFirst [finishedWriter "second", finishedWriter "first"] := by
  intro faithful
  have howned := faithful.owned 0 0 (finishedWriter "second")
    { mergedItem (finishedWriter "first") none with status := .integrated }
    rfl (by decide) rfl rfl
  revert howned
  decide

end AgentBridge.Pipelines
