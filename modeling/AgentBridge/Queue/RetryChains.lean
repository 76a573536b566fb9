import AgentBridge.Queue.RetryOnce

/-!
# Chains of retries are bounded

Every attempt of a policy is counted somewhere: as an attempt, as a wait for a slot, as a wait
for a pause or as a retry after an infrastructure error. The policy hands the counters of the
failed job to its successor with one of them raised, and each is bounded. The rest of the bridge
carries the counters of a job unchanged, so the length of a chain is bounded by their sum, and
the history, which is longer than every chain, keeps an entry of every attempt.
-/

namespace AgentBridge.Queue

open Providers Systems List Function Nat

variable {host : RetryHost}

/-! ### Counters -/

/-- What the chain of a job has used up. -/
def spent (summary : QueueRecord) : Nat :=
  (max 1 summary.retryAttempt - 1) + summary.retry.slotWaitRequeues
    + summary.retry.pauseWaitRequeues + summary.retry.infraRetryRequeues

def retryBudget (maxAttempts : Nat) : Nat :=
  (maxAttempts - 1) + retryPolicyMaxSlotWaits + retryPolicyMaxPauseWaits
    + retryPolicyMaxInfraRetries

structure CountsOn (failed next : QueueRecord) : Prop where
  attempt : max 1 failed.retryAttempt ≤ next.retryAttempt
  slotWaits : failed.retry.slotWaitRequeues ≤ next.retry.slotWaitRequeues
  pauseWaits : failed.retry.pauseWaitRequeues ≤ next.retry.pauseWaitRequeues
  infraRetries : failed.retry.infraRetryRequeues ≤ next.retry.infraRetryRequeues
  strict : max 1 failed.retryAttempt < next.retryAttempt ∨
    failed.retry.slotWaitRequeues < next.retry.slotWaitRequeues ∨
    failed.retry.pauseWaitRequeues < next.retry.pauseWaitRequeues ∨
    failed.retry.infraRetryRequeues < next.retry.infraRetryRequeues

theorem CountsOn.spent_lt {failed next : QueueRecord} (h : CountsOn failed next) :
    spent failed < spent next := by
  obtain ⟨hattempt, hslot, hpause, hinfra, hstrict⟩ := h
  rw [spent, spent]
  omega

structure WithinBudget (summary : QueueRecord) : Prop where
  attempt : summary.retryAttempt ≤ max 1 summary.maxAttempts
  slotWaits : summary.retry.slotWaitRequeues ≤ retryPolicyMaxSlotWaits
  pauseWaits : summary.retry.pauseWaitRequeues ≤ retryPolicyMaxPauseWaits
  infraRetries : summary.retry.infraRetryRequeues ≤ retryPolicyMaxInfraRetries

theorem WithinBudget.spent_le {summary : QueueRecord} (h : WithinBudget summary) :
    spent summary ≤ retryBudget summary.maxAttempts := by
  obtain ⟨hattempt, hslot, hpause, hinfra⟩ := h
  rw [spent, retryBudget]
  omega

/-- The entry of the history is about the job. -/
def Names (jobId entry : String) : Prop := (jobId ++ " ").toList <+: entry.toList

/-! ### What the policy decides -/

/-- A reason not to count an attempt has something of its budget left. -/
def Uncounted.Left (summary : QueueRecord) (errorType : String) : Option Uncounted → Prop
  | none => True
  | some slotWait => summary.retry.slotWaitRequeues < retryPolicyMaxSlotWaits
  | some pauseWait => summary.retry.pauseWaitRequeues < retryPolicyMaxPauseWaits
  | some rateLimit => summary.retry.pauseWaitRequeues < retryPolicyMaxPauseWaits
  | some infraRetry => retryPolicyInfraErrorTypes.contains errorType = true ∧
      summary.retry.infraRetryRequeues < retryPolicyMaxInfraRetries

theorem uncountedReason_left (summary : QueueRecord) (errorType : String) :
    Uncounted.Left summary errorType (uncountedReason summary errorType) := by
  rw [uncountedReason]
  split_ifs with hslot hpause hlimit hinfra
  · exact hslot.2
  · exact hpause.2
  · exact hlimit.2.2
  · exact hinfra
  · trivial

/-- What the policy made of the row before it chose a model. -/
structure Planned (host : RetryHost) (row : QueueRow) (plan : RetryPlan) : Prop where
  retryable : retryableStatus row.status = true
  undecided : retryUndecided row.recordJson = true
  request : row.requestEncrypted ≠ ""
  policy : ∃ request, host.decryptQueueRequest row.requestEncrypted row.jobId = some request ∧
    jobRetryPolicy host request = .ok (some plan.policy)
  history : ∃ entry, Names row.jobId entry ∧
    plan.history = lastHistory (row.recordJson.retry.attemptHistory ++ [entry])
  counts : ∀ next : QueueRecord, next.retryAttempt = plan.nextAttempt →
    next.retry.slotWaitRequeues = plan.slotWaitRequeues →
    next.retry.pauseWaitRequeues = plan.pauseWaitRequeues →
    next.retry.infraRetryRequeues = plan.infraRetryRequeues → CountsOn row.recordJson next
  attempt : plan.nextAttempt ≤ max plan.policy.maxAttempts (max 1 row.recordJson.retryAttempt)
  slotWaits : plan.slotWaitRequeues ≤
    max retryPolicyMaxSlotWaits row.recordJson.retry.slotWaitRequeues
  pauseWaits : plan.pauseWaitRequeues ≤
    max retryPolicyMaxPauseWaits row.recordJson.retry.pauseWaitRequeues
  infraRetries : plan.infraRetryRequeues ≤
    max retryPolicyMaxInfraRetries row.recordJson.retry.infraRetryRequeues

/-- The plan for an error that is retried. -/
def planFor (row : QueueRow) (policy : RetryPolicy) (errorType : String) : RetryPlan :=
  let retry := row.recordJson.retry
  let attempt := max 1 row.recordJson.retryAttempt
  let uncounted := uncountedReason row.recordJson errorType
  let infra := retryPolicyInfraErrorTypes.contains errorType
    && decide (retry.infraRetryRequeues < retryPolicyMaxInfraRetries)
  { policy := policy
    infraRetry := infra
    chooseFrom :=
      if uncounted = none then attempt
      else attempt + retry.slotWaitRequeues + retry.pauseWaitRequeues
    nextAttempt := if uncounted = none then attempt + 1 else attempt
    history := lastHistory (retry.attemptHistory ++
      [row.jobId ++ " " ++ retryPolicyModelLabel retry ++ " " ++ errorType
        ++ Uncounted.note uncounted])
    slotWaitRequeues :=
      if uncounted = some .slotWait then retry.slotWaitRequeues + 1 else retry.slotWaitRequeues
    pauseWaitRequeues :=
      if uncounted = some .pauseWait ∨ uncounted = some .rateLimit then
        retry.pauseWaitRequeues + 1
      else retry.pauseWaitRequeues
    infraRetryRequeues :=
      if infra then retry.infraRetryRequeues + 1 else retry.infraRetryRequeues }

/-- A plan is the one for the error of a row that may be retried, with attempts left for an
error that counts. -/
theorem retryVerdict_eq_planFor {row : QueueRow} {plan : RetryPlan}
    (h : retryVerdict host row = .retry plan) :
    retryableStatus row.status = true ∧ retryUndecided row.recordJson = true ∧
      row.requestEncrypted ≠ "" ∧ ∃ request errorType,
        host.decryptQueueRequest row.requestEncrypted row.jobId = some request ∧
        jobRetryPolicy host request = .ok (some plan.policy) ∧
        plan = planFor row plan.policy errorType ∧
        ¬ (uncountedReason row.recordJson errorType = none ∧
          plan.policy.maxAttempts ≤ max 1 row.recordJson.retryAttempt) := by
  unfold retryVerdict at h
  extract_lets summary retry at h
  split at h
  next => cases h
  next hstatus =>
    split at h
    next => cases h
    next hundecided =>
      split at h
      next => cases h
      next hsealed =>
        split at h
        next => cases h
        next request hrequest =>
          split at h
          next => cases h
          next => cases h
          next policy hpolicy =>
            split at h
            next => cases h
            split at h
            next => cases h
            split at h
            next => cases h
            next hleft =>
              cases h
              refine ⟨by simpa using hstatus, ?_, hsealed, request, _, hrequest, hpolicy, rfl,
                hleft⟩
              simp only [Bool.or_eq_true, Bool.not_eq_true', not_or, Bool.not_eq_false]
                at hundecided
              exact hundecided.1

theorem names_entry (jobId label errorType note : String) :
    Names jobId (jobId ++ " " ++ label ++ " " ++ errorType ++ note) := by
  refine ⟨label.toList ++ (" ".toList ++ (errorType.toList ++ note.toList)), ?_⟩
  simp only [String.toList_append, append_assoc]

variable {history : List String}

theorem giveUp_history {row : QueueRow} (h : retryVerdict host row = .giveUp history) :
    ∃ entry, Names row.jobId entry ∧
      history = lastHistory (row.recordJson.retry.attemptHistory ++ [entry]) := by
  unfold retryVerdict at h
  extract_lets summary retry at h
  split at h
  next => cases h
  next =>
    split at h
    next => cases h
    next =>
      split at h
      next => cases h
      next =>
        split at h
        next => cases h
        next =>
          split at h
          next => cases h
          next => cases h
          next =>
            split at h
            next => cases h
            split at h
            next => cases h
            split at h
            next =>
              rw [← RetryVerdict.giveUp.inj h]
              exact ⟨_, names_entry row.jobId _ _ _, rfl⟩
            next => cases h

theorem planned_of_verdict {row : QueueRow} {plan : RetryPlan}
    (h : retryVerdict host row = .retry plan) : Planned host row plan := by
  obtain ⟨hretryable, hundecided, hsealed, request, errorType, hrequest, hpolicy, hplan, hleft⟩ :=
    retryVerdict_eq_planFor h
  generalize plan.policy = policy at hplan hpolicy hleft
  subst hplan
  have hreason := uncountedReason_left row.recordJson errorType
  refine ⟨hretryable, hundecided, hsealed, ⟨request, hrequest, hpolicy⟩,
    ⟨_, names_entry row.jobId _ errorType _, rfl⟩, ?_, ?_, ?_, ?_, ?_⟩
  · intro next hattempt hslots hpauses hinfras
    rw [planFor] at hattempt hslots hpauses hinfras
    dsimp only at hattempt hslots hpauses hinfras
    constructor
    · rw [hattempt]; split <;> omega
    · rw [hslots]; split <;> omega
    · rw [hpauses]; split <;> omega
    · rw [hinfras]; split <;> omega
    · cases huncounted : uncountedReason row.recordJson errorType with
      | none => left; rw [hattempt, huncounted]; exact lt_succ_self _
      | some reason =>
        rw [huncounted] at hslots hpauses hreason
        cases reason with
        | slotWait => right; left; rw [hslots]; exact lt_succ_self _
        | pauseWait => right; right; left; rw [hpauses]; exact lt_succ_self _
        | rateLimit => right; right; left; rw [hpauses]; exact lt_succ_self _
        | infraRetry =>
          right; right; right
          rw [hinfras, hreason.1, decide_eq_true hreason.2]
          exact lt_succ_self _
  · rw [planFor]
    dsimp only
    split
    · next huncounted =>
      have hmore : max 1 row.recordJson.retryAttempt < policy.maxAttempts := by
        by_contra hle
        exact hleft ⟨huncounted, by omega⟩
      omega
    · omega
  · rw [planFor]
    dsimp only
    split
    · next huncounted =>
      rw [huncounted] at hreason
      have hlt : row.recordJson.retry.slotWaitRequeues < retryPolicyMaxSlotWaits := hreason
      omega
    · omega
  · rw [planFor]
    dsimp only
    split
    · next huncounted =>
      have hlt : row.recordJson.retry.pauseWaitRequeues < retryPolicyMaxPauseWaits := by
        cases huncounted with
        | inl huncounted => rw [huncounted] at hreason; exact hreason
        | inr huncounted => rw [huncounted] at hreason; exact hreason
      omega
    · omega
  · rw [planFor]
    dsimp only
    split
    · next hinfra =>
      rw [Bool.and_eq_true, decide_eq_true_iff] at hinfra
      omega
    · omega

/-! ### The stored request -/

/-- A stored request is read back as it was, or not at all. -/
def AuthenticRequests (host : RetryHost) : Prop :=
  ∀ request jobId stored,
    host.decryptQueueRequest (host.encryptQueueRequest request jobId) jobId = some stored →
      stored = request

variable {request : QueueRequest}

theorem jobRetryPolicy_maxAttempts {policy : RetryPolicy}
    (h : jobRetryPolicy host request = .ok (some policy)) :
    policy.maxAttempts = (request.maxAttempts.map Int.toNat).getD retryPolicyDefaultAttempts ∧
      policy.maxAttempts ≤ retryPolicyMaxAttempts := by
  unfold jobRetryPolicy at h
  split at h
  next => cases h
  next =>
    split at h
    next => cases h
    next =>
      split at h
      next => cases h
      next hrange =>
        split at h
        next => cases h
        next =>
          cases h
          refine ⟨rfl, ?_⟩
          cases hmax : request.maxAttempts with
          | none =>
            show retryPolicyDefaultAttempts ≤ retryPolicyMaxAttempts
            decide
          | some maxAttempts =>
            rw [hmax] at hrange
            simp only [Option.any_some, decide_eq_true_eq, not_or] at hrange
            show maxAttempts.toNat ≤ retryPolicyMaxAttempts
            omega

variable {spec : String}

theorem requeueRequest_maxAttempts {row : QueueRow} {job : QueueRequest}
    (h : requeueRequest host row spec = .ok job) :
    ∃ stored, host.decryptQueueRequest row.requestEncrypted row.jobId = some stored ∧
      job.maxAttempts = stored.maxAttempts := by
  unfold requeueRequest at h
  extract_lets summary at h
  iterate 7 replace h := ok_of_check h
  split at h
  next => cases h
  next stored hstored =>
    refine ⟨stored, hstored, ?_⟩
    iterate 3 replace h := ok_of_check h
    split at h
    next =>
      cases h
      rfl
    next =>
      split at h
      next =>
        cases h
        rfl
      next => cases h

theorem applyRetryPolicyToJob_maxAttempts {job : QueueRequest} {policy : Option RetryPolicy}
    (h : applyRetryPolicyToJob host request = .ok (policy, job)) :
    job.maxAttempts = request.maxAttempts := by
  unfold applyRetryPolicyToJob at h
  split at h
  next => cases h
  next =>
    cases h
    rfl
  next =>
    iterate 2
      split at h
      next => cases h
    split at h
    next =>
      cases h
      rfl
    next =>
      split at h
      next =>
        cases h
        rfl
      next => cases h
    next =>
      cases h
      rfl

theorem checkedJob_maxAttempts {job : QueueRequest} {policy : Option RetryPolicy}
    (h : checkedJob host request = .ok (policy, job)) : job.maxAttempts = request.maxAttempts := by
  unfold checkedJob at h
  split at h
  next => cases h
  next applied policy happlied =>
    extract_lets normalized at h
    split at h
    next => cases h
    next =>
      have hjob : normalized = job := congrArg Prod.snd (Except.ok.inj h)
      rw [← hjob, ← applyRetryPolicyToJob_maxAttempts happlied]
      show (normalizeJobCwd host _).maxAttempts = _
      unfold normalizeJobCwd
      split <;> rfl

theorem successorJob_maxAttempts {row : QueueRow} {job : QueueRequest}
    (h : successorJob host row spec = some job) :
    ∃ stored, host.decryptQueueRequest row.requestEncrypted row.jobId = some stored ∧
      job.maxAttempts = stored.maxAttempts := by
  obtain ⟨request, policy, hrequest, hjob⟩ := checked_of_successorJob h
  obtain ⟨stored, hstored, hmax⟩ := requeueRequest_maxAttempts hrequest
  exact ⟨stored, hstored, (checkedJob_maxAttempts hjob).trans hmax⟩

/-- The policy in the stored request allows the attempts that the record says. -/
def StoredPolicy (host : RetryHost) (row : QueueRow) : Prop :=
  row.requestEncrypted ≠ "" → ∀ request policy,
    host.decryptQueueRequest row.requestEncrypted row.jobId = some request →
      jobRetryPolicy host request = .ok (some policy) →
        policy.maxAttempts = row.recordJson.maxAttempts

theorem Planned.maxAttempts {row : QueueRow} {plan : RetryPlan} (h : Planned host row plan)
    (stored : StoredPolicy host row) : plan.policy.maxAttempts = row.recordJson.maxAttempts := by
  obtain ⟨request, hrequest, hpolicy⟩ := h.policy
  exact stored h.request request plan.policy hrequest hpolicy

/-! ### Rows of a chain -/

/-- The history names the jobs of the chain before the row, and the row's own once it was given
up. -/
def HistoryNames (lineage : List String) (row : QueueRow) : Prop :=
  List.Forall₂ Names lineage row.recordJson.retry.attemptHistory ∨
    row.recordJson.completionOutcome = "gave_up" ∧
      List.Forall₂ Names (lineage ++ [row.jobId]) row.recordJson.retry.attemptHistory

structure RowOk (host : RetryHost) (lineage : List String) (row : QueueRow) : Prop where
  counted : lineage.length ≤ spent row.recordJson
  budget : WithinBudget row.recordJson
  small : row.recordJson.maxAttempts ≤ retryPolicyMaxAttempts
  stored : StoredPolicy host row
  history : HistoryNames lineage row

structure Follows (row next : QueueRow) : Prop where
  counts : CountsOn row.recordJson next.recordJson
  maxAttempts : next.recordJson.maxAttempts = row.recordJson.maxAttempts

/-- What a transaction leaves of a row, as far as chains are concerned. -/
structure Carried (row row' : QueueRow) : Prop where
  jobId : row'.jobId = row.jobId
  request : row'.requestEncrypted = row.requestEncrypted ∨ row'.requestEncrypted = ""
  attempt : row'.recordJson.retryAttempt = row.recordJson.retryAttempt
  maxAttempts : row'.recordJson.maxAttempts = row.recordJson.maxAttempts
  slotWaits : row'.recordJson.retry.slotWaitRequeues = row.recordJson.retry.slotWaitRequeues
  pauseWaits : row'.recordJson.retry.pauseWaitRequeues = row.recordJson.retry.pauseWaitRequeues
  infraRetries :
    row'.recordJson.retry.infraRetryRequeues = row.recordJson.retry.infraRetryRequeues
  history :
    row'.recordJson.retry.attemptHistory = row.recordJson.retry.attemptHistory ∧
        (row.recordJson.completionOutcome = "gave_up" →
          row'.recordJson.completionOutcome = "gave_up") ∨
      row.recordJson.completionOutcome ≠ "gave_up" ∧
        row'.recordJson.completionOutcome = "gave_up" ∧
        ∃ entry, Names row.jobId entry ∧ row'.recordJson.retry.attemptHistory =
          lastHistory (row.recordJson.retry.attemptHistory ++ [entry])

theorem Carried.refl (row : QueueRow) : Carried row row :=
  ⟨rfl, .inl rfl, rfl, rfl, rfl, rfl, rfl, .inl ⟨rfl, id⟩⟩

variable {lineage : List String} {row row' next next' : QueueRow}

theorem lastHistory_append {entry : String} (h : history.length < retryPolicyHistoryMax) :
    lastHistory (history ++ [entry]) = history ++ [entry] := by
  rw [lastHistory, length_append, length_singleton,
    Nat.sub_eq_zero_of_le (Nat.succ_le_of_lt h), drop_zero]

/-- A chain is shorter than the history, so nothing is dropped. -/
theorem RowOk.lineage_lt (h : RowOk host lineage row) : lineage.length < retryPolicyHistoryMax := by
  have hcounted := h.counted
  have hspent := h.budget.spent_le
  have hsmall := h.small
  rw [retryBudget] at hspent
  rw [retryPolicyHistoryMax]
  have hpositive : 0 < retryPolicyMaxAttempts := by decide
  omega

theorem RowOk.append_history (h : RowOk host lineage row)
    (undecided : row.recordJson.completionOutcome ≠ "gave_up") {entry : String}
    (hentry : Names row.jobId entry) :
    List.Forall₂ Names (lineage ++ [row.jobId])
      (lastHistory (row.recordJson.retry.attemptHistory ++ [entry])) := by
  cases h.history with
  | inl hhistory =>
    have hlength : row.recordJson.retry.attemptHistory.length < retryPolicyHistoryMax := by
      rw [← hhistory.length_eq]
      exact h.lineage_lt
    rw [lastHistory_append hlength]
    exact rel_append hhistory (.cons hentry .nil)
  | inr hgaveUp => exact absurd hgaveUp.1 undecided

theorem spent_congr {summary summary' : QueueRecord}
    (attempt : summary'.retryAttempt = summary.retryAttempt)
    (slotWaits : summary'.retry.slotWaitRequeues = summary.retry.slotWaitRequeues)
    (pauseWaits : summary'.retry.pauseWaitRequeues = summary.retry.pauseWaitRequeues)
    (infraRetries : summary'.retry.infraRetryRequeues = summary.retry.infraRetryRequeues) :
    spent summary' = spent summary := by
  rw [spent, spent, attempt, slotWaits, pauseWaits, infraRetries]

theorem RowOk.carried (h : RowOk host lineage row) (carried : Carried row row') :
    RowOk host lineage row' where
  counted := by
    rw [spent_congr carried.attempt carried.slotWaits carried.pauseWaits carried.infraRetries]
    exact h.counted
  budget := by
    obtain ⟨hattempt, hslot, hpause, hinfra⟩ := h.budget
    rw [← carried.attempt, ← carried.maxAttempts] at hattempt
    rw [← carried.slotWaits] at hslot
    rw [← carried.pauseWaits] at hpause
    rw [← carried.infraRetries] at hinfra
    exact ⟨hattempt, hslot, hpause, hinfra⟩
  small := by rw [carried.maxAttempts]; exact h.small
  stored hsealed request policy hrequest hpolicy := by
    cases carried.request with
    | inl hsame =>
      rw [hsame, carried.jobId] at hrequest
      rw [hsame] at hsealed
      rw [carried.maxAttempts]
      exact h.stored hsealed request policy hrequest hpolicy
    | inr hdropped => exact absurd hdropped hsealed
  history := by
    rw [HistoryNames, carried.jobId]
    obtain ⟨hsame, hstays⟩ | ⟨hopen, hgaveUp, entry, hentry, hhistory⟩ := carried.history
    · rw [hsame]
      exact h.history.imp id fun hgone => ⟨hstays hgone.1, hgone.2⟩
    · rw [hhistory]
      exact .inr ⟨hgaveUp, h.append_history hopen hentry⟩

theorem CountsOn.carried {failed failed' next next' : QueueRow}
    (h : CountsOn failed.recordJson next.recordJson) (first : Carried failed failed')
    (second : Carried next next') : CountsOn failed'.recordJson next'.recordJson := by
  obtain ⟨hattempt, hslot, hpause, hinfra, hstrict⟩ := h
  constructor <;>
    simp only [first.attempt, first.slotWaits, first.pauseWaits, first.infraRetries,
      second.attempt, second.slotWaits, second.pauseWaits, second.infraRetries] <;> assumption

theorem Follows.carried (h : Follows row next) (first : Carried row row')
    (second : Carried next next') : Follows row' next' :=
  ⟨h.counts.carried first second, by rw [second.maxAttempts, h.maxAttempts, first.maxAttempts]⟩

/-! ### The successor -/

section

variable {plan : RetryPlan} {choice : RetryChoice} {job : QueueRequest} {world : RetryWorld}

theorem successorRow_summary :
    (successorRow host row plan choice job world).recordJson =
      queueRecordDurableSummary host.runtime (successorRecord host row plan choice job world) := by
  rw [successorRow, preparedRecord_of_pending _ rfl]
  rfl

theorem Planned.counts_successor (h : Planned host row plan) :
    CountsOn row.recordJson (successorRow host row plan choice job world).recordJson := by
  exact h.counts _ rfl rfl rfl rfl

theorem Planned.follows (h : Planned host row plan) (stored : StoredPolicy host row) :
    Follows row (successorRow host row plan choice job world) :=
  ⟨h.counts_successor, by rw [successorRow_summary]; exact h.maxAttempts stored⟩

theorem RowOk.successor (h : RowOk host lineage row) (authentic : AuthenticRequests host)
    (planned : Planned host row plan) (hjob : successorJob host row spec = some job) :
    RowOk host (lineage ++ [row.jobId]) (successorRow host row plan choice job world) := by
  have hmax := planned.maxAttempts h.stored
  have hopen : row.recordJson.completionOutcome ≠ "gave_up" :=
    (retryUndecided_spec planned.undecided).2.1
  constructor
  · have hlt : spent row.recordJson <
        spent (successorRow host row plan choice job world).recordJson :=
      planned.counts_successor.spent_lt
    have hcounted := h.counted
    rw [length_append, length_singleton]
    omega
  · obtain ⟨hattempt, hslot, hpause, hinfra⟩ := h.budget
    constructor
    · show plan.nextAttempt ≤ max 1 plan.policy.maxAttempts
      have := planned.attempt
      omega
    · show plan.slotWaitRequeues ≤ retryPolicyMaxSlotWaits
      have := planned.slotWaits
      omega
    · show plan.pauseWaitRequeues ≤ retryPolicyMaxPauseWaits
      have := planned.pauseWaits
      omega
    · show plan.infraRetryRequeues ≤ retryPolicyMaxInfraRetries
      have := planned.infraRetries
      omega
  · rw [successorRow_summary]
    show plan.policy.maxAttempts ≤ _
    rw [hmax]
    exact h.small
  · intro _ request policy hrequest hpolicy
    obtain rfl := authentic _ _ _ hrequest
    obtain ⟨stored, hstored, hsame⟩ := successorJob_maxAttempts hjob
    obtain ⟨original, horiginal, hplanned⟩ := planned.policy
    obtain rfl := Option.some.inj (hstored.symm.trans horiginal)
    show policy.maxAttempts = plan.policy.maxAttempts
    rw [(jobRetryPolicy_maxAttempts hpolicy).1, (jobRetryPolicy_maxAttempts hplanned).1, hsame]
  · obtain ⟨entry, hentry, hhistory⟩ := planned.history
    have hnames := h.append_history hopen hentry
    rw [← hhistory] at hnames
    refine .inl ?_
    exact hnames

end

/-! ### What the policy writes -/

section

variable {db : QueueDb} {jobId : String}

/-- The jobs of the second table are those of the first, carried along. -/
abbrev CarriedJobs (jobs jobs' : List QueueRow) : Prop :=
  Evolves QueueRow.jobId Carried (fun _ => False) jobs jobs'

theorem patch_carried (unique : UniqueJobs db) {fields : QueueRecord → Option QueueRecord}
    (h : ∀ row summary, db.job jobId = some row → fields row.recordJson = some summary →
      Carried row { row with
        recordJson := { summary with revision := row.revision + 1 }
        revision := row.revision + 1 }) :
    CarriedJobs db.jobs (patchTerminalQueueSummary db jobId fields).2.jobs := by
  unfold patchTerminalQueueSummary
  split
  · exact .refl Carried.refl
  · next row hrow =>
    split
    · split
      · exact .refl Carried.refl
      · next summary hsummary =>
        refine .exec Carried.refl (fun _ => rfl) ?_
        intro other hother hguard
        rw [rewriteSummary, Bool.and_eq_true, Bool.and_eq_true, decide_eq_true_iff] at hguard
        have hid : row.jobId = jobId := (lookup_some hrow).2
        obtain rfl : other = row := unique.eq_of_job hrow hother (hguard.1.1.trans hid)
        exact h other summary hrow hsummary
    · exact .refl Carried.refl

/-- The patch of a summary that leaves the counters, the history and the outcome alone. -/
theorem patch_carried_of_kept (unique : UniqueJobs db)
    {fields : QueueRecord → Option QueueRecord}
    (h : ∀ summary next, fields summary = some next →
      next.retryAttempt = summary.retryAttempt ∧ next.maxAttempts = summary.maxAttempts ∧
        next.completionOutcome = summary.completionOutcome ∧
        next.retry.slotWaitRequeues = summary.retry.slotWaitRequeues ∧
        next.retry.pauseWaitRequeues = summary.retry.pauseWaitRequeues ∧
        next.retry.infraRetryRequeues = summary.retry.infraRetryRequeues ∧
        next.retry.attemptHistory = summary.retry.attemptHistory) :
    CarriedJobs db.jobs (patchTerminalQueueSummary db jobId fields).2.jobs := by
  refine patch_carried unique fun row summary _ hsummary => ?_
  obtain ⟨hattempt, hmax, houtcome, hslot, hpause, hinfra, hhistory⟩ := h _ _ hsummary
  exact ⟨rfl, .inl rfl, hattempt, hmax, hslot, hpause, hinfra,
    .inl ⟨hhistory, fun hgaveUp => houtcome.trans hgaveUp⟩⟩

theorem mark_carried (unique : UniqueJobs db) (newJobId : String) (now : Nat) :
    CarriedJobs db.jobs (markQueueJobRequeued db jobId newJobId now).2.jobs := by
  unfold markQueueJobRequeued
  split
  · exact .refl Carried.refl
  · dsimp only
    split
    · exact .refl Carried.refl
    · split
      · exact .refl Carried.refl
      · split
        · exact .refl Carried.refl
        · refine patch_carried_of_kept unique ?_
          intro summary next hnext
          obtain rfl := Option.some.inj hnext
          exact ⟨rfl, rfl, rfl, rfl, rfl, rfl, rfl⟩

theorem settle_db (action : String) (now : Nat) (fields : QueueRecord → QueueRecord)
    {row : QueueRow} (original : db.job jobId = some row) :
    (settleRetry db jobId action now fields).2 =
      (patchTerminalQueueSummary db jobId fun summary =>
        if retryableStatus row.status && retryUndecided summary then
          some { fields summary with
            retryDecisionPendingAt := Option.none
            retryDeferredAt := Option.none
            retryDecisionOutcome := action
            retry := { (fields summary).retry with retryDecisionAt := some now } }
        else Option.none).2 := by
  unfold settleRetry
  rw [original]
  dsimp only
  split
  · rfl
  · split
    · rfl
    · split <;> rfl

theorem settle_carried (unique : UniqueJobs db) (action : String) (now : Nat) :
    CarriedJobs db.jobs (settleRetry db jobId action now id).2.jobs := by
  cases horiginal : db.job jobId with
  | none =>
    unfold settleRetry
    rw [horiginal]
    exact .refl Carried.refl
  | some row =>
    rw [settle_db action now id horiginal]
    refine patch_carried_of_kept unique ?_
    intro summary next hnext
    split at hnext
    · obtain rfl := Option.some.inj hnext
      exact ⟨rfl, rfl, rfl, rfl, rfl, rfl, rfl⟩
    · cases hnext

/-- Giving up writes the history with the entry of the job itself. -/
theorem giveUp_carried (unique : UniqueJobs db) {row : QueueRow} (now : Nat)
    (original : db.job jobId = some row) (hhistory : ∃ entry, Names row.jobId entry ∧
      history = lastHistory (row.recordJson.retry.attemptHistory ++ [entry])) :
    CarriedJobs db.jobs (giveUp db jobId history now).2.jobs := by
  unfold giveUp
  rw [settle_db "gave_up" now _ original]
  refine patch_carried unique ?_
  intro other summary hother hsummary
  obtain rfl : row = other := Option.some.inj (original.symm.trans hother)
  split at hsummary
  · next hopen =>
    obtain rfl := Option.some.inj hsummary
    rw [Bool.and_eq_true] at hopen
    exact ⟨rfl, .inl rfl, rfl, rfl, rfl, rfl, rfl,
      .inr ⟨(retryUndecided_spec hopen.2).2.1, rfl, hhistory⟩⟩
  · cases hsummary

theorem requeueRefused_carried (unique : UniqueJobs db) {row : QueueRow} {plan : RetryPlan}
    (refusal : Refusal) (now : Nat) (original : db.job row.jobId = some row)
    (planned : Planned host row plan) :
    CarriedJobs db.jobs (requeueRefused db row plan refusal now).2.jobs := by
  unfold requeueRefused
  split
  · refine patch_carried_of_kept unique ?_
    intro summary next hnext
    split at hnext
    · obtain rfl := Option.some.inj hnext
      exact ⟨rfl, rfl, rfl, rfl, rfl, rfl, rfl⟩
    · cases hnext
  · split
    · split
      · split
        · exact .refl Carried.refl
        · exact .refl Carried.refl
      · exact .refl Carried.refl
    · split
      · exact .refl Carried.refl
      · exact giveUp_carried unique now original planned.history

end

/-- The requeue in a run of the policy: the successor's id, and the database before the mark. -/
def requeueOf (host : RetryHost) (db : QueueDb) (jobId : String) (world : RetryWorld) :
    Option (Admission × QueueDb) :=
  match db.job jobId with
  | none => none
  | some row =>
    match retryVerdict host row with
    | .retry plan =>
      match admitRequeue host db row plan (retryChoice host plan row.recordJson.retry world)
          world with
      | (.ok admission, db') => some (admission, db')
      | (.error _, _) => none
    | _ => none

/-- A requeue inserts the successor, or finds a job under its key. -/
inductive Requeued (host : RetryHost) (db : QueueDb) (jobId : String) (world : RetryWorld) :
    Admission → QueueDb → Prop where
  | inserted {row plan spec choice job} (original : db.job jobId = some row)
      (planned : Planned host row plan) (checked : successorJob host row spec = some job) :
      Requeued host db jobId world ⟨world.freshJobId, false⟩
        { db with jobs := db.jobs ++ [successorRow host row plan choice job world] }
  | deduplicated {row existing} (original : db.job jobId = some row)
      (found : existing ∈ successors host row db) :
      Requeued host db jobId world ⟨existing.jobId, true⟩ db

variable {admission : Admission} {db' : QueueDb}

theorem requeued_of_requeueOf {db : QueueDb} {jobId : String} {world : RetryWorld}
    (fresh : db.job world.freshJobId = none)
    (h : requeueOf host db jobId world = some (admission, db')) :
    Requeued host db jobId world admission db' := by
  unfold requeueOf at h
  split at h
  · cases h
  · next row hrow =>
    split at h
    · next plan hverdict =>
      have hplanned := planned_of_verdict hverdict
      split at h
      · next admitted mid hadmission =>
        obtain ⟨rfl, rfl⟩ := Prod.mk.inj (Option.some.inj h)
        cases admitted_of_admitRequeue db plan fresh hadmission with
        | found hhead => exact .deduplicated hrow (mem_of_head? hhead)
        | inserted hjob hhead => exact .inserted hrow hplanned hjob
      · cases h
    · cases h

theorem admitRequeue_error {db : QueueDb} {row : QueueRow} {plan : RetryPlan} {choice : RetryChoice}
    {world : RetryWorld} {refusal : Refusal} (fresh : db.job world.freshJobId = none)
    (h : admitRequeue host db row plan choice world = (.error refusal, db')) : db' = db := by
  cases admitted_of_admitRequeue db plan fresh h with
  | refused => rfl

theorem applyQueueRetryPolicy_carried (host : RetryHost) {db : QueueDb} (unique : UniqueJobs db)
    (jobId : String) {world : RetryWorld} (fresh : db.job world.freshJobId = none) :
    match requeueOf host db jobId world with
    | some (admission, db') => (applyQueueRetryPolicy host db jobId world).2 =
        (markQueueJobRequeued db' jobId admission.jobId world.now).2
    | none => CarriedJobs db.jobs (applyQueueRetryPolicy host db jobId world).2.jobs := by
  unfold requeueOf applyQueueRetryPolicy
  cases hrow : db.job jobId with
  | none => exact .refl Carried.refl
  | some row =>
    have hid : row.jobId = jobId := (lookup_some hrow).2
    dsimp only
    cases hverdict : retryVerdict host row with
    | none => exact .refl Carried.refl
    | settle action => exact settle_carried unique action world.now
    | unreadable => exact .refl Carried.refl
    | giveUp history => exact giveUp_carried unique world.now hrow (giveUp_history hverdict)
    | retry plan =>
      dsimp only
      cases hadmission : admitRequeue host db row plan
          (retryChoice host plan row.recordJson.retry world) world with
      | mk result db' =>
        cases result with
        | ok admission => rfl
        | error refusal =>
          obtain rfl := admitRequeue_error fresh hadmission
          rw [← hid] at hrow
          exact requeueRefused_carried unique refusal world.now hrow
            (planned_of_verdict hverdict)

/-! ### Runs -/

/-- The queue with the chains that the policy has made: for a job that a retry inserted, the
jobs before it, the first one of the chain first. -/
structure RetryState where
  db : QueueDb
  lineage : String → List String
  /-- Every job id that was ever used. -/
  ids : List String

inductive RetryEvent where
  | enqueue (row : QueueRow)
  /-- Whatever other transactions do to the rows. -/
  | work (update : QueueRow → QueueRow)
  | remove (jobId : String)
  | policy (jobId : String) (world : RetryWorld)
  /-- The process dies between the insert of the successor and the mark. -/
  | crash (jobId : String) (world : RetryWorld)

/-- No transaction but those of the policy writes the counters, the history or the outcome
`gave_up`; the stored request is kept or dropped. -/
def carry (row next : QueueRow) : QueueRow :=
  { next with
    jobId := row.jobId
    requestEncrypted := if next.requestEncrypted = "" then "" else row.requestEncrypted
    recordJson :=
      { next.recordJson with
        retryAttempt := row.recordJson.retryAttempt
        maxAttempts := row.recordJson.maxAttempts
        completionOutcome :=
          if row.recordJson.completionOutcome = "gave_up" then "gave_up"
          else next.recordJson.completionOutcome
        retry :=
          { next.recordJson.retry with
            attemptHistory := row.recordJson.retry.attemptHistory
            slotWaitRequeues := row.recordJson.retry.slotWaitRequeues
            pauseWaitRequeues := row.recordJson.retry.pauseWaitRequeues
            infraRetryRequeues := row.recordJson.retry.infraRetryRequeues } } }

/-- The attempts that the policy in the stored request allows. -/
def storedMaxAttempts (host : RetryHost) (row : QueueRow) : Nat :=
  match host.decryptQueueRequest row.requestEncrypted row.jobId with
  | none => 0
  | some request =>
    match jobRetryPolicy host request with
    | .ok (some policy) => policy.maxAttempts
    | _ => 0

/-- An enqueue, or a requeue by hand: `retryAttempt: 1` and `maxAttempts` with a policy, and
nothing used up. -/
def newJob (host : RetryHost) (row : QueueRow) : QueueRow :=
  { row with
    recordJson :=
      { row.recordJson with
        retryAttempt := if storedMaxAttempts host row = 0 then 0 else 1
        maxAttempts := storedMaxAttempts host row
        retry :=
          { row.recordJson.retry with
            attemptHistory := []
            slotWaitRequeues := 0
            pauseWaitRequeues := 0
            infraRetryRequeues := 0 } } }

namespace RetryState

def initial : RetryState := ⟨.empty, fun _ => [], []⟩

def withJobs (s : RetryState) (jobs : List QueueRow) : RetryState :=
  { s with db := { s.db with jobs := jobs } }

/-- A new row, below the jobs of its chain. -/
def born (s : RetryState) (db : QueueDb) (jobId : String) (lineage : List String) :
    RetryState where
  db := db
  lineage := Function.update s.lineage jobId lineage
  ids := jobId :: s.ids

/-- The chains after a requeue of the job. -/
def requeue (s : RetryState) (jobId : String) (world : RetryWorld) (admission : Admission)
    (db : QueueDb) : RetryState :=
  if admission.deduplicated then { s with db := db }
  else s.born db world.freshJobId (s.lineage jobId ++ [jobId])

end RetryState

def retryStep (host : RetryHost) (s : RetryState) : RetryEvent → RetryState
  | .enqueue row =>
    if row.jobId ∈ s.ids then s
    else s.born { s.db with jobs := s.db.jobs ++ [newJob host row] } row.jobId []
  | .work update => s.withJobs (s.db.jobs.map fun row => carry row (update row))
  | .remove jobId => s.withJobs (s.db.jobs.filter fun row => row.jobId ≠ jobId)
  | .policy jobId world =>
    if world.freshJobId ∈ s.ids then s
    else
      match requeueOf host s.db jobId world with
      | some (admission, _) =>
        s.requeue jobId world admission (applyQueueRetryPolicy host s.db jobId world).2
      | none => { s with db := (applyQueueRetryPolicy host s.db jobId world).2 }
  | .crash jobId world =>
    if world.freshJobId ∈ s.ids then s
    else
      match requeueOf host s.db jobId world with
      | some (admission, db') => s.requeue jobId world admission db'
      | none => s

def RetryEvent.requeues (host : RetryHost) (s : RetryState) :
    RetryEvent → Option (String × Admission)
  | .policy jobId world | .crash jobId world =>
    if world.freshJobId ∈ s.ids then none
    else (requeueOf host s.db jobId world).map fun (admission, _) => (jobId, admission)
  | _ => none

/-- A requeue that finds a job under its key finds one that a requeue of the same job made. -/
def OwnSuccessor (host : RetryHost) (s : RetryState) (event : RetryEvent) : Prop :=
  ∀ jobId existing, event.requeues host s = some (jobId, ⟨existing, true⟩) →
    s.lineage existing = s.lineage jobId ++ [jobId]

/-- A requeue raises a counter and keeps the number of attempts that are allowed. -/
def RaisesCounter (host : RetryHost) (s : RetryState) (event : RetryEvent) : Prop :=
  ∀ jobId admission row next, event.requeues host s = some (jobId, admission) →
    row ∈ s.db.jobs → row.jobId = jobId → next ∈ (retryStep host s event).db.jobs →
      next.jobId = admission.jobId → Follows row next

/-- The chain before the job is within the budget of its policy, and its history names it all. -/
structure ChainBounded (lineage : List String) (row : QueueRow) : Prop where
  length : lineage.length ≤ retryBudget row.recordJson.maxAttempts
  history : HistoryNames lineage row

/-! ### The invariant -/

structure ChainsOk (host : RetryHost) (s : RetryState) : Prop where
  unique : UniqueJobs s.db
  known : ∀ row ∈ s.db.jobs, row.jobId ∈ s.ids ∧ ∀ id ∈ s.lineage row.jobId, id ∈ s.ids
  rows : ∀ row ∈ s.db.jobs, RowOk host (s.lineage row.jobId) row
  follows : ∀ row ∈ s.db.jobs, ∀ next ∈ s.db.jobs,
    s.lineage next.jobId = s.lineage row.jobId ++ [row.jobId] → Follows row next

variable {s : RetryState}

theorem carried_carry (row next : QueueRow) : Carried row (carry row next) where
  jobId := rfl
  request := by
    show (if next.requestEncrypted = "" then "" else row.requestEncrypted) = _ ∨
      (if next.requestEncrypted = "" then "" else row.requestEncrypted) = _
    split
    · exact .inr rfl
    · exact .inl rfl
  attempt := rfl
  maxAttempts := rfl
  slotWaits := rfl
  pauseWaits := rfl
  infraRetries := rfl
  history := .inl ⟨rfl, fun hgaveUp => if_pos hgaveUp⟩

theorem ChainsOk.carried (h : ChainsOk host s) {db : QueueDb}
    (carried : CarriedJobs s.db.jobs db.jobs) : ChainsOk host { s with db := db } := by
  have horigin : ∀ row' ∈ db.jobs, ∃ row ∈ s.db.jobs, Carried row row' := by
    intro row' hrow'
    cases carried.origin hrow' with
    | inl hold => exact hold
    | inr hnew => exact hnew.elim fun _ hfalse => hfalse.1.elim
  refine ⟨carried.2 h.unique, ?_, ?_, ?_⟩
  · intro row' hrow'
    obtain ⟨row, hrow, hcarried⟩ := horigin row' hrow'
    rw [hcarried.jobId]
    exact h.known row hrow
  · intro row' hrow'
    obtain ⟨row, hrow, hcarried⟩ := horigin row' hrow'
    rw [hcarried.jobId]
    exact (h.rows row hrow).carried hcarried
  · intro row' hrow' next' hnext' hlineage
    obtain ⟨row, hrow, hcarried⟩ := horigin row' hrow'
    obtain ⟨next, hnext, hcarriedNext⟩ := horigin next' hnext'
    rw [hcarried.jobId, hcarriedNext.jobId] at hlineage
    exact (h.follows row hrow next hnext hlineage).carried hcarried hcarriedNext

/-- A new row with an unused id, first of its chain or after a job that it follows. -/
theorem ChainsOk.born (h : ChainsOk host s) (new : QueueRow) {lineage : List String}
    (unused : new.jobId ∉ s.ids) (ok : RowOk host lineage new)
    (before : lineage = [] ∨ ∃ row ∈ s.db.jobs,
      lineage = s.lineage row.jobId ++ [row.jobId] ∧ Follows row new) :
    ChainsOk host
      (s.born { s.db with jobs := s.db.jobs ++ [new] } new.jobId lineage) := by
  have hother : ∀ row ∈ s.db.jobs, row.jobId ≠ new.jobId := by
    intro row hrow heq
    exact unused (heq ▸ (h.known row hrow).1)
  have hkept : ∀ row ∈ s.db.jobs,
      Function.update s.lineage new.jobId lineage row.jobId = s.lineage row.jobId :=
    fun row hrow => update_of_ne (hother row hrow) _ _
  have hknown : ∀ id ∈ lineage, id ∈ s.ids := by
    intro id hid
    cases before with
    | inl hnil => rw [hnil] at hid; cases hid
    | inr hbefore =>
      obtain ⟨row, hrow, rfl, -⟩ := hbefore
      cases mem_append.mp hid with
      | inl hold => exact (h.known row hrow).2 id hold
      | inr hlast => rw [mem_singleton.mp hlast]; exact (h.known row hrow).1
  constructor
  · show ((s.db.jobs ++ [new]).map QueueRow.jobId).Nodup
    rw [map_append, map_singleton, nodup_append]
    refine ⟨h.unique, nodup_singleton _, ?_⟩
    intro id hid id' hid' heq
    obtain ⟨row, hrow, rfl⟩ := mem_map.mp hid
    exact hother row hrow (heq.trans (mem_singleton.mp hid'))
  · intro row hrow
    show row.jobId ∈ new.jobId :: s.ids ∧
      ∀ id ∈ Function.update s.lineage new.jobId lineage row.jobId, id ∈ new.jobId :: s.ids
    cases mem_append.mp hrow with
    | inl hold =>
      rw [hkept row hold]
      exact ⟨mem_cons_of_mem _ (h.known row hold).1,
        fun id hid => mem_cons_of_mem _ ((h.known row hold).2 id hid)⟩
    | inr hnew =>
      rw [mem_singleton.mp hnew, update_self]
      exact ⟨mem_cons_self, fun id hid => mem_cons_of_mem _ (hknown id hid)⟩
  · intro row hrow
    show RowOk host (Function.update s.lineage new.jobId lineage row.jobId) row
    cases mem_append.mp hrow with
    | inl hold => rw [hkept row hold]; exact h.rows row hold
    | inr hnew => rw [mem_singleton.mp hnew, update_self]; exact ok
  · intro row hrow next hnext hlineage
    change Function.update s.lineage new.jobId lineage next.jobId =
      Function.update s.lineage new.jobId lineage row.jobId ++ [row.jobId] at hlineage
    cases mem_append.mp hrow with
    | inl hrowOld =>
      rw [hkept row hrowOld] at hlineage
      cases mem_append.mp hnext with
      | inl hnextOld =>
        rw [hkept next hnextOld] at hlineage
        exact h.follows row hrowOld next hnextOld hlineage
      | inr hnextNew =>
        rw [mem_singleton.mp hnextNew, update_self] at hlineage
        rw [mem_singleton.mp hnextNew]
        cases before with
        | inl hnil => rw [hnil] at hlineage; simp at hlineage
        | inr hbefore =>
          obtain ⟨other, hotherMem, hsplit, hfollows⟩ := hbefore
          rw [hsplit] at hlineage
          have hid := (append_inj' hlineage rfl).2
          obtain rfl : other = row :=
            h.unique.eq_of_job (h.unique.job_eq hrowOld) hotherMem (List.cons.inj hid).1
          exact hfollows
    | inr hrowNew =>
      rw [mem_singleton.mp hrowNew, update_self] at hlineage
      -- No lineage contains an id that was not used before.
      have hmem : new.jobId ∈ Function.update s.lineage new.jobId lineage next.jobId := by
        rw [hlineage]
        exact mem_append_right _ (mem_singleton_self _)
      cases mem_append.mp hnext with
      | inl hnextOld =>
        rw [hkept next hnextOld] at hmem
        exact absurd ((h.known next hnextOld).2 _ hmem) unused
      | inr hnextNew =>
        rw [mem_singleton.mp hnextNew, update_self] at hmem
        exact absurd (hknown _ hmem) unused

theorem job_none_of_unused (h : ChainsOk host s) {jobId : String} (unused : jobId ∉ s.ids) :
    s.db.job jobId = none := by
  cases hjob : s.db.job jobId with
  | none => rfl
  | some row =>
    have hrow := lookup_some hjob
    exact absurd (hrow.2 ▸ (h.known row hrow.1).1) unused

theorem rowOk_newJob (row : QueueRow) : RowOk host [] (newJob host row) where
  counted := zero_le _
  budget := by
    refine ⟨?_, zero_le _, zero_le _, zero_le _⟩
    show (if storedMaxAttempts host row = 0 then 0 else 1) ≤ max 1 (storedMaxAttempts host row)
    split <;> omega
  small := by
    show storedMaxAttempts host row ≤ _
    unfold storedMaxAttempts
    split
    · exact zero_le _
    · split
      · next hpolicy => exact (jobRetryPolicy_maxAttempts hpolicy).2
      · exact zero_le _
  stored _ request policy hrequest hpolicy := by
    have hrow : host.decryptQueueRequest row.requestEncrypted row.jobId = some request := hrequest
    show policy.maxAttempts = storedMaxAttempts host row
    rw [storedMaxAttempts, hrow]
    dsimp only
    rw [hpolicy]
  history := .inl .nil

/-- The state after the insert of a successor, or after a job was found under its key. -/
theorem ChainsOk.requeued (h : ChainsOk host s) (authentic : AuthenticRequests host)
    {jobId : String} {world : RetryWorld} (unused : world.freshJobId ∉ s.ids)
    (requeued : Requeued host s.db jobId world admission db') :
    ChainsOk host (s.requeue jobId world admission db') := by
  cases requeued with
  | deduplicated => exact h
  | @inserted row plan spec choice job original planned checked =>
    obtain ⟨hrow, hid⟩ := lookup_some original
    have hok : RowOk host (s.lineage jobId ++ [jobId])
        (successorRow host row plan choice job world) := by
      rw [← hid]
      exact (h.rows row hrow).successor authentic planned checked
    have hborn := h.born (successorRow host row plan choice job world)
      (by rw [successorRow_jobId]; exact unused) hok
      (.inr ⟨row, hrow, by rw [hid], planned.follows (h.rows row hrow).stored⟩)
    exact hborn

theorem requeue_db (s : RetryState) (jobId : String) (world : RetryWorld) (admission : Admission)
    (db db' : QueueDb) :
    s.requeue jobId world admission db' =
      { s.requeue jobId world admission db with db := db' } := by
  unfold RetryState.requeue
  split <;> rfl

theorem requeue_db_eq (s : RetryState) (jobId : String) (world : RetryWorld)
    (admission : Admission) (db : QueueDb) : (s.requeue jobId world admission db).db = db := by
  unfold RetryState.requeue
  split <;> rfl

theorem ChainsOk.marked (h : ChainsOk host s) (authentic : AuthenticRequests host) {jobId : String}
    {world : RetryWorld} (unused : world.freshJobId ∉ s.ids)
    (requeued : Requeued host s.db jobId world admission db') (newJobId : String) (now : Nat) :
    ChainsOk host
      (s.requeue jobId world admission (markQueueJobRequeued db' jobId newJobId now).2) := by
  have hok := h.requeued authentic unused requeued
  rw [requeue_db s jobId world admission db']
  refine hok.carried ?_
  rw [requeue_db_eq]
  have hunique := hok.unique
  rw [requeue_db_eq] at hunique
  exact mark_carried hunique newJobId now

theorem chainsOk_step (authentic : AuthenticRequests host) (s : RetryState) (event : RetryEvent)
    (h : ChainsOk host s) : ChainsOk host (retryStep host s event) := by
  cases event with
  | enqueue row =>
    rw [retryStep]
    split
    · exact h
    · next unused =>
      exact h.born (newJob host row) unused (rowOk_newJob row) (.inl rfl)
  | work update =>
    refine h.carried ?_
    refine ⟨⟨fun row => carry row (update row), [], by simp, ?_, ?_⟩, ?_⟩
    · exact fun row _ => ⟨rfl, carried_carry row (update row)⟩
    · exact fun _ hnone => by cases hnone
    · intro hnodup
      rw [map_map]
      exact hnodup
  | remove jobId =>
    have hsub : ∀ row ∈ s.db.jobs.filter (fun row => row.jobId ≠ jobId), row ∈ s.db.jobs :=
      fun row hrow => (mem_filter.mp hrow).1
    refine ⟨?_, fun row hrow => h.known row (hsub row hrow),
      fun row hrow => h.rows row (hsub row hrow),
      fun row hrow next hnext => h.follows row (hsub row hrow) next (hsub next hnext)⟩
    exact h.unique.sublist (filter_sublist.map _)
  | policy jobId world =>
    rw [retryStep]
    split
    · exact h
    · next unused =>
      have hfresh := job_none_of_unused h unused
      have hcarried := applyQueueRetryPolicy_carried host h.unique jobId hfresh
      cases hrequeue : requeueOf host s.db jobId world with
      | none =>
        rw [hrequeue] at hcarried
        exact h.carried hcarried
      | some result =>
        rw [hrequeue] at hcarried
        rw [hcarried]
        exact h.marked authentic unused (requeued_of_requeueOf hfresh hrequeue) _ _
  | crash jobId world =>
    rw [retryStep]
    split
    · exact h
    · next unused =>
      cases hrequeue : requeueOf host s.db jobId world with
      | none => exact h
      | some result =>
        exact h.requeued authentic unused
          (requeued_of_requeueOf (job_none_of_unused h unused) hrequeue)

theorem ChainsOk.bounded (h : ChainsOk host s) {row : QueueRow} (hrow : row ∈ s.db.jobs) :
    ChainBounded (s.lineage row.jobId) row := by
  have hok := h.rows row hrow
  exact ⟨hok.counted.trans hok.budget.spent_le, hok.history⟩

/-! ### Every requeue raises a counter -/

theorem ChainsOk.follows_requeue (h : ChainsOk host s) (authentic : AuthenticRequests host)
    {jobId : String} {world : RetryWorld} (unused : world.freshJobId ∉ s.ids)
    (requeued : Requeued host s.db jobId world admission db')
    (own : admission.deduplicated = true → s.lineage admission.jobId = s.lineage jobId ++ [jobId])
    {row next : QueueRow} (hrow : row ∈ s.db.jobs) (hid : row.jobId = jobId)
    (hnext : next ∈ db'.jobs) (hnextId : next.jobId = admission.jobId) : Follows row next := by
  have hok := h.requeued authentic unused requeued
  cases requeued with
  | deduplicated => exact h.follows row hrow next hnext (by rw [hnextId, own rfl, hid])
  | @inserted original plan spec choice job found planned checked =>
    have hne : row.jobId ≠ world.freshJobId := by
      intro heq
      exact unused (heq ▸ (h.known row hrow).1)
    refine hok.follows row (mem_append_left _ hrow) next hnext ?_
    show Function.update s.lineage world.freshJobId _ next.jobId =
      Function.update s.lineage world.freshJobId _ row.jobId ++ [row.jobId]
    rw [hnextId, update_self, update_of_ne hne, hid]

theorem ChainsOk.raisesCounter (h : ChainsOk host s) (authentic : AuthenticRequests host)
    {event : RetryEvent} (own : OwnSuccessor host s event) : RaisesCounter host s event := by
  intro jobId admission row next hrequeues hrow hid hnext hnextId
  have hdeduplicated : admission.deduplicated = true →
      s.lineage admission.jobId = s.lineage jobId ++ [jobId] := by
    intro hfound
    refine own jobId admission.jobId ?_
    rw [hrequeues, ← hfound]
  cases event with
  | enqueue | work | remove => cases hrequeues
  | policy policyJob world =>
    rw [RetryEvent.requeues] at hrequeues
    rw [retryStep] at hnext
    split at hrequeues
    · cases hrequeues
    · next unused =>
      rw [if_neg unused] at hnext
      have hfresh := job_none_of_unused h unused
      have hpolicy := applyQueueRetryPolicy_carried host h.unique policyJob hfresh
      cases hrequeue : requeueOf host s.db policyJob world with
      | none => rw [hrequeue] at hrequeues; cases hrequeues
      | some result =>
        rw [hrequeue] at hrequeues hpolicy hnext
        obtain ⟨rfl, rfl⟩ := Prod.mk.inj (Option.some.inj hrequeues)
        rw [hpolicy, requeue_db_eq] at hnext
        have hrequeued := requeued_of_requeueOf hfresh hrequeue
        have hunique := (h.requeued authentic unused hrequeued).unique
        rw [requeue_db_eq] at hunique
        obtain hold | hnew := (mark_carried hunique _ _).origin hnext
        · obtain ⟨before, hbefore, hcarried⟩ := hold
          have hfollows := h.follows_requeue authentic unused hrequeued hdeduplicated hrow hid
            hbefore (hcarried.jobId.symm.trans hnextId)
          exact hfollows.carried (.refl row) hcarried
        · exact hnew.elim fun _ hfalse => hfalse.1.elim
  | crash crashJob world =>
    rw [RetryEvent.requeues] at hrequeues
    rw [retryStep] at hnext
    split at hrequeues
    · cases hrequeues
    · next unused =>
      rw [if_neg unused] at hnext
      cases hrequeue : requeueOf host s.db crashJob world with
      | none => rw [hrequeue] at hrequeues; cases hrequeues
      | some result =>
        rw [hrequeue] at hrequeues hnext
        obtain ⟨rfl, rfl⟩ := Prod.mk.inj (Option.some.inj hrequeues)
        rw [requeue_db_eq] at hnext
        exact h.follows_requeue authentic unused
          (requeued_of_requeueOf (job_none_of_unused h unused) hrequeue) hdeduplicated hrow hid
          hnext hnextId

theorem chainsOk_initial : ChainsOk host .initial := by
  refine ⟨nodup_nil, ?_, ?_, ?_⟩
  · intro row hrow
    cases hrow
  · intro row hrow
    cases hrow
  · intro row hrow
    cases hrow

/-- In every run whose requeues find no other job under their key, each requeue raises a
counter of the chain, and every chain is within the budget and named in full by the history. -/
theorem retry_chains_bounded (host : RetryHost) (authentic : AuthenticRequests host)
    (events : List RetryEvent)
    (own : Along (retryStep host) (OwnSuccessor host) .initial events) :
    Along (retryStep host) (RaisesCounter host) .initial events ∧
      ∀ row ∈ (run (retryStep host) .initial events).db.jobs,
        ChainBounded ((run (retryStep host) .initial events).lineage row.jobId) row := by
  have preserved : ∀ s event, ChainsOk host s → ChainsOk host (retryStep host s event) :=
    chainsOk_step authentic
  have initial : ChainsOk host .initial := chainsOk_initial
  constructor
  · exact .of_invariant (fun s event h _ => preserved s event h)
      (fun _ _ h hown => h.raisesCounter authentic hown) initial own
  · intro row hrow
    exact (run_preserves preserved initial events).bounded hrow

/-! ### Concrete runs -/

/-- Two attempts, on the model of the agent's profile. -/
def twoAttempts : QueueRequest := { twoModels with models := none, maxAttempts := some 2 }

/-- A process that stores that request only. -/
def sealingHost : RetryHost :=
  { plainHost with
    decryptQueueRequest := fun text _ => if text = "request" then some twoAttempts else none
    encryptQueueRequest := fun request _ => if request = twoAttempts then "request" else "other" }

theorem authenticRequests_sealingHost : AuthenticRequests sealingHost := by
  intro request jobId stored h
  change (if (if request = twoAttempts then "request" else "other") = "request" then
    some twoAttempts else none) = some stored at h
  by_cases hsame : request = twoAttempts
  · rw [if_pos hsame, if_pos rfl] at h
    rw [← Option.some.inj h, hsame]
  · rw [if_neg hsame, if_neg (by decide)] at h
    cases h

/-- The row of a job that timed out, under a key that its caller chose. -/
def timedOutRow (idempotencyKey : String) : QueueRow :=
  insertedRow plainRuntime
    { enqueuedRecord "job-1" "bridge-1" "gen-1" 1 50 with
      status := .failed
      errorType := "agent_timeout"
      idempotencyKey := idempotencyKey
      requestFingerprint := "sha:"
      requestHasRetryPolicy := true }

def timeOut (jobId : String) (row : QueueRow) : QueueRow :=
  if row.jobId = jobId then
    { row with
      status := .failed
      recordJson := { row.recordJson with errorType := "agent_timeout" } }
  else row

/-- The job times out twice and is given up. -/
def twoTimeouts : List RetryEvent :=
  [.enqueue (timedOutRow "nightly"), .policy "job-1" unpausedWorld, .work (timeOut "job-2"),
    .policy "job-2" { unpausedWorld with freshJobId := "job-3" }]

theorem retry_chains_bounded_of_two_timeouts :
    Along (retryStep sealingHost) (RaisesCounter sealingHost) .initial twoTimeouts ∧
      ∀ row ∈ (run (retryStep sealingHost) .initial twoTimeouts).db.jobs,
        ChainBounded ((run (retryStep sealingHost) .initial twoTimeouts).lineage row.jobId)
          row := by
  refine retry_chains_bounded sealingHost authenticRequests_sealingHost twoTimeouts
    ⟨?_, ?_, ?_, ?_, trivial⟩
  · intro jobId existing h
    cases h
  · intro jobId existing h
    have hrequeue : (RetryEvent.policy "job-1" unpausedWorld).requeues sealingHost
        (run (retryStep sealingHost) .initial (twoTimeouts.take 1)) =
          some ("job-1", ⟨"job-2", false⟩) := by decide
    cases hrequeue.symm.trans h
  · intro jobId existing h
    cases h
  · intro jobId existing h
    have hrequeue :
        (RetryEvent.policy "job-2" { unpausedWorld with freshJobId := "job-3" }).requeues
        sealingHost (run (retryStep sealingHost) .initial (twoTimeouts.take 3)) = none := by
      decide
    cases hrequeue.symm.trans h

def ownKeyRun : List RetryEvent :=
  [.enqueue (timedOutRow "build:requeue:1"), .policy "job-1" unpausedWorld]

/-- The job is requeued as itself, with the counters it had. -/
theorem requeued_as_itself :
    ¬ Along (retryStep sealingHost) (RaisesCounter sealingHost) .initial ownKeyRun := by
  rintro ⟨-, hraises, -⟩
  have hrequeue : (RetryEvent.policy "job-1" unpausedWorld).requeues sealingHost
      (run (retryStep sealingHost) .initial (ownKeyRun.take 1)) =
        some ("job-1", ⟨"job-1", true⟩) := by decide
  have hsame : (run (retryStep sealingHost) .initial (ownKeyRun.take 1)).db.jobs.any
      (fun row => row.jobId = "job-1" &&
        (run (retryStep sealingHost) .initial ownKeyRun).db.jobs.any fun next =>
          next.jobId = "job-1" && spent next.recordJson ≤ spent row.recordJson) = true := by
    decide
  obtain ⟨row, hrow, hfound⟩ := any_eq_true.mp hsame
  rw [Bool.and_eq_true, decide_eq_true_iff] at hfound
  obtain ⟨next, hnext, hkept⟩ := any_eq_true.mp hfound.2
  rw [Bool.and_eq_true, decide_eq_true_iff, decide_eq_true_iff] at hkept
  have hfollows : Follows row next :=
    hraises "job-1" ⟨"job-1", true⟩ row next hrequeue hrow hfound.1 hnext hkept.1
  have hlt := hfollows.counts.spent_lt
  omega

end AgentBridge.Queue
