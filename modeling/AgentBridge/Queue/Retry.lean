import AgentBridge.Providers.Keys
import AgentBridge.Queue.System

/-!
# The retry policy of a queued job

`lib/queue/retry.js`: after a job of a retry policy failed, the bridge requeues its
stored request, on the next model that is not paused, under a key made of the original
key and the number of the requeue. The successor is inserted in one transaction and
the original is marked in another one.

The request is decrypted here; the parts of it that the policy and the requeue do not
look at are one text. The checks of an enqueue that look at the project (the lock plan,
the worktree rules, auto-integration) are one function of the request.
-/

namespace AgentBridge.Queue

open Providers

structure QueueRequest where
  cwd : String
  agent : String
  models : Option (List String)
  maxAttempts : Option Int
  modelRequirement : Option ModelRequirement
  sanitizedRoot : Option String
  orchestratorMode : String
  /-- `internalQueueContractorProof || internalQueueJobId` -/
  contractorProof : Bool
  content : String
deriving DecidableEq

structure Refusal where
  errorType : String
  error : String

/-- The configuration of a process and what lies outside the queue. -/
structure RetryHost where
  runtime : QueueRuntime
  keys : KeyConfig
  modelOverrideAllowlist : List String
  autoResumeInterrupted : Bool
  queueBlockedPollMs : Nat
  queueLeaseMs : Nat
  decryptQueueRequest : String → String → Option QueueRequest
  encryptQueueRequest : QueueRequest → String → String
  /-- The SHA-256 of the request's JSON text. -/
  queueRequestFingerprint : QueueRequest → String
  /-- The first 16 digits of a SHA-256. -/
  sha256Prefix : String → String
  /-- What `jobInputShape` has against a request. -/
  requestProblems : QueueRequest → List String
  resolveProjectStateRoot : String → String
  recordMatchesProject : String → Bool
  /-- The child process that an interrupted job left behind is still alive. -/
  orphanChildAlive : String → Bool
  enqueueRefusal : QueueRequest → Option Refusal
  lockPlanMode : QueueRequest → String
  fingerprint_ne : ∀ request, queueRequestFingerprint request ≠ ""

/-- What a run of the policy finds outside: the clock, the pauses (unless they cannot be
read), its process and fresh identifiers. -/
structure RetryWorld where
  now : Nat
  pauses : Option (List (String × Nat))
  bridgeInstanceId : String
  processId : Nat
  freshJobId : String
  freshGeneration : String
  capacityAvailable : Bool

variable (host : RetryHost)

/-! ### The policy of a request -/

def retryPolicyDefaultAttempts : Nat := 4
def retryPolicyMaxAttempts : Nat := 10
def retryPolicyMaxSlotWaits : Nat := 12
def retryPolicyMaxPauseWaits : Nat := 24
def retryPolicyMaxInfraRetries : Nat := 3
def retryPolicyInfraRetryBaseMs : Nat := 45000

def retryPolicyHistoryMax : Nat :=
  retryPolicyMaxAttempts + retryPolicyMaxSlotWaits + retryPolicyMaxPauseWaits
    + retryPolicyMaxInfraRetries

def retryPolicyInfraErrorTypes : List String :=
  ["agent_metadata_unavailable", "managed_skill_integrity_failed",
    "external_plugin_integrity_failed"]

def retryPolicyRateLimitErrorTypes : List String :=
  ["provider_rate_limited", "opencode_rate_limited", "opencode_quota_exhausted"]

def retryPolicyErrorTypes : List String :=
  ["provider_rate_limited", "provider_paused", "provider_slot_wait_timeout",
    "opencode_rate_limited", "opencode_quota_exhausted", "opencode_billing_error",
    "opencode_auth_error", "opencode_model_error", "opencode_transient_provider_error",
    "opencode_provider_unavailable", "opencode_transport_error", "opencode_api_error",
    "opencode_native_fallback", "opencode_stream_malformed", "agent_idle_timeout",
    "agent_timeout", "agent_empty_final_response", "agent_exit_nonzero",
    "essential_output_truncated", "validation_command_failed", "self_check_failed",
    "writer_no_changes", "queue_job_interrupted", "queue_ownership_lost",
    "process_supervisor_watchdog_expired"]

structure RetryPolicy where
  models : List ModelEntry
  maxAttempts : Nat

def allowlistText (allowlist : List String) : String :=
  if allowlist.isEmpty then "empty: managed profiles only" else ", ".intercalate allowlist

def policyModel (agent entry : String) : Except Refusal ModelEntry :=
  match parseModelAllowlistEntry entry with
  | none =>
    .error ⟨"retry_policy_invalid",
      "models entry \"" ++ entry ++ "\" is not in provider/model[@variant] form."⟩
  | some parsed =>
    if allowlistedModelOverride host.modelOverrideAllowlist parsed.requirement agent then
      .ok parsed
    else
      .error ⟨"retry_policy_model_not_allowlisted",
        "models entry " ++ parsed.spec ++ " is not in CODEX_OPENCODE_MODEL_ALLOWLIST ("
          ++ allowlistText host.modelOverrideAllowlist ++ "), or agent " ++ orText agent "?"
          ++ " cannot be overridden."⟩

/-- `jobRetryPolicy`; `none` when the request asks for no policy. -/
def jobRetryPolicy (request : QueueRequest) : Except Refusal (Option RetryPolicy) :=
  if request.models.isNone && request.maxAttempts.isNone then .ok none
  else if request.models.any fun models => models.isEmpty || decide (8 < models.length) then
    .error ⟨"retry_policy_invalid",
      "models must be a list of 1 to 8 provider/model[@variant] entries."⟩
  else if request.maxAttempts.any fun maxAttempts =>
      decide (maxAttempts < 1 ∨ (retryPolicyMaxAttempts : Int) < maxAttempts) then
    .error ⟨"retry_policy_invalid",
      "maxAttempts must be an integer from 1 to 10; got "
        ++ toString (request.maxAttempts.getD 0) ++ "."⟩
  else
    match (request.models.getD []).mapM (policyModel host request.agent) with
    | .error refusal => .error refusal
    | .ok models =>
      .ok (some
        { models := models
          maxAttempts :=
            (request.maxAttempts.map Int.toNat).getD retryPolicyDefaultAttempts })

/-- `models.some(…)`: the requirement names one of the policy's models. -/
def requirementMatches (models : List ModelEntry) (requirement : ModelRequirement) : Bool :=
  models.any fun item =>
    item.provider == requirement.provider && item.model == requirement.model
      && (requirement.variant.all fun variant => variant == "" || variant == item.variant)

/-- `applyRetryPolicyToJob` of a job without a parent: a policy with models pins the
first one unless the request names one of them already. -/
def applyRetryPolicyToJob (job : QueueRequest) :
    Except Refusal (Option RetryPolicy × QueueRequest) :=
  match jobRetryPolicy host job with
  | .error refusal => .error refusal
  | .ok none => .ok (none, job)
  | .ok (some policy) =>
    if job.sanitizedRoot.isSome then
      .error ⟨"retry_policy_not_applicable",
        "A sanitized-workspace job always runs the bridge's reader model; "
          ++ "models/maxAttempts do not apply."⟩
    else if job.orchestratorMode = "contractor" then
      .error ⟨"retry_policy_not_applicable",
        "A contractor job cannot be replayed (its authorization token is never stored), "
          ++ "so it cannot be retried."⟩
    else
      match policy.models, job.modelRequirement with
      | [], _ => .ok (some policy, job)
      | _ :: _, some requirement =>
        if requirementMatches policy.models requirement then .ok (some policy, job)
        else
          .error ⟨"retry_policy_invalid",
            "scopeContract.modelRequirement " ++ requirement.provider ++ "/"
              ++ requirement.model
              ++ " is not one of models; give the model order in models only."⟩
      | first :: _, none =>
        .ok (some policy, { job with modelRequirement := some first.requirement })

/-! ### What the policy decides before it looks at the pauses -/

def retryDecisionFinal (outcome : String) : Bool :=
  ["requeued", "gave_up", "none", "not_eligible", "resume_disabled"].contains outcome

def retryableStatus : QueueStatus → Bool
  | .failed | .interrupted => true
  | _ => false

/-- The decision about this job has not been made yet. -/
def retryUndecided (summary : QueueRecord) : Bool :=
  summary.requeuedAs == "" && summary.completionOutcome != "gave_up"
    && !retryDecisionFinal summary.retryDecisionOutcome && summary.parentJobId == ""
    && !summary.cancellationRequested && summary.cancellationRequestedAt.isNone

def retryPolicyModelLabel (retry : RetrySummary) : String :=
  if retry.configuredModel ≠ "" then
    orText retry.configuredProvider "?" ++ "/" ++ retry.configuredModel
  else
    match retry.scopeModel with
    | some (provider, model) => provider ++ "/" ++ model
    | none => "profile model"

/-- What an attempt is not counted for. -/
inductive Uncounted where
  | slotWait | pauseWait | rateLimit | infraRetry
deriving DecidableEq

def Uncounted.note : Option Uncounted → String
  | none => ""
  | some slotWait => " (not counted: the agent never started)"
  | some pauseWait => " (not counted: the model was paused, the agent never started)"
  | some rateLimit => " (not counted: the model was rate-limited before it produced output)"
  | some infraRetry => " (not counted: the bridge could not attest the role)"

def uncountedReason (summary : QueueRecord) (errorType : String) : Option Uncounted :=
  let retry := summary.retry
  let producedNothing := retry.outputCount == 0 && !retry.assistantFinalResponseDetected
    && summary.changedFiles.isEmpty
  if errorType = "provider_slot_wait_timeout"
      ∧ retry.slotWaitRequeues < retryPolicyMaxSlotWaits then some .slotWait
  else if retry.providerRefusedUntil.isSome
      ∧ retry.pauseWaitRequeues < retryPolicyMaxPauseWaits then some .pauseWait
  else if retryPolicyRateLimitErrorTypes.contains errorType ∧ producedNothing
      ∧ retry.pauseWaitRequeues < retryPolicyMaxPauseWaits then some .rateLimit
  else if retryPolicyInfraErrorTypes.contains errorType
      ∧ retry.infraRetryRequeues < retryPolicyMaxInfraRetries then some .infraRetry
  else none

/-- `[…].slice(-RETRY_POLICY_HISTORY_MAX)` -/
def lastHistory (history : List String) : List String :=
  history.drop (history.length - retryPolicyHistoryMax)

/-- The next attempt of a job, before a model is chosen for it. -/
structure RetryPlan where
  policy : RetryPolicy
  /-- The same model runs again after a delay. -/
  infraRetry : Bool
  /-- Where the choice starts in the order of the models. -/
  chooseFrom : Nat
  nextAttempt : Nat
  history : List String
  slotWaitRequeues : Nat
  pauseWaitRequeues : Nat
  infraRetryRequeues : Nat

inductive RetryVerdict where
  | none
  | settle (action : String)
  | unreadable
  | giveUp (history : List String)
  | retry (plan : RetryPlan)

/-- The part of `applyQueueRetryPolicy` before the choice of a model. -/
def retryVerdict (row : QueueRow) : RetryVerdict :=
  let summary := row.recordJson
  let retry := summary.retry
  if !retryableStatus row.status then .none
  else if !retryUndecided summary || row.cancellationRequestedAt.isSome then .none
  else if row.requestEncrypted = "" then .settle "none"
  else
    match host.decryptQueueRequest row.requestEncrypted row.jobId with
    | none => .unreadable
    | some request =>
      match jobRetryPolicy host request with
      | .error _ => .settle "none"
      | .ok none => .settle "none"
      | .ok (some policy) =>
        let errorType :=
          if row.status = .interrupted then "queue_job_interrupted" else summary.errorType
        let infra := retryPolicyInfraErrorTypes.contains errorType
          && decide (retry.infraRetryRequeues < retryPolicyMaxInfraRetries)
        if !retryPolicyErrorTypes.contains errorType && !infra then .settle "not_eligible"
        else if errorType = "queue_job_interrupted" ∧ host.autoResumeInterrupted = false then
          .settle "resume_disabled"
        else
          let attempt := max 1 summary.retryAttempt
          let uncounted := uncountedReason summary errorType
          let history := lastHistory (retry.attemptHistory ++
            [row.jobId ++ " " ++ retryPolicyModelLabel retry ++ " " ++ errorType
              ++ Uncounted.note uncounted])
          if uncounted = none ∧ policy.maxAttempts ≤ attempt then .giveUp history
          else
            .retry
              { policy := policy
                infraRetry := infra
                chooseFrom :=
                  if uncounted = none then attempt
                  else attempt + retry.slotWaitRequeues + retry.pauseWaitRequeues
                nextAttempt := if uncounted = none then attempt + 1 else attempt
                history := history
                slotWaitRequeues :=
                  if uncounted = some .slotWait then retry.slotWaitRequeues + 1
                  else retry.slotWaitRequeues
                pauseWaitRequeues :=
                  if uncounted = some .pauseWait ∨ uncounted = some .rateLimit then
                    retry.pauseWaitRequeues + 1
                  else retry.pauseWaitRequeues
                infraRetryRequeues :=
                  if infra then retry.infraRetryRequeues + 1
                  else retry.infraRetryRequeues }

/-! ### The choice of a model -/

/-- A model and the time until which the attempt waits. -/
structure RetryChoice where
  spec : String
  startAfter : Stamp

structure RetryCandidate where
  spec : String
  provider : String
  model : String

def candidateOf (entry : ModelEntry) : RetryCandidate :=
  ⟨entry.spec, entry.provider, entry.model⟩

/-- The models from the given position on, or the model the failed attempt ran on. -/
def retryCandidates (policy : RetryPolicy) (chooseFrom : Nat) (failed : RetrySummary) :
    List RetryCandidate :=
  if policy.models.isEmpty then [⟨"", failed.configuredProvider, failed.configuredModel⟩]
  else (policy.models.rotate chooseFrom).map candidateOf

def pauseOf (pauses : List (String × Nat)) (key : String) : Nat := (pauses.lookup key).getD 0

def pausedUntil (keys : KeyConfig) (pauses : List (String × Nat)) (provider model : String) :
    Nat :=
  ((keys.quotaGroupProviderKeys provider).map (pauseOf pauses)).foldl max
    (max (pauseOf pauses (keys.providerKeyForMetadata provider))
      (if model = "" then 0 else pauseOf pauses (keys.modelPauseKeyForMetadata provider model)))

/-- The loop over the candidates: the first one that is not paused, or else the one
whose pause ends first. -/
def chooseCandidate (keys : KeyConfig) (pauses : List (String × Nat)) (now : Nat) :
    List RetryCandidate → Option (String × Nat) → RetryChoice
  | [], best => ⟨(best.map (·.1)).getD "", best.map (·.2)⟩
  | candidate :: rest, best =>
    let pauseEnd :=
      if candidate.provider = "" then 0
      else pausedUntil keys pauses candidate.provider candidate.model
    if pauseEnd = 0 ∨ pauseEnd ≤ now then ⟨candidate.spec, none⟩
    else if best.all fun earlier => decide (pauseEnd < earlier.2) then
      chooseCandidate keys pauses now rest (some (candidate.spec, pauseEnd))
    else chooseCandidate keys pauses now rest best

def chooseRetryModel (policy : RetryPolicy) (chooseFrom : Nat) (failed : RetrySummary)
    (world : RetryWorld) : RetryChoice :=
  let candidates := retryCandidates policy chooseFrom failed
  match world.pauses with
  | none =>
    ⟨(candidates.head?.map (·.spec)).getD "", some (world.now + max 250 host.queueBlockedPollMs)⟩
  | some pauses => chooseCandidate host.keys pauses world.now candidates none

/-- The model of the next attempt, empty when the stored request runs as it is. -/
def retryChoice (plan : RetryPlan) (failed : RetrySummary) (world : RetryWorld) : RetryChoice :=
  if plan.infraRetry then
    ⟨"", some (world.now + retryPolicyInfraRetryBaseMs * 2 ^ (plan.infraRetryRequeues - 1))⟩
  else chooseRetryModel host plan.policy plan.chooseFrom failed world

/-! ### The successor -/

/-- `(?::requeue:\d+)+$` is cut off, one suffix a time; the digits stand first in the
reversed text. -/
def stripRequeueSuffix : Nat → List Char → List Char
  | 0, reversed => reversed
  | fuel + 1, reversed =>
    let digits := reversed.takeWhile Char.isDigit
    let front := reversed.dropWhile Char.isDigit
    if !digits.isEmpty && ":requeue:".toList.reverse.isPrefixOf front then
      stripRequeueSuffix fuel (front.drop ":requeue:".toList.length)
    else reversed

def requeueIdempotencyKey (idempotencyKey jobId : String) (sequence : Nat) : String :=
  let stripped :=
    (stripRequeueSuffix idempotencyKey.toList.length idempotencyKey.toList.reverse).reverse
  let base := if stripped.isEmpty then jobId.toList else stripped
  let suffix := (":requeue:" ++ toString sequence).toList
  if base.length + suffix.length ≤ 200 then String.ofList (base ++ suffix)
  else
    let digest := (host.sha256Prefix (String.ofList base)).toList
    String.ofList
      (base.take (200 - suffix.length - digest.length - 1) ++ ['~'] ++ digest ++ suffix)

/-- The key under which the successor of a row is inserted. -/
def successorKey (row : QueueRow) : String :=
  requeueIdempotencyKey host (orText row.idempotencyKey row.recordJson.idempotencyKey) row.jobId
    (row.recordJson.retry.requeueSequence + 1)

/-- `modelRequirement` of a chosen model; `none` keeps the one of the request. -/
def pinnedModel (spec : String) : Option ModelRequirement :=
  if spec = "" then none else (parseModelAllowlistEntry spec).map ModelEntry.requirement

/-- `REQUEUE_ELIGIBLE_STATUSES` -/
def requeueEligible : QueueStatus → Bool
  | .failed | .cancelled | .interrupted | .notResumable => true
  | _ => false

/-- The stored request with the chosen model, or why the job is not requeued. -/
def requeueRequest (row : QueueRow) (spec : String) : Except Refusal QueueRequest :=
  let summary := row.recordJson
  if spec ≠ "" ∧ (parseModelAllowlistEntry spec).isNone then
    .error ⟨"requeue_model_invalid",
      "model \"" ++ spec ++ "\" is not in provider/model[@variant] form."⟩
  else if row.status = .completed then
    .error ⟨"requeue_job_completed",
      "Job " ++ row.jobId ++ " completed. Only failed, cancelled, interrupted or not_resumable "
        ++ "jobs can be requeued; re-running finished work would duplicate it."⟩
  else if !requeueEligible row.status then
    .error ⟨"requeue_job_not_terminal", "Job " ++ row.jobId ++ " is not finished."⟩
  else if summary.parentJobId ≠ "" then
    .error ⟨"requeue_pipeline_child",
      "Job " ++ row.jobId ++ " belongs to pipeline/parent " ++ summary.parentJobId
        ++ "; a requeued copy would not be tracked by it."⟩
  else if summary.requeuedAs ≠ "" then
    .error ⟨"requeue_already_requeued",
      "Job " ++ row.jobId ++ " was already requeued as " ++ summary.requeuedAs ++ "."⟩
  else if row.status = .interrupted ∧ host.orphanChildAlive row.jobId = true then
    .error ⟨"requeue_orphan_child_alive",
      "The previous run of " ++ row.jobId ++ " left a child process that is still alive and "
        ++ "may still be writing its worktree."⟩
  else if row.requestEncrypted = "" then
    .error ⟨"requeue_request_not_stored",
      "The original request of " ++ row.jobId ++ " is not stored: this record has no encrypted "
        ++ "request."⟩
  else
    match host.decryptQueueRequest row.requestEncrypted row.jobId with
    | none =>
      .error ⟨"requeue_request_unreadable",
        "The stored request of " ++ row.jobId ++ " could not be decrypted; queue-request.key "
          ++ "may have changed."⟩
    | some stored =>
      if stored.orchestratorMode = "contractor" ∨ stored.contractorProof = true then
        .error ⟨"requeue_contractor_unsupported",
          "Job " ++ row.jobId ++ " ran in contractor mode. Its authorization token is never "
            ++ "stored, so it cannot be replayed."⟩
      else if host.requestProblems stored ≠ [] then
        .error ⟨"requeue_request_invalid",
          "The stored request of " ++ row.jobId ++ " does not satisfy the current job input "
            ++ "schema: " ++ "; ".intercalate ((host.requestProblems stored).take 8) ++ "."⟩
      else if stored.sanitizedRoot.isNone ∧ host.recordMatchesProject stored.cwd = false then
        .error ⟨"requeue_request_invalid",
          "The stored request of " ++ row.jobId ++ " names " ++ stored.cwd ++ "."⟩
      else
        match pinnedModel spec with
        | none => .ok stored
        | some requirement =>
          if allowlistedModelOverride host.modelOverrideAllowlist requirement stored.agent then
            .ok { stored with
              modelRequirement := some { requirement with
                requireRuntimeEvidence :=
                  stored.modelRequirement.bind (·.requireRuntimeEvidence) } }
          else
            .error ⟨"requeue_model_not_allowlisted",
              "model " ++ spec ++ " is not in CODEX_OPENCODE_MODEL_ALLOWLIST ("
                ++ allowlistText host.modelOverrideAllowlist ++ "), or the agent "
                ++ stored.agent ++ " cannot be overridden."⟩

def normalizeJobCwd (job : QueueRequest) : QueueRequest :=
  match job.sanitizedRoot with
  | some root => { job with cwd := root }
  | none => { job with cwd := host.resolveProjectStateRoot job.cwd }

/-- The part of `enqueueQueueJob` before the record: the policy is applied, the working
directory normalized and the job checked. -/
def checkedJob (job : QueueRequest) : Except Refusal (Option RetryPolicy × QueueRequest) :=
  match applyRetryPolicyToJob host job with
  | .error refusal => .error refusal
  | .ok (policy, job) =>
    let normalized := normalizeJobCwd host job
    match host.enqueueRefusal normalized with
    | some refusal => .error refusal
    | none => .ok (policy, normalized)

/-- The record of a retry: the record of an enqueue with the fields of the retry. -/
def successorRecord (row : QueueRow) (plan : RetryPlan) (choice : RetryChoice)
    (job : QueueRequest) (world : RetryWorld) : QueueRecord :=
  { enqueuedRecord world.freshJobId world.bridgeInstanceId world.freshGeneration world.now
      (world.now + host.queueLeaseMs) with
    mode := host.lockPlanMode job
    ownerProcessId := world.processId
    idempotencyKey := successorKey host row
    requestFingerprint := host.queueRequestFingerprint job
    requestEncrypted := host.encryptQueueRequest job world.freshJobId
    requestHasRetryPolicy := true
    retryAttempt := plan.nextAttempt
    maxAttempts := plan.policy.maxAttempts
    retry :=
      { agent := job.agent
        configuredProvider := ""
        configuredModel := ""
        scopeModel := job.modelRequirement.map fun model => (model.provider, model.model)
        attemptHistory := plan.history
        startAfter := choice.startAfter
        startAfterReason :=
          if choice.startAfter = none then ""
          else if plan.infraRetry then "infrastructure_retry"
          else "provider_pause"
        slotWaitRequeues := plan.slotWaitRequeues
        pauseWaitRequeues := plan.pauseWaitRequeues
        infraRetryRequeues := plan.infraRetryRequeues
        requeuedFrom := row.jobId
        requeueSequence := row.recordJson.retry.requeueSequence + 1
        requeuedAt := some world.now
        retryDecisionAt := none
        providerRefusedUntil := none
        outputCount := 0
        assistantFinalResponseDetected := false } }

/-- The successor's job id, and whether it was there already. -/
structure Admission where
  jobId : String
  deduplicated : Bool
deriving DecidableEq

def requeueRejected (refusal : Refusal) : Refusal :=
  ⟨orText refusal.errorType "queue_rejected",
    "The stored request was rejected by the normal enqueue validation: " ++ refusal.error⟩

/-- `requeueQueueJob` up to and including the insert of the successor. -/
def admitRequeue (db : QueueDb) (row : QueueRow) (plan : RetryPlan) (choice : RetryChoice)
    (world : RetryWorld) : Except Refusal Admission × QueueDb :=
  match requeueRequest host row choice.spec with
  | .error refusal => (.error refusal, db)
  | .ok request =>
    match checkedJob host request with
    | .error refusal => (.error (requeueRejected refusal), db)
    | .ok (_, job) =>
      match persistQueueRecord host.runtime db world.bridgeInstanceId
          (successorRecord host row plan choice job world) world.capacityAvailable
          world.now with
      | (.inserted .., record, db') => (.ok ⟨record.jobId, false⟩, db')
      | (.updated .., record, db') => (.ok ⟨record.jobId, false⟩, db')
      | (.deduplicated existing, _, db') => (.ok ⟨existing, true⟩, db')
      | (.idempotencyConflict existing, _, db') =>
        (.error (requeueRejected ⟨"queue_idempotency_conflict",
          "Idempotency key already belongs to job " ++ existing
            ++ " with different request content."⟩), db')
      | (.capacityRefused, _, db') =>
        (.error (requeueRejected ⟨"state_capacity_exceeded",
          "The queue request was not durably accepted."⟩), db')
      | (_, _, db') =>
        (.error (requeueRejected ⟨"queue_persistence_failed",
          "The queue request was not durably accepted."⟩), db')

/-! ### The mark on the original -/

/-- `markQueueJobRequeued` -/
def markQueueJobRequeued (db : QueueDb) (jobId newJobId : String) (now : Nat) : Bool × QueueDb :=
  match db.job jobId with
  | none => (false, db)
  | some row =>
    let summary := row.recordJson
    if row.status.terminal = false then (false, db)
    else if summary.requeuedAs ≠ "" ∧ summary.requeuedAs ≠ newJobId then (false, db)
    else if summary.requeuedAs = newJobId ∧ summary.retryDecisionOutcome = "requeued"
        ∧ summary.retryDecisionPendingAt = none then (true, db)
    else
      patchTerminalQueueSummary db jobId fun summary =>
        some { summary with
          requeuedAs := newJobId
          retryDecisionPendingAt := none
          retryDeferredAt := none
          retryDecisionOutcome := "requeued"
          retry := { summary.retry with
            requeuedAt := some now
            retryDecisionAt := some now } }

inductive RetryAction where
  | none
  | settled (action : String)
  | requeued (newJobId : String)
  | deferred
  | failed (errorType : String)

/-- `settle`: the decision is written on a job that is still undecided. -/
def settleRetry (db : QueueDb) (jobId action : String) (now : Nat)
    (fields : QueueRecord → QueueRecord) : RetryAction × QueueDb :=
  match db.job jobId with
  | none => (.failed "retry_decision_persistence_failed", db)
  | some row =>
    let (patched, db') := patchTerminalQueueSummary db jobId fun summary =>
      if retryableStatus row.status && retryUndecided summary then
        let summary := fields summary
        some { summary with
          retryDecisionPendingAt := Option.none
          retryDeferredAt := Option.none
          retryDecisionOutcome := action
          retry := { summary.retry with retryDecisionAt := some now } }
      else Option.none
    if patched then (.settled action, db')
    else if row.recordJson.requeuedAs ≠ "" then (.requeued row.recordJson.requeuedAs, db')
    else if retryDecisionFinal row.recordJson.retryDecisionOutcome then
      (.settled row.recordJson.retryDecisionOutcome, db')
    else (.failed "retry_decision_persistence_failed", db')

/-- The words whose presence makes a refusal worth another try. -/
def infrastructureWords : List String :=
  ["sqlite", "database", "persist", "encrypt", "capacity", "infrastructure"]

def infrastructureRefusal (refusal : Refusal) : Bool :=
  let text := (refusal.errorType ++ " " ++ refusal.error).toLower.toList
  infrastructureWords.any fun word => text.tails.any fun rest => word.toList.isPrefixOf rest

def giveUp (db : QueueDb) (jobId : String) (history : List String) (now : Nat) :
    RetryAction × QueueDb :=
  settleRetry db jobId "gave_up" now fun summary =>
    { summary with
      completionOutcome := "gave_up"
      retry := { summary.retry with attemptHistory := history } }

def requeueRefused (db : QueueDb) (row : QueueRow) (plan : RetryPlan) (refusal : Refusal)
    (now : Nat) : RetryAction × QueueDb :=
  if refusal.errorType = "requeue_orphan_child_alive" then
    (.deferred,
      (patchTerminalQueueSummary db row.jobId fun summary =>
        if summary.requeuedAs = "" ∧ retryDecisionFinal summary.retryDecisionOutcome = false then
          some { summary with
            retryDeferredAt := some now
            retryDecisionPendingAt := row.recordJson.retryDecisionPendingAt.or (some now) }
        else Option.none).2)
  else if refusal.errorType = "requeue_already_requeued" then
    match (db.job row.jobId).map (·.recordJson.requeuedAs) with
    | some requeuedAs =>
      if requeuedAs ≠ "" then (.requeued requeuedAs, db)
      else (.failed refusal.errorType, db)
    | none => (.failed refusal.errorType, db)
  else if refusal.errorType = "requeue_request_unreadable" ∨ infrastructureRefusal refusal then
    (.failed refusal.errorType, db)
  else giveUp db row.jobId plan.history now

/-- The durable receipt of a requeue, read back from the original. -/
def requeueReceipt (db : QueueDb) (jobId newJobId : String) : RetryAction :=
  match db.job jobId with
  | none => .failed "retry_decision_persistence_failed"
  | some row =>
    if row.recordJson.requeuedAs = newJobId ∧ row.recordJson.retryDecisionPendingAt = none
        ∧ row.recordJson.retryDecisionOutcome = "requeued" then .requeued newJobId
    else .failed "retry_decision_persistence_failed"

/-! ### The policy -/

def applyQueueRetryPolicy (db : QueueDb) (jobId : String) (world : RetryWorld) :
    RetryAction × QueueDb :=
  match db.job jobId with
  | none => (.none, db)
  | some row =>
    match retryVerdict host row with
    | .none => (.none, db)
    | .settle action => settleRetry db jobId action world.now id
    | .unreadable => (.failed "requeue_request_unreadable", db)
    | .giveUp history => giveUp db jobId history world.now
    | .retry plan =>
      match admitRequeue host db row plan (retryChoice host plan row.recordJson.retry world)
          world with
      | (.error refusal, db') => requeueRefused db' row plan refusal world.now
      | (.ok admission, db') =>
        let db'' := (markQueueJobRequeued db' jobId admission.jobId world.now).2
        (requeueReceipt db'' jobId admission.jobId, db'')

/-- A run of the policy that dies between the insert of a new successor and the mark:
the successor's id and what is left in the database. -/
def crashedRetry (db : QueueDb) (jobId : String) (world : RetryWorld) :
    Option (String × QueueDb) :=
  match db.job jobId with
  | none => none
  | some row =>
    match retryVerdict host row with
    | .retry plan =>
      match admitRequeue host db row plan (retryChoice host plan row.recordJson.retry world)
          world with
      | (.ok ⟨successor, false⟩, db') => some (successor, db')
      | _ => none
    | _ => none

end AgentBridge.Queue
