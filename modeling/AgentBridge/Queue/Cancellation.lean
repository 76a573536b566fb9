import AgentBridge.Queue.Terminal

/-!
# A requested cancellation wins

Once a row that is not terminal carries the mark of a cancellation, every writer that
can end it records it as cancelled, with details that hold no result text. The one
writer that does not look at the mark is the failure of a job at startup; and an
ordinary persist may bring the mark together with a result text. Runs without these
two keep the promise in every state.
-/

namespace AgentBridge.Queue

open Systems

variable {runtime : QueueRuntime} {db : QueueDb} {event : QueueEvent}

/-- The decrypted details hold no result text. -/
def ResultTextless : Option PrivateDetails → Prop
  | none => True
  | some details => details.resultText = "" ∧ details.resultDetailText = ""

instance decidableResultTextless : ∀ details, Decidable (ResultTextless details)
  | none => isTrue trivial
  | some details =>
    inferInstanceAs (Decidable (details.resultText = "" ∧ details.resultDetailText = ""))

/-- The row is cancelled, or marked and on its way there; either way without a text. -/
structure CancellationWins (row : QueueRow) : Prop where
  textless : ResultTextless row.resultEncrypted
  wins : row.status = .cancelled ∨
    (row.status.terminal = false ∧ row.cancellationRequestedAt.isSome = true)

/-- A row that has not ended holds no result text. -/
def TextlessUntilEnd (row : QueueRow) : Prop :=
  row.status.terminal = false → ResultTextless row.resultEncrypted

/-- What the promise asks of a step: a persist of a record that is not terminal
carries no result text, and no startup failure ends a marked row. -/
def CancellationRespected (db : QueueDb) : QueueEvent → Prop
  | .persist _ record _ _ =>
    ownerTerminal record.status = false →
      record.resultText = "" ∧ record.resultDetailText = ""
  | .persistWithEnvelope _ record _ =>
    ownerTerminal record.status = false → ResultTextless record.resultEncrypted
  | .startupFailure observed _ failedAt =>
    ∀ row ∈ db.jobs, recoverable db observed failedAt row = true →
      row.cancellationRequestedAt = none
  | _ => True

instance decidableCancellationRespected (db : QueueDb) :
    ∀ event, Decidable (CancellationRespected db event)
  | .persist _ record _ _ =>
    inferInstanceAs (Decidable (ownerTerminal record.status = false →
      record.resultText = "" ∧ record.resultDetailText = ""))
  | .persistWithEnvelope _ record _ =>
    inferInstanceAs (Decidable (ownerTerminal record.status = false →
      ResultTextless record.resultEncrypted))
  | .startupFailure observed _ failedAt =>
    inferInstanceAs (Decidable (∀ row ∈ db.jobs, recoverable db observed failedAt row = true →
      row.cancellationRequestedAt = none))
  | .environment .. | .cancel .. | .reconcile .. | .renew .. | .reacquire .. | .claim ..
  | .startupClaim .. | .patchSummary .. => isTrue trivial

variable {record : QueueRecord}

theorem resultTextless_queuePrivateDetails (htext : record.resultText = "")
    (hdetail : record.resultDetailText = "") :
    ResultTextless (some (queuePrivateDetails runtime record)) := by
  simp [ResultTextless, queuePrivateDetails, htext, hdetail, runtime.redact_empty,
    runtime.truncateResult_empty, runtime.truncate_empty]

theorem ownerTerminal_terminal {status : QueueStatus} (h : ownerTerminal status = true) :
    status.terminal = true := by
  cases status <;> simp_all [ownerTerminal, QueueStatus.terminal]

theorem preparedRecord_of_notTerminal
    (h : ownerTerminal (preparedRecord runtime record).status = false) :
    ownerTerminal record.status = false := by
  revert h
  simp only [preparedRecord, enforceQueueResultEvidence]
  split_ifs <;> simp [ownerTerminal]

theorem preparedRecord_textless (runtime : QueueRuntime) (htext : record.resultText = "")
    (hdetail : record.resultDetailText = "") :
    ResultTextless (preparedRecord runtime record).resultEncrypted := by
  refine resultTextless_queuePrivateDetails ?_ ?_
  · simp only [enforceQueueResultEvidence]
    split_ifs <;> exact htext
  · simp only [enforceQueueResultEvidence]
    split_ifs <;> exact hdetail

/-- The envelope a commit may use for a cancelled job holds no text. -/
theorem resultTextless_envelope {bridgeInstanceId : String}
    (commits : event.commits runtime = some (bridgeInstanceId, record))
    (hsome : record.cancellationResultEncrypted.isSome = true) :
    ResultTextless record.cancellationResultEncrypted := by
  cases event with
  | persist owner raw capacityAvailable now =>
    simp only [QueueEvent.commits, Option.ite_none_right_eq_some, Option.some.injEq,
      Prod.mk.injEq] at commits
    simp [← commits.2.2, preparedRecord] at hsome
  | persistWithEnvelope owner raw now =>
    simp only [QueueEvent.commits, Option.some.injEq, Prod.mk.injEq] at commits
    rw [← commits.2]
    exact resultTextless_queuePrivateDetails rfl rfl
  | _ => simp [QueueEvent.commits] at commits

/-- A terminal commit that leaves its job running stores no text. -/
theorem resultTextless_commit {bridgeInstanceId : String}
    (hrespected : CancellationRespected db event)
    (commits : event.commits runtime = some (bridgeInstanceId, record))
    (hstatus : record.status.terminal = false) : ResultTextless record.resultEncrypted := by
  have howner : ownerTerminal record.status = false := by
    by_contra hne
    rw [ownerTerminal_terminal (by simpa using hne)] at hstatus
    contradiction
  cases event with
  | persist owner raw capacityAvailable now =>
    simp only [QueueEvent.commits, Option.ite_none_right_eq_some, Option.some.injEq,
      Prod.mk.injEq] at commits
    rw [commits.2.2, howner] at commits
    exact absurd commits.1 (by simp)
  | persistWithEnvelope owner raw now =>
    obtain ⟨-, rfl⟩ := commits
    exact hrespected howner
  | _ => simp [QueueEvent.commits] at commits

theorem abandonedStatus_terminal (row : QueueRow) : (abandonedStatus row).terminal = true := by
  simp only [abandonedStatus]
  split_ifs <;> rfl

variable {row : QueueRow}

theorem abandonedStatus_of_marked (h : row.cancellationRequestedAt.isSome = true) :
    abandonedStatus row = .cancelled := by
  simp [abandonedStatus, h]

/-! ### Steps -/

variable {row' : QueueRow}

/-- A step that respects cancellations leaves no text on a row that has not ended. -/
theorem QueueWrite.textlessUntilEnd (h : QueueWrite runtime db event row row')
    (hrespected : CancellationRespected db event) (hrow : TextlessUntilEnd row) :
    TextlessUntilEnd row' := by
  intro hstatus
  cases h with
  | siblingCancelled | unstartedCancelled | orphanCancelled | startupFailed | activeCancelled =>
    contradiction
  | siblingMarked _ _ status | cancellationMarked _ _ status =>
    exact hrow (QueueStatus.terminal_eq_false_of_active status)
  | renewed _ _ status | retaken _ _ status => exact hrow status
  | claimed _ _ _ status =>
    exact hrow (QueueStatus.terminal_eq_false_of_preExecution
      (QueueStatus.preExecution_of_claimable status))
  | takenOver _ _ recoverable =>
    exact hrow (QueueStatus.terminal_eq_false_of_preExecution (recoverable_spec recoverable).2.1)
  | summaryRewritten _ status => exact hrow hstatus
  | unstartedEnded _ terminal _ _ _ _ ends =>
    change terminal.status.terminal = false at hstatus
    rcases ends with heq | heq <;> simp [heq, QueueStatus.terminal] at hstatus
  | abandoned =>
    change (abandonedStatus row).terminal = false at hstatus
    rw [abandonedStatus_terminal] at hstatus
    contradiction
  | activeEnded _ _ terminal commits _ _ _ _ ends details =>
    change terminal.status.terminal = false at hstatus
    rcases ends with heq | heq
    · change ResultTextless terminal.resultEncrypted
      rw [details]
      exact resultTextless_commit hrespected commits (heq ▸ hstatus)
    · simp [heq, QueueStatus.terminal] at hstatus
  | rewritten next owned patch notTerminal =>
    obtain ⟨htext, hdetail⟩ := hrespected (preparedRecord_of_notTerminal notTerminal)
    have hprepared := preparedRecord_textless runtime htext hdetail
    rw [patch, nextRecord, rebasedRecord]
    split <;> exact hprepared

theorem QueueWrite.cancellationWins (h : QueueWrite runtime db event row row')
    (hrespected : CancellationRespected db event) (hrow : CancellationWins row) :
    CancellationWins row' := by
  obtain ⟨htextless, hcancelled | ⟨hstatus, hmark⟩⟩ := hrow
  · -- Only the summary of a cancelled row can still change.
    obtain ⟨summary, rfl⟩ := h.summary_of_terminal (by rw [hcancelled]; rfl)
    exact ⟨htextless, .inl hcancelled⟩
  · cases h with
    | siblingCancelled | orphanCancelled => exact ⟨htextless, .inl rfl⟩
    | siblingMarked | cancellationMarked =>
      exact ⟨htextless, .inr ⟨hstatus, by simp [markedByPipeline, markCancellation, hmark]⟩⟩
    | unstartedCancelled requestedAt next status requested patch =>
      refine ⟨?_, .inl rfl⟩
      refine resultTextless_queuePrivateDetails ?_ ?_
      all_goals simp only [patch, cancellationPatch, if_pos status]
      all_goals rfl
    | unstartedEnded _ terminal details commits _ _ _ marked envelope =>
      obtain ⟨hdetails, hsome⟩ := envelope (marked hmark)
      refine ⟨?_, .inl (marked hmark)⟩
      rw [hdetails] at hsome ⊢
      exact resultTextless_envelope commits hsome
    | activeCancelled _ cancelled commits _ _ _ envelope =>
      refine ⟨?_, .inl rfl⟩
      change ResultTextless cancelled.cancellationResultEncrypted
      rw [envelope.1]
      exact resultTextless_envelope commits envelope.2
    | abandoned => exact ⟨htextless, .inl (abandonedStatus_of_marked hmark)⟩
    | takenOver resumed patch recoverable =>
      refine ⟨htextless, .inr ⟨?_, hmark⟩⟩
      change resumed.status.terminal = false
      rw [patch, resumedRecord]
      split <;> rfl
    | startupFailed _ _ member recoverable =>
      rw [hrespected row member recoverable] at hmark
      contradiction
    | summaryRewritten _ status =>
      rw [hstatus] at status
      contradiction
    | activeEnded _ _ _ _ _ _ unmarked | rewritten _ _ _ _ _ unmarked
    | renewed _ _ _ unmarked | retaken _ _ _ unmarked | claimed _ _ _ _ unmarked =>
      rw [unmarked] at hmark
      contradiction

theorem QueueWrites.textlessUntilEnd (h : QueueWrites runtime db event row row')
    (hrespected : CancellationRespected db event) (hrow : TextlessUntilEnd row) :
    TextlessUntilEnd row' := by
  induction h with
  | refl => exact hrow
  | tail _ hwrite ih => exact hwrite.textlessUntilEnd hrespected ih

theorem QueueWrites.cancellationWins (h : QueueWrites runtime db event row row')
    (hrespected : CancellationRespected db event) (hrow : CancellationWins row) :
    CancellationWins row' := by
  induction h with
  | refl => exact hrow
  | tail _ hwrite ih => exact hwrite.cancellationWins hrespected ih

/-! ### Runs -/

/-- No row that has not ended holds a result text. -/
structure CancellationInvariant (db : QueueDb) : Prop where
  unique : UniqueJobs db
  textless : ∀ row ∈ db.jobs, TextlessUntilEnd row

theorem cancellationInvariant_empty : CancellationInvariant .empty :=
  ⟨uniqueJobs_empty, by simp [QueueDb.empty]⟩

theorem cancellationInvariant_step (db : QueueDb) (event : QueueEvent)
    (hinvariant : CancellationInvariant db) (hrespected : CancellationRespected db event) :
    CancellationInvariant (queueStep runtime db event) := by
  refine ⟨uniqueJobs_step db event hinvariant.unique, fun row' hrow' => ?_⟩
  have hwritten := queueStep_writtenBy runtime hinvariant.unique event
  rcases Evolves.origin hwritten hrow' with ⟨row, hrow, hwrites⟩ | ⟨new, hnew, hwrites⟩
  · exact hwrites.textlessUntilEnd hrespected (hinvariant.textless row hrow)
  · refine hwrites.textlessUntilEnd hrespected fun _ => ?_
    cases hnew with
    | inserted notTerminal =>
      obtain ⟨htext, hdetail⟩ := hrespected (preparedRecord_of_notTerminal notTerminal)
      exact preparedRecord_textless runtime htext hdetail

theorem CancellationWins.run {jobId : String} (hinvariant : CancellationInvariant db)
    (hrow : db.job jobId = some row) (hwins : CancellationWins row) :
    ∀ events, Along (queueStep runtime) CancellationRespected db events →
      ∃ row', (Systems.run (queueStep runtime) db events).job jobId = some row' ∧
        CancellationWins row' := by
  intro events
  induction events generalizing db row with
  | nil => intro _; exact ⟨row, hrow, hwins⟩
  | cons event events ih =>
    intro halong
    obtain ⟨next, hnext, hwrites⟩ := queueStep_job runtime hinvariant.unique event hrow
    exact ih (cancellationInvariant_step db event hinvariant halong.1) hnext
      (hwrites.cancellationWins halong.1 hwins) halong.2

/-- In every run whose steps respect cancellations: from the moment a row that is not
terminal carries the mark, the only terminal status it reaches is cancelled and it
stores no result text. -/
theorem cancellation_wins (runtime : QueueRuntime) (before after : List QueueEvent)
    (hrespected : Along (queueStep runtime) CancellationRespected .empty (before ++ after))
    {jobId : String} (hrow : (run (queueStep runtime) .empty before).job jobId = some row)
    (hstatus : row.status.terminal = false) (hmark : row.cancellationRequestedAt.isSome = true) :
    ∃ row', (run (queueStep runtime) .empty (before ++ after)).job jobId = some row' ∧
      (row'.status.terminal = true → row'.status = .cancelled) ∧
      ResultTextless row'.resultEncrypted := by
  rw [along_append] at hrespected
  have hinvariant : CancellationInvariant (run (queueStep runtime) .empty before) :=
    run_invariant cancellationInvariant_step cancellationInvariant_empty before hrespected.1
  have hwins : CancellationWins row :=
    ⟨hinvariant.textless row (lookup_some hrow).1 hstatus, .inr ⟨hstatus, hmark⟩⟩
  obtain ⟨row', hrow', htextless, hend⟩ := hwins.run hinvariant hrow after hrespected.2
  refine ⟨row', by rwa [run_append], fun hterminal => ?_, htextless⟩
  rcases hend with hcancelled | ⟨hlive, -⟩
  · exact hcancelled
  · rw [hlive] at hterminal
    contradiction

/-- A job is taken in and claimed; while its worker records that its lock was refused,
the record in memory has already been marked by a cancellation. -/
def markedWhileBlocked : List QueueEvent :=
  let enqueued := enqueuedRecord "job-1" "bridge-1" "gen-1" 1 50
  let running := runningRecord "bridge-1" 1 "gen-2" enqueued 2 60
  [.environment [⟨"bridge-1", 100⟩] [] [],
    .persist "bridge-1" enqueued true 1,
    .claim "bridge-1" 1 "gen-2" enqueued 2 60,
    .persist "bridge-1"
      { running with
        status := .blocked
        cancellationRequested := true
        cancellationRequestedAt := some 3 }
      true 4]

def markedRow : Option QueueRow :=
  (run (queueStep plainRuntime) .empty markedWhileBlocked).job "job-1"

theorem cancellation_wins_of_blocked_job :
    ∃ row', (run (queueStep plainRuntime) .empty (markedWhileBlocked ++
        [.startupClaim "bridge-2" 2 "gen-3" "job-1" 2 false 200 250,
          .cancel "job-1" false "" 201])).job "job-1" = some row' ∧
      (row'.status.terminal = true → row'.status = .cancelled) ∧
      ResultTextless row'.resultEncrypted :=
  cancellation_wins plainRuntime markedWhileBlocked _ (by decide)
    (show (run (queueStep plainRuntime) .empty markedWhileBlocked).job "job-1"
      = some (markedRow.get (by decide)) by decide)
    (by decide) (by decide)

/-- The owner is gone and the request cannot be decrypted: the startup recovery ends the
marked row as failed. -/
theorem cancellation_wins_fails :
    markedRow.any (fun row => row.cancellationRequestedAt.isSome && !row.status.terminal) = true ∧
      ((run (queueStep plainRuntime) .empty (markedWhileBlocked ++
        markedRow.toList.map fun row => .startupFailure row true 200)).job "job-1").map
          QueueRow.status = some .failed := by
  constructor <;> decide

end AgentBridge.Queue
