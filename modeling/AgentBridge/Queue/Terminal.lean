import AgentBridge.Queue.Writes

/-!
# Terminal rows are absorbing

No write of any transaction takes a row out of a terminal status: every update either
asks for a status that is not terminal or, like the summary of a finished job, leaves
the status alone.
-/

namespace AgentBridge.Queue

open Systems

variable {runtime : QueueRuntime} {db : QueueDb} {event : QueueEvent}

theorem QueueWrite.summary_of_terminal {row row' : QueueRow}
    (h : QueueWrite runtime db event row row') (hterminal : row.status.terminal = true) :
    ∃ summary, row' = (rewriteSummary row summary).set row := by
  cases h with
  | summaryRewritten summary => exact ⟨summary, rfl⟩
  | siblingCancelled _ _ status | unstartedCancelled _ _ status
  | unstartedEnded _ _ _ _ _ status =>
    rw [QueueStatus.terminal_eq_false_of_preExecution status] at hterminal
    contradiction
  | siblingMarked _ _ status | cancellationMarked _ _ status | activeEnded _ _ _ _ _ status
  | activeCancelled _ _ _ _ status =>
    rw [QueueStatus.terminal_eq_false_of_active status] at hterminal
    contradiction
  | rewritten _ _ _ _ status | abandoned status | renewed _ _ status | retaken _ _ status =>
    rw [status] at hterminal
    contradiction
  | orphanCancelled _ _ closed =>
    have status := (closedParent_spec closed).2.2.2
    rw [QueueStatus.terminal_eq_false_of_preExecution
      (QueueStatus.preExecution_of_claimable status)] at hterminal
    contradiction
  | claimed _ _ _ status =>
    rw [QueueStatus.terminal_eq_false_of_preExecution
      (QueueStatus.preExecution_of_claimable status)] at hterminal
    contradiction
  | takenOver _ _ recoverable | startupFailed _ _ _ recoverable =>
    have status := (recoverable_spec recoverable).2.1
    rw [QueueStatus.terminal_eq_false_of_preExecution status] at hterminal
    contradiction

theorem QueueWrites.status_of_terminal {row row' : QueueRow}
    (h : QueueWrites runtime db event row row') (hterminal : row.status.terminal = true) :
    row'.status = row.status := by
  induction h with
  | refl => rfl
  | tail _ hwrite ih =>
    obtain ⟨summary, rfl⟩ := hwrite.summary_of_terminal (ih ▸ hterminal)
    exact ih

/-- In every run, a row that is terminal once keeps its status. -/
theorem terminal_status_absorbing (hunique : UniqueJobs db) {jobId : String} {row : QueueRow}
    (hrow : db.job jobId = some row) (hterminal : row.status.terminal = true)
    (events : List QueueEvent) :
    ∃ row', (run (queueStep runtime) db events).job jobId = some row' ∧
      row'.status = row.status := by
  induction events generalizing db row with
  | nil => exact ⟨row, hrow, rfl⟩
  | cons event events ih =>
    obtain ⟨next, hnext, hwrites⟩ := queueStep_job runtime hunique event hrow
    have hstatus := hwrites.status_of_terminal hterminal
    obtain ⟨row', hrow', heq⟩ :=
      ih (uniqueJobs_step db event hunique) hnext (hstatus ▸ hterminal)
    exact ⟨row', hrow', heq.trans hstatus⟩

def completedRow : QueueRow :=
  insertedRow plainRuntime
    { enqueuedRecord "job-1" "bridge-1" "gen-1" 0 10 with status := .completed }

theorem terminal_status_absorbing_of_completed :
    ∃ row', (run (queueStep plainRuntime) { QueueDb.empty with jobs := [completedRow] }
        [.cancel "job-1" false "" 1, .reconcile "bridge-1" [] 20]).job "job-1" = some row' ∧
      row'.status = .completed :=
  terminal_status_absorbing (by simp [UniqueJobs])
    (show QueueDb.job { QueueDb.empty with jobs := [completedRow] } "job-1" = some completedRow by
      decide)
    (by decide) _

end AgentBridge.Queue
