import AgentBridge.Queue.Row

/-!
# Terminal propagation to a pipeline

When a child of a pipeline reaches a terminal status, the transaction that made it
terminal also looks at the pipeline: once a child failed or was cancelled, the
siblings that have not started are cancelled, the running ones are marked, and the
pipeline takes the terminal status.
-/

namespace AgentBridge.Queue

open Systems

inductive PropagatedParent where
  | missing
  | closed (status : PipelineStatus)
  | unchanged
  | became (status : PipelineStatus)

structure PipelinePropagation where
  pipelineId : String
  terminalStatus : QueueStatus
  parentStatus : PropagatedParent
  allChildrenTerminal : Bool

/-- `status IN ('planned', 'running')` -/
def pipelineOpen : PipelineStatus → Bool
  | .planned | .running => true
  | _ => false

/-- The jobs of a pipeline, by the relation table. -/
def isChildOf (db : QueueDb) (pipelineId jobId : String) : Bool :=
  db.children.any fun relation => relation.pipelineId = pipelineId && relation.jobId = jobId

def childrenOf (db : QueueDb) (pipelineId : String) : List QueueRow :=
  db.jobs.filter fun row => isChildOf db pipelineId row.jobId

def countsAsFailed : QueueStatus → Bool
  | .failed | .interrupted | .notResumable => true
  | _ => false

/-- `parentStatus`: a failed child fails the pipeline, else a cancelled child cancels it. -/
def terminalParentStatus (children : List QueueRow) : Option PipelineStatus :=
  if 0 < children.countP (fun row => countsAsFailed row.status) then some .failed
  else if 0 < children.countP (fun row => row.status = .cancelled) then some .cancelled
  else none

def isSibling (db : QueueDb) (pipelineId childJobId jobId : String) : Bool :=
  isChildOf db pipelineId jobId && jobId ≠ childJobId

/-- The summary once the cancellation has been written into it by `json_set`. -/
def cancelledSummary (summary : QueueRecord) (time : Nat) : QueueRecord :=
  { summary with
    status := .cancelled
    finishedAt := some time
    cancellationRequested := true
    cancellationRequestedAt := some time
    errorType := "agent_cancelled" }

/-- A job that has not started, cancelled because of its pipeline. -/
def cancelledByPipeline (row : QueueRow) (time : Nat) : QueueRow :=
  { row with
    status := .cancelled
    finishedAt := some time
    cancellationRequestedAt := some time
    heartbeatAt := none
    leaseExpiresAt := none
    childProcessId := 0
    childProcessStartedAt := none
    recordJson := cancelledSummary row.recordJson time
    revision := row.revision + 1 }

/-- A running job, marked because of its pipeline. -/
def markedByPipeline (row : QueueRow) (time : Nat) : QueueRow :=
  { row with
    cancellationRequestedAt := row.cancellationRequestedAt.or (some time)
    recordJson :=
      { row.recordJson with
        cancellationRequested := true
        cancellationRequestedAt := some time }
    revision := row.revision + 1 }

def cancelSiblings (db : QueueDb) (pipelineId childJobId : String) (time : Nat) :
    RowUpdate QueueRow where
  guard row := isSibling db pipelineId childJobId row.jobId && row.status.preExecution
  set row := cancelledByPipeline row time

def markSiblings (db : QueueDb) (pipelineId childJobId : String) (time : Nat) :
    RowUpdate QueueRow where
  guard row := isSibling db pipelineId childJobId row.jobId && row.status.active
  set row := markedByPipeline row time

def endSiblings (db : QueueDb) (pipelineId childJobId : String) (time : Nat) : List QueueRow :=
  (markSiblings db pipelineId childJobId time).exec
    ((cancelSiblings db pipelineId childJobId time).exec db.jobs)

def closePipeline (pipelineId : String) (status : PipelineStatus) (pipelines : List PipelineRow) :
    List PipelineRow :=
  pipelines.map fun pipeline =>
    if pipeline.pipelineId = pipelineId && pipelineOpen pipeline.status then
      { pipeline with status := status }
    else pipeline

def propagatePipelineTerminalInTransaction (db : QueueDb) (childJobId : String)
    (terminalStatus : QueueStatus) (time : Nat) : Option PipelinePropagation × QueueDb :=
  match db.children.find? (fun relation => relation.jobId = childJobId) with
  | none => (none, db)
  | some relation =>
    let pipelineId := relation.pipelineId
    match db.pipelines.find? (fun pipeline => pipeline.pipelineId = pipelineId) with
    | none => (some ⟨pipelineId, terminalStatus, .missing, false⟩, db)
    | some parent =>
      if pipelineOpen parent.status then
        let children := childrenOf db pipelineId
        let allChildrenTerminal := children.all fun row => row.status.terminal
        match terminalParentStatus children with
        | none => (some ⟨pipelineId, terminalStatus, .unchanged, allChildrenTerminal⟩, db)
        | some status =>
          (some ⟨pipelineId, terminalStatus, .became status, allChildrenTerminal⟩,
            { db with
              jobs := endSiblings db pipelineId childJobId time
              pipelines := closePipeline pipelineId status db.pipelines })
      else (some ⟨pipelineId, terminalStatus, .closed parent.status, false⟩, db)

section

variable {R : QueueRow → QueueRow → Prop} {New : QueueRow → Prop} {db : QueueDb}
variable {childJobId : String} {time : Nat}

/-- Propagation only cancels or marks other jobs, by their status. -/
theorem propagate_evolves (hrefl : ∀ row, R row row) (htrans : ∀ a b c, R a b → R b c → R a c)
    (hcancel : ∀ row, row.jobId ≠ childJobId → row.status.preExecution = true →
      R row (cancelledByPipeline row time))
    (hmark : ∀ row, row.jobId ≠ childJobId → row.status.active = true →
      R row (markedByPipeline row time))
    (terminalStatus : QueueStatus) :
    Evolves QueueRow.jobId R New db.jobs
      (propagatePipelineTerminalInTransaction db childJobId terminalStatus time).2.jobs := by
  have hend : ∀ pipelineId, Evolves QueueRow.jobId R New db.jobs
      (endSiblings db pipelineId childJobId time) := by
    intro pipelineId
    have hfirst : Evolves QueueRow.jobId R New db.jobs
        ((cancelSiblings db pipelineId childJobId time).exec db.jobs) := by
      refine .exec hrefl (fun _ => rfl) fun row _ hguard => ?_
      simp only [cancelSiblings, isSibling, Bool.and_eq_true, decide_eq_true_eq] at hguard
      exact hcancel row hguard.1.2 hguard.2
    refine hfirst.trans htrans (.exec hrefl (fun _ => rfl) fun row _ hguard => ?_)
    simp only [markSiblings, isSibling, Bool.and_eq_true, decide_eq_true_eq] at hguard
    exact hmark row hguard.1.2 hguard.2
  simp only [propagatePipelineTerminalInTransaction]
  split
  · exact .refl hrefl
  · split
    · exact .refl hrefl
    · split
      · split
        · exact .refl hrefl
        · exact hend _
      · exact .refl hrefl

end

end AgentBridge.Queue
