import AgentBridge.Queue.Cancellation

/-!
# A closed pipeline leaves no child unmarked

A transaction that ends a child propagates the end to the pipeline it belongs to. When
that fails or cancels the pipeline, every child of it is terminal or carries a
cancellation request, and no later write of a row takes that away.
-/

namespace AgentBridge.Queue

open Systems List Bool

variable {runtime : QueueRuntime} {db db' db'' : QueueDb} {event : QueueEvent}

/-- The job has ended, or it has been asked to. -/
def Ended (row : QueueRow) : Prop :=
  row.status.terminal = true ∨ row.cancellationRequestedAt.isSome = true

def ChildrenEnded (db : QueueDb) (pipelineId : String) : Prop :=
  ∀ row ∈ db.jobs, isChildOf db pipelineId row.jobId = true → Ended row

/-- `SELECT status FROM opencode_pipelines WHERE pipeline_id = ?` -/
def pipelineStatus (db : QueueDb) (pipelineId : String) : Option PipelineStatus :=
  (db.pipelines.find? fun pipeline => pipeline.pipelineId = pipelineId).map PipelineRow.status

/-- Every child has a job: `FOREIGN KEY (job_id)`. -/
def ChildrenLinked (db : QueueDb) : Prop :=
  ∀ relation ∈ db.children, (db.job relation.jobId).isSome = true

structure ClosedByChild (db : QueueDb) (pipelineId : String) : Prop where
  ended : ChildrenEnded db pipelineId
  child : ∃ relation ∈ db.children, relation.pipelineId = pipelineId

/-- The children stay and keep their marks, and a pipeline whose status changed was closed
by a child. -/
structure PropagationStep (db db' : QueueDb) : Prop where
  unique : UniqueJobs db → UniqueJobs db'
  children : db'.children = db.children
  pipelines : db'.pipelines.map PipelineRow.pipelineId = db.pipelines.map PipelineRow.pipelineId
  ended : ∀ pipelineId, ChildrenEnded db pipelineId → ChildrenEnded db' pipelineId
  closed : ∀ pipelineId, pipelineStatus db' pipelineId ≠ pipelineStatus db pipelineId →
    ClosedByChild db' pipelineId

variable {update : RowUpdate QueueRow}

/-- An update that keeps the ids, whatever it writes. -/
theorem exec_evolves (key : ∀ row, (update.set row).jobId = row.jobId) (rows : List QueueRow) :
    Evolves QueueRow.jobId (fun _ _ => True) (fun _ => True) rows (update.exec rows) :=
  .exec (fun _ => trivial) key fun _ _ _ => trivial

namespace PropagationStep

theorem refl (db : QueueDb) : PropagationStep db db :=
  ⟨id, rfl, rfl, fun _ h => h, fun _ h => absurd rfl h⟩

theorem trans (first : PropagationStep db db') (second : PropagationStep db' db'') :
    PropagationStep db db'' := by
  refine ⟨second.unique ∘ first.unique, second.children.trans first.children,
    second.pipelines.trans first.pipelines, fun id h => second.ended id (first.ended id h), ?_⟩
  intro pipelineId hchanged
  by_cases hsecond : pipelineStatus db'' pipelineId = pipelineStatus db' pipelineId
  · rw [hsecond] at hchanged
    have hclosed := first.closed pipelineId hchanged
    exact ⟨second.ended pipelineId hclosed.ended, second.children ▸ hclosed.child⟩
  · exact second.closed pipelineId hsecond

/-- An update of the jobs that takes no mark away. -/
theorem exec (key : ∀ row, (update.set row).jobId = row.jobId)
    (keeps : ∀ row ∈ db.jobs, update.guard row = true → Ended row → Ended (update.set row)) :
    PropagationStep db { db with jobs := update.exec db.jobs } := by
  have hunique : UniqueJobs db → UniqueJobs { db with jobs := update.exec db.jobs } :=
    (exec_evolves key db.jobs).2
  refine ⟨hunique, rfl, rfl, ?_, fun _ h => absurd rfl h⟩
  intro pipelineId hended row' hrow' hchild
  obtain ⟨row, hrow, rfl⟩ := mem_map.mp hrow'
  by_cases hguard : update.guard row = true
  · rw [if_pos hguard] at hchild ⊢
    rw [key] at hchild
    exact keeps row hrow hguard (hended row hrow hchild)
  · rw [if_neg hguard] at hchild ⊢
    exact hended row hrow hchild

end PropagationStep

/-! ### Propagation -/

theorem ended_cancelledByPipeline (row : QueueRow) (time : Nat) :
    Ended (cancelledByPipeline row time) := .inl rfl

theorem ended_markedByPipeline (row : QueueRow) (time : Nat) :
    Ended (markedByPipeline row time) := by
  right
  show (row.cancellationRequestedAt.or (some time)).isSome = true
  cases row.cancellationRequestedAt <;> rfl

variable {childJobId pipelineId : String} {row : QueueRow}

theorem endSiblings_ended {time : Nat} (hrow : row ∈ endSiblings db pipelineId childJobId time)
    (sibling : isSibling db pipelineId childJobId row.jobId = true) : Ended row := by
  obtain ⟨middle, hmiddle, rfl⟩ := mem_map.mp hrow
  obtain ⟨first, hfirst, rfl⟩ := mem_map.mp hmiddle
  by_cases hunstarted : (cancelSiblings db pipelineId childJobId time).guard first = true
  · rw [if_pos hunstarted]
    have hmarked : (markSiblings db pipelineId childJobId time).guard
        (cancelledByPipeline first time) ≠ true := by
      simp [markSiblings, cancelledByPipeline, QueueStatus.active]
    show Ended (if (markSiblings db pipelineId childJobId time).guard
      (cancelledByPipeline first time) = true then _ else cancelledByPipeline first time)
    rw [if_neg hmarked]
    exact ended_cancelledByPipeline first time
  · rw [if_neg hunstarted] at sibling ⊢
    by_cases hactive : (markSiblings db pipelineId childJobId time).guard first = true
    · rw [if_pos hactive]
      exact ended_markedByPipeline first time
    · rw [if_neg hactive] at sibling ⊢
      left
      simp only [cancelSiblings, markSiblings, sibling, Bool.true_and, Bool.not_eq_true]
        at hunstarted hactive
      by_contra hrunning
      rcases QueueStatus.preExecution_or_active (by simpa using hrunning) with hpre | hact
      · rw [hunstarted] at hpre
        cases hpre
      · rw [hactive] at hact
        cases hact

/-- The child itself is left as it is. -/
theorem endSiblings_self {time : Nat} (hrow : row ∈ endSiblings db pipelineId childJobId time)
    (self : row.jobId = childJobId) : row ∈ db.jobs := by
  obtain ⟨middle, hmiddle, rfl⟩ := mem_map.mp hrow
  obtain ⟨first, hfirst, rfl⟩ := mem_map.mp hmiddle
  have hjob : first.jobId = childJobId := by
    rw [← self]
    split_ifs <;> rfl
  have hcancel : (cancelSiblings db pipelineId childJobId time).guard first ≠ true := by
    simp [cancelSiblings, isSibling, hjob]
  have hmark : (markSiblings db pipelineId childJobId time).guard first ≠ true := by
    simp [markSiblings, isSibling, hjob]
  rw [if_neg hcancel, if_neg hmark]
  exact hfirst

theorem closePipeline_pipelineId (pipelineId : String) (status : PipelineStatus)
    (pipelines : List PipelineRow) :
    (closePipeline pipelineId status pipelines).map PipelineRow.pipelineId
      = pipelines.map PipelineRow.pipelineId := by
  rw [closePipeline, map_map]
  apply map_congr_left
  intro pipeline _
  show (if _ then _ else pipeline).pipelineId = pipeline.pipelineId
  split_ifs <;> rfl

theorem closePipeline_status_of_ne {other : String} (status : PipelineStatus)
    (h : other ≠ pipelineId) (pipelines : List PipelineRow) :
    ((closePipeline pipelineId status pipelines).find?
        fun pipeline => pipeline.pipelineId = other).map PipelineRow.status
      = (pipelines.find? fun pipeline => pipeline.pipelineId = other).map PipelineRow.status := by
  induction pipelines with
  | nil => rfl
  | cons pipeline pipelines ih =>
    obtain ⟨name, current, batchState⟩ := pipeline
    by_cases hname : name = pipelineId
    · subst hname
      have hne : ¬ name = other := fun heq => h heq.symm
      by_cases hopen : pipelineOpen current = true
      · simpa [closePipeline, hopen, hne, List.find?_cons] using ih
      · simpa [closePipeline, hopen, hne, List.find?_cons] using ih
    · by_cases heq : name = other
      · simp [closePipeline, heq, h]
      · simpa [closePipeline, hname, heq, List.find?_cons] using ih

theorem PropagationStep.propagate (terminalStatus : QueueStatus) (time : Nat)
    (child : ∀ row ∈ db.jobs, row.jobId = childJobId → row.status.terminal = true) :
    PropagationStep db
      (propagatePipelineTerminalInTransaction db childJobId terminalStatus time).2 := by
  simp only [propagatePipelineTerminalInTransaction]
  split
  · exact .refl db
  next relation hrelation =>
    split
    · exact .refl db
    next parent hparent =>
      split
      · split
        · exact .refl db
        next status hstatus =>
          have hcancel : PropagationStep db { db with
              jobs := (cancelSiblings db relation.pipelineId childJobId time).exec db.jobs } :=
            .exec (fun _ => rfl) fun row _ _ _ => ended_cancelledByPipeline row time
          have hmark : PropagationStep
              { db with
                jobs := (cancelSiblings db relation.pipelineId childJobId time).exec db.jobs }
              { db with jobs := endSiblings db relation.pipelineId childJobId time } :=
            .exec (fun _ => rfl) fun row _ _ _ => ended_markedByPipeline row time
          refine ⟨(hcancel.trans hmark).unique, rfl, closePipeline_pipelineId ..,
            (hcancel.trans hmark).ended, ?_⟩
          intro pipelineId hchanged
          have hid : pipelineId = relation.pipelineId := by
            by_contra hne
            exact hchanged (closePipeline_status_of_ne status hne db.pipelines)
          subst hid
          refine ⟨?_, relation, mem_of_find?_eq_some hrelation, rfl⟩
          intro row hrow hchild
          by_cases hself : row.jobId = childJobId
          · exact .inl (child row (endSiblings_self hrow hself) hself)
          · have hsibling : isSibling db relation.pipelineId childJobId row.jobId = true := by
              have hchild' : isChildOf db relation.pipelineId row.jobId = true := hchild
              simp [isSibling, hself, hchild']
            exact endSiblings_ended hrow hsibling
      · exact .refl db

/-! ### The transactions -/

/-- An update of one job that ends it, followed by propagation. -/
theorem exec_terminal {jobId : String} (unique : UniqueJobs db)
    (key : ∀ row, (update.set row).jobId = row.jobId)
    (job : ∀ row, update.guard row = true → row.jobId = jobId)
    (terminal : ∀ row, (update.set row).status.terminal = true)
    (changed : 0 < update.changes db.jobs) :
    ∀ row ∈ update.exec db.jobs, row.jobId = jobId → row.status.terminal = true := by
  obtain ⟨written, hwritten, hguard⟩ := countP_pos_iff.mp changed
  intro row' hrow' hjob
  obtain ⟨row, hrow, rfl⟩ := mem_map.mp hrow'
  have hid : row.jobId = jobId := by
    rw [← hjob]
    split_ifs
    · exact (key row).symm
    · rfl
  have hsame : row = written :=
    unique.eq_of_job (unique.job_eq hwritten) hrow (hid.trans (job written hguard).symm)
  subst hsame
  rw [if_pos hguard]
  exact terminal row

theorem PropagationStep.end {jobId : String} (unique : UniqueJobs db)
    (key : ∀ row, (update.set row).jobId = row.jobId)
    (job : ∀ row, update.guard row = true → row.jobId = jobId)
    (terminal : ∀ row, (update.set row).status.terminal = true)
    (changed : 0 < update.changes db.jobs) (terminalStatus : QueueStatus) (time : Nat) :
    PropagationStep db (propagatePipelineTerminalInTransaction
      { db with jobs := update.exec db.jobs } jobId terminalStatus time).2 :=
  (PropagationStep.exec key fun row _ _ _ => .inl (terminal row)).trans
    (.propagate terminalStatus time (exec_terminal unique key job terminal changed))

theorem PropagationStep.tryCommit {terminal : QueueRecord} {won : Bool} {now : Nat}
    (unique : UniqueJobs db) (key : ∀ row, (update.set row).jobId = row.jobId)
    (job : ∀ row, update.guard row = true → row.jobId = terminal.jobId)
    (ends : ∀ row, (update.set row).status.terminal = true) :
    PropagationStep db (tryCommit db update terminal won now).db := by
  simp only [Queue.tryCommit]
  split
  next hchanged =>
    simp only [terminalCommitted, TerminalAttempt.db]
    exact .end unique key job ends (by omega) ..
  · exact .exec key fun row _ _ _ => .inl (ends row)

section

variable {bridgeInstanceId : String} {record terminal : QueueRecord} {now : Nat}

theorem PropagationStep.commitUnstarted (unique : UniqueJobs db) :
    PropagationStep db (commitUnstarted runtime db bridgeInstanceId record true now).db := by
  simp only [Queue.commitUnstarted]
  split
  · exact .refl db
  next row hrow =>
    split
    next hguard =>
      split
      · exact .refl db
      · simp only [and_eq_true, or_eq_true, decide_eq_true_eq] at hguard
        refine .tryCommit unique (fun _ => rfl) (fun other hother => ?_) fun other => ?_
        · simp only [endUnstarted, ownedAt, and_eq_true, decide_eq_true_eq] at hother
          exact hother.1.1.1.1.1
        · show (noteRetryIntent (unstartedTerminalRecord _ row now) (db.job record.jobId)
            now).status.terminal = true
          rw [noteRetryIntent_status, unstartedTerminalRecord_status]
          split
          · rfl
          · rw [terminalRecord_status]
            rcases hguard.2 with hstatus | hstatus <;> rw [hstatus] <;> rfl
    · exact .refl db

theorem PropagationStep.commitActive (attempted : Nat) (unique : UniqueJobs db)
    (ends : terminal.status.terminal = true) :
    PropagationStep db
      (commitActive runtime db bridgeInstanceId record terminal attempted now).db := by
  refine .tryCommit unique (fun _ => rfl) (fun row hrow => ?_) fun row => ends
  simp only [endActive, ownedAt, and_eq_true, decide_eq_true_eq] at hrow
  exact hrow.1.1.1.1.1.1.1

theorem PropagationStep.commitCancelled (unique : UniqueJobs db) :
    PropagationStep db
      (commitCancelled runtime db bridgeInstanceId record terminal true now).db := by
  refine commitCancelled_db (.refl db) fun observed _ => ?_
  refine .tryCommit unique (fun _ => rfl) (fun row hrow => ?_) fun row => rfl
  simp only [endCancelled, ownedAt, and_eq_true, decide_eq_true_eq] at hrow
  exact hrow.1.1.1.1.1.1

theorem PropagationStep.persistTerminal (unique : UniqueJobs db)
    (ends : ownerTerminal record.status = true) :
    PropagationStep db
      (persistTerminalQueueRecord runtime db bridgeInstanceId record true now).2.2 := by
  refine persistTerminalQueueRecord_db (.commitUnstarted unique) ?_ ?_
  · intro terminal db₁ hmissed hfirst
    obtain ⟨-, -, hstatus, -⟩ := commitUnstarted_missed hmissed
    have hterminal : terminal.status.terminal = true := by
      rcases hstatus with hsame | hcancelled
      · rw [hsame]
        exact ownerTerminal_terminal ends
      · rw [hcancelled]
        rfl
    exact hfirst.trans (.commitActive _ (hfirst.unique unique) hterminal)
  · intro terminal db₂ hsecond
    exact hsecond.trans (.commitCancelled (hsecond.unique unique))

end

theorem PropagationStep.cancel (unique : UniqueJobs db) (jobId : String) (unstartedOnly : Bool)
    (reason : String) (now : Nat) :
    PropagationStep db (cancelPersistedQueueJob runtime db jobId unstartedOnly reason now).2 := by
  simp only [cancelPersistedQueueJob]
  split
  · exact .refl db
  next observed hobserved =>
    obtain ⟨-, rfl⟩ := lookup_some hobserved
    split
    · exact .refl db
    · split
      · exact .refl db
      · split
        · split
          next hchanged =>
            exact .end unique (fun _ => rfl) (fun _ hguard => isObserved_jobId hguard)
              (fun _ => rfl) (by omega) ..
          · exact .exec (fun _ => rfl) fun row _ _ _ => .inl rfl
        · have hmark : PropagationStep db { db with
              jobs := (markCancellation runtime observed
                (observed.cancellationRequestedAt.or (some now))
                (cancellationPatch observed reason
                  (observed.cancellationRequestedAt.or (some now)))).exec db.jobs } := by
            refine .exec (fun _ => rfl) fun row _ _ hended => ?_
            right
            show (row.cancellationRequestedAt.or _).isSome = true
            simp
          split <;> exact hmark

theorem PropagationStep.reconcileRow (unique : UniqueJobs db) (bridgeInstanceId : String)
    (tracked : List String) (now : Nat) (reconciled : List String) (row : QueueRow) :
    PropagationStep db (reconcileRow runtime bridgeInstanceId tracked now (reconciled, db) row).2 := by
  simp only [Queue.reconcileRow]
  split
  · exact .refl db
  · have hjob (other : QueueRow) (hguard : (endAbandoned db bridgeInstanceId row now).guard other
        = true) : other.jobId = row.jobId := by
      simp only [endAbandoned, and_eq_true, decide_eq_true_eq] at hguard
      exact hguard.1.1.1.1.1
    split
    next hchanged =>
      exact .end unique (fun _ => rfl) hjob (fun _ => abandonedStatus_terminal row) hchanged ..
    · exact .exec (fun _ => rfl) fun _ _ _ _ => .inl (abandonedStatus_terminal row)

theorem PropagationStep.reconcile (unique : UniqueJobs db) (bridgeInstanceId : String)
    (tracked : List String) (now : Nat) :
    PropagationStep db (reconcileStaleQueueRecords runtime db bridgeInstanceId tracked now).2 := by
  have hloop (rows : List QueueRow) : ∀ state : List String × QueueDb, UniqueJobs state.2 →
      PropagationStep state.2
        (rows.foldl (Queue.reconcileRow runtime bridgeInstanceId tracked now) state).2 := by
    induction rows with
    | nil => exact fun state _ => .refl state.2
    | cons row rows ih =>
      intro state hunique
      have hrow : PropagationStep state.2
          (Queue.reconcileRow runtime bridgeInstanceId tracked now state row).2 :=
        .reconcileRow hunique bridgeInstanceId tracked now state.1 row
      exact hrow.trans (ih _ (hrow.unique hunique))
  exact hloop _ ([], db) unique

theorem PropagationStep.startupFailure (unique : UniqueJobs db) (observed : QueueRow)
    (encrypted : Bool) (failedAt : Nat) :
    PropagationStep db
      (failPersistedQueueStartupRecovery runtime db observed encrypted failedAt).2 := by
  simp only [failPersistedQueueStartupRecovery]
  split
  next hchanged =>
    exact .end unique (fun _ => rfl) (fun _ hguard => (recoverable_spec hguard).1) (fun _ => rfl)
      (by omega) ..
  · exact .exec (fun _ => rfl) fun _ _ _ _ => .inl rfl

/-! ### Every step -/

theorem QueueWrite.ended {row' : QueueRow} (h : QueueWrite runtime db event row row')
    (ended : Ended row) : Ended row' := by
  have hunstarted (hstatus : row.status.terminal = false)
      (hmark : row.cancellationRequestedAt = none) : False := by
    rcases ended with hterminal | hmarked
    · rw [hstatus] at hterminal
      cases hterminal
    · rw [hmark] at hmarked
      cases hmarked
  cases h with
  | siblingCancelled time => exact ended_cancelledByPipeline row time
  | siblingMarked time => exact ended_markedByPipeline row time
  | unstartedCancelled => exact .inl rfl
  | cancellationMarked requestedAt next status requested =>
    right
    show (row.cancellationRequestedAt.or requestedAt).isSome = true
    rw [requested]
    cases row.cancellationRequestedAt <;> rfl
  | unstartedEnded revision terminal details commits owned status ends =>
    left
    show terminal.status.terminal = true
    rcases ends with hends | hends <;> rw [hends] <;> rfl
  | activeEnded revision now terminal commits owned status unmarked =>
    exact (hunstarted (QueueStatus.terminal_eq_false_of_active status) unmarked).elim
  | activeCancelled => exact .inl rfl
  | rewritten next owned patch notTerminal status unmarked =>
    exact (hunstarted status unmarked).elim
  | abandoned => exact .inl (abandonedStatus_terminal row)
  | renewed waitInfo owned status unmarked => exact (hunstarted status unmarked).elim
  | retaken owned revision status unmarked => exact (hunstarted status unmarked).elim
  | orphanCancelled parent => exact ended_cancelledByPipeline row _
  | claimed running owned allowed status unmarked =>
    exact (hunstarted (QueueStatus.terminal_eq_false_of_preExecution
      (QueueStatus.preExecution_of_claimable status)) unmarked).elim
  | takenOver resumed patch recoverable =>
    rcases ended with hterminal | hmarked
    · have hstatus := (recoverable_spec recoverable).2.1
      rw [QueueStatus.terminal_eq_false_of_preExecution hstatus] at hterminal
      cases hterminal
    · exact .inr hmarked
  | startupFailed => exact .inl rfl
  | summaryRewritten summary status => exact .inl status

theorem QueueWrites.ended {row' : QueueRow} (h : QueueWrites runtime db event row row')
    (ended : Ended row) : Ended row' := by
  induction h with
  | refl => exact ended
  | tail _ hwrite ih => exact hwrite.ended ih

theorem queueStep_childrenEnded (unique : UniqueJobs db) (linked : ChildrenLinked db)
    (children : (queueStep runtime db event).children = db.children)
    (ended : ChildrenEnded db pipelineId) :
    ChildrenEnded (queueStep runtime db event) pipelineId := by
  intro row' hrow' hchild
  have hchild' : isChildOf db pipelineId row'.jobId = true := by
    simpa only [isChildOf, children] using hchild
  obtain ⟨relation, hrelation, hjob⟩ := any_eq_true.mp hchild'
  rw [and_eq_true, decide_eq_true_eq, decide_eq_true_eq] at hjob
  obtain ⟨row, hrow⟩ := Option.isSome_iff_exists.mp (linked relation hrelation)
  rw [hjob.2] at hrow
  obtain ⟨later, hlater, hwrites⟩ := queueStep_job runtime unique event hrow
  obtain rfl := (uniqueJobs_step db event unique).eq_of_job hlater hrow' rfl
  obtain ⟨hmem, hid⟩ := lookup_some hrow
  exact hwrites.ended (ended row hmem (hid ▸ hchild'))

/-- The transactions that only the queue makes, with the records it makes them with. -/
def QueueEvent.ordinary : QueueEvent → Bool
  | environment .. => false
  | persistWithEnvelope _ record _ => ownerTerminal record.status
  | _ => true

theorem queueStep_propagates (unique : UniqueJobs db) (linked : ChildrenLinked db)
    (ordinary : event.ordinary = true) : PropagationStep db (queueStep runtime db event) := by
  have hquiet (hpipelines : (queueStep runtime db event).pipelines = db.pipelines)
      (hchildren : (queueStep runtime db event).children = db.children) :
      PropagationStep db (queueStep runtime db event) := by
    refine ⟨uniqueJobs_step db event, hchildren, by rw [hpipelines], fun pipelineId hended =>
      queueStep_childrenEnded unique linked hchildren hended, fun pipelineId hchanged => ?_⟩
    rw [pipelineStatus, hpipelines] at hchanged
    exact absurd rfl hchanged
  cases event with
  | environment => cases ordinary
  | persist bridgeInstanceId record capacityAvailable now =>
    by_cases hterminal : ownerTerminal (preparedRecord runtime record).status = true
    · simp only [queueStep, persistQueueRecord, hterminal, if_true]
      exact .persistTerminal unique hterminal
    · apply hquiet
      all_goals
        simp only [queueStep, persistQueueRecord, hterminal, if_false, insertQueueRecord,
          updateQueueRecord, false_eq_true]
        split <;> split <;> try split
        all_goals rfl
  | persistWithEnvelope bridgeInstanceId record now => exact .persistTerminal unique ordinary
  | cancel => exact .cancel unique ..
  | reconcile => exact .reconcile unique ..
  | renew =>
    apply hquiet
    all_goals
      simp only [queueStep, renewPersistedQueueRecordLease]
      split_ifs <;> rfl
  | reacquire =>
    apply hquiet
    all_goals
      simp only [queueStep, reacquirePersistedQueueRecordLease]
      split_ifs <;> rfl
  | claim =>
    apply hquiet
    all_goals
      simp only [queueStep, claimQueueRecord]
      split
      · rfl
      · split <;> split_ifs <;> rfl
  | startupClaim =>
    apply hquiet
    all_goals
      simp only [queueStep, claimPersistedQueueRecordForStartup]
      split
      · rfl
      · split_ifs <;> rfl
  | startupFailure => exact .startupFailure unique ..
  | patchSummary =>
    apply hquiet
    all_goals
      simp only [queueStep, patchTerminalQueueSummary]
      split
      · rfl
      · split_ifs
        · split <;> rfl
        · rfl

end AgentBridge.Queue
