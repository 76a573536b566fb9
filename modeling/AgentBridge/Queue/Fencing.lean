import AgentBridge.Queue.Terminal

/-!
# Owner generations fence

A process that makes a job its own draws a generation that nobody has drawn before.
The records it keeps carry an owner and a generation that were drawn together, or
were read from a row. The system below adds to the database what has been drawn so
far and which claims succeeded; an event that needs a record or a generation nobody
can have is skipped.

Two facts carry the fence: a generation belongs to one process, and a row's generation
only changes to a fresh one.
-/

namespace AgentBridge.Queue

open Systems List Bool

variable {runtime : QueueRuntime} {db : QueueDb} {event : QueueEvent}

structure QueueClaim where
  jobId : String
  bridgeInstanceId : String
  generation : String

structure OwnerGeneration where
  generation : String
  bridgeInstanceId : String
  deriving DecidableEq

structure FencedState where
  db : QueueDb
  drawn : List OwnerGeneration
  claims : List QueueClaim

inductive FencedEvent where
  | draw (bridgeInstanceId generation : String)
  | queue (event : QueueEvent)

namespace FencedState

def initial : FencedState := ⟨.empty, [], []⟩

/-- `randomBytes(12)`: not empty, and not drawn before. -/
def fresh (s : FencedState) (generation : String) : Bool :=
  generation ≠ "" && s.drawn.all fun owner => owner.generation ≠ generation

/-- An owner and a generation a record can carry: drawn together, or of a job without
an owner. -/
def known (s : FencedState) (bridgeInstanceId generation : String) : Bool :=
  s.drawn.contains ⟨generation, bridgeInstanceId⟩ || (bridgeInstanceId = "" && generation = "")

/-- The events that the processes can bring about. -/
def possible (s : FencedState) : QueueEvent → Bool
  | .persist bridgeInstanceId record _ _ | .persistWithEnvelope bridgeInstanceId record _
  | .renew bridgeInstanceId record _ _ | .reacquire bridgeInstanceId record _ _
  | .claim bridgeInstanceId _ _ record _ _ =>
    bridgeInstanceId ≠ "" && s.known record.ownerInstanceId record.ownerGeneration
  | .startupClaim bridgeInstanceId _ freshGeneration .. =>
    bridgeInstanceId ≠ "" && s.fresh freshGeneration
  | _ => true

end FencedState

def QueueEvent.draws : QueueEvent → List OwnerGeneration
  | startupClaim bridgeInstanceId _ freshGeneration .. => [⟨freshGeneration, bridgeInstanceId⟩]
  | _ => []

/-- The claim that the event makes, if it succeeds. -/
def QueueEvent.claims (runtime : QueueRuntime) (db : QueueDb) : QueueEvent → List QueueClaim
  | claim bridgeInstanceId processId freshGeneration record heartbeatAt leaseExpiresAt =>
    if (claimQueueRecord runtime db bridgeInstanceId processId freshGeneration record heartbeatAt
        leaseExpiresAt).1 = .claimed then
      [⟨record.jobId, bridgeInstanceId, record.ownerGeneration⟩]
    else []
  | startupClaim bridgeInstanceId processId freshGeneration jobId expectedRevision
      requestHasRetryPolicy now leaseExpiresAt =>
      if (claimPersistedQueueRecordForStartup runtime db bridgeInstanceId processId freshGeneration
          jobId expectedRevision requestHasRetryPolicy now leaseExpiresAt).1.isSome then
        [⟨jobId, bridgeInstanceId, freshGeneration⟩]
      else []
  | _ => []

def fencedStep (runtime : QueueRuntime) (s : FencedState) : FencedEvent → FencedState
  | .draw bridgeInstanceId generation =>
    if bridgeInstanceId ≠ "" && s.fresh generation then
      { s with drawn := s.drawn ++ [⟨generation, bridgeInstanceId⟩] }
    else s
  | .queue event =>
    if s.possible event then
      { db := queueStep runtime s.db event
        drawn := s.drawn ++ event.draws
        claims := s.claims ++ event.claims runtime s.db }
    else s

/-- The job and the generation of the record an event writes with. -/
def QueueEvent.carries : QueueEvent → Option (String × String)
  | persist _ record _ _ | persistWithEnvelope _ record _ | renew _ record _ _
  | reacquire _ record _ _ | claim _ _ _ record _ _ => some (record.jobId, record.ownerGeneration)
  | _ => none

/-- The child of a released pipeline that no longer runs is cancelled by any claim, under
the row's own owner and generation. -/
def OrphanCancelled (db : QueueDb) (event : QueueEvent) (row row' : QueueRow) : Prop :=
  ∃ parent bridgeInstanceId processId freshGeneration record heartbeatAt leaseExpiresAt,
    event = .claim bridgeInstanceId processId freshGeneration record heartbeatAt leaseExpiresAt ∧
      closedParent (db.parent row.jobId) row = some parent ∧
      row' = cancelledByPipeline row heartbeatAt

/-- No two processes hold a claim of one row under its current generation. -/
def ExclusiveClaims (s : FencedState) : Prop :=
  ∀ row ∈ s.db.jobs, ∀ first ∈ s.claims, ∀ second ∈ s.claims,
    first.jobId = row.jobId → second.jobId = row.jobId →
    first.generation = row.ownerGeneration → second.generation = row.ownerGeneration →
    first.bridgeInstanceId = second.bridgeInstanceId

/-! ### Stale writes -/

theorem QueueEvent.subject_of_carries {jobId generation : String}
    (h : event.carries = some (jobId, generation)) : event.subject = some jobId := by
  cases event <;> simp_all [QueueEvent.carries, QueueEvent.subject]

theorem QueueEvent.carries_of_commits {bridgeInstanceId : String} {record : QueueRecord}
    (h : event.commits runtime = some (bridgeInstanceId, record)) :
    event.carries = some (record.jobId, record.ownerGeneration) := by
  cases event with
  | persist owner raw capacityAvailable now =>
    simp only [QueueEvent.commits, Option.ite_none_right_eq_some, Option.some.injEq,
      Prod.mk.injEq] at h
    simp [QueueEvent.carries, ← h.2.2]
  | persistWithEnvelope owner raw now =>
    simp only [QueueEvent.commits, Option.some.injEq, Prod.mk.injEq] at h
    simp [QueueEvent.carries, ← h.2, envelopedRecord]
  | _ => simp [QueueEvent.commits] at h

theorem QueueWrite.orphan_of_stale {row row' : QueueRow} {generation : String}
    (h : QueueWrite runtime db event row row')
    (hcarries : event.carries = some (row.jobId, generation))
    (hstale : row.ownerGeneration ≠ generation) : OrphanCancelled db event row row' := by
  have hsubject := QueueEvent.subject_of_carries hcarries
  cases h with
  | siblingCancelled _ other | siblingMarked _ other => exact absurd hsubject other
  | unstartedCancelled | cancellationMarked | abandoned | takenOver | startupFailed
  | summaryRewritten => simp [QueueEvent.carries] at hcarries
  | orphanCancelled parent job closed => exact ⟨_, _, _, _, _, _, _, rfl, closed, rfl⟩
  | rewritten _ owned | renewed _ owned | retaken owned | claimed _ owned =>
    simp only [QueueEvent.carries, Option.some.injEq, Prod.mk.injEq] at hcarries
    have hgeneration := owned.generation
    simp_all
  | unstartedEnded _ _ _ commits owned | activeEnded _ _ _ commits owned
  | activeCancelled _ _ commits owned =>
    have hrecord := QueueEvent.carries_of_commits commits
    rw [hcarries, Option.some.injEq, Prod.mk.injEq] at hrecord
    exact absurd (owned.generation.trans hrecord.2.symm) hstale

theorem QueueWrites.orphan_of_stale {row row' : QueueRow} {generation : String}
    (h : QueueWrites runtime db event row row')
    (hcarries : event.carries = some (row.jobId, generation))
    (hstale : row.ownerGeneration ≠ generation) :
    row' = row ∨ OrphanCancelled db event row row' := by
  induction h with
  | refl => exact .inl rfl
  | tail _ hwrite ih =>
    rcases ih with rfl | ⟨parent, _, _, _, _, _, _, -, -, rfl⟩
    · exact .inr (hwrite.orphan_of_stale hcarries hstale)
    · -- The orphaned child is cancelled, so no claim finds it claimable again.
      obtain ⟨_, _, _, _, _, _, _, -, closed, -⟩ := hwrite.orphan_of_stale hcarries hstale
      have hclaimable := (closedParent_spec closed).2.2.2
      simp [cancelledByPipeline, QueueStatus.claimable] at hclaimable

/-! ### Ownership -/

section

variable {bridgeInstanceId : String} {row : QueueRow} {record : QueueRecord}

@[simp] theorem nextRecord_ownerInstanceId :
    (nextRecord row (rebasedRecord bridgeInstanceId row record)).ownerInstanceId
      = record.ownerInstanceId := by
  simp only [nextRecord, rebasedRecord]
  split <;> rfl

@[simp] theorem nextRecord_ownerGeneration :
    (nextRecord row (rebasedRecord bridgeInstanceId row record)).ownerGeneration
      = record.ownerGeneration := by
  simp only [nextRecord, rebasedRecord]
  split <;> rfl

end

theorem QueueWrite.ownership {row row' : QueueRow} (h : QueueWrite runtime db event row row') :
    (row'.ownerInstanceId = row.ownerInstanceId ∧ row'.ownerGeneration = row.ownerGeneration) ∨
      (∃ bridgeInstanceId record capacityAvailable now,
        event = .persist bridgeInstanceId record capacityAvailable now ∧
        row'.ownerInstanceId = record.ownerInstanceId ∧
        row'.ownerGeneration = record.ownerGeneration ∧
        row.ownerGeneration = record.ownerGeneration) ∨
      ∃ owner ∈ event.draws, row'.ownerInstanceId = owner.bridgeInstanceId ∧
        row'.ownerGeneration = owner.generation := by
  cases h with
  | rewritten next owned patch =>
    refine .inr (.inl ⟨_, _, _, _, rfl, ?_, ?_, ?_⟩)
    · simp [rewriteOwned, patch]
    · simp [rewriteOwned, patch]
    · simpa using owned.generation
  | takenOver resumed patch recoverable =>
    refine .inr (.inr ⟨_, mem_singleton_self _, ?_, ?_⟩)
    · rw [patch]; rfl
    · rw [patch]; rfl
  | _ => exact .inl ⟨rfl, rfl⟩

/-! ### The invariant -/

structure FenceInvariant (s : FencedState) : Prop where
  unique : UniqueJobs s.db
  /-- A generation belongs to the one process that drew it. -/
  bound : ∀ first ∈ s.drawn, ∀ second ∈ s.drawn, first.generation = second.generation →
    first.bridgeInstanceId = second.bridgeInstanceId
  drawn : ∀ owner ∈ s.drawn, owner.generation ≠ ""
  rows : ∀ row ∈ s.db.jobs, s.known row.ownerInstanceId row.ownerGeneration = true
  claims : ∀ claim ∈ s.claims, ⟨claim.generation, claim.bridgeInstanceId⟩ ∈ s.drawn

namespace FencedState

variable {s : FencedState} {bridgeInstanceId generation : String}

theorem known_iff : s.known bridgeInstanceId generation = true ↔
    ⟨generation, bridgeInstanceId⟩ ∈ s.drawn ∨ (bridgeInstanceId = "" ∧ generation = "") := by
  simp [known]

theorem fresh_iff : s.fresh generation = true ↔
    generation ≠ "" ∧ ∀ owner ∈ s.drawn, owner.generation ≠ generation := by
  simp [fresh]

end FencedState

theorem fenceInvariant_initial : FenceInvariant .initial where
  unique := uniqueJobs_empty
  bound := by simp [FencedState.initial]
  drawn := by simp [FencedState.initial]
  rows := by simp [FencedState.initial, QueueDb.empty]
  claims := by simp [FencedState.initial]

/-- Drawing fresh generations keeps every generation with one process. -/
theorem FenceInvariant.bound_append {s : FencedState} (h : FenceInvariant s)
    {owner : OwnerGeneration} (hfresh : s.fresh owner.generation = true) :
    ∀ first ∈ s.drawn ++ [owner], ∀ second ∈ s.drawn ++ [owner],
      first.generation = second.generation → first.bridgeInstanceId = second.bridgeInstanceId := by
  obtain ⟨-, hfresh⟩ := FencedState.fresh_iff.mp hfresh
  intro first hfirst second hsecond heq
  rw [mem_append, mem_singleton] at hfirst hsecond
  rcases hfirst with hfirst | rfl <;> rcases hsecond with hsecond | rfl
  · exact h.bound first hfirst second hsecond heq
  · exact absurd heq (hfresh first hfirst)
  · exact absurd heq.symm (hfresh second hsecond)
  · rfl

theorem FenceInvariant.draw {s : FencedState} (h : FenceInvariant s)
    (bridgeInstanceId generation : String) :
    FenceInvariant (fencedStep runtime s (.draw bridgeInstanceId generation)) := by
  simp only [fencedStep]
  split
  · rename_i hfresh
    rw [and_eq_true] at hfresh
    refine ⟨h.unique, h.bound_append hfresh.2, ?_, ?_, ?_⟩
    · intro owner howner
      rcases mem_append.mp howner with howner | howner
      · exact h.drawn owner howner
      · rw [mem_singleton.mp howner]
        exact (FencedState.fresh_iff.mp hfresh.2).1
    · intro row hrow
      rcases FencedState.known_iff.mp (h.rows row hrow) with hdrawn | hunowned
      · exact FencedState.known_iff.mpr (.inl (mem_append_left _ hdrawn))
      · exact FencedState.known_iff.mpr (.inr hunowned)
    · exact fun claim hclaim => mem_append_left _ (h.claims claim hclaim)
  · exact h

/-- A claim before a run succeeds only for the row's owner under its generation. -/
theorem claimQueueRecord_claimed {bridgeInstanceId : String} {processId : Nat}
    {freshGeneration : String} {record : QueueRecord} {heartbeatAt leaseExpiresAt : Nat}
    (h : (claimQueueRecord runtime db bridgeInstanceId processId freshGeneration record heartbeatAt
      leaseExpiresAt).1 = .claimed) :
    ∃ row, db.job record.jobId = some row ∧ row.ownerInstanceId = bridgeInstanceId ∧
      row.ownerGeneration = record.ownerGeneration := by
  simp only [claimQueueRecord] at h
  split at h
  · contradiction
  next row hrow =>
    split at h
    · split at h <;> contradiction
    · split at h
      · rename_i hallowed
        simp only [rowClaimable, and_eq_true, decide_eq_true_eq] at hallowed
        exact ⟨row, hrow, hallowed.2.1.1.1.1.2, hallowed.2.1.1.1.2⟩
      · split at h <;> contradiction

theorem known_step {s : FencedState} (hpossible : s.possible event = true) {row row' : QueueRow}
    (h : QueueWrites runtime s.db event row row')
    (hrow : (fencedStep runtime s (.queue event)).known row.ownerInstanceId row.ownerGeneration
      = true) :
    (fencedStep runtime s (.queue event)).known row'.ownerInstanceId row'.ownerGeneration
      = true := by
  induction h with
  | refl => exact hrow
  | tail _ hwrite ih =>
    rcases hwrite.ownership with ⟨howner, hgeneration⟩ |
      ⟨_, record, _, _, rfl, howner, hgeneration, -⟩ | ⟨owner, hdraws, howner, hgeneration⟩
    · rwa [howner, hgeneration]
    · rw [howner, hgeneration, FencedState.known_iff]
      have hknown := hpossible
      simp only [FencedState.possible, and_eq_true] at hknown
      rcases FencedState.known_iff.mp hknown.2 with hdrawn | hunowned
      · refine .inl ?_
        simp only [fencedStep, if_pos hpossible]
        exact mem_append_left _ hdrawn
      · exact .inr hunowned
    · rw [howner, hgeneration, FencedState.known_iff]
      refine .inl ?_
      simp only [fencedStep, if_pos hpossible]
      exact mem_append_right _ hdraws

theorem draws_fresh {s : FencedState} (hpossible : s.possible event = true) :
    event.draws = [] ∨ ∃ owner, event.draws = [owner] ∧ s.fresh owner.generation = true := by
  cases event with
  | startupClaim =>
    simp only [FencedState.possible, and_eq_true] at hpossible
    exact .inr ⟨_, rfl, hpossible.2⟩
  | _ => exact .inl rfl

theorem FenceInvariant.claim_drawn {s : FencedState} (h : FenceInvariant s)
    (hpossible : s.possible event = true) {claim : QueueClaim}
    (hclaim : claim ∈ event.claims runtime s.db) :
    ⟨claim.generation, claim.bridgeInstanceId⟩ ∈ s.drawn ++ event.draws := by
  cases event with
  | claim bridgeInstanceId processId freshGeneration record heartbeatAt leaseExpiresAt =>
    simp only [QueueEvent.claims] at hclaim
    split at hclaim
    · rename_i hclaimed
      obtain rfl := mem_singleton.mp hclaim
      obtain ⟨row, hrow, howner, hgeneration⟩ := claimQueueRecord_claimed hclaimed
      have hknown := h.rows row (lookup_some hrow).1
      rw [howner, hgeneration, FencedState.known_iff] at hknown
      simp only [FencedState.possible, and_eq_true, decide_eq_true_eq] at hpossible
      rcases hknown with hdrawn | ⟨hempty, -⟩
      · exact mem_append_left _ hdrawn
      · exact absurd hempty hpossible.1
    · simp at hclaim
  | startupClaim =>
    simp only [QueueEvent.claims] at hclaim
    split at hclaim
    · obtain rfl := mem_singleton.mp hclaim
      exact mem_append_right _ (mem_singleton_self _)
    · simp at hclaim
  | _ => simp [QueueEvent.claims] at hclaim

theorem FenceInvariant.queue {s : FencedState} (h : FenceInvariant s)
    (hpossible : s.possible event = true) :
    FenceInvariant (fencedStep runtime s (.queue event)) := by
  have hstep : fencedStep runtime s (.queue event)
      = ⟨queueStep runtime s.db event, s.drawn ++ event.draws,
          s.claims ++ event.claims runtime s.db⟩ := if_pos hpossible
  have hkept : ∀ bridgeInstanceId generation, s.known bridgeInstanceId generation = true →
      (fencedStep runtime s (.queue event)).known bridgeInstanceId generation = true := by
    intro bridgeInstanceId generation hknown
    rw [hstep, FencedState.known_iff]
    rcases FencedState.known_iff.mp hknown with hdrawn | hunowned
    · exact .inl (mem_append_left _ hdrawn)
    · exact .inr hunowned
  refine ⟨?unique, ?bound, ?drawn, ?rows, ?claims⟩
  case unique =>
    rw [hstep]
    exact uniqueJobs_step s.db event h.unique
  case bound =>
    rw [hstep]
    rcases draws_fresh hpossible with hnone | ⟨owner, hdraws, hfresh⟩
    · simpa [hnone] using h.bound
    · simpa only [hdraws] using h.bound_append hfresh
  case drawn =>
    rw [hstep]
    intro owner howner
    rcases mem_append.mp howner with howner | howner
    · exact h.drawn owner howner
    · rcases draws_fresh hpossible with hnone | ⟨new, hdraws, hfresh⟩
      · simp [hnone] at howner
      · rw [hdraws, mem_singleton] at howner
        exact howner ▸ (FencedState.fresh_iff.mp hfresh).1
  case rows =>
    intro row' hrow'
    rw [hstep] at hrow'
    rcases Evolves.origin (queueStep_writtenBy runtime h.unique event) hrow' with
      ⟨row, hrow, hwrites⟩ | ⟨new, hnew, hwrites⟩
    · exact known_step hpossible hwrites (hkept _ _ (h.rows row hrow))
    · refine known_step hpossible hwrites (hkept _ _ ?_)
      cases hnew with
      | inserted =>
        simp only [FencedState.possible, and_eq_true] at hpossible
        simpa [insertedRow] using hpossible.2
  case claims =>
    rw [hstep]
    intro claim hclaim
    rcases mem_append.mp hclaim with hclaim | hclaim
    · exact mem_append_left _ (h.claims claim hclaim)
    · exact h.claim_drawn hpossible hclaim

theorem fenceInvariant_step (runtime : QueueRuntime) (s : FencedState) (event : FencedEvent)
    (h : FenceInvariant s) :
    FenceInvariant (fencedStep runtime s event) := by
  cases event with
  | draw bridgeInstanceId generation => exact h.draw bridgeInstanceId generation
  | queue event =>
    by_cases hpossible : s.possible event = true
    · exact h.queue hpossible
    · simpa only [fencedStep, if_neg hpossible] using h

theorem fenceInvariant_run (runtime : QueueRuntime) (events : List FencedEvent) :
    FenceInvariant (run (fencedStep runtime) .initial events) :=
  run_preserves (fenceInvariant_step runtime) fenceInvariant_initial events

theorem FenceInvariant.exclusiveClaims {s : FencedState} (h : FenceInvariant s) :
    ExclusiveClaims s := by
  intro row _ first hfirst second hsecond _ _ hgeneration hgeneration'
  exact h.bound _ (h.claims first hfirst) _ (h.claims second hsecond)
    (hgeneration.trans hgeneration'.symm)

/-! ### A generation does not come back -/

/-- A generation that a row can have had: none, or a drawn one. -/
def FencedState.past (s : FencedState) (generation : String) : Prop :=
  generation = "" ∨ ∃ owner ∈ s.drawn, owner.generation = generation

theorem FencedState.past_of_known {s : FencedState} {bridgeInstanceId generation : String}
    (h : s.known bridgeInstanceId generation = true) : s.past generation := by
  rcases FencedState.known_iff.mp h with hdrawn | ⟨-, hempty⟩
  · exact .inr ⟨_, hdrawn, rfl⟩
  · exact .inl hempty

theorem FencedState.past_step (runtime : QueueRuntime) {s : FencedState} {generation : String}
    (h : s.past generation)
    (event : FencedEvent) : (fencedStep runtime s event).past generation := by
  rcases h with hempty | ⟨owner, howner, hgeneration⟩
  · exact .inl hempty
  · refine .inr ⟨owner, ?_, hgeneration⟩
    cases event <;> simp only [fencedStep] <;> split <;> simp [howner]

theorem QueueWrites.generation_ne {s : FencedState} (hpossible : s.possible event = true)
    {generation : String} (hpast : s.past generation) {row row' : QueueRow}
    (h : QueueWrites runtime s.db event row row') (hrow : row.ownerGeneration ≠ generation) :
    row'.ownerGeneration ≠ generation := by
  induction h with
  | refl => exact hrow
  | tail _ hwrite ih =>
    rcases hwrite.ownership with ⟨-, hsame⟩ | ⟨_, _, _, _, -, -, hrecord, hsame⟩ |
      ⟨owner, hdraws, -, hdrawn⟩
    · rwa [hsame]
    · rwa [hrecord, ← hsame]
    · rw [hdrawn]
      rcases draws_fresh hpossible with hnone | ⟨new, hnew, hfresh⟩
      · simp [hnone] at hdraws
      · rw [hnew, mem_singleton] at hdraws
        obtain ⟨hnonempty, hunused⟩ := FencedState.fresh_iff.mp (hdraws ▸ hfresh)
        rcases hpast with hempty | ⟨other, hother, hgeneration⟩
        · exact hempty ▸ hnonempty
        · exact fun heq => hunused other hother (hgeneration.trans heq.symm)

/-- A step keeps the row and keeps it away from a past generation. -/
theorem fencedStep_job (runtime : QueueRuntime) {s : FencedState} (h : FenceInvariant s)
    {generation : String}
    (hpast : s.past generation) {jobId : String} {row : QueueRow}
    (hrow : s.db.job jobId = some row) (hne : row.ownerGeneration ≠ generation)
    (event : FencedEvent) :
    ∃ row', (fencedStep runtime s event).db.job jobId = some row' ∧
      row'.ownerGeneration ≠ generation := by
  cases event with
  | draw bridgeInstanceId drawn =>
    refine ⟨row, ?_, hne⟩
    simp only [fencedStep]
    split <;> exact hrow
  | queue event =>
    simp only [fencedStep]
    split
    · rename_i hpossible
      obtain ⟨row', hrow', hwrites⟩ := queueStep_job runtime h.unique event hrow
      exact ⟨row', hrow', hwrites.generation_ne hpossible hpast hne⟩
    · exact ⟨row, hrow, hne⟩

theorem fencedRun_job {s : FencedState} (h : FenceInvariant s) {generation : String}
    (hpast : s.past generation) {jobId : String} {row : QueueRow}
    (hrow : s.db.job jobId = some row) (hne : row.ownerGeneration ≠ generation)
    (events : List FencedEvent) :
    ∃ row', (run (fencedStep runtime) s events).db.job jobId = some row' ∧
      row'.ownerGeneration ≠ generation := by
  induction events generalizing s row with
  | nil => exact ⟨row, hrow, hne⟩
  | cons event events ih =>
    obtain ⟨next, hnext, hne'⟩ := fencedStep_job runtime h hpast hrow hne event
    exact ih (fenceInvariant_step runtime s event h) (FencedState.past_step runtime hpast event)
      hnext hne'

/-- A write that carries a generation the row has moved on from. -/
theorem fencedStep_stale (runtime : QueueRuntime) {s : FencedState} (h : FenceInvariant s)
    {jobId generation : String} {row : QueueRow} (hrow : s.db.job jobId = some row)
    (hcarries : event.carries = some (jobId, generation))
    (hne : row.ownerGeneration ≠ generation) :
    ∃ row', (fencedStep runtime s (.queue event)).db.job jobId = some row' ∧
      (row' = row ∨ OrphanCancelled s.db event row row') := by
  simp only [fencedStep]
  split
  · obtain ⟨row', hrow', hwrites⟩ := queueStep_job runtime h.unique event hrow
    obtain ⟨-, rfl⟩ := lookup_some hrow
    exact ⟨row', hrow', hwrites.orphan_of_stale hcarries hne⟩
  · exact ⟨row, hrow, .inl rfl⟩

/-- In every run no two processes hold a claim of one row under its current generation;
and once a step has given the row a new generation, no later write that carries the
previous one changes the row, except that a claim cancels the child of a closed
pipeline. -/
theorem owner_generation_fencing (runtime : QueueRuntime) :
    (∀ events, ExclusiveClaims (run (fencedStep runtime) .initial events)) ∧
    ∀ (before between : List FencedEvent) (takeover : FencedEvent) (stale : QueueEvent)
      (jobId : String) (old new row : QueueRow),
      (run (fencedStep runtime) .initial before).db.job jobId = some old →
      (run (fencedStep runtime) .initial (before ++ [takeover])).db.job jobId = some new →
      new.ownerGeneration ≠ old.ownerGeneration →
      (run (fencedStep runtime) .initial (before ++ [takeover] ++ between)).db.job jobId
        = some row →
      stale.carries = some (jobId, old.ownerGeneration) →
      ∃ row', (run (fencedStep runtime) .initial
          (before ++ [takeover] ++ between ++ [.queue stale])).db.job jobId = some row' ∧
        (row' = row ∨ OrphanCancelled
          (run (fencedStep runtime) .initial (before ++ [takeover] ++ between)).db stale row
          row') := by
  refine ⟨fun events => (fenceInvariant_run runtime events).exclusiveClaims, ?_⟩
  intro before between takeover stale jobId old new row hold hnew htakeover hrow hstale
  have hbefore := fenceInvariant_run runtime before
  have hpast : (run (fencedStep runtime) .initial before).past old.ownerGeneration :=
    FencedState.past_of_known (hbefore.rows old (lookup_some hold).1)
  have hafter := FencedState.past_step runtime hpast takeover
  have hinvariant := fenceInvariant_run runtime (before ++ [takeover])
  simp only [run_append, run_cons, run_nil] at hnew hrow hinvariant ⊢
  obtain ⟨current, hcurrent, hne⟩ := fencedRun_job hinvariant hafter hnew htakeover between
  obtain rfl := Option.some.inj (hrow.symm.trans hcurrent)
  have hbetween := run_preserves (fenceInvariant_step runtime) hinvariant between
  exact fencedStep_stale runtime hbetween hrow hstale hne

/-- A process takes a child of a pipeline in and dies. -/
def abandonedChild : List FencedEvent :=
  [.draw "bridge-1" "gen-1",
    .queue (.environment [⟨"bridge-1", 50⟩] [⟨"pipeline-1", .running, .released⟩]
      [⟨"pipeline-1", "job-1"⟩]),
    .queue (.persist "bridge-1" (enqueuedRecord "job-1" "bridge-1" "gen-1" 1 50) true 1)]

/-- Another process takes its job over. -/
def takenOverChild : FencedEvent :=
  .queue (.startupClaim "bridge-2" 2 "gen-2" "job-1" 0 false 200 250)

def rowAfter (events : List FencedEvent) : Option QueueRow :=
  (run (fencedStep plainRuntime) .initial events).db.job "job-1"

theorem owner_generation_fencing_of_takeover :
    ∃ row', rowAfter (abandonedChild ++ [takenOverChild] ++ [] ++ [.queue (.reacquire "bridge-1"
        (enqueuedRecord "job-1" "bridge-1" "gen-1" 1 50) 210 260)]) = some row' ∧
      (row' = (rowAfter (abandonedChild ++ [takenOverChild])).get (by decide) ∨
        OrphanCancelled (run (fencedStep plainRuntime) .initial
          (abandonedChild ++ [takenOverChild] ++ [])).db
          (.reacquire "bridge-1" (enqueuedRecord "job-1" "bridge-1" "gen-1" 1 50) 210 260)
          ((rowAfter (abandonedChild ++ [takenOverChild])).get (by decide)) row') :=
  (owner_generation_fencing plainRuntime).2 abandonedChild [] takenOverChild _ "job-1"
    ((rowAfter abandonedChild).get (by decide))
    ((rowAfter (abandonedChild ++ [takenOverChild])).get (by decide)) _
    (by decide) (by decide) (by decide) (by decide)
    (by decide)

/-- The pipeline has failed meanwhile: the claim of the first process, made with the
generation it lost, still changes the row. -/
theorem owner_generation_fencing_fails :
    (rowAfter abandonedChild).map QueueRow.ownerGeneration = some "gen-1" ∧
      (rowAfter (abandonedChild ++ [takenOverChild])).map QueueRow.ownerGeneration
        = some "gen-2" ∧
      (rowAfter (abandonedChild ++ [takenOverChild,
        .queue (.environment [⟨"bridge-2", 300⟩] [⟨"pipeline-1", .failed, .released⟩]
          [⟨"pipeline-1", "job-1"⟩])])).map QueueRow.status = some .pending ∧
      (rowAfter (abandonedChild ++ [takenOverChild,
        .queue (.environment [⟨"bridge-2", 300⟩] [⟨"pipeline-1", .failed, .released⟩]
          [⟨"pipeline-1", "job-1"⟩]),
        .queue (.claim "bridge-1" 1 "gen-3" (enqueuedRecord "job-1" "bridge-1" "gen-1" 1 50) 210
          260)])).map QueueRow.status = some .cancelled := by
  refine ⟨?_, ?_, ?_, ?_⟩ <;> decide

end AgentBridge.Queue
