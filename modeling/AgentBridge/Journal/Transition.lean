import AgentBridge.Journal.Operation

/-!
# Transitions of a journal row

`transitionIntegrationOperation` reads the row and writes it back inside one
immediate transaction. What it does to the row is a function of the row, the
lock row that its guard reads and the caller's authority; a thrown error rolls
the transaction back.
-/

namespace AgentBridge

/-- A thrown error. `transientCause` says that its code or its text names a busy
database, a locked file or a timeout. -/
structure JournalError where
  errorType : String
  transientCause : Bool

def JournalError.ofType (errorType : String) : JournalError := ⟨errorType, false⟩

def integrationRecoveryErrorIsTransient (error : JournalError) : Bool :=
  error.transientCause
    || ["integration_journal_cas_rejected", "integration_lock_ownership_lost",
      "integration_index_snapshot_failed", "integration_target_state_failed"].contains
        error.errorType

/-- The `authority` argument. `lock` says that it carries a serial integration
lock; the empty `ownerGeneration` claims no ownership. -/
structure JournalAuthority where
  lock : Bool
  ownerGeneration : String
  allowTakeover : Bool

structure JournalTransition where
  expectedStatuses : List OperationStatus
  status : OperationStatus
  resultJson : String
  authority : Option JournalAuthority

/-- `INTEGRATION_JOURNAL_TERMINAL` -/
def OperationStatus.terminal (status : OperationStatus) : Bool :=
  status.resolved || status == .quarantined

/-- What `assertIntegrationLockOwned` and the transaction read besides the row. -/
structure JournalContext where
  instanceId : String
  lockOwned : Bool
  now : Nat

def assertIntegrationLockOwned (context : JournalContext) (lock : Bool) :
    Except JournalError Unit :=
  if lock && !context.lockOwned then .error (.ofType "integration_lock_ownership_lost")
  else .ok ()

/-- The row after the ownership check: taken over where the authority allows it. -/
def claimIntegrationOperation (context : JournalContext) (authority : Option JournalAuthority)
    (current : IntegrationOperation) : Except JournalError IntegrationOperation :=
  match authority with
  | none => .ok current
  | some authority =>
    if authority.ownerGeneration ≠ ""
        ∧ (current.ownerInstanceId ≠ context.instanceId
          ∨ current.ownerGeneration ≠ authority.ownerGeneration) then
      if authority.allowTakeover then
        .ok { current with
          ownerInstanceId := context.instanceId
          ownerGeneration := authority.ownerGeneration
          updatedAt := context.now
          revision := current.revision + 1 }
      else .error (.ofType "integration_journal_cas_rejected")
    else .ok current

/-- The row that the transaction commits. The compare-and-swap of its last
update cannot fail: the row was read in the same transaction. -/
def transitionIntegrationOperation (context : JournalContext) (transition : JournalTransition)
    (row : Option IntegrationOperation) : Except JournalError IntegrationOperation := do
  if transition.expectedStatuses = [] then throw (.ofType "")
  assertIntegrationLockOwned context (transition.authority.any (·.lock))
  match row with
  | none => throw (.ofType "")
  | some current =>
    let current ← claimIntegrationOperation context transition.authority current
    if current.status = transition.status then return current
    if current.status ∉ transition.expectedStatuses then
      throw (.ofType "integration_journal_cas_rejected")
    return { current with
      status := transition.status
      resultJson := transition.resultJson
      updatedAt := context.now
      finishedAt := if transition.status.terminal then some context.now else none
      revision := current.revision + 1 }

variable {context : JournalContext} {transition : JournalTransition}

theorem claimIntegrationOperation_status {authority : Option JournalAuthority}
    {current claimed : IntegrationOperation}
    (h : claimIntegrationOperation context authority current = .ok claimed) :
    claimed.status = current.status ∧ claimed.operationId = current.operationId ∧
      claimed.cwd = current.cwd := by
  unfold claimIntegrationOperation at h
  cases authority with
  | none =>
    cases h
    exact ⟨rfl, rfl, rfl⟩
  | some authority =>
    dsimp only at h
    split at h
    · split at h
      · cases h
        exact ⟨rfl, rfl, rfl⟩
      · cases h
    · cases h
      exact ⟨rfl, rfl, rfl⟩

/-- Everything a transition can do to a row: it leaves a row that already has the
status where it is, or moves an expected one. -/
theorem transitionIntegrationOperation_cases {row : Option IntegrationOperation}
    {next : IntegrationOperation}
    (h : transitionIntegrationOperation context transition row = .ok next) :
    ∃ current, row = some current ∧ next.status = transition.status ∧
      (current.status = transition.status ∨ current.status ∈ transition.expectedStatuses) ∧
      next.operationId = current.operationId ∧ next.cwd = current.cwd := by
  unfold transitionIntegrationOperation at h
  cases row with
  | none =>
    simp only [bind, Except.bind, throw, throwThe, MonadExceptOf.throw] at h
    split at h
    · cases h
    · split at h <;> cases h
  | some current =>
    simp only [bind, Except.bind, throw, throwThe, MonadExceptOf.throw, pure, Except.pure] at h
    split at h
    · cases h
    · split at h
      · cases h
      · split at h
        · cases h
        · rename_i claimed hclaim
          have ⟨hstatus, hid, hcwd⟩ := claimIntegrationOperation_status hclaim
          split at h
          · rename_i hsame
            cases h
            exact ⟨current, rfl, hsame, .inl (hstatus ▸ hsame), hid, hcwd⟩
          · split at h
            · cases h
            · rename_i hmem
              cases h
              refine ⟨current, rfl, rfl, .inr ?_, hid, hcwd⟩
              rw [← hstatus]
              exact Decidable.not_not.mp hmem

end AgentBridge
