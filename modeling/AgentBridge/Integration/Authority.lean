import AgentBridge.Integration.Agreement

/-!
# What a call writes after it has lost its authority

A call holds the serial lock of the repository under a lease. When the lease lapses another
process may take the lock, recover the operation and integrate patches of its own, so the
row that the call finds at its next command is whatever that process left. The call learns
of it from a refused transition or from its lease signal.
-/

namespace AgentBridge.Integration

open Journal Systems

/-! ## The call among other processes -/

/-- What happens around one command. `leaves` is the row of the operation, or its absence, as
another process leaves it that holds the lock. -/
structure SharedEnv where
  own : JournalEnv := {}
  leaves : Option (Option JournalOperation) := none

/-- What a call learns and does about its authority. -/
inductive AuthorityEvent where
  /-- The lease signal is aborted. -/
  | aborted
  /-- The call looks at the signal. -/
  | polled
  /-- A transition to `status` is refused for its lock or its owner generation. -/
  | refused (status : OperationStatus)
  | wrote (path : String)
  deriving DecidableEq

/-- The machine of a call, with what has happened to its authority, newest first. -/
structure Watched where
  machine : Machine
  history : List AuthorityEvent

/-- Another process changes the row only when the call no longer has the lock. -/
def takenOver (s : Machine) (env : SharedEnv) : Machine :=
  if s.lockOwned && !env.own.losesLock then s
  else { s with operation := env.leaves.getD s.operation }

/-- The transaction of a transition gets as far as its checks. -/
def Fault.reaches : Fault → Bool
  | .none | .after _ => true
  | .before _ | .torn .. => false

/-- The lock or the owner generation of the transition is no longer valid. -/
def authorityRefused (context : JournalContext) (transition : JournalTransition)
    (operation : Option JournalOperation) : Bool :=
  match assertIntegrationLockOwned context (transition.authority.any (·.lock)) with
  | .error _ => true
  | .ok _ =>
    match operation with
    | none => false
    | some operation =>
      match claimIntegrationOperation context transition.authority operation.row with
      | .error _ => true
      | .ok _ => false

/-- What a command tells the call about its authority, or does to the target. -/
def authorityEvents (instanceId : String) (env : JournalEnv) (s : Machine) :
    JournalCommand → List AuthorityEvent
  | .signalAborted => [.polled]
  | .transition transition =>
    if Fault.reaches env.fault && authorityRefused
        ⟨instanceId, (s.interfere env).lockOwned, env.now⟩ transition s.operation then
      [.refused transition.status]
    else []
  | .removeLeaf path | .renameInto path _ | .checkoutIndex path _ =>
    match env.fault with
    | .before _ => []
    | _ => [.wrote path]
  | _ => []

def abortEvents (env : JournalEnv) (s : Machine) : List AuthorityEvent :=
  if env.aborts && !s.aborted then [.aborted] else []

/-- Execute one command of the call among other processes. -/
def executeShared (instanceId : String) (env : SharedEnv) (s : Watched)
    (command : JournalCommand) : Watched × Except JournalError (JournalReply command) :=
  let machine := takenOver s.machine env
  let reply := execute instanceId env.own machine command
  (⟨reply.1, authorityEvents instanceId env.own machine command
      ++ (abortEvents env.own s.machine ++ s.history)⟩, reply.2)

/-- The call has not done anything yet; its signal may be aborted already. -/
def Watched.start (s : Machine) : Watched :=
  ⟨Machine.atStart s, if s.aborted then [.aborted] else []⟩

/-- Run the call among other processes, up to its end or to an interruption. -/
def integrateShared (call : IntegrationCall) (instanceId : String) (s : Machine)
    (envs : List SharedEnv) : Watched :=
  ((integratePatchWithoutSerialLock call instanceId initialLocals).run (executeShared instanceId)
    (Watched.start s) envs).1

namespace AuthorityEvent

/-- The call has lost its authority. -/
def loses : AuthorityEvent → Bool
  | aborted | refused _ => true
  | polled | wrote _ => false

def writes : AuthorityEvent → Bool
  | wrote _ => true
  | _ => false

end AuthorityEvent

/-- Once the authority was lost nothing was written. -/
def NoWriteAfterLoss (history : List AuthorityEvent) : Prop :=
  history.Pairwise fun later earlier => later.writes = true → earlier.loses = false

instance : DecidablePred NoWriteAfterLoss := fun history =>
  inferInstanceAs (Decidable (history.Pairwise _))

/-- The signal was aborted and the call has not looked at it since. -/
def abortUnseen : List AuthorityEvent → Bool
  | [] => false
  | .aborted :: _ => true
  | .polled :: _ => false
  | _ :: earlier => abortUnseen earlier

/-- The statuses that a call enters once the patch is written. -/
def followsPatch : OperationStatus → Bool
  | .appliedUnvalidated | .validating | .validated | .committed => true
  | _ => false

/-- The transitions that follow the patch find the lock and the generation of the call, and
the signal is not aborted between a look at it and a write of a file. -/
def InTime : List AuthorityEvent → Prop
  | [] => True
  | .refused status :: earlier => followsPatch status = false ∧ InTime earlier
  | .wrote _ :: earlier => abortUnseen earlier = false ∧ InTime earlier
  | _ :: earlier => InTime earlier

instance decidableInTime : DecidablePred InTime
  | [] => isTrue trivial
  | .refused status :: earlier =>
    have := decidableInTime earlier
    inferInstanceAs (Decidable (followsPatch status = false ∧ InTime earlier))
  | .wrote _ :: earlier =>
    have := decidableInTime earlier
    inferInstanceAs (Decidable (abortUnseen earlier = false ∧ InTime earlier))
  | .aborted :: earlier => decidableInTime earlier
  | .polled :: earlier => decidableInTime earlier

/-! ## The history of a call that has not lost its authority -/

variable {history : List AuthorityEvent} {event : AuthorityEvent}

theorem InTime.tail (h : InTime (event :: history)) : InTime history := by
  cases event with
  | aborted | polled => exact h
  | refused | wrote => exact h.2

theorem InTime.of_append {earlier : List AuthorityEvent} :
    ∀ {later : List AuthorityEvent}, InTime (later ++ earlier) → InTime earlier
  | [], h => h
  | _ :: _, h => InTime.of_append (InTime.tail h)

theorem NoWriteAfterLoss.cons (h : NoWriteAfterLoss history) (hevent : event.writes = false) :
    NoWriteAfterLoss (event :: history) := by
  refine List.pairwise_cons.mpr ⟨fun earlier _ hwrites => ?_, h⟩
  rw [hevent] at hwrites
  cases hwrites

theorem NoWriteAfterLoss.append {later : List AuthorityEvent} (h : NoWriteAfterLoss history)
    (hlater : ∀ event ∈ later, event.writes = false) : NoWriteAfterLoss (later ++ history) := by
  induction later with
  | nil => exact h
  | cons event later ih =>
    have hrest := ih fun event' hevent' => hlater event' (List.mem_cons_of_mem _ hevent')
    exact hrest.cons (hlater event List.mem_cons_self)

/-- No transition was refused, and no abort of the signal has been seen. -/
structure Unaware (history : List AuthorityEvent) : Prop where
  unrefused : ∀ status, .refused status ∉ history
  unseen : .aborted ∈ history → abortUnseen history = true
  harmless : NoWriteAfterLoss history

theorem Unaware.aborted (h : Unaware history) : Unaware (.aborted :: history) where
  unrefused status hmem := h.unrefused status (by simpa using hmem)
  unseen _ := rfl
  harmless := h.harmless.cons rfl

theorem Unaware.polled (h : Unaware history) (hclear : .aborted ∉ history) :
    Unaware (.polled :: history) where
  unrefused status hmem := h.unrefused status (by simpa using hmem)
  unseen hmem := absurd (by simpa using hmem) hclear
  harmless := h.harmless.cons rfl

/-- What is written while no abort is unseen is written with authority. -/
theorem Unaware.wrote {path : String} (h : Unaware history)
    (hinTime : InTime (.wrote path :: history)) : Unaware (.wrote path :: history) := by
  have hclear : .aborted ∉ history := by
    intro hmem
    have hunseen := h.unseen hmem
    rw [hinTime.1] at hunseen
    cases hunseen
  refine ⟨fun status hmem => h.unrefused status (by simpa using hmem), fun hmem => ?_,
    List.pairwise_cons.mpr ⟨fun earlier hearlier _ => ?_, h.harmless⟩⟩
  · exact absurd (by simpa using hmem) hclear
  · cases earlier with
    | aborted => exact absurd hearlier hclear
    | refused status => exact absurd hearlier (h.unrefused status)
    | polled | wrote => rfl

/-! ## One command -/

variable {instanceId : String} {s : Watched} {env : SharedEnv} {command : JournalCommand}

/-- No command touches the signal or the lock row. -/
theorem execute_flags (env : JournalEnv) (s : Machine) (command : JournalCommand) :
    (execute instanceId env s command).1.aborted = (s.aborted || env.aborts) ∧
      (execute instanceId env s command).1.lockOwned = (s.lockOwned && !env.losesLock) := by
  cases command <;>
    simp only [execute, answering, reading, writing, committing] <;>
    (try split) <;> exact ⟨rfl, rfl⟩

theorem takenOver_flags (s : Machine) (env : SharedEnv) :
    (takenOver s env).aborted = s.aborted ∧ (takenOver s env).lockOwned = s.lockOwned := by
  unfold takenOver
  split <;> exact ⟨rfl, rfl⟩

theorem executeShared_aborted (env : SharedEnv) (s : Watched) (command : JournalCommand) :
    (executeShared instanceId env s command).1.machine.aborted =
      (s.machine.aborted || env.own.aborts) := by
  show (execute instanceId env.own (takenOver s.machine env) command).1.aborted = _
  rw [(execute_flags _ _ _).1, (takenOver_flags _ _).1]

theorem executeShared_lockOwned (env : SharedEnv) (s : Watched) (command : JournalCommand) :
    (executeShared instanceId env s command).1.machine.lockOwned =
      (s.machine.lockOwned && !env.own.losesLock) := by
  show (execute instanceId env.own (takenOver s.machine env) command).1.lockOwned = _
  rw [(execute_flags _ _ _).2, (takenOver_flags _ _).2]

/-- A lost lock stays lost. -/
theorem executeShared_unlocked (env : SharedEnv) (command : JournalCommand)
    (h : s.machine.lockOwned = false) :
    (executeShared instanceId env s command).1.machine.lockOwned = false := by
  rw [executeShared_lockOwned, h]
  rfl

theorem executeShared_history (env : SharedEnv) (s : Watched) (command : JournalCommand) :
    (executeShared instanceId env s command).1.history =
      authorityEvents instanceId env.own (takenOver s.machine env) command
        ++ (abortEvents env.own s.machine ++ s.history) := rfl

theorem inTime_of_executeShared
    (h : InTime (executeShared instanceId env s command).1.history) :
    InTime (abortEvents env.own s.machine ++ s.history) :=
  InTime.of_append h

theorem authorityEvents_of_not_checks (env : JournalEnv) (s : Machine)
    (h : command.checksAuthority = false) :
    authorityEvents instanceId env s command = [] ∨
      ∃ path ∈ command.target, authorityEvents instanceId env s command = [.wrote path] := by
  cases command with
  | signalAborted | insertOperation | transition => cases h
  | removeLeaf path | renameInto path | checkoutIndex path =>
    simp only [authorityEvents, JournalCommand.target]
    cases env.fault <;> simp
  | _ => exact .inl rfl

theorem writes_authorityEvents_eq_false (env : JournalEnv) (s : Machine) (h : command.target = [])
    {event : AuthorityEvent} (hevent : event ∈ authorityEvents instanceId env s command) :
    event.writes = false := by
  cases command with
  | removeLeaf | renameInto | checkoutIndex => cases h
  | signalAborted =>
    cases List.mem_singleton.mp hevent
    rfl
  | transition transition =>
    simp only [authorityEvents] at hevent
    split at hevent
    · cases List.mem_singleton.mp hevent
      rfl
    · cases hevent
  | _ => cases hevent

/-- The call does not know of any loss of its authority, and every abort of its signal is in
the history. -/
structure Calm (s : Watched) : Prop where
  linked : s.machine.aborted = true ↔ .aborted ∈ s.history
  unaware : Unaware s.history

theorem Calm.interfered (h : Calm s) (env : JournalEnv) :
    ((s.machine.aborted || env.aborts) = true ↔
        .aborted ∈ abortEvents env s.machine ++ s.history) ∧
      Unaware (abortEvents env s.machine ++ s.history) := by
  unfold abortEvents
  cases haborted : s.machine.aborted with
  | true => simpa [h.linked.mp haborted] using h.unaware
  | false =>
    have hclear : .aborted ∉ s.history := fun hmem => by
      rw [h.linked.mpr hmem] at haborted
      cases haborted
    cases env.aborts with
    | true => simpa using h.unaware.aborted
    | false => simpa [hclear] using h.unaware

/-- As long as the condition is met, the call does not know of any loss. -/
def Authorized (s : Watched) : Prop :=
  InTime s.history → Calm s

/-- As long as the condition is met, nothing was written after a loss. -/
def Harmless (s : Watched) : Prop :=
  InTime s.history → NoWriteAfterLoss s.history

theorem Authorized.harmless (h : Authorized s) : Harmless s :=
  fun hinTime => (h hinTime).unaware.harmless

/-- Nothing but a transition can tell the call; a look at the signal may not be taken. -/
theorem Authorized.executeShared (h : Authorized s) (hchecks : command.checksAuthority = false) :
    Authorized (executeShared instanceId env s command).1 := by
  intro hinTime
  have ⟨hlinked, hunaware⟩ :=
    (h (inTime_of_executeShared hinTime).of_append).interfered env.own
  rw [executeShared_history] at hinTime
  refine ⟨?_, ?_⟩ <;> rw [executeShared_history]
  · rw [executeShared_aborted, hlinked]
    cases authorityEvents_of_not_checks env.own (takenOver s.machine env) hchecks with
    | inl hnone => rw [hnone, List.nil_append]
    | inr hwrote =>
      obtain ⟨path, _, hwrote⟩ := hwrote
      rw [hwrote]
      simp
  · cases authorityEvents_of_not_checks env.own (takenOver s.machine env) hchecks with
    | inl hnone => rwa [hnone]
    | inr hwrote =>
      obtain ⟨path, _, hwrote⟩ := hwrote
      rw [hwrote] at hinTime ⊢
      exact hunaware.wrote hinTime

theorem writes_abortEvents_eq_false (env : JournalEnv) (s : Machine) {event : AuthorityEvent}
    (hevent : event ∈ abortEvents env s) : event.writes = false := by
  unfold abortEvents at hevent
  split at hevent
  · cases List.mem_singleton.mp hevent
    rfl
  · cases hevent

/-- A command without a target harms nothing. -/
theorem Harmless.executeShared (h : Harmless s) (htarget : command.target = []) :
    Harmless (executeShared instanceId env s command).1 := by
  intro hinTime
  have hbefore := h (inTime_of_executeShared hinTime).of_append
  refine .append ?_ fun event => writes_authorityEvents_eq_false _ _ htarget
  exact hbefore.append fun event => writes_abortEvents_eq_false _ _

theorem executeShared_signalAborted (env : SharedEnv) (s : Watched) :
    (executeShared instanceId env s .signalAborted).2 =
      .ok (executeShared instanceId env s .signalAborted).1.machine.aborted := rfl

theorem Authorized.polled (h : Authorized s)
    (hclear : (Integration.executeShared instanceId env s .signalAborted).1.machine.aborted
      = false) :
    Authorized (Integration.executeShared instanceId env s .signalAborted).1 := by
  intro hinTime
  have ⟨hlinked, hunaware⟩ :=
    (h (inTime_of_executeShared hinTime).of_append).interfered env.own
  rw [executeShared_aborted] at hclear
  have hnone : .aborted ∉ abortEvents env.own s.machine ++ s.history := fun hmem => by
    rw [hlinked.mpr hmem] at hclear
    cases hclear
  refine ⟨?_, hunaware.polled hnone⟩
  rw [executeShared_aborted, hlinked, executeShared_history]
  simp [authorityEvents]

/-! ## Journal transactions -/

variable {context : JournalContext} {transition : JournalTransition}
  {operation : Option JournalOperation} {next : JournalOperation}

/-- A transition that commits found its lock and its generation, and kept the owner unless it
may take the row over. -/
theorem transitionOperation_ok
    (h : transitionOperation context transition operation = .ok next) :
    authorityRefused context transition operation = false ∧
      (transition.authority.any (·.lock) = true → context.lockOwned = true) ∧
      ∃ current claimed, operation = some current ∧
        claimIntegrationOperation context transition.authority current.row = .ok claimed ∧
        next.row.ownerInstanceId = claimed.ownerInstanceId ∧
        next.row.ownerGeneration = claimed.ownerGeneration := by
  unfold transitionOperation transitionIntegrationOperation at h
  simp only [bind, Except.bind, throw, throwThe, MonadExceptOf.throw, pure, Except.pure] at h
  unfold authorityRefused
  cases hassert : assertIntegrationLockOwned context (transition.authority.any (·.lock)) with
  | error error =>
    rw [hassert] at h
    split at h
    · cases h
    · rename_i hrow
      split at hrow <;> cases hrow
  | ok _ =>
    have hlock : transition.authority.any (·.lock) = true → context.lockOwned = true := by
      intro hany
      unfold assertIntegrationLockOwned at hassert
      rw [hany] at hassert
      cases howned : context.lockOwned with
      | true => rfl
      | false => simp [howned] at hassert
    rw [hassert] at h
    cases operation with
    | none =>
      split at h
      · cases h
      · rename_i hrow
        split at hrow <;> cases hrow
    | some current =>
      cases hclaim : claimIntegrationOperation context transition.authority current.row with
      | error error =>
        simp only [Option.map_some, hclaim] at h
        split at h
        · cases h
        · rename_i hrow
          split at hrow <;> cases hrow
      | ok claimed =>
        refine ⟨by simp only [hclaim], hlock, current, claimed, rfl, hclaim, ?_⟩
        simp only [Option.map_some, hclaim] at h
        split at h
        · cases h
        · rename_i row hrow
          cases h
          split at hrow
          · cases hrow
          · split at hrow
            · cases hrow
              exact ⟨rfl, rfl⟩
            · split at hrow
              · cases hrow
              · cases hrow
                exact ⟨rfl, rfl⟩

/-- The row is the call's own as long as it has the lock. -/
def Ours (call : IntegrationCall) (instanceId : String) (s : Machine) : Prop :=
  s.lockOwned = true → ∀ operation, s.operation = some operation →
    operation.row.ownerInstanceId = instanceId ∧
      operation.row.ownerGeneration = call.ownerGeneration

variable {call : IntegrationCall}

theorem Ours.takenOver {s : Machine} (h : Ours call instanceId s)
    (hkept : (s.lockOwned && !env.own.losesLock) = true) :
    ∀ operation, (takenOver s env).operation = some operation →
      operation.row.ownerInstanceId = instanceId ∧
        operation.row.ownerGeneration = call.ownerGeneration := by
  unfold Integration.takenOver
  rw [if_pos hkept]
  exact h (Bool.and_eq_true_iff.mp hkept).1

theorem claimIntegrationOperation_ours {row : IntegrationOperation}
    (howner : row.ownerInstanceId = context.instanceId)
    (hgeneration : row.ownerGeneration = call.ownerGeneration) :
    claimIntegrationOperation context (some call.authority) row = .ok row := by
  simp [claimIntegrationOperation, IntegrationCall.authority, howner, hgeneration]

/-- What a transaction reads around a command. -/
def SharedEnv.journalContext (env : SharedEnv) (instanceId : String) (s : Machine) : JournalContext :=
  ⟨instanceId, ((takenOver s env).interfere env.own).lockOwned, env.own.now⟩

theorem SharedEnv.journalContext_lockOwned (env : SharedEnv) (instanceId : String) (s : Machine) :
    (env.journalContext instanceId s).lockOwned = (s.lockOwned && !env.own.losesLock) := by
  show ((takenOver s env).lockOwned && !env.own.losesLock) = _
  rw [(takenOver_flags s env).2]

/-- A transition commits the row that it makes, or throws and leaves the row alone. -/
theorem executeShared_transition_cases (instanceId : String) (env : SharedEnv) (s : Watched)
    (transition : JournalTransition) :
    (∃ next, transitionOperation (env.journalContext instanceId s.machine) transition
          (takenOver s.machine env).operation = .ok next ∧
        (executeShared instanceId env s (.transition transition)).1.machine.operation
          = some next) ∨
      (∃ error, (executeShared instanceId env s (.transition transition)).2 = .error error) ∧
        (executeShared instanceId env s (.transition transition)).1.machine.operation
          = (takenOver s.machine env).operation := by
  have hexec : executeShared instanceId env s (.transition transition) =
      (⟨(committing ((takenOver s.machine env).interfere env.own) env.own
          (transitionOperation (env.journalContext instanceId s.machine) transition
            (takenOver s.machine env).operation)).1, _⟩,
        (committing ((takenOver s.machine env).interfere env.own) env.own
          (transitionOperation (env.journalContext instanceId s.machine) transition
            (takenOver s.machine env).operation)).2) := rfl
  rw [hexec]
  rcases committing_cases ((takenOver s.machine env).interfere env.own) env.own
      (transitionOperation (env.journalContext instanceId s.machine) transition
        (takenOver s.machine env).operation)
    with ⟨next, hnext, h⟩ | ⟨next, error, hnext, h⟩ | ⟨error, h⟩
  · rw [h]
    exact .inl ⟨next, hnext, rfl⟩
  · rw [h]
    exact .inl ⟨next, hnext, rfl⟩
  · rw [h]
    exact .inr ⟨⟨error, rfl⟩, rfl⟩

theorem authorityEvents_transition_cases (instanceId : String) (env : SharedEnv) (s : Machine)
    (transition : JournalTransition) :
    authorityEvents instanceId env.own (takenOver s env) (.transition transition) = [] ∨
      authorityRefused (env.journalContext instanceId s) transition (takenOver s env).operation
          = true ∧
        authorityEvents instanceId env.own (takenOver s env) (.transition transition)
          = [.refused transition.status] := by
  show (if Fault.reaches env.own.fault && authorityRefused (env.journalContext instanceId s)
      transition (takenOver s env).operation then [AuthorityEvent.refused transition.status]
    else []) = [] ∨ _
  split
  · next hrefused =>
    exact .inr ⟨(Bool.and_eq_true_iff.mp hrefused).2, if_pos hrefused⟩
  · exact .inl rfl

theorem authorityEvents_transition (env : SharedEnv) (s : Machine)
    (h : authorityRefused (env.journalContext instanceId s) transition (takenOver s env).operation
      = false) :
    authorityEvents instanceId env.own (takenOver s env) (.transition transition) = [] := by
  show (if _ && authorityRefused (env.journalContext instanceId s) transition
    (takenOver s env).operation then _ else _) = _
  rw [h]
  simp

/-- A command that tells nothing about the authority and writes nothing leaves the call
unaware. -/
theorem Authorized.executeShared_of_nil (h : Authorized s)
    (hnil : authorityEvents instanceId env.own (Integration.takenOver s.machine env) command
      = []) : Authorized (Integration.executeShared instanceId env s command).1 := by
  intro hinTime
  have ⟨hlinked, hunaware⟩ :=
    (h (inTime_of_executeShared hinTime).of_append).interfered env.own
  refine ⟨?_, ?_⟩ <;> rw [executeShared_history, hnil, List.nil_append]
  · rw [executeShared_aborted, hlinked]
  · exact hunaware

theorem committed_of_ok
    (hok : (executeShared instanceId env s (.transition transition)).2 = .ok ()) :
    ∃ next, transitionOperation (env.journalContext instanceId s.machine) transition
      (takenOver s.machine env).operation = .ok next := by
  cases executeShared_transition_cases instanceId env s transition with
  | inl hcommitted =>
    obtain ⟨next, hnext, _⟩ := hcommitted
    exact ⟨next, hnext⟩
  | inr hthrew =>
    obtain ⟨⟨error, herror⟩, _⟩ := hthrew
    rw [herror] at hok
    cases hok

theorem lockOwned_of_ok (hlock : transition.authority.any (·.lock) = true)
    (hok : (executeShared instanceId env s (.transition transition)).2 = .ok ()) :
    s.machine.lockOwned = true := by
  obtain ⟨next, hnext⟩ := committed_of_ok hok
  have howned := (transitionOperation_ok hnext).2.1 hlock
  rw [SharedEnv.journalContext_lockOwned] at howned
  exact (Bool.and_eq_true_iff.mp howned).1

/-- A transition that returns leaves the call unaware. -/
theorem Authorized.committed (h : Authorized s)
    (hok : (Integration.executeShared instanceId env s (.transition transition)).2 = .ok ()) :
    Authorized (Integration.executeShared instanceId env s (.transition transition)).1 := by
  obtain ⟨next, hnext⟩ := committed_of_ok hok
  exact h.executeShared_of_nil
    (authorityEvents_transition env s.machine (transitionOperation_ok hnext).1)

/-! ## The call at work -/

theorem claimIntegrationOperation_eq {authority : JournalAuthority}
    {row claimed : IntegrationOperation} (htakeover : authority.allowTakeover = false)
    (h : claimIntegrationOperation context (some authority) row = .ok claimed) :
    claimed = row := by
  simp only [claimIntegrationOperation, htakeover, Bool.false_eq_true, if_false] at h
  split at h
  · cases h
  · cases h
    rfl

/-- The call does not know of any loss, and its row is its own while it has the lock. -/
structure Active (call : IntegrationCall) (instanceId : String) (s : Watched) : Prop where
  authorized : Authorized s
  ours : Ours call instanceId s.machine

/-- Nothing was written after a loss, and the lock is gone. -/
structure Deposed (s : Watched) : Prop where
  harmless : Harmless s
  unlocked : s.machine.lockOwned = false

theorem Ours.executeShared (h : Ours call instanceId s.machine)
    (htransaction : command.transaction = false) :
    Ours call instanceId (Integration.executeShared instanceId env s command).1.machine := by
  intro howned operation hoperation
  rw [executeShared_lockOwned] at howned
  have hkept : (Integration.executeShared instanceId env s command).1.machine.operation
      = (Integration.takenOver s.machine env).operation :=
    (Writes.execute env.own (Integration.takenOver s.machine env) htransaction).operation
  exact h.takenOver howned operation (hkept ▸ hoperation)

theorem Active.executeShared (h : Active call instanceId s)
    (hchecks : command.checksAuthority = false) (htransaction : command.transaction = false) :
    Active call instanceId (Integration.executeShared instanceId env s command).1 :=
  ⟨h.authorized.executeShared hchecks, h.ours.executeShared htransaction⟩

/-- The lock row lost its owner when a transition of the call is refused. -/
theorem unlocked_of_refused (h : Ours call instanceId s.machine)
    (hauthority : transition.authority = some call.authority)
    (hrefused : authorityRefused (env.journalContext instanceId s.machine) transition
      (takenOver s.machine env).operation = true) :
    (s.machine.lockOwned && !env.own.losesLock) = false := by
  cases hkept : s.machine.lockOwned && !env.own.losesLock with
  | false => rfl
  | true =>
    have howned := env.journalContext_lockOwned instanceId s.machine
    rw [hkept] at howned
    have hassert : assertIntegrationLockOwned (env.journalContext instanceId s.machine)
        (transition.authority.any (·.lock)) = .ok () := by
      simp [assertIntegrationLockOwned, howned]
    unfold authorityRefused at hrefused
    rw [hassert] at hrefused
    cases hoperation : (takenOver s.machine env).operation with
    | none => simp [hoperation] at hrefused
    | some operation =>
      have ⟨howner, hgeneration⟩ := h.takenOver hkept operation hoperation
      have hclaim : claimIntegrationOperation (env.journalContext instanceId s.machine)
          (some call.authority) operation.row = .ok operation.row :=
        claimIntegrationOperation_ours howner hgeneration
      simp [hoperation, hauthority, hclaim] at hrefused

theorem Ours.moved (h : Ours call instanceId s.machine)
    (hauthority : transition.authority = some call.authority) :
    Ours call instanceId
      (Integration.executeShared instanceId env s (.transition transition)).1.machine := by
  intro howned operation hoperation
  rw [executeShared_lockOwned] at howned
  have hbefore := h.takenOver howned
  cases executeShared_transition_cases instanceId env s transition with
  | inl hcommitted =>
    obtain ⟨next, hnext, hset⟩ := hcommitted
    have ⟨_, _, current, claimed, hcurrent, hclaim, howner, hgeneration⟩ :=
      transitionOperation_ok hnext
    rw [hauthority] at hclaim
    have hsame := claimIntegrationOperation_eq rfl hclaim
    have ⟨howner', hgeneration'⟩ := hbefore current hcurrent
    rw [hset] at hoperation
    cases hoperation
    rw [howner, hgeneration, hsame]
    exact ⟨howner', hgeneration'⟩
  | inr hthrew => exact hbefore operation (hthrew.2 ▸ hoperation)

/-- How a transition of the call ends: the call goes on unaware of any loss, or it was refused
and the lock is gone. -/
theorem Active.moved (h : Active call instanceId s)
    (hauthority : transition.authority = some call.authority) :
    Active call instanceId
        (Integration.executeShared instanceId env s (.transition transition)).1 ∨
      (followsPatch transition.status = false ∧
        Deposed (Integration.executeShared instanceId env s (.transition transition)).1 ∧
        (Integration.executeShared instanceId env s (.transition transition)).2 ≠ .ok ()) := by
  cases authorityEvents_transition_cases instanceId env s.machine transition with
  | inl hnil =>
    exact .inl ⟨h.authorized.executeShared_of_nil hnil, h.ours.moved hauthority⟩
  | inr hrefused =>
    obtain ⟨hrefused, hevents⟩ := hrefused
    have hunlocked : (Integration.executeShared instanceId env s
        (.transition transition)).1.machine.lockOwned = false := by
      rw [executeShared_lockOwned]
      exact unlocked_of_refused h.ours hauthority hrefused
    cases hfollows : followsPatch transition.status with
    | true =>
      refine .inl ⟨fun hinTime => ?_, fun howned => by rw [hunlocked] at howned; cases howned⟩
      rw [executeShared_history, hevents] at hinTime
      rw [hinTime.1] at hfollows
      cases hfollows
    | false =>
      refine .inr ⟨rfl, ⟨h.authorized.harmless.executeShared rfl, hunlocked⟩, fun hok => ?_⟩
      obtain ⟨next, hnext⟩ := committed_of_ok hok
      rw [(transitionOperation_ok hnext).1] at hrefused
      cases hrefused

end AgentBridge.Integration
