import AgentBridge.Queue.Row
import AgentBridge.Systems.Revision
import AgentBridge.Systems.Run

/-!
# Claims on the auto-integration of a job

`lib/queue/auto-integration.js` integrates the patch of a completed job without a
review. Several bridge processes may find the same job, so a process first claims it in
the terminal row, integrates, and records the outcome in the same place. Every one of
these writes is `patchTerminalQueueSummary`: read the row, decide, and update it if its
revision is still the one that was read.

The system below is one row and any number of processes. A process that integrates a
group of jobs claims them up front and claims each again before its batch; on the row
of one job that is one more claim. An event is one database step of one process, the
start or the end of a process, or a write of the rest of the bridge to the row.
-/

namespace AgentBridge.Queue

open Systems

structure BridgeInstanceId where
  processId : Nat
  startedAt : Nat
  random : String
  processId_pos : 0 < processId
  deriving DecidableEq

inductive AutoIntegrationStatus where
  | integrating | waitingForLock
  | committed | alreadyCommitted | skippedNotNewFiles | failed | appliedNotCommitted
  deriving DecidableEq

def AutoIntegrationStatus.final : AutoIntegrationStatus → Bool
  | committed | alreadyCommitted | skippedNotNewFiles | failed | appliedNotCommitted => true
  | integrating | waitingForLock => false

/-- `autoIntegration` in the record of a job. -/
structure AutoIntegration where
  status : AutoIntegrationStatus
  /-- `none` is an absent or empty text. -/
  claimedBy : Option BridgeInstanceId
  /-- The time `at`; `none` is a text that `Date.parse` does not read. -/
  since : Stamp
  worktreeSweepDone : Bool
  /-- The other fields of an outcome, as JSON text. -/
  details : String

structure IntegratedJob where
  status : QueueStatus
  /-- `summary.cancellationRequested || summary.cancellationRequestedAt` -/
  cancellationRequested : Bool
  autoIntegration : Option AutoIntegration

def autoIntegrationClaimStaleMs : Nat := 30 * 60000

/-- What a process finds outside the row. -/
structure BridgeHost where
  /-- The bridge processes that run. -/
  live : List BridgeInstanceId
  /-- The ids of the other processes that run. -/
  otherProcesses : List Nat
  /-- The leases in `bridge_instances`; `none` when there is no such table. -/
  bridgeInstances : Option (List (BridgeInstanceId × Nat))

def processIsAlive (host : BridgeHost) (pid : Nat) : Bool :=
  0 < pid && ((host.live.map BridgeInstanceId.processId).contains pid
    || host.otherProcesses.contains pid)

def hasLiveLease (host : BridgeHost) (now : Nat) (instanceId : BridgeInstanceId) : Bool :=
  match host.bridgeInstances with
  | none => false
  | some rows =>
    match rows.lookup instanceId with
    | none => false
    | some leaseExpiresAt => now < leaseExpiresAt

def autoIntegrationClaimerGone (host : BridgeHost) (now : Nat)
    (claimedBy : Option BridgeInstanceId) : Bool :=
  match claimedBy with
  | none => true
  | some instanceId =>
    !hasLiveLease host now instanceId && !processIsAlive host instanceId.processId

def claimAge (now : Nat) (current : AutoIntegration) : Nat :=
  now - current.since.getD 0

/-- `onlyIf` of `claimAutoIntegration` -/
def claimAllowed (host : BridgeHost) (bridgeInstanceId : BridgeInstanceId) (now : Nat)
    (row : IntegratedJob) : Bool :=
  if row.status != .completed || row.cancellationRequested then false
  else
    match row.autoIntegration with
    | none => true
    | some current =>
      if current.status.final then false
      else current.claimedBy == some bridgeInstanceId
        || autoIntegrationClaimerGone host now current.claimedBy
        || autoIntegrationClaimStaleMs < claimAge now current

/-- `onlyIf` of `recordAutoIntegrationOutcome` -/
def outcomeAllowed (bridgeInstanceId : BridgeInstanceId) (row : IntegratedJob) : Bool :=
  match row.autoIntegration with
  | none => true
  | some current => current.claimedBy == none || current.claimedBy == some bridgeInstanceId

/-- What `claimAutoIntegration` writes. -/
def claimFields (bridgeInstanceId : BridgeInstanceId) (claimedAt : Nat) : AutoIntegration where
  status := .integrating
  claimedBy := some bridgeInstanceId
  since := some claimedAt
  worktreeSweepDone := false
  details := ""

structure IntegrationOutcome where
  status : AutoIntegrationStatus
  worktreeSweepDone : Bool
  details : String

/-- What `recordAutoIntegrationOutcome` writes. -/
def outcomeFields (bridgeInstanceId : BridgeInstanceId) (recordedAt : Nat)
    (worktreeIsMissing : Bool) (fields : IntegrationOutcome) : AutoIntegration where
  status := fields.status
  claimedBy := some bridgeInstanceId
  since := some recordedAt
  worktreeSweepDone := fields.worktreeSweepDone
    || ((fields.status == .committed || fields.status == .alreadyCommitted) && worktreeIsMissing)
  details := fields.details

inductive PatchKind where
  | claim | outcome
  deriving DecidableEq

structure Patch where
  kind : PatchKind
  fields : AutoIntegration
  attempt : Nat
  /-- The row as the attempt read it, once its condition has passed. -/
  row : Option (Versioned IntegratedJob)

/-- What a process does about the job. -/
inductive IntegrationTask where
  | idle
  /-- Its claim was granted and it has not recorded an outcome. -/
  | integrating
  /-- It patches the row; `claimed` tells whether its claim was granted before. -/
  | patching (claimed : Bool) (patch : Patch)

/-- The process was granted the claim and has not recorded an outcome. -/
def IntegrationTask.claimed : IntegrationTask → Bool
  | idle => false
  | integrating => true
  | patching claimed _ => claimed

/-- The recovery pass of a process notes a cleanup on a job that it found committed. -/
structure Sweep where
  bridgeInstanceId : BridgeInstanceId
  /-- The row that the pass read first, and its `autoIntegration`. -/
  row : Versioned IntegratedJob
  found : AutoIntegration
  /-- The row as its patch read it. -/
  patchRow : Option (Versioned IntegratedJob)

structure IntegrationState where
  host : BridgeHost
  /-- Every process that ever ran; a start never reuses an instance id. -/
  started : List BridgeInstanceId
  row : Versioned IntegratedJob
  task : BridgeInstanceId → IntegrationTask
  sweeps : List Sweep

inductive IntegrationEvent where
  /-- A bridge process starts or ends. -/
  | start (bridgeInstanceId : BridgeInstanceId)
  | stop (bridgeInstanceId : BridgeInstanceId)
  /-- Leases are renewed or dropped, other processes come and go. -/
  | environment (otherProcesses : List Nat)
      (bridgeInstances : Option (List (BridgeInstanceId × Nat)))
  /-- `claimAutoIntegration` is called: the first claim of a job or its renewal. -/
  | claim (bridgeInstanceId : BridgeInstanceId) (claimedAt : Nat)
  /-- `recordAutoIntegrationOutcome` is called. -/
  | record (bridgeInstanceId : BridgeInstanceId) (recordedAt : Nat) (worktreeIsMissing : Bool)
      (fields : IntegrationOutcome)
  /-- An attempt of the patch reads the row and evaluates its condition. -/
  | read (bridgeInstanceId : BridgeInstanceId) (now : Nat)
  /-- The attempt updates the row. -/
  | write (bridgeInstanceId : BridgeInstanceId)
  /-- The integration throws. -/
  | throw (bridgeInstanceId : BridgeInstanceId)
  /-- `sweepCommittedWorktrees` finds the job and marks the sweep done on the revision it
  found, or removes the worktree, reads the row again and patches it. -/
  | sweepFind (bridgeInstanceId : BridgeInstanceId)
  | sweepMark (index : Nat)
  | sweepRead (index : Nat)
  | sweepWrite (index : Nat) (worktreeIsMissing : Bool) (worktreeCleanup : String)
  /-- Another write to the row. A terminal status stays. -/
  | other (status : QueueStatus) (cancellationRequested : Bool)

namespace IntegrationState

def setTask (s : IntegrationState) (id : BridgeInstanceId) (task : IntegrationTask) :
    IntegrationState :=
  { s with task := fun other => if other = id then task else s.task other }

end IntegrationState

/-- `onlyIf` of a patch -/
def patchAllowed (s : IntegrationState) (id : BridgeInstanceId) (now : Nat) : PatchKind → Bool
  | .claim => claimAllowed s.host id now s.row.value
  | .outcome => outcomeAllowed id s.row.value

/-- The patch attempt of a process reads the row. A row that is not terminal and a
condition that fails both end the call. -/
def readPatch (s : IntegrationState) (id : BridgeInstanceId) (now : Nat) (claimed : Bool)
    (patch : Patch) : IntegrationState :=
  if s.row.value.status.terminal && patchAllowed s id now patch.kind then
    s.setTask id (.patching claimed { patch with row := some s.row })
  else s.setTask id .idle

/-- The guarded `UPDATE`, with up to five attempts. -/
def writePatch (s : IntegrationState) (id : BridgeInstanceId) (claimed : Bool) (patch : Patch)
    (read : Versioned IntegratedJob) : IntegrationState :=
  let update := s.row.writeAt read.revision
    { read.value with autoIntegration := some patch.fields }
  if update.1 then
    { s with row := update.2 }.setTask id
      (match patch.kind with | .claim => .integrating | .outcome => .idle)
  else if patch.attempt + 1 < 5 then
    s.setTask id (.patching claimed { patch with attempt := patch.attempt + 1, row := none })
  else s.setTask id .idle

/-- What the recovery pass writes over `summary.autoIntegration`. -/
def sweepFields (found : AutoIntegration) (worktreeIsMissing : Bool) (worktreeCleanup : String) :
    AutoIntegration :=
  { found with
    worktreeSweepDone := found.worktreeSweepDone || worktreeIsMissing
    details := found.details ++ worktreeCleanup }

def sweepable (row : IntegratedJob) : Option AutoIntegration :=
  match row.autoIntegration with
  | none => none
  | some found =>
    if row.status == .completed && (found.status == .committed || found.status == .alreadyCommitted)
        && !found.worktreeSweepDone then some found
    else none

/-- `json_set(record_json, '$.autoIntegration.worktreeSweepDone', json('true'))` -/
def markSwept (row : IntegratedJob) : IntegratedJob :=
  { row with
    autoIntegration := row.autoIntegration.map fun found =>
      { found with worktreeSweepDone := true } }

def integrationStep (s : IntegrationState) : IntegrationEvent → IntegrationState
  | .start id =>
    if s.started.contains id then s
    else { s with host := { s.host with live := id :: s.host.live }, started := id :: s.started }
  | .stop id =>
    { s with
      host := { s.host with live := s.host.live.filter (· != id) }
      sweeps := s.sweeps.filter (·.bridgeInstanceId != id) }.setTask id .idle
  | .environment otherProcesses bridgeInstances =>
    { s with host := { s.host with otherProcesses, bridgeInstances } }
  | .claim id claimedAt =>
    if s.host.live.contains id then
      match s.task id with
      | .patching _ _ => s
      | task => s.setTask id
          (.patching task.claimed ⟨.claim, claimFields id claimedAt, 0, none⟩)
    else s
  | .record id recordedAt worktreeIsMissing fields =>
    match s.task id with
    | .integrating => s.setTask id
        (.patching true ⟨.outcome, outcomeFields id recordedAt worktreeIsMissing fields, 0, none⟩)
    | _ => s
  | .read id now =>
    match s.task id with
    | .patching claimed patch =>
      match patch.row with
      | none => readPatch s id now claimed patch
      | some _ => s
    | _ => s
  | .write id =>
    match s.task id with
    | .patching claimed patch =>
      match patch.row with
      | none => s
      | some read => writePatch s id claimed patch read
    | _ => s
  | .throw id => s.setTask id .idle
  | .sweepFind id =>
    if s.host.live.contains id then
      match sweepable s.row.value with
      | none => s
      | some found => { s with sweeps := s.sweeps ++ [⟨id, s.row, found, none⟩] }
    else s
  | .sweepMark index =>
    match s.sweeps[index]? with
    | none => s
    | some sweep =>
      { s with
        row := (s.row.writeAt sweep.row.revision (markSwept s.row.value)).2
        sweeps := s.sweeps.eraseIdx index }
  | .sweepRead index =>
    { s with
      sweeps := s.sweeps.modify index fun sweep =>
        if s.row.value.status.terminal then { sweep with patchRow := some s.row } else sweep }
  | .sweepWrite index worktreeIsMissing worktreeCleanup =>
    match s.sweeps[index]? with
    | none => s
    | some sweep =>
      match sweep.patchRow with
      | none => s
      | some read =>
        { s with
          row := (s.row.writeAt read.revision
            { read.value with
              autoIntegration :=
                some (sweepFields sweep.found worktreeIsMissing worktreeCleanup) }).2 }
  | .other status cancellationRequested =>
    { s with
      row := s.row.next
        { s.row.value with
          status := if s.row.value.status.terminal then s.row.value.status else status
          cancellationRequested } }

end AgentBridge.Queue
