import AgentBridge.Queue.Retry

/-!
# The queue scheduler

`createQueueSchedulerRuntime`: the wake timer, the pass over the queued records and what follows
a pass. A pass runs up to its next `await`; while it waits, everything else in the process goes
on, and so do the calls of `scheduleQueue` that other code makes.
-/

namespace AgentBridge.Queue.Scheduler

open Providers

/-! ## Records -/

inductive JobMode where
  | read | write
  deriving DecidableEq

structure JobRequest where
  models : List String
  modelRequirement : Option ModelRequirement
  sanitizedWorkspace : Bool
  dryRun : Bool
  agent : String
  deriving DecidableEq

structure JobRecord where
  jobId : String
  status : QueueStatus
  mode : JobMode
  cwd : String
  agent : String
  request : JobRequest
  modelRequirement : Option ModelRequirement
  cancellationRequested : Bool
  errorType : String
  errorReason : String
  startAfter : Stamp
  startAfterReason : String
  queueBlockedCount : Nat
  queueBlockedRetryAt : Nat
  queueBlockedOnJobId : String
  queueBlockedOnGeneration : String
  ownerInstanceId : String
  ownerGeneration : String
  deriving DecidableEq

/-- What `findQueueWriteConflict` finds; `fromQueue` is `source === "queue"`. -/
structure Conflict where
  fromQueue : Bool
  jobId : String
  errorType : String
  reason : String
  paths : List String
  deriving DecidableEq

structure Settings where
  /-- `effectiveQueueMode() === "off"` -/
  queueOff : Bool
  /-- `effectiveQueueWriteConflictPolicy() === "reject"` -/
  rejectConflicts : Bool
  instanceId : String
  processCwd : String
  queueBlockedPollMs : Nat
  keys : KeyConfig
  /-- `activeModelOverrideAllowlist()` -/
  allowlist : List String

/-- The ends of the pauses in force, under their keys. -/
abbrev Pauses := List (String × Nat)

/-! ## The state -/

/-- What is left to do for a record once an update of its row has returned. -/
inductive AfterUpdate where
  | proceed
  | planned (held : Bool) (ownerGeneration : String)
  | blockedOn (conflict : Conflict)
  deriving DecidableEq

/-- What a pass waits for with a record. An update began with the candidate it carries. -/
inductive Await where
  | update (candidate : JobRecord) (after : AfterUpdate)
  | standing
  | pauses
  | conflict
  | start
  deriving DecidableEq

structure Pass where
  capacity : Nat
  holdStarts : Bool
  progressed : Bool
  /-- `pauseSnapshot`; a read that failed is `some none`. -/
  pauseSnapshot : Option (Option Pauses)
  cursor : Nat
  deriving DecidableEq

inductive Phase where
  | idle
  | refreshing
  | releasing (capacity : Nat) (waiting : List Nat) (now : Nat)
  | visiting (pass : Pass) (job : Nat) (statusBefore : QueueStatus) (await : Await)
  deriving DecidableEq

structure Bridge where
  now : Nat
  /-- The record objects, and the entries of the map `QUEUE_JOBS` in the order of insertion; a
  deleted entry leaves its place empty. -/
  object : Nat → JobRecord
  fresh : Nat
  entries : List (Option Nat)
  queueParallelLimit : Nat
  /-- `INTEGRATION_RECOVERY_BLOCKED_ROOTS` -/
  blockedRoots : List String
  memoryBlocked : Bool
  draining : Bool
  pauseWaitCheckedAt : Nat
  queueSchedulerActive : Bool
  queueSchedulerRunning : Bool
  queueScheduleRequested : Bool
  /-- `queueWakeAt` of the timer that is armed -/
  wakeAt : Option Nat
  phase : Phase
  /-- Code that changed the queue and has its call of `scheduleQueue` still to make. -/
  callers : List Nat
  /-- When the last pass ended, whether it was asked for another one meanwhile, and whether a
  call without a delay came since. -/
  endedAt : Option Nat
  rerun : Bool
  asked : Bool

namespace Bridge

def values (s : Bridge) : List JobRecord := s.entries.filterMap (·.map s.object)

/-- `QUEUE_JOBS.get(jobId)` -/
def get (s : Bridge) (jobId : String) : Option JobRecord :=
  s.values.find? (·.jobId == jobId)

/-- `QUEUE_JOBS.get(record.jobId) === record` -/
def tracked (s : Bridge) (job : Nat) : Bool := s.entries.contains (some job)

def setObject (s : Bridge) (job : Nat) (record : JobRecord) : Bridge :=
  { s with object := Function.update s.object job record }

/-- `QUEUE_JOBS.set(record.jobId, record)` of a new object -/
def put (s : Bridge) (record : JobRecord) : Bridge :=
  let same := fun entry : Option Nat => entry.any fun job => (s.object job).jobId == record.jobId
  { s.setObject s.fresh record with
    fresh := s.fresh + 1
    entries :=
      if s.entries.any same then
        s.entries.map fun entry => if same entry then some s.fresh else entry
      else s.entries ++ [some s.fresh] }

/-- `QUEUE_JOBS.delete` of the record's key -/
def delete (s : Bridge) (job : Nat) : Bridge :=
  { s with entries := s.entries.map fun entry => if entry = some job then none else entry }

end Bridge

/-! ## Waiting for a pause -/

section

variable (settings : Settings)

def effectiveRequirement (record : JobRecord) : Option ModelRequirement :=
  record.request.modelRequirement.or record.modelRequirement

/-- The provider and the model of every candidate. -/
def pauseWaitCandidates (record : JobRecord) : List (String × String) :=
  let models := record.request.models.filterMap parseModelAllowlistEntry
  if models ≠ [] then models.map fun item => (item.provider, item.model)
  else
    match effectiveRequirement record with
    | some requirement =>
      if requirement.provider = "" then [] else [(requirement.provider, requirement.model)]
    | none => []

def candidatePausedUntil (pauses : Pauses) (candidate : String × String) : Nat :=
  pausedUntil settings.keys pauses candidate.1 candidate.2

/-- What `allCandidatesPausedUntil` makes of the pauses it needs, if it needs any. -/
def candidatesToCheck (record : JobRecord) : List (String × String) :=
  if record.request.sanitizedWorkspace then []
  else if record.request.models = [] ∧ ¬(effectiveRequirement record).any (fun requirement =>
      allowlistedModelOverride settings.allowlist requirement
        (orText record.request.agent record.agent)) then []
  else if record.request.dryRun then []
  else pauseWaitCandidates record

/-- The end of the first pause, if every candidate is paused, or else 0. -/
def allCandidatesPausedUntil (candidates : List (String × String)) (read : Option Pauses)
    (now : Nat) : Nat :=
  match read with
  | none => 0
  | some pauses =>
    let untils := candidates.map (candidatePausedUntil settings pauses)
    if untils.all (fun pauseEnd => decide (now < pauseEnd)) then untils.min?.getD 0 else 0

def queueStartAfterPending (record : JobRecord) (now : Nat) : Bool := record.startAfter.after now

/-- `["pending", "planned"].includes(record.status)` -/
def startable (status : QueueStatus) : Bool :=
  status == .pending || status == .planned

def pauseWaiting (s : Bridge) : List Nat :=
  s.entries.filterMap fun entry => entry.filter fun job =>
    startable (s.object job).status && (s.object job).startAfterReason == "provider_pause"
      && queueStartAfterPending (s.object job) s.now

/-- Every candidate is still paused; a wait without known candidates ends with `force`. -/
def staysPaused (pauses : Pauses) (now : Nat) (force : Bool) (record : JobRecord) : Bool :=
  let candidates := pauseWaitCandidates record
  if candidates = [] then !force
  else candidates.all fun item => decide (now < candidatePausedUntil settings pauses item)

/-- The loop of `releaseResumedPauseWaits`, with the number of the records it releases. -/
def releasePauseWaits (pauses : Pauses) (now : Nat) (force : Bool) :
    List Nat → Bridge → Bridge × Nat
  | [], s => (s, 0)
  | job :: waiting, s =>
    if staysPaused settings pauses now force (s.object job) then
      releasePauseWaits pauses now force waiting s
    else
      let released := { s.object job with startAfter := none, startAfterReason := "" }
      let rest := releasePauseWaits pauses now force waiting (s.setObject job released)
      (rest.1, rest.2 + 1)

/-! ## Timers -/

def queueBlockedBackoffMaxMs : Nat := 60 * 1000

def deferBlockedRecord (now : Nat) (record : JobRecord) : JobRecord :=
  { record with
    queueBlockedCount := record.queueBlockedCount + 1
    queueBlockedRetryAt := now + min queueBlockedBackoffMaxMs
      (max 1 settings.queueBlockedPollMs * 2 ^ min record.queueBlockedCount 16) }

def rememberLocalBlocker (s : Bridge) (record : JobRecord) (conflict : Conflict) : JobRecord :=
  let blocker := if conflict.fromQueue then s.get conflict.jobId else none
  { record with
    queueBlockedOnJobId := (blocker.map JobRecord.jobId).getD ""
    queueBlockedOnGeneration := (blocker.map JobRecord.ownerGeneration).getD "" }

def runningCount (s : Bridge) : Nat := s.values.countP (·.status.active)

def hasCapacity (s : Bridge) : Bool := decide (runningCount s < s.queueParallelLimit)

/-- `INTEGRATION_RECOVERY_BLOCKED_ROOTS.has(record.cwd || process.cwd())` -/
def rootBlocked (s : Bridge) (record : JobRecord) : Bool :=
  s.blockedRoots.contains (orText record.cwd settings.processCwd)

/-- The records that do not wait for the recovery of their repository's journal. -/
def schedulable (s : Bridge) : List JobRecord :=
  s.values.filter fun record => record.mode == .read || !rootBlocked settings s record

def nextQueueScheduleDelay (records : List JobRecord) (hasCapacity progressed : Bool) (now : Nat) :
    Option Nat :=
  if !hasCapacity then none
  else if records.any (startable ·.status) then
    some (if progressed then 0 else settings.queueBlockedPollMs)
  else
    let blocked := records.filter (·.status == .blocked)
    (blocked.map fun record => record.queueBlockedRetryAt - now).min?.map
      (max settings.queueBlockedPollMs)

def scheduleQueue (s : Bridge) (delay : Nat) : Bridge :=
  if settings.queueOff then s
  else if s.queueSchedulerRunning then
    -- the pass looks again when it ends
    if delay = 0 then { s with queueScheduleRequested := true } else s
  else if s.queueSchedulerActive && s.wakeAt.all (fun at' => decide (at' ≤ s.now + delay)) then s
  else { s with queueSchedulerActive := true, wakeAt := some (s.now + delay) }

/-- The flags after a pass. -/
def endPass (s : Bridge) : Bridge :=
  { s with
    queueSchedulerRunning := false
    queueSchedulerActive := false
    queueScheduleRequested := false
    phase := .idle
    endedAt := some s.now
    rerun := s.queueScheduleRequested
    asked := false }

/-- The `finally` of a pass. -/
def finish (s : Bridge) (progressed : Bool) : Bridge :=
  match nextQueueScheduleDelay settings (schedulable settings s) (hasCapacity s)
      (progressed || s.queueScheduleRequested) s.now with
  | some delay => scheduleQueue settings (endPass s) delay
  | none => endPass s

/-! ## A record of the pass -/

/-- Progress is a record changing its state or leaving this instance. -/
def Pass.note (pass : Pass) (s : Bridge) (job : Nat) (statusBefore : QueueStatus) : Pass :=
  { pass with
    progressed := pass.progressed || (s.object job).status != statusBefore || !s.tracked job }

/-- The update of a record that is planned, or held until its first model is free. -/
def planUpdate (s : Bridge) (job pauseUntil : Nat) : Await :=
  let record := s.object job
  .update
    (if pauseUntil ≠ 0 then
      { record with startAfter := some pauseUntil, startAfterReason := "provider_pause" }
    else { record with status := .planned })
    (.planned (pauseUntil != 0) record.ownerGeneration)

/-- A blocked record: one that waits for a job of this process waits as long as that runs; the
others wait for their next check. -/
def visitBlocked (s : Bridge) (job : Nat) : Bridge × Option Await :=
  let record := s.object job
  if record.queueBlockedOnJobId ≠ "" ∧ (s.get record.queueBlockedOnJobId).any (fun blocker =>
      blocker.status.active && blocker.ownerGeneration == record.queueBlockedOnGeneration) then
    (s, none)
  else
    let left :=
      if record.queueBlockedOnJobId ≠ "" then
        { record with
          queueBlockedOnJobId := ""
          queueBlockedOnGeneration := ""
          queueBlockedRetryAt := 0 }
      else record
    let s' := s.setObject job left
    if s.now < left.queueBlockedRetryAt then (s', none) else (s', some .standing)

/-- A record up to the first call that the pass waits for; `none` goes on to the next record. -/
def visit (s : Bridge) (pass : Pass) (job : Nat) : Bridge × Option Await :=
  let record := s.object job
  if rootBlocked settings s record ∧ record.mode ≠ .read then
    if record.errorType ≠ "integration_recovery_pending" then
      (s, some (.update
        { record with
          status := .blocked
          errorType := "integration_recovery_pending"
          errorReason := "Waiting for the repository's integration journal to recover " ++
            "(a quarantined integration blocks writers); see diagnose_opencode_bridge." }
        .proceed))
    else (s, none)
  else if record.cancellationRequested then
    (s, some (.update { record with status := .cancelled } .proceed))
  else if pass.holdStarts then (s, none)
  else if startable record.status && queueStartAfterPending record s.now then (s, none)
  else if s.draining then (s, none)
  else if record.status = .blocked then visitBlocked s job
  else (s, some .pauses)

/-- The loop over what is left of the map's entries. -/
def visitEntries : List (Option Nat) → Bridge → Pass → Bridge
  | [], s, pass => finish settings s pass.progressed
  | none :: rest, s, pass => visitEntries rest s { pass with cursor := pass.cursor + 1 }
  | some job :: rest, s, pass =>
    if pass.capacity = 0 then finish settings s pass.progressed
    else
      let next := { pass with cursor := pass.cursor + 1 }
      if !(s.object job).status.claimable then visitEntries rest s next
      else
        match visit settings s next job with
        | (s', some await) =>
          { s' with phase := .visiting next job (s.object job).status await }
        | (s', none) => visitEntries rest s' (next.note s' job (s.object job).status)

/-- What the calls that a pass waits for answer. A row that was not written is read back into
the record. -/
inductive Answer where
  | limit (found : Option Nat)
  | pauses (read : Option Pauses)
  | persisted (cancelled : Bool)
  | refused (row : JobRecord)
  | probed (conflict : Option Conflict)
  | started (ownerGeneration : String)
  | notStarted (row : JobRecord)
  | threw

/-- How the code after an `await` goes on with its record. -/
inductive Outcome where
  | await (await : Await)
  | proceed
  | started
  | threw

def afterUpdate (s : Bridge) (job : Nat) (persisted : Bool) : AfterUpdate → Bridge × Outcome
  | .proceed => (s, .proceed)
  | .blockedOn conflict =>
    let deferred := deferBlockedRecord settings s.now (s.object job)
    (s.setObject job (rememberLocalBlocker s deferred conflict), .proceed)
  | .planned held ownerGeneration =>
    let record := s.object job
    if !persisted then
      -- another owner has the row now: its lease is no longer covered here
      if (record.ownerInstanceId ≠ settings.instanceId
          ∨ record.ownerGeneration ≠ ownerGeneration) ∧ s.tracked job then
        (s.delete job, .proceed)
      else (s, .proceed)
    else if held then (s, .proceed)
    else if record.status ≠ .planned then (s, .proceed)
    else (s, .await .conflict)

def conflictUpdate (record : JobRecord) (conflict : Conflict) : Await :=
  if settings.rejectConflicts ∧ conflict.errorType ≠ "integration_recovery_pending" then
    .update
      { record with
        status := .failed
        errorType := "write_lock_conflict"
        errorReason := "Write lock conflict on: " ++
          orText ((conflict.paths.head?).getD "") "unknown" }
      .proceed
  else
    .update
      { record with
        status := .blocked
        errorType := orText conflict.errorType "write_lock_conflict"
        errorReason := orText conflict.reason
          ("Waiting for queued write job " ++ conflict.jobId ++ " to release: " ++
            ", ".intercalate conflict.paths) }
      (.blockedOn conflict)

/-- The code after an `await`; `none` where the answer is not to the call. -/
def resume (s : Bridge) (pass : Pass) (job : Nat) : Await → Answer →
    Option (Bridge × Pass × Outcome)
  | .update candidate after, .persisted cancelled =>
    let stored :=
      { candidate with
        cancellationRequested := candidate.cancellationRequested || cancelled }
    let done := afterUpdate settings (s.setObject job stored) job true after
    some (done.1, pass, done.2)
  | .update candidate after, .refused row =>
    let loaded := { row with jobId := candidate.jobId }
    let done := afterUpdate settings (s.setObject job loaded) job false after
    some (done.1, pass, done.2)
  | .standing, .probed conflict =>
    let record := s.object job
    match conflict.filter fun standing =>
        standing.errorType == record.errorType && standing.reason == record.errorReason with
    | some standing =>
      let deferred := deferBlockedRecord settings s.now record
      some (s.setObject job (rememberLocalBlocker s deferred standing), pass, .proceed)
    | none => some (s, pass, .await (planUpdate s job 0))
  | .pauses, .pauses read =>
    let candidates := candidatesToCheck settings (s.object job)
    if candidates = [] then some (s, pass, .await (planUpdate s job 0))
    else
      let snapshot := pass.pauseSnapshot.getD read
      some (s, { pass with pauseSnapshot := some snapshot },
        .await (planUpdate s job (allCandidatesPausedUntil settings candidates snapshot s.now)))
  | .conflict, .probed none => some (s, pass, if s.draining then .proceed else .await .start)
  | .conflict, .probed (some conflict) =>
    some (s, pass, .await (conflictUpdate settings (s.object job) conflict))
  | .start, .started ownerGeneration =>
    let record := s.object job
    some (s.setObject job
      { record with
        status := .running
        errorType := ""
        errorReason := ""
        ownerInstanceId := settings.instanceId
        ownerGeneration := orText record.ownerGeneration ownerGeneration }, pass, .started)
  | .start, .notStarted row =>
    some (s.setObject job { row with jobId := (s.object job).jobId }, pass, .proceed)
  | .update _ _, .threw | .standing, .threw | .conflict, .threw | .start, .threw =>
    some (s, pass, .threw)
  | _, _ => none

/-! ## The pass -/

/-- The memory gate and the loop. -/
def beginVisits (s : Bridge) (capacity : Nat) (snapshot : Option (Option Pauses)) : Bridge :=
  visitEntries settings s.entries s
    { capacity := capacity
      holdStarts := s.memoryBlocked && s.values.any (·.status.claimable)
      progressed := false
      pauseSnapshot := snapshot
      cursor := 0 }

/-- After `refreshRuntimeConcurrency`: the capacity, and the waits that a resume has ended. -/
def afterRefresh (s : Bridge) : Bridge :=
  let capacity := s.queueParallelLimit - runningCount s
  if capacity = 0 then finish settings s false
  else
    let waiting := pauseWaiting s
    if waiting = [] ∨ s.now - s.pauseWaitCheckedAt < max 250 settings.queueBlockedPollMs then
      beginVisits settings s capacity none
    else { s with pauseWaitCheckedAt := s.now, phase := .releasing capacity waiting s.now }

def answerPass (s : Bridge) (answer : Answer) : Bridge :=
  match s.phase, answer with
  | .refreshing, .limit found =>
    afterRefresh settings { s with queueParallelLimit := found.getD s.queueParallelLimit }
  | .releasing capacity waiting now, .pauses read =>
    let released := match read with
      | some pauses => (releasePauseWaits settings pauses now false waiting s).1
      | none => s
    beginVisits settings released capacity (some read)
  | .visiting pass job statusBefore await, answer =>
    match resume settings s pass job await answer with
    | some (s', pass', .await next) =>
      { s' with phase := .visiting pass' job statusBefore next }
    | some (s', pass', .proceed) =>
      let noted := pass'.note s' job statusBefore
      visitEntries settings (s'.entries.drop noted.cursor) s' noted
    | some (s', pass', .started) =>
      let noted := { pass'.note s' job statusBefore with capacity := pass'.capacity - 1 }
      visitEntries settings (s'.entries.drop noted.cursor) s' noted
    | some (s', pass', .threw) => finish settings s' (pass'.note s' job statusBefore).progressed
    | none => s
  | _, _ => s

/-! ## Steps -/

def Bridge.owe (s : Bridge) (caller : Nat) : Bridge :=
  if s.callers.contains caller then s else { s with callers := s.callers ++ [caller] }

/-- A call of `scheduleQueue` by other code. -/
def callScheduleQueue (s : Bridge) (delay : Nat) : Bridge :=
  { scheduleQueue settings s delay with
    asked := s.asked || !s.queueSchedulerRunning && delay == 0 }

inductive Event where
  | tick (ms : Nat)
  | timer
  | answer (answer : Answer)
  | scheduleQueue (delay : Nat)
  /-- `enqueueQueueJob`; a caller that does not let it schedule does so later. -/
  | enqueue (record : JobRecord) (caller : Option Nat)
  /-- An execution, a cancellation or a recovery changes a record, gives it up or unblocks a
  repository; it calls `scheduleQueue` when it is through. -/
  | change (caller job : Nat) (record : JobRecord)
  | abandon (caller job : Nat)
  | recoverRoot (caller : Nat) (root : String)
  | called (caller : Nat)
  /-- `resumeProvider`, over the waits it found before it read the pauses -/
  | resumeProvider (waiting : List Nat) (pauses : Pauses) (now : Nat)
  | setRuntimeConcurrency (limit : Nat)
  | releaseQueueStarts
  | blockRoot (root : String)
  | memory (blocked : Bool)
  | drain
  | requestCancellation (job : Nat)
  /-- A record that does not run is dropped from the map. -/
  | forget (job : Nat)

def step (s : Bridge) : Event → Bridge
  | .tick ms => { s with now := s.now + ms }
  | .timer =>
    if s.wakeAt.any (fun at' => decide (at' ≤ s.now)) then
      { s with
        wakeAt := none
        queueSchedulerRunning := true
        queueScheduleRequested := false
        phase := .refreshing }
    else s
  | .answer answer => answerPass settings s answer
  | .scheduleQueue delay => callScheduleQueue settings s delay
  | .enqueue record none => callScheduleQueue settings (s.put record) 0
  | .enqueue record (some caller) => (s.put record).owe caller
  | .change caller job record =>
    (s.setObject job { record with jobId := (s.object job).jobId }).owe caller
  | .abandon caller job => (s.delete job).owe caller
  | .recoverRoot caller root =>
    Bridge.owe { s with blockedRoots := s.blockedRoots.filter (· != root) } caller
  | .called caller =>
    callScheduleQueue settings { s with callers := s.callers.filter (· != caller) } 0
  | .resumeProvider waiting pauses now =>
    let released := releasePauseWaits settings pauses now true waiting s
    if released.2 = 0 then released.1 else callScheduleQueue settings released.1 0
  | .setRuntimeConcurrency limit =>
    callScheduleQueue settings { s with queueParallelLimit := limit } 0
  | .releaseQueueStarts => callScheduleQueue settings { s with draining := false } 0
  | .blockRoot root => { s with blockedRoots := s.blockedRoots ++ [root] }
  | .memory blocked => { s with memoryBlocked := blocked }
  | .drain => { s with draining := true }
  | .requestCancellation job =>
    s.setObject job { s.object job with cancellationRequested := true }
  | .forget job => if (s.object job).status.active then s else s.delete job

/-- A bridge process that just began: nothing is queued. -/
def start (object : Nat → JobRecord) (limit now : Nat) : Bridge where
  now := now
  object := object
  fresh := 0
  entries := []
  queueParallelLimit := limit
  blockedRoots := []
  memoryBlocked := false
  draining := false
  pauseWaitCheckedAt := 0
  queueSchedulerActive := false
  queueSchedulerRunning := false
  queueScheduleRequested := false
  wakeAt := none
  phase := .idle
  callers := []
  endedAt := none
  rerun := false
  asked := false

end

end AgentBridge.Queue.Scheduler
