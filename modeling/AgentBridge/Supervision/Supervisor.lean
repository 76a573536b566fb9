import AgentBridge.Supervision.Control

/-!
# The supervisor

`createSupervisor` of `bin/process-supervisor.js` as a state machine. Its callbacks are
the events; what the clocks and the operating system answer during one comes with it.
Effects are kept in the order in which they happen.

A termination procedure is suspended between any two of its looks at the system and its
signals, so that everything else may happen in between.
-/

namespace AgentBridge.Supervision

inductive Platform where
  | posix | win32

inductive GroupState where
  | present | absent | unknown
  deriving DecidableEq

inductive Signal where
  | sigterm | sigkill

structure Taskkill where
  started : Bool
  exitCode : Option Int
  timedOut : Bool
  deriving DecidableEq

/-- `spawn` throws, or returns a child, without a pid (`0`) where it could not start. -/
inductive SpawnAnswer where
  | threw (code : String)
  | spawned (pid : Nat)

structure Answers where
  /-- `Date.now()` -/
  now : Nat
  /-- `performance.now()` -/
  clock : Nat
  spawned : SpawnAnswer
  group : GroupState
  /-- `process.kill` of the group throws, and not for want of one. -/
  killRefused : Bool
  backpressured : Bool
  /-- `none` while the command runs. -/
  taskkill : Option Taskkill
  /-- What `windowsDescendantsAfterExit` selects, `some none` where the snapshot fails. -/
  snapshot : Option (Option (List Nat))
  descendantsKilled : Option Bool

structure SupervisorConfig where
  platform : Platform
  supervisorIdentity : String
  identityValid : Bool
  processId : Nat
  js : Conversions

inductive Effect where
  | emit (event : ControlEvent)
  | spawn (message : Json) (now : Nat)
  | killGroup (pid : Nat) (signal : Signal)
  /-- `payload.kill` while the handle is open. -/
  | killPayload (signal : Signal)
  | taskkill (pid : Nat)
  /-- `killVerifiedWindowsProcesses` -/
  | terminate (pids : List Nat)

/-- `terminationPromise`: `none` for `null`, then where its procedure is. -/
inductive Termination where
  | none
  | probing | terminating
  | termGrace (since : Nat)
  | killing
  | killConfirm (since : Nat)
  | closing (since : Nat)
  | taskkill (previous : Option Taskkill)
  | exitWait (retried : Bool) (result : Taskkill) (since : Nat)
  | pause (result : Taskkill) (since : Nat)
  | stdioWait (result : Taskkill) (since : Nat)
  | lateClose (since : Nat)
  | snapshot | descendants
  | lastClose (killed : Bool) (since : Nat)
  | settled
  deriving DecidableEq

def Termination.inFlight : Termination → Bool
  | .none => false
  | .settled => false
  | _ => true

inductive ChainItem where
  | line (line : Line)
  | ended

structure Supervisor where
  controlAvailable : Bool
  firstMessageSeen : Bool
  launchAttempted : Bool
  launched : Bool
  completed : Bool
  /-- `payload !== null` -/
  payload : Bool
  payloadPid : Nat
  payloadStartedAt : Option Nat
  payloadExited : Bool
  payloadExitObservedAt : Nat
  lastPayloadOutputAt : Nat
  payloadExitCode : Option Int
  payloadSignal : String
  directChildClosed : Bool
  spawnErrorCode : String
  timeoutTimer : Bool
  watchdogTimer : Bool
  exitCloseTimer : Bool
  watchdogMs : Nat
  watchdogDeadlineAt : Nat
  lastHeartbeatAt : Nat
  killGraceMs : Nat
  terminationConfirmMs : Nat
  terminationReason : String
  termination : Termination
  messageChain : List ChainItem
  /-- The handler of the last message awaits the termination. -/
  chainWaits : Bool
  effects : List Effect

namespace Supervisor

def act (effect : Effect) (s : Supervisor) : Supervisor :=
  { s with effects := s.effects ++ [effect] }

def emit (event : ControlEvent) (s : Supervisor) : Supervisor :=
  if s.controlAvailable then s.act (.emit event) else s

def clearRuntimeTimers (s : Supervisor) : Supervisor :=
  { s with timeoutTimer := false, watchdogTimer := false, exitCloseTimer := false }

/-! ### Completion -/

structure Completion where
  reason : String
  terminationRequested : Bool
  treeTerminationConfirmed : Bool
  terminationBestEffortSucceeded : Bool
  containmentGuarantee : String
  errorType : String

def platformGuarantee : Platform → String
  | .posix => "posix_process_group"
  | .win32 => "direct_child_only"

/-- The defaults of `complete`. -/
def completion (cfg : SupervisorConfig) : Completion where
  reason := "payload_closed"
  terminationRequested := false
  treeTerminationConfirmed := false
  terminationBestEffortSucceeded := false
  containmentGuarantee := platformGuarantee cfg.platform
  errorType := ""

def supervisorExitCodeFor (reason : String) (requested confirmed : Bool)
    (originalCode : Option Int) : Int :=
  if reason = "spawn_failed" then 127
  else if reason = "protocol_error" then 64
  else if requested && !confirmed then 70
  else if reason = "timeout" then 124
  else if reason = "watchdog_expired" ∨ reason = "descendant_after_exit" then 70
  else if requested then 130
  else match originalCode with
    | some code => if 0 ≤ code ∧ code ≤ 255 then code else 1
    | none => 1

def exitEvent (cfg : SupervisorConfig) (c : Completion) (s : Supervisor) : ControlEvent where
  type := "exit"
  supervisorIdentity := cfg.supervisorIdentity
  protocolVersion := none
  supervisorPid := none
  payloadPid := s.payloadPid
  payloadStartedAt := s.payloadStartedAt
  payloadExitCode := some s.payloadExitCode
  supervisorExitCode := some (supervisorExitCodeFor c.reason c.terminationRequested
    (c.treeTerminationConfirmed || c.terminationBestEffortSucceeded) s.payloadExitCode)
  payloadSignal := s.payloadSignal
  reason := c.reason
  treeTerminationConfirmed := c.treeTerminationConfirmed
  terminationBestEffortSucceeded := c.terminationBestEffortSucceeded
  containmentGuarantee := c.containmentGuarantee
  errorType := c.errorType
  spawnErrorCode := s.spawnErrorCode

def complete (cfg : SupervisorConfig) (c : Completion) (s : Supervisor) : Supervisor :=
  if s.completed then s
  else ({ s with completed := true }.clearRuntimeTimers).emit (exitEvent cfg c s)

/-! ### Termination -/

/-- The completions that report a payload which may be alive. -/
def unconfirmed (cfg : SupervisorConfig) (guarantee : String) (s : Supervisor) : Supervisor :=
  let event := ControlEvent.plain "termination_unconfirmed" cfg.supervisorIdentity
  let s := s.emit
    { event with
      reason := s.terminationReason
      payloadPid := s.payloadPid
      containmentGuarantee := guarantee }
  { s.complete cfg
      { completion cfg with
        reason := s.terminationReason
        terminationRequested := true
        containmentGuarantee := guarantee
        errorType := "termination_unconfirmed" } with
    termination := .settled }

/-- The completions that report a contained payload: confirmed, or by best effort. -/
def contained (cfg : SupervisorConfig) (confirmed : Bool) (guarantee : String) (s : Supervisor) :
    Supervisor :=
  { s.complete cfg
      { completion cfg with
        reason := s.terminationReason
        terminationRequested := true
        treeTerminationConfirmed := confirmed
        terminationBestEffortSucceeded := !confirmed
        containmentGuarantee := guarantee } with
    termination := .settled }

/-- `payload.kill`, which does nothing once the handle is closed. -/
def killPayload (signal : Signal) (s : Supervisor) : Supervisor :=
  if s.payloadExited then s else s.act (.killPayload signal)

def signalProcessGroup (a : Answers) (signal : Signal) (s : Supervisor) : Supervisor :=
  if a.killRefused then s.killPayload signal else s.act (.killGroup s.payloadPid signal)

/-- `terminatePosix` from one of its suspensions to the next. -/
def terminatePosix (cfg : SupervisorConfig) (a : Answers) (s : Supervisor) : Supervisor :=
  match s.termination with
  | .probing =>
    if a.group = .absent then { s with termination := .closing a.clock }
    else { s with termination := .terminating }
  | .terminating => { s.signalProcessGroup a .sigterm with termination := .termGrace a.clock }
  | .termGrace since =>
    if a.group = .absent then { s with termination := .closing a.clock }
    else if since + s.killGraceMs ≤ a.clock then { s with termination := .killing }
    else s
  | .killing => { s.signalProcessGroup a .sigkill with termination := .killConfirm a.clock }
  | .killConfirm since =>
    if a.group = .absent then { s with termination := .closing a.clock }
    else if since + s.terminationConfirmMs ≤ a.clock then s.unconfirmed cfg "posix_process_group"
    else s
  | .closing since =>
    if s.directChildClosed then s.contained cfg true "posix_process_group"
    else if since + 1000 ≤ a.clock then s.unconfirmed cfg "posix_process_group"
    else s
  | _ => s

def windowsTerminationSucceeded (result : Taskkill) (directChildGone directChildClosed : Bool) :
    Bool :=
  directChildGone && directChildClosed && result.started
    && (result.exitCode = some 0 || result.exitCode = some 128)

def windowsVerdict (cfg : SupervisorConfig) (result : Taskkill) (directChildGone : Bool)
    (s : Supervisor) : Supervisor :=
  if windowsTerminationSucceeded result directChildGone s.directChildClosed then
    s.contained cfg false "windows_taskkill_best_effort"
  else s.unconfirmed cfg "windows_taskkill_best_effort"

/-- `runTaskkill` for a payload that is alive. -/
def runTaskkill (previous : Option Taskkill) (s : Supervisor) : Supervisor :=
  { s.act (.taskkill s.payloadPid) with termination := .taskkill previous }

/-- `terminateWindows` and `terminateWindowsAfterExit` from one suspension to the next. -/
def terminateWindows (cfg : SupervisorConfig) (a : Answers) (s : Supervisor) : Supervisor :=
  match s.termination with
  | .taskkill previous =>
    match a.taskkill with
    | none => s
    | some ran =>
      -- A retry counts only if it succeeded.
      let result := match previous with
        | none => ran
        | some first => if ran.started && ran.exitCode = some 0 then ran else first
      let s := if s.directChildClosed then s else s.killPayload .sigterm
      { s with termination := .exitWait previous.isSome result a.clock }
  | .exitWait retried result since =>
    if s.payloadExited then { s with termination := .stdioWait result a.clock }
    else if a.clock < since + s.terminationConfirmMs then s
    else if retried = false ∧ (result.timedOut ∨ result.started = false ∨
        result.exitCode ≠ some 0) then
      { s with termination := .pause result a.clock }
    else s.windowsVerdict cfg result false
  | .pause result since =>
    if a.clock < since + 250 then s
    else if s.payloadExited then { s with termination := .exitWait true result a.clock }
    else s.runTaskkill (some result)
  | .stdioWait result since =>
    if s.directChildClosed ∨ since + s.terminationConfirmMs ≤ a.clock then
      s.windowsVerdict cfg result true
    else s
  | .lateClose since =>
    if s.directChildClosed then s.contained cfg false "windows_direct_child_observed"
    else if since + min s.terminationConfirmMs 1000 ≤ a.clock then
      { s with termination := .snapshot }
    else s
  | .snapshot =>
    match a.snapshot with
    | none => s
    | some none => { s with termination := .lastClose false a.clock }
    | some (some []) => { s with termination := .lastClose true a.clock }
    | some (some pids) => { s.act (.terminate pids) with termination := .descendants }
  | .descendants =>
    match a.descendantsKilled with
    | none => s
    | some killed => { s with termination := .lastClose killed a.clock }
  | .lastClose killed since =>
    if s.directChildClosed ∨ since + s.terminationConfirmMs ≤ a.clock then
      if killed && s.directChildClosed then
        s.contained cfg false "windows_exit_descendant_snapshot"
      else s.unconfirmed cfg "windows_exit_descendant_snapshot"
    else s
  | _ => s

/-- The guarantee reported where there is no payload to terminate. -/
def nothingStarted : Platform → String
  | .posix => "posix_process_group"
  | .win32 => "no_payload_started"

/-- What `requestTermination` starts. -/
def beginTermination (cfg : SupervisorConfig) (a : Answers) (s : Supervisor) : Supervisor :=
  if s.payload = false ∨ s.payloadPid = 0 then
    { s.complete cfg
        { completion cfg with
          reason := s.terminationReason
          terminationRequested := true
          treeTerminationConfirmed := true
          containmentGuarantee := nothingStarted cfg.platform } with
      termination := .settled }
  else match cfg.platform with
    | .posix => { s with termination := .probing }
    | .win32 =>
      if s.payloadExited then { s with termination := .lateClose a.clock } else s.runTaskkill none

def requestTermination (cfg : SupervisorConfig) (a : Answers) (reason : String) (s : Supervisor) :
    Supervisor :=
  if s.termination ≠ .none then s
  else
    let s := { s with terminationReason := safeReason reason "terminate" }
    s.clearRuntimeTimers.beginTermination cfg a

/-! ### Timers -/

def scheduleWatchdog (s : Supervisor) : Supervisor :=
  if s.watchdogMs = 0 ∨ s.completed ∨ s.termination ≠ .none then { s with watchdogTimer := false }
  else { s with watchdogTimer := true }

def watchdogFires (cfg : SupervisorConfig) (a : Answers) (s : Supervisor) : Supervisor :=
  let s := { s with watchdogTimer := false }
  if a.clock - s.lastHeartbeatAt < s.watchdogMs ∧
      (s.watchdogDeadlineAt = 0 ∨ a.now < s.watchdogDeadlineAt) then
    s.scheduleWatchdog
  else s.requestTermination cfg a "watchdog_expired"

def scheduleExitCloseCheck (s : Supervisor) : Supervisor :=
  if s.completed ∨ s.termination ≠ .none ∨ s.directChildClosed then
    { s with exitCloseTimer := false }
  else { s with exitCloseTimer := true }

def exitCloseFires (cfg : SupervisorConfig) (a : Answers) (s : Supervisor) : Supervisor :=
  let s := { s with exitCloseTimer := false }
  if s.completed ∨ s.termination ≠ .none ∨ s.directChildClosed then s
  else
    let graceMs := min 2000 (max 250 s.terminationConfirmMs)
    let s := if a.backpressured then { s with lastPayloadOutputAt := a.clock } else s
    if graceMs ≤ a.clock - max s.payloadExitObservedAt s.lastPayloadOutputAt then
      s.requestTermination cfg a "descendant_after_exit"
    else s.scheduleExitCloseCheck

/-! ### The payload -/

def recordPayloadExit (a : Answers) (code : Option Int) (signal : String) (s : Supervisor) :
    Supervisor :=
  if s.payloadExited then s
  else
    { s with
      payloadExited := true
      payloadExitObservedAt := a.clock
      payloadExitCode := code
      payloadSignal := signal }

def onPayloadExit (a : Answers) (code : Option Int) (signal : String) (s : Supervisor) :
    Supervisor :=
  (s.recordPayloadExit a code signal).scheduleExitCloseCheck

def onPayloadClose (cfg : SupervisorConfig) (a : Answers) (code : Option Int) (signal : String)
    (s : Supervisor) : Supervisor :=
  let s := { s with directChildClosed := true }.recordPayloadExit a code signal
  if s.completed ∨ s.termination ≠ .none then s
  else
    let s := s.clearRuntimeTimers
    let reason := if s.spawnErrorCode = "" then "payload_closed" else "spawn_failed"
    let errorType := if s.spawnErrorCode = "" then "" else "spawn_failed"
    match cfg.platform with
    | .win32 =>
      s.complete cfg
        { completion cfg with
          reason := reason
          containmentGuarantee := "windows_direct_child_observed"
          errorType := errorType }
    | .posix =>
      if 0 < s.payloadPid ∧ a.group = .absent then
        s.complete cfg
          { completion cfg with
            reason := reason
            treeTerminationConfirmed := true
            errorType := errorType }
      else s.requestTermination cfg a "descendant_after_exit"

/-- `spawn` threw, or its child reports that it could not start. -/
def spawnFailed (cfg : SupervisorConfig) (code : String) (s : Supervisor) : Supervisor :=
  { s with spawnErrorCode := code }.complete cfg
    { completion cfg with reason := "spawn_failed", errorType := "spawn_failed" }

def onPayloadError (cfg : SupervisorConfig) (code : String) (s : Supervisor) : Supervisor :=
  if s.payloadPid = 0 then s.spawnFailed cfg code else { s with spawnErrorCode := code }

/-- The limits of the launch message. -/
def readLaunch (cfg : SupervisorConfig) (message : Json) (s : Supervisor) : Supervisor :=
  { s with
    watchdogMs := (launchWatchdogMs cfg.js message).getD 0
    watchdogDeadlineAt := (launchDeadlineAt cfg.js message).getD 0
    killGraceMs := (launchKillGraceMs cfg.js message s.killGraceMs).getD 0
    terminationConfirmMs :=
      (launchTerminationConfirmMs cfg.js message s.terminationConfirmMs).getD 0 }

/-- The call of `spawn`. -/
def spawns (message : Json) (now : Nat) (s : Supervisor) : Supervisor :=
  { s with launchAttempted := true }.act (.spawn message now)

/-- `spawn` returned a child. -/
def withPayload (pid now : Nat) (s : Supervisor) : Supervisor :=
  { s with payload := true, payloadPid := pid, payloadStartedAt := some now, launched := 0 < pid }

def launchedEvent (cfg : SupervisorConfig) (pid now : Nat) : ControlEvent :=
  { ControlEvent.plain "launched" cfg.supervisorIdentity with
    payloadPid := pid
    payloadStartedAt := some now }

def announceLaunch (cfg : SupervisorConfig) (pid now : Nat) (s : Supervisor) : Supervisor :=
  if 0 < pid then s.emit (launchedEvent cfg pid now) else s

def startTimers (timeoutMs clock : Nat) (s : Supervisor) : Supervisor :=
  if 0 < s.watchdogMs then
    { s with timeoutTimer := 0 < timeoutMs, lastHeartbeatAt := clock }.scheduleWatchdog
  else { s with timeoutTimer := 0 < timeoutMs }

def launchPayload (cfg : SupervisorConfig) (a : Answers) (message : Json) (s : Supervisor) :
    Supervisor :=
  if launchAuthorityExpired ((launchDeadlineAt cfg.js message).getD 0) a.now then
    (s.readLaunch cfg message).complete cfg
      { completion cfg with
        reason := "launch_gate_expired"
        errorType := "durable_launch_authority_expired"
        containmentGuarantee := "no_payload_started" }
  else match a.spawned with
    | .threw code => ((s.readLaunch cfg message).spawns message a.now).spawnFailed cfg code
    | .spawned pid =>
      (((s.readLaunch cfg message).spawns message a.now).withPayload pid a.now).announceLaunch
        cfg pid a.now |>.startTimers ((launchTimeoutMs cfg.js message).getD 0) a.clock

/-! ### Messages -/

def protocolFailure (cfg : SupervisorConfig) (a : Answers) (s : Supervisor) : Supervisor :=
  if s.completed then s
  else
    let s := s.emit (ControlEvent.plain "protocol_error" cfg.supervisorIdentity)
    if s.payloadPid ≠ 0 then s.requestTermination cfg a "protocol_error"
    else
      s.complete cfg
        { completion cfg with
          reason := "protocol_error"
          treeTerminationConfirmed := true
          containmentGuarantee := "no_payload_started"
          errorType := "protocol_error" }

/-- `await` in a message handler: the chain goes on when the termination is over. -/
def awaited (s : Supervisor) : Supervisor := { s with chainWaits := true }

def onHeartbeat (cfg : SupervisorConfig) (a : Answers) (message : Json) (s : Supervisor) :
    Supervisor :=
  if s.termination ≠ .none ∨ s.completed then s
  else if s.launched = false then (s.protocolFailure cfg a).awaited
  else if s.watchdogMs = 0 then s
  else
    let deadline := (safeInteger cfg.js (message.field "deadlineAt") 0 1 maxSafeInteger).getD 0
    if deadline = 0 ∨ deadline ≤ a.now then
      (s.requestTermination cfg a "durable_lease_deadline_invalid").awaited
    else
      { s with
        lastHeartbeatAt := a.clock
        watchdogDeadlineAt := min (a.now + s.watchdogMs) deadline }.scheduleWatchdog

def handleMessage (cfg : SupervisorConfig) (a : Answers) (line : Line) (s : Supervisor) :
    Supervisor :=
  if s.completed then s
  else match line with
    | .blank => s
    | .invalid => (s.protocolFailure cfg a).awaited
    | .json message =>
      match message.type with
      | none => (s.protocolFailure cfg a).awaited
      | some type =>
        if s.firstMessageSeen = false then
          let s := { s with firstMessageSeen := true }
          if validLaunchMessage cfg.js message then s.launchPayload cfg a message
          else (s.protocolFailure cfg a).awaited
        else if type = "heartbeat" then s.onHeartbeat cfg a message
        else if type = "terminate" then
          let reason := (message.field "reason").elim "" cfg.js.text
          (s.requestTermination cfg a (safeReason reason "terminate")).awaited
        -- A second `launch`, or an unknown type.
        else (s.protocolFailure cfg a).awaited

/-- The next item of `messageChain`. -/
def handleNext (cfg : SupervisorConfig) (a : Answers) (s : Supervisor) : Supervisor :=
  if s.chainWaits ∧ s.termination.inFlight then s
  else match s.messageChain with
    | [] => s
    | item :: rest =>
      let s := { s with messageChain := rest, chainWaits := false }
      match item with
      | .line line => s.handleMessage cfg a line
      | .ended =>
        if s.completed then s
        else if s.payloadPid = 0 then
          s.complete cfg
            { completion cfg with
              reason :=
                if s.firstMessageSeen then "stdin_closed_before_payload"
                else "stdin_closed_before_launch"
              treeTerminationConfirmed := true
              containmentGuarantee := "no_payload_started" }
        else (s.requestTermination cfg a "stdin_closed").awaited

end Supervisor

inductive SupervisorEvent where
  | line (line : Line)
  | lineTooLarge
  | stdinEnd (rest : Line)
  | stdinError
  | handleNext
  /-- `SIGTERM`, `SIGINT` or `SIGHUP` -/
  | signal
  | timeoutFires
  | watchdogFires
  | exitCloseFires
  | payloadOutput
  /-- The output that is passed on meets an error. -/
  | channelError (channel : String)
  | payloadError (code : String)
  | payloadExit (code : Option Int) (signal : String)
  | payloadClose (code : Option Int) (signal : String)
  | controlCloses
  /-- The termination procedure goes on. -/
  | resume

open Supervisor in
/-- `complete` takes the listeners of the standard input and of the outputs away, not those
of the signals. -/
def supervisorStep (cfg : SupervisorConfig) (s : Supervisor) (a : Answers) :
    SupervisorEvent → Supervisor
  | .line line =>
    if s.completed then s else { s with messageChain := s.messageChain ++ [.line line] }
  | .lineTooLarge => s.protocolFailure cfg a
  | .stdinEnd rest =>
    if s.completed then s
    else { s with messageChain := s.messageChain ++ [.line rest, .ended] }
  | .stdinError => if s.completed then s else s.requestTermination cfg a "stdin_closed"
  | .handleNext => s.handleNext cfg a
  | .signal => s.requestTermination cfg a "supervisor_signal"
  | .timeoutFires =>
    if s.timeoutTimer then
      { s with timeoutTimer := false }.requestTermination cfg a "timeout"
    else s
  | .watchdogFires => if s.watchdogTimer then s.watchdogFires cfg a else s
  | .exitCloseFires => if s.exitCloseTimer then s.exitCloseFires cfg a else s
  | .payloadOutput => { s with lastPayloadOutputAt := a.clock }
  | .channelError channel =>
    if s.completed ∨ s.payload = false then s
    else s.requestTermination cfg a (channel ++ "_channel_closed")
  | .payloadError code => if s.payload then s.onPayloadError cfg code else s
  | .payloadExit code signal =>
    if s.payload ∧ s.payloadPid ≠ 0 ∧ s.payloadExited = false then s.onPayloadExit a code signal
    else s
  | .payloadClose code signal =>
    if s.payload ∧ s.directChildClosed = false then s.onPayloadClose cfg a code signal else s
  | .controlCloses => { s with controlAvailable := false }
  | .resume =>
    match cfg.platform with
    | .posix => s.terminatePosix cfg a
    | .win32 => s.terminateWindows cfg a

def Supervisor.started (cfg : SupervisorConfig) : Supervisor :=
  let s : Supervisor :=
    { controlAvailable := true
      firstMessageSeen := false
      launchAttempted := false
      launched := false
      completed := false
      payload := false
      payloadPid := 0
      payloadStartedAt := none
      payloadExited := false
      payloadExitObservedAt := 0
      lastPayloadOutputAt := 0
      payloadExitCode := none
      payloadSignal := ""
      directChildClosed := false
      spawnErrorCode := ""
      timeoutTimer := false
      watchdogTimer := false
      exitCloseTimer := false
      watchdogMs := 0
      watchdogDeadlineAt := 0
      lastHeartbeatAt := 0
      killGraceMs := 5000
      terminationConfirmMs := 5000
      terminationReason := ""
      termination := .none
      messageChain := []
      chainWaits := false
      effects := [] }
  if cfg.identityValid then
    let event := ControlEvent.plain "ready" cfg.supervisorIdentity
    s.emit { event with protocolVersion := some 1, supervisorPid := some cfg.processId }
  else
    (s.emit (ControlEvent.plain "protocol_error" cfg.supervisorIdentity)).complete cfg
      { Supervisor.completion cfg with
        reason := "protocol_error"
        treeTerminationConfirmed := true
        containmentGuarantee := "no_payload_started"
        errorType := "protocol_error" }

end AgentBridge.Supervision
