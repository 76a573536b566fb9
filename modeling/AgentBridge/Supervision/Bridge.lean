import AgentBridge.Supervision.Control

/-!
# The bridge's side

`runSpawnCommand` of `lib/run-command.js`: the launch gate, the control channel, the
timers, and the result that it puts together from what the supervisor reports. Texts of
the payload's output and the watchers that read them are left out; a watcher that wants
the payload stopped is an event.
-/

namespace AgentBridge.Supervision

/-- What the caller asks for. -/
structure CommandConfig where
  command : String
  args : List String
  cwd : String
  env : List (String × String)
  timeoutMs : Nat
  idleTimeoutMs : Nat
  /-- `typeof onSpawn === "function"` -/
  onSpawn : Bool
  supervisorIdentity : String
  /-- `0` where the supervisor could not be spawned. -/
  supervisorPid : Nat
  supervisorWatchdogMs : Nat

/-- What `onSpawn` answers; a deadline that is no positive number is `some 0`. -/
inductive Authority where
  | accepted (deadlineAt : Option Nat)
  | refused
  | threw

/-- What `beforeHeartbeat` answers. -/
inductive HeartbeatProof where
  | proven (deadlineAt : Option Nat)
  | notANumber
  | refused
  | threw

inductive BridgeMessage where
  | launch (watchdogDeadlineAt : Nat)
  | heartbeat (deadlineAt : Nat)
  | terminate (reason : String)

def numberJson (value : Nat) : Json := .number (toString value)

/-- The line that `sendControl` writes. -/
def BridgeMessage.json (cfg : CommandConfig) : BridgeMessage → Json
  | .launch watchdogDeadlineAt =>
    .object
      [("type", .string "launch"), ("command", .string cfg.command),
        ("args", .array (cfg.args.map .string)), ("cwd", .string cfg.cwd),
        ("env", .object (cfg.env.map fun field => (field.1, .string field.2))),
        ("timeoutMs", numberJson cfg.timeoutMs),
        ("watchdogMs", numberJson cfg.supervisorWatchdogMs),
        ("watchdogDeadlineAt", numberJson watchdogDeadlineAt),
        ("killGraceMs", numberJson 5000), ("terminationConfirmMs", numberJson 5000)]
  | .heartbeat deadlineAt =>
    .object [("type", .string "heartbeat"), ("deadlineAt", numberJson deadlineAt)]
  | .terminate reason => .object [("type", .string "terminate"), ("reason", .string reason)]

def BridgeMessage.isLaunch : BridgeMessage → Bool
  | .launch _ => true
  | _ => false

inductive ExitCode where
  | code (value : Int)
  | error (errorType : String)

/-- The result of `runSpawnCommand`, without the captured output. -/
structure RunResult where
  exitCode : ExitCode
  timedOut : Bool
  cancelled : Bool
  cancellationErrorType : String
  providerTerminated : Bool
  idleTimedOut : Bool
  rateLimited : Bool
  directChildClosed : Bool
  treeTerminationConfirmed : Bool
  processTreeUnconfirmed : Bool
  terminationErrorType : String
  supervisorErrorType : String
  containmentGuarantee : String
  terminationBestEffortSucceeded : Bool
  spawnErrorCode : String
  payloadProcessId : Nat

structure Bridge where
  settled : Bool
  supervisorReady : Bool
  /-- `onSpawn` has answered. -/
  spawnAnswered : Bool
  identityPersisted : Bool
  launchSent : Bool
  terminationRequested : Bool
  terminationReason : String
  timedOut : Bool
  cancelled : Bool
  cancellationErrorType : String
  providerTerminated : Bool
  idleTimedOut : Bool
  rateLimited : Bool
  lastActivityMs : Nat
  idleTimer : Bool
  startupTimer : Bool
  heartbeatTimer : Bool
  terminationFallbackTimer : Bool
  exitCloseFallbackTimer : Bool
  controlExitEvent : Option ControlEvent
  observedPayloadPid : Nat
  controlTerminationUnconfirmed : Bool
  controlProtocolCompromised : Bool
  gateFailureType : String
  launchAuthorityDeadlineAt : Nat
  heartbeatInFlight : Bool
  /-- The standard input of the supervisor takes lines. -/
  stdinWritable : Bool
  /-- The messages written, each with the time of its writing. -/
  sent : List (BridgeMessage × Nat)
  supervisorKilled : Bool
  result : Option RunResult

namespace Bridge

def finish (result : RunResult) (b : Bridge) : Bridge :=
  if b.settled then b
  else
    { b with
      settled := true
      startupTimer := false
      heartbeatTimer := false
      idleTimer := false
      terminationFallbackTimer := false
      exitCloseFallbackTimer := false
      stdinWritable := false
      result := some result }

/-- Whether `sendControl` writes, and what it leaves. -/
def canSend (b : Bridge) : Bool := !b.settled && b.stdinWritable

def sendControl (message : BridgeMessage) (now : Nat) (b : Bridge) : Bridge :=
  if b.canSend then { b with sent := b.sent ++ [(message, now)] } else b

def infrastructureResult (errorType : String) (b : Bridge) : RunResult where
  exitCode := .error errorType
  timedOut := b.timedOut
  cancelled := b.cancelled
  cancellationErrorType := b.cancellationErrorType
  providerTerminated := b.providerTerminated
  idleTimedOut := b.idleTimedOut
  rateLimited := b.rateLimited
  directChildClosed := false
  treeTerminationConfirmed := false
  processTreeUnconfirmed := b.launchSent
  terminationErrorType :=
    if b.launchSent then "process_tree_termination_unconfirmed" else errorType
  supervisorErrorType := errorType
  containmentGuarantee := "supervisor_unavailable"
  terminationBestEffortSucceeded := false
  spawnErrorCode := ""
  payloadProcessId := b.observedPayloadPid

def finishInfrastructureFailure (errorType : String) (b : Bridge) : Bridge :=
  b.finish (b.infrastructureResult errorType)

/-- The flags that a reason for the termination sets. -/
def noteReason (reason : String) (b : Bridge) : Bridge :=
  { b with
    terminationRequested := true
    terminationReason := reason
    timedOut := b.timedOut || reason == "timeout" || reason == "idle_timeout"
    providerTerminated := b.providerTerminated || reason == "provider_error"
    rateLimited := b.rateLimited || reason == "rate_limited"
    idleTimedOut := b.idleTimedOut || reason == "idle_timeout"
    terminationFallbackTimer := true }

/-- `supervisor.stdin.end()` -/
def endStdin (b : Bridge) : Bridge := { b with stdinWritable := false }

def requestTermination (reason : String) (now : Nat) (b : Bridge) : Bridge :=
  if b.settled ∨ b.terminationRequested then b
  else if b.launchSent = false ∨ b.canSend = false then (b.noteReason reason).endStdin
  else (b.noteReason reason).sendControl (.terminate reason) now

/-- A failure of the gate ends the run without a launch. -/
def failGate (failureType reason : String) (now : Nat) (b : Bridge) : Bridge :=
  { b with gateFailureType := failureType }.requestTermination reason now

def abort (errorType : String) (now : Nat) (b : Bridge) : Bridge :=
  if b.settled ∨ b.cancelled then b
  else { b with cancelled := true, cancellationErrorType := errorType }.requestTermination
    "cancelled" now

def armIdleTimer (cfg : CommandConfig) (b : Bridge) : Bridge :=
  if cfg.idleTimeoutMs = 0 ∨ b.settled ∨ b.terminationRequested then b
  else { b with idleTimer := true }

/-- `Math.min(Date.now() + supervisorWatchdogMs, …)`, where the authority has a deadline. -/
def launchDeadline (cfg : CommandConfig) (now : Nat) (b : Bridge) : Nat :=
  if 0 < b.launchAuthorityDeadlineAt then
    min (now + cfg.supervisorWatchdogMs) b.launchAuthorityDeadlineAt
  else now + cfg.supervisorWatchdogMs

def gateOpen (b : Bridge) : Bool :=
  !b.settled && !b.launchSent && !b.terminationRequested && b.gateFailureType == ""
    && b.supervisorReady && b.identityPersisted

/-- The launch message is written. -/
def launch (cfg : CommandConfig) (now : Nat) (b : Bridge) : Bridge :=
  { b.sendControl (.launch (b.launchDeadline cfg now)) now with
    launchSent := true
    startupTimer := false
    lastActivityMs := now
    heartbeatTimer := true }.armIdleTimer cfg

def maybeLaunch (cfg : CommandConfig) (now : Nat) (b : Bridge) : Bridge :=
  if b.gateOpen = false then b
  else if b.launchDeadline cfg now ≤ now then
    b.failGate "durable_launch_authority_expired" "launch_gate_expired" now
  else if b.canSend = false then b.finishInfrastructureFailure "process_supervisor_control_failed"
  else b.launch cfg now

/-! ### The result -/

def terminationUnconfirmed (b : Bridge) (event : ControlEvent) (reason : String) : Bool :=
  b.controlTerminationUnconfirmed || event.errorType == "termination_unconfirmed"
    || (reason == "watchdog_expired" && !event.treeTerminationConfirmed)

/-- `String(event.reason || terminationReason || "payload_closed")` -/
def exitReason (b : Bridge) (event : ControlEvent) : String :=
  if event.reason ≠ "" then event.reason
  else if b.terminationReason ≠ "" then b.terminationReason
  else "payload_closed"

def exitCodeOf (b : Bridge) (event : ControlEvent) (timedOut : Bool) : Int :=
  if b.cancelled then 130
  else if timedOut then 124
  else if b.providerTerminated || b.rateLimited then 1
  else match event.payloadExitCode, event.supervisorExitCode with
    | some (some code), _ => code
    | _, some code => code
    | _, none => 1

def controlExitResult (b : Bridge) (event : ControlEvent) : RunResult :=
  let reason := b.exitReason event
  let timedOut := b.timedOut || reason == "timeout"
  let watchdogExpired := reason == "watchdog_expired"
  let unconfirmed := b.terminationUnconfirmed event reason
  let spawnFailed := event.errorType == "spawn_failed" || reason == "spawn_failed"
  { exitCode := .code (b.exitCodeOf event timedOut)
    timedOut := timedOut
    cancelled := b.cancelled
    cancellationErrorType := b.cancellationErrorType
    providerTerminated := b.providerTerminated
    idleTimedOut := b.idleTimedOut
    rateLimited := b.rateLimited
    directChildClosed := event.payloadExitCode != some none || event.payloadSignal != ""
    treeTerminationConfirmed := event.treeTerminationConfirmed
    processTreeUnconfirmed :=
      unconfirmed || (watchdogExpired && !event.treeTerminationConfirmed)
    terminationErrorType :=
      if unconfirmed then "process_tree_termination_unconfirmed"
      else if watchdogExpired then "process_supervisor_watchdog_expired"
      else if spawnFailed then "spawn_failed" else ""
    supervisorErrorType := if watchdogExpired then "process_supervisor_watchdog_expired" else ""
    containmentGuarantee :=
      if event.containmentGuarantee = "" then "process_supervisor" else event.containmentGuarantee
    terminationBestEffortSucceeded := event.terminationBestEffortSucceeded
    spawnErrorCode :=
      if spawnFailed = false then ""
      else if event.spawnErrorCode = "" then "spawn_failed" else event.spawnErrorCode
    payloadProcessId := b.observedPayloadPid }

def finishFromControlExit (event : ControlEvent) (b : Bridge) : Bridge :=
  if b.gateFailureType ≠ "" then b.finishInfrastructureFailure b.gateFailureType
  else b.finish (b.controlExitResult event)

/-- The end of the supervisor, with the exit event or without. -/
def finishFromSupervisor (b : Bridge) : Bridge :=
  match b.controlExitEvent with
  | some event => b.finishFromControlExit event
  | none =>
    b.finishInfrastructureFailure
      (if b.gateFailureType = "" then "process_supervisor_exited_without_result"
      else b.gateFailureType)

/-! ### The control channel -/

def readyMatches (cfg : CommandConfig) (event : ControlEvent) : Bool :=
  event.protocolVersion == some 1 && event.supervisorPid == some (cfg.supervisorPid : Int)

def observePid (event : ControlEvent) (b : Bridge) : Bridge :=
  if 0 < event.payloadPid then { b with observedPayloadPid := event.payloadPid } else b

def onExitEvent (event : ControlEvent) (b : Bridge) : Bridge :=
  { b with
    controlExitEvent := some event
    heartbeatTimer := false
    idleTimer := false
    exitCloseFallbackTimer := true }

def handleControlEvent (cfg : CommandConfig) (event : ControlEvent) (now : Nat) (b : Bridge) :
    Bridge :=
  if b.settled then b
  else if event.supervisorIdentity.toLower ≠ cfg.supervisorIdentity then
    b.failGate "process_supervisor_identity_mismatch" "protocol_error" now
  else if event.type = "ready" then
    if readyMatches cfg event then
      { b.observePid event with supervisorReady := true }.maybeLaunch cfg now
    else (b.observePid event).failGate "process_supervisor_identity_mismatch" "protocol_error" now
  else if event.type = "termination_unconfirmed" then
    { b.observePid event with controlTerminationUnconfirmed := true }
  else if event.type = "protocol_error" then
    if b.gateFailureType = "" then
      { b.observePid event with gateFailureType := "process_supervisor_protocol_error" }
    else b.observePid event
  else if event.type = "exit" then (b.observePid event).onExitEvent event
  else b.observePid event

def controlLine (cfg : CommandConfig) (line : ControlLine) (now : Nat) (b : Bridge) : Bridge :=
  if b.settled ∨ b.controlProtocolCompromised then b
  else match line with
    | .invalid => b.failGate "process_supervisor_protocol_error" "protocol_error" now
    | .notObject => b
    | .event event => b.handleControlEvent cfg event now

/-! ### The other callbacks -/

def onSpawnAnswered (cfg : CommandConfig) (authority : Authority) (now : Nat) (b : Bridge) :
    Bridge :=
  match authority with
  | .accepted deadlineAt =>
    { b with
      spawnAnswered := true
      launchAuthorityDeadlineAt := deadlineAt.getD (now + cfg.supervisorWatchdogMs)
      identityPersisted := true }.maybeLaunch cfg now
  | .refused =>
    { b with spawnAnswered := true }.failGate "child_identity_persistence_failed"
      "launch_gate_rejected" now
  | .threw =>
    { b with spawnAnswered := true }.failGate "child_identity_persistence_failed"
      "launch_gate_rejected" now

/-- `min(Date.now() + supervisorWatchdogMs, provenDeadlineAt)`, `none` for a refusal. -/
def heartbeatDeadline (cfg : CommandConfig) (proof : HeartbeatProof) (now : Nat) : Option Nat :=
  match proof with
  | .proven none => some (now + cfg.supervisorWatchdogMs)
  | .proven (some deadlineAt) => some (min (now + cfg.supervisorWatchdogMs) deadlineAt)
  | .notANumber => none
  | .refused => none
  | .threw => none

/-- A heartbeat with a deadline in the future, or the end. -/
def sendHeartbeat (deadline : Option Nat) (now : Nat) (b : Bridge) : Bridge :=
  match deadline with
  | none => b.requestTermination "durable_lease_renewal_failed" now
  | some deadlineAt =>
    if deadlineAt ≤ now then b.requestTermination "durable_lease_renewal_failed" now
    else if b.canSend = false then b.requestTermination "control_channel_failed" now
    else b.sendControl (.heartbeat deadlineAt) now

def heartbeatProof (cfg : CommandConfig) (proof : HeartbeatProof) (now : Nat) (b : Bridge) :
    Bridge :=
  { b with heartbeatInFlight := false }.sendHeartbeat (heartbeatDeadline cfg proof now) now

def idleFires (cfg : CommandConfig) (now : Nat) (b : Bridge) : Bridge :=
  let b := { b with idleTimer := false }
  if b.settled ∨ b.terminationRequested then b
  else if cfg.idleTimeoutMs ≤ now - b.lastActivityMs then b.requestTermination "idle_timeout" now
  else b.armIdleTimer cfg

end Bridge

inductive BridgeEvent where
  | onSpawnAnswered (authority : Authority)
  | controlLine (line : ControlLine)
  | controlTooLarge
  | abort (errorType : String)
  | output
  /-- A watcher of the output stops the payload. -/
  | watcherStops (reason : String)
  | startupFires
  | idleFires
  | heartbeatFires
  | heartbeatProof (proof : HeartbeatProof)
  | fallbackFires
  | exitCloseFallbackFires
  | supervisorError
  | supervisorExit
  | supervisorClose
  | stdinError
  /-- The pipe breaks before anybody is told. -/
  | stdinBreaks

open Bridge in
def bridgeStep (cfg : CommandConfig) (b : Bridge) (now : Nat) : BridgeEvent → Bridge
  | .onSpawnAnswered authority =>
    if cfg.onSpawn ∧ b.spawnAnswered = false then b.onSpawnAnswered cfg authority now else b
  | .controlLine line => b.controlLine cfg line now
  | .controlTooLarge =>
    if b.settled ∨ b.controlProtocolCompromised then b
    else { b with controlProtocolCompromised := true }.failGate
      "process_supervisor_protocol_error" "protocol_error" now
  | .abort errorType => b.abort errorType now
  | .output => if b.settled then b else { b with lastActivityMs := now }
  | .watcherStops reason => b.requestTermination reason now
  | .startupFires =>
    if b.startupTimer = false ∨ b.settled ∨ b.launchSent then b
    else b.failGate "child_identity_persistence_failed" "launch_gate_timeout" now
  | .idleFires => if b.idleTimer then b.idleFires cfg now else b
  | .heartbeatFires =>
    if b.heartbeatTimer = false ∨ b.heartbeatInFlight ∨ b.settled ∨ b.terminationRequested then b
    else { b with heartbeatInFlight := true }
  | .heartbeatProof proof => if b.heartbeatInFlight then b.heartbeatProof cfg proof now else b
  | .fallbackFires =>
    if b.terminationFallbackTimer then
      { b with supervisorKilled := true }.finishInfrastructureFailure
        "process_tree_termination_unconfirmed"
    else b
  | .exitCloseFallbackFires => if b.exitCloseFallbackTimer then b.finishFromSupervisor else b
  | .supervisorError => b.finishInfrastructureFailure "process_supervisor_spawn_failed"
  | .supervisorExit => if b.settled then b else { b with exitCloseFallbackTimer := true }
  | .supervisorClose => if b.settled then b else b.finishFromSupervisor
  | .stdinError => if b.settled then b else b.requestTermination "control_channel_failed" now
  | .stdinBreaks => { b with stdinWritable := false }

def Bridge.started (cfg : CommandConfig) : Bridge where
  settled := false
  supervisorReady := false
  spawnAnswered := false
  identityPersisted := !cfg.onSpawn
  launchSent := false
  terminationRequested := false
  terminationReason := ""
  timedOut := false
  cancelled := false
  cancellationErrorType := ""
  providerTerminated := false
  idleTimedOut := false
  rateLimited := false
  lastActivityMs := 0
  idleTimer := false
  startupTimer := true
  heartbeatTimer := false
  terminationFallbackTimer := false
  exitCloseFallbackTimer := false
  controlExitEvent := none
  observedPayloadPid := 0
  controlTerminationUnconfirmed := false
  controlProtocolCompromised := false
  gateFailureType := ""
  launchAuthorityDeadlineAt := 0
  heartbeatInFlight := false
  stdinWritable := true
  sent := []
  supervisorKilled := false
  result := none

end AgentBridge.Supervision
