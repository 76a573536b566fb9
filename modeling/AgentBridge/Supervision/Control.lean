import AgentBridge.Paths

/-!
# The control lines

What a line for `bin/process-supervisor.js` may be, the checks it makes on one, and the
events it writes back. A line is given as what `JSON.parse` makes of it, and the
conversions of JavaScript that look into every kind of value are a parameter.
-/

namespace AgentBridge.Supervision

/-- A JSON value; a number is kept as it is written. An object has a name once. -/
inductive Json where
  | null
  | bool (value : Bool)
  | number (literal : String)
  | string (value : String)
  | array (items : List Json)
  | object (fields : List (String × Json))

/-- `none` stands for `undefined`. -/
def Json.field (value : Json) (name : String) : Option Json :=
  match value with
  | .object fields => (fields.find? (·.1 = name)).map (·.2)
  | _ => none

/-- `typeof value === "string"` -/
def Json.string? : Json → Option String
  | .string value => some value
  | _ => none

/-- The type of a message; `none` when it is no message. -/
def Json.type (message : Json) : Option String := (message.field "type").bind Json.string?

inductive Line where
  | blank
  | invalid
  | json (value : Json)

structure Conversions where
  /-- `Number(value)`, where it is a safe integer. -/
  number : Json → Option Int
  /-- `String(value || "")` -/
  text : Json → String

def maxTimerMs : Nat := 2147000000

def maxSafeInteger : Nat := 9007199254740991

def safeInteger (js : Conversions) (value : Option Json) (fallback minimum maximum : Nat) :
    Option Nat :=
  match value with
  | none => some fallback
  | some .null => some fallback
  | some (.string "") => some fallback
  | some value =>
    (js.number value).bind fun parsed =>
      if (minimum : Int) ≤ parsed ∧ parsed ≤ (maximum : Int) then some parsed.toNat else none

/-- `deadlineAt` is zero where there is none. -/
def launchAuthorityExpired (deadlineAt now : Nat) : Bool := 0 < deadlineAt && deadlineAt ≤ now

/-- `/^[a-z0-9][a-z0-9_.-]{0,63}$/i` on the trimmed text. -/
def safeReason (value fallback : String) : String :=
  match Paths.trim value.toList with
  | [] => fallback
  | first :: rest =>
    if first.isAlphanum ∧ rest.length ≤ 63 ∧
        rest.all (fun c => c.isAlphanum || c == '_' || c == '.' || c == '-') then
      String.ofList (first :: rest)
    else fallback

/-! ### Launch messages -/

/-- `message.watchdogMs ?? message.watchdogTimeoutMs` -/
def watchdogField (message : Json) : Option Json :=
  match message.field "watchdogMs" with
  | none | some .null => message.field "watchdogTimeoutMs"
  | some value => some value

def launchTimeoutMs (js : Conversions) (message : Json) : Option Nat :=
  safeInteger js (message.field "timeoutMs") 0 0 maxTimerMs

def launchWatchdogMs (js : Conversions) (message : Json) : Option Nat :=
  safeInteger js (watchdogField message) 0 0 maxTimerMs

def launchDeadlineAt (js : Conversions) (message : Json) : Option Nat :=
  safeInteger js (message.field "watchdogDeadlineAt") 0 1 maxSafeInteger

def launchKillGraceMs (js : Conversions) (message : Json) (fallback : Nat) : Option Nat :=
  safeInteger js (message.field "killGraceMs") fallback 0 maxTimerMs

def launchTerminationConfirmMs (js : Conversions) (message : Json) (fallback : Nat) : Option Nat :=
  safeInteger js (message.field "terminationConfirmMs") fallback 1 maxTimerMs

def withoutNul (text : String) : Bool := !text.toList.contains (Char.ofNat 0)

def validCommand : Option Json → Bool
  | some (.string command) => Paths.trim command.toList != [] && withoutNul command
  | _ => false

def validArgs : Option Json → Bool
  | some (.array args) => args.all fun argument => argument.string?.any withoutNul
  | _ => false

def validCwd : Option Json → Bool
  | none => true
  | some cwd => cwd.string?.any withoutNul

def validEnv : Option Json → Bool
  | none => true
  | some (.object fields) =>
    fields.all fun field => field.1 != "" && withoutNul field.1 && field.2.string?.any withoutNul
  | some _ => false

def validLaunchMessage (js : Conversions) (message : Json) : Bool :=
  message.type = some "launch" && validCommand (message.field "command")
    && validArgs (message.field "args") && validCwd (message.field "cwd")
    && validEnv (message.field "env") && (launchTimeoutMs js message).isSome
    && (launchWatchdogMs js message).isSome && (launchDeadlineAt js message).isSome
    && (launchKillGraceMs js message 0).isSome && (launchTerminationConfirmMs js message 0).isSome

/-! ### Events -/

/-- What the bridge reads of a line of the control channel, and the supervisor writes.
Missing texts are empty and missing numbers `none`. -/
structure ControlEvent where
  type : String
  supervisorIdentity : String
  protocolVersion : Option Int
  supervisorPid : Option Int
  payloadPid : Nat
  payloadStartedAt : Option Nat
  /-- `none` for what is neither an integer nor `null`. -/
  payloadExitCode : Option (Option Int)
  supervisorExitCode : Option Int
  payloadSignal : String
  reason : String
  treeTerminationConfirmed : Bool
  terminationBestEffortSucceeded : Bool
  containmentGuarantee : String
  errorType : String
  spawnErrorCode : String

/-- An event of the supervisor without fields of its own. -/
def ControlEvent.plain (type supervisorIdentity : String) : ControlEvent where
  type := type
  supervisorIdentity := supervisorIdentity
  protocolVersion := none
  supervisorPid := none
  payloadPid := 0
  payloadStartedAt := none
  payloadExitCode := none
  supervisorExitCode := none
  payloadSignal := ""
  reason := ""
  treeTerminationConfirmed := false
  terminationBestEffortSucceeded := false
  containmentGuarantee := ""
  errorType := ""
  spawnErrorCode := ""

inductive ControlLine where
  | invalid
  | notObject
  | event (event : ControlEvent)

end AgentBridge.Supervision
