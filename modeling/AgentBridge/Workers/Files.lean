import AgentBridge.Queue.Row

/-!
# The files of a queue worker

`lib/queue/worker-files.js`: a worker owns the queue of a repository while its presence
file stands. The file is created exclusively, refreshed through an open descriptor,
taken over by a rename when it is stale, and removed by its owner; a stop file beside it
asks one worker to stop.

A file is an inode, and the presence path is a directory entry for one. Everything that
changes an entry runs inside a transition, which the SQLite anchor and its receipt make
exclusive between processes: here a mutex that a process holds. A refresh that finds the
file does not take it.

An event is one file-system call of one process, which may fail, or read nothing, or
wait as long as it likes. Only the path and the content of files is kept; the text of a
file that is no JSON object counts as unreadable.
-/

namespace AgentBridge.Workers

/-- A bridge process: `process.pid` and `BRIDGE_INSTANCE_ID`. -/
structure Worker where
  pid : Nat
  instanceId : String
  deriving DecidableEq

structure Presence where
  pid : Nat
  instanceId : String
  projectKey : String
  /-- `none` is an absent or empty text. -/
  ownerGeneration : Option String
  startedAt : String
  heartbeatAt : Stamp
  /-- The other fields, as JSON text. -/
  fields : String
  deriving DecidableEq

inductive PresenceText where
  | unreadable (text : String)
  | record (presence : Presence)
  deriving DecidableEq

def PresenceText.parsed : PresenceText → Option Presence
  | unreadable _ => none
  | record presence => some presence

/-- An inode. The last two fields are not in the file: the generation it was created for,
and how often that generation had been taken over by then. -/
structure PresenceFile where
  text : PresenceText
  createdFor : Option String
  takeoversBefore : Nat

structure StopTarget where
  projectKey : String
  instanceId : String
  pid : Nat
  generation : Option String
  startedAt : String
  deriving DecidableEq

inductive StopAddress where
  | absent
  | to (target : StopTarget)
  /-- A value that is no target. -/
  | malformed
  deriving DecidableEq

structure StopRequest where
  address : StopAddress
  /-- `none` when the field is no boolean. -/
  now : Option Bool
  requestedAt : String
  byPid : Nat
  deriving DecidableEq

/-- The text of a stop file; `none` is unreadable. -/
abbrev StopText := Option StopRequest

/-! ### Liveness of a presence -/

def queueWorkerPresenceFreshMs : Nat := 2 * 60 * 1000
def queueWorkerPresenceAbandonedMs : Nat := 10 * 60 * 1000
def queueWorkerClockSkewMs : Nat := 60 * 1000

/-- The heartbeat is at most `limit` old and at most the clock skew in the future. -/
def heartbeatWithin (limit now : Nat) (presence : Presence) : Bool :=
  match presence.heartbeatAt with
  | none => false
  | some heartbeatAt => now < heartbeatAt + limit && heartbeatAt ≤ now + queueWorkerClockSkewMs

def queueWorkerPresenceFresh (presence : Presence) (now : Nat) : Bool :=
  heartbeatWithin queueWorkerPresenceFreshMs now presence

/-- `pidAlive` is what `process.kill(pid, 0)` says of the recorded process. -/
def queueWorkerPidAlive (pidAlive : Bool) (presence : Presence) : Bool :=
  0 < presence.pid && pidAlive

def queueWorkerPresenceRecordsDeadPid (pidAlive : Bool) (presence : Presence) : Bool :=
  0 < presence.pid && !queueWorkerPidAlive pidAlive presence

def queueWorkerPresenceLive (pidAlive : Bool) (presence : Presence) (now : Nat) : Bool :=
  if queueWorkerPresenceRecordsDeadPid pidAlive presence then false
  else if queueWorkerPresenceFresh presence now then true
  else heartbeatWithin queueWorkerPresenceAbandonedMs now presence
    && queueWorkerPidAlive pidAlive presence

/-! ### Identities and targets -/

/-- What a process remembers of its claim; the inode stands for device and inode. -/
structure ClaimIdentity where
  generation : String
  retired : Bool
  ino : Nat

/-- `ownedPresence` -/
def ownedPresence (projectKey : String) (self : Worker) (identity : Option ClaimIdentity)
    (presence : Presence) : Bool :=
  match identity with
  | some claim =>
    !claim.retired && presence.instanceId == self.instanceId && presence.pid == self.pid
      && presence.projectKey == projectKey && presence.ownerGeneration == some claim.generation
  | none =>
    presence.instanceId == self.instanceId && presence.pid == self.pid
      && presence.projectKey == projectKey && presence.ownerGeneration == none

def stopTarget (projectKey : String) (presence : Option Presence) : Option StopTarget :=
  match presence with
  | none => none
  | some presence =>
    if presence.projectKey != projectKey || presence.pid == 0 || presence.instanceId == "" then
      none
    else some
      { projectKey
        instanceId := presence.instanceId
        pid := presence.pid
        generation := presence.ownerGeneration
        startedAt := if presence.ownerGeneration.isSome then "" else presence.startedAt }

def sameStopTarget (left : StopAddress) (right : Option StopTarget) : Bool :=
  match left, right with
  | .to left, some right => left == right
  | _, _ => false

def legacyStop (stop : StopRequest) : Bool :=
  stop.address == .absent && stop.now.isSome

/-- The legacy request that a process has associated with a target. -/
structure LegacyStop where
  stop : StopRequest
  target : StopTarget

/-- `associateLegacyStop`: whether the request is for the target, and what the process
remembers. -/
def associateLegacyStop (bound : Option LegacyStop) (stop : StopRequest)
    (target : Option StopTarget) : Bool × Option LegacyStop :=
  match bound with
  | some previous =>
    if previous.stop = stop then (some previous.target == target, bound)
    else (true, match target with | some target => some ⟨stop, target⟩ | none => bound)
  | none => (true, match target with | some target => some ⟨stop, target⟩ | none => bound)

def stopBelongsTo (bound : Option LegacyStop) (stop : StopRequest) (target : Option StopTarget) :
    Bool × Option LegacyStop :=
  if legacyStop stop then associateLegacyStop bound stop target
  else (sameStopTarget stop.address target, bound)

/-! ### What a process is about to do -/

inductive ClaimPc where
  | lock
  | create (attempt : Nat) (takenOver : Option PresenceText)
  /-- The file is created; `retireStartupStop` reads the stop file. -/
  | startupStop (ino : Nat) (generation : String) (takenOver : Option PresenceText)
  | unlinkStop (ino : Nat) (generation : String) (takenOver : Option PresenceText)
      (stop : StopRequest)
  | write (ino : Nat) (generation : String)
  | undo (ino : Nat) (generation : String)
  | judge (attempt : Nat) (takenOver : Option PresenceText)
  | moveAside (attempt : Nat) (staleText : PresenceText)
  | compare (attempt : Nat) (staleText : PresenceText) (aside : Nat)
  | linkBack (aside : Nat)
  deriving DecidableEq

inductive RefreshPc where
  | stat (fields : String)
  | open (fields : String) (entry : Nat)
  | read (fields : String) (entry descriptor : Nat)
  | write (fields : String) (descriptor : Nat)
  | confirm
  /-- The file is missing and is created again inside a transition. -/
  | lock (fields : String)
  | look (fields : String)
  | create (fields : String)
  | publish (fields : String) (ino : Nat)
  | undo (ino : Nat)
  deriving DecidableEq

inductive ReleasePc where
  | lock
  | read
  | readStop (current : Presence)
  | unlinkStop (current : Presence) (stop : StopRequest)
  | unlink
  deriving DecidableEq

/-- `writeQueueWorkerStop` -/
inductive StopPc where
  | lock (now : Bool)
  | readPresence (now : Bool)
  | readPrevious (now : Bool) (target : Option StopTarget)
  | write (now kept : Bool) (target : Option StopTarget) (previous : Option StopRequest)
  deriving DecidableEq

/-- `readQueueWorkerStop` -/
inductive ReadStopPc where
  | readStop
  | readPresence (stop : StopRequest)
  deriving DecidableEq

inductive Pc where
  | idle
  | claim (pc : ClaimPc)
  | refresh (pc : RefreshPc)
  | release (pc : ReleasePc)
  | writeStop (pc : StopPc)
  | readStop (pc : ReadStopPc)
  deriving DecidableEq

/-- The inode that a process holds: open, moved aside, or both. -/
def Pc.ino : Pc → Option Nat
  | claim (.startupStop ino _ _) | claim (.unlinkStop ino _ _ _) | claim (.write ino _)
  | claim (.undo ino _) | claim (.compare _ _ ino) | claim (.linkBack ino) => some ino
  | refresh (.read _ _ ino) | refresh (.write _ ino) | refresh (.publish _ ino)
  | refresh (.undo ino) => some ino
  | _ => none

structure WorkerProcess where
  identity : Option ClaimIdentity
  legacyStop : Option LegacyStop
  pc : Pc

def WorkerProcess.initial : WorkerProcess := ⟨none, none, .idle⟩

/-- What a step did, as far as ownership is concerned. -/
inductive WorkerEffect where
  /-- A refresh returns `ok`. -/
  | refreshed (worker : Worker) (generation : String)
  /-- A record of the generation is written to an inode. -/
  | wrote (worker : Worker) (generation : String) (ino : Nat)
  /-- The owner, or a claim that failed, removes the presence file. -/
  | removed (worker : Worker) (generation : String) (ino : Nat)
  /-- A worker is told to stop. -/
  | obeyed (worker : Worker) (generation : String) (stop : StopRequest)
  /-- A stop request is written over what was there; `kept` tells whether it takes over
  the flag of that request. -/
  | requested (previous : Option StopText) (kept : Bool) (stop : StopRequest)
  /-- A worker deletes the stop request with its own presence. -/
  | retired (worker : Worker) (stop : Option StopText) (own : Presence)
  /-- A starting worker deletes a stop request after a takeover. -/
  | retiredAtStartup (stop : Option StopText) (takenOver : Option PresenceText)
  deriving DecidableEq

structure WorkersState where
  projectKey : String
  /-- The process inside a transition. -/
  holder : Option Worker
  /-- The inode at the presence path. -/
  presence : Option Nat
  /-- The text at the stop path. -/
  stop : Option StopText
  files : Nat → PresenceFile
  worker : Worker → WorkerProcess
  /-- The processes that have done anything. -/
  started : List Worker
  /-- The generations drawn so far. -/
  drawn : List String
  /-- How often the presence file of a generation was taken over. -/
  takeovers : String → Nat
  /-- What the last step did. -/
  effects : List WorkerEffect

structure StepWorld where
  /-- The call throws. -/
  fails : Bool
  /-- A read gives no text: the file is being written, or cannot be read. -/
  unreadable : Bool
  now : Nat
  modifiedMs : Nat
  pidAlive : Bool
  /-- The inode of a new file, and `randomBytes(16)`. -/
  ino : Nat
  generation : String
  startedAt : String
  requestedAt : String

inductive Operation where
  | claim
  | refresh (fields : String)
  | release
  | writeStop (now : Bool)
  | readStop

inductive WorkerEvent where
  | call (worker : Worker) (operation : Operation)
  | step (worker : Worker) (world : StepWorld)
  /-- The process dies; the system drops its lock and its descriptors. -/
  | crash (worker : Worker)

namespace WorkersState

def setWorker (s : WorkersState) (p : Worker) (process : WorkerProcess) : WorkersState :=
  { s with worker := fun other => if other = p then process else s.worker other }

def setPc (s : WorkersState) (p : Worker) (pc : Pc) : WorkersState :=
  s.setWorker p { s.worker p with pc }

def emit (s : WorkersState) (effect : WorkerEffect) : WorkersState :=
  { s with effects := [effect] }

def identity (s : WorkersState) (p : Worker) : Option ClaimIdentity := (s.worker p).identity

/-- The operation returns or throws. -/
def finish (s : WorkersState) (p : Worker) : WorkersState := s.setPc p .idle

/-- The same inside a transition. -/
def leave (s : WorkersState) (p : Worker) : WorkersState :=
  { s.finish p with holder := none }

def setIdentity (s : WorkersState) (p : Worker) (identity : Option ClaimIdentity) : WorkersState :=
  s.setWorker p { s.worker p with identity }

def setLegacyStop (s : WorkersState) (p : Worker) (bound : Option LegacyStop) : WorkersState :=
  s.setWorker p { s.worker p with legacyStop := bound }

def retire (s : WorkersState) (p : Worker) : WorkersState :=
  s.setIdentity p ((s.identity p).map fun claim => { claim with retired := true })

def writeText (s : WorkersState) (ino : Nat) (text : PresenceText) : WorkersState :=
  { s with
    files := fun other => if other = ino then { s.files ino with text } else s.files other }

/-- An inode number is taken while the file has a name or somebody holds it. -/
def inUse (s : WorkersState) (ino : Nat) : Bool :=
  s.presence == some ino || s.started.any fun p => (s.worker p).pc.ino == some ino

/-- `openSync(files.presence, "wx")` on a path without a file. -/
def createPresence (s : WorkersState) (ino : Nat) (generation : String) : WorkersState :=
  { s with
    presence := some ino
    files := fun other =>
      if other = ino then ⟨.unreadable "", some generation, s.takeovers generation⟩
      else s.files other }

/-- `readQueueWorkerText(files.presence)` -/
def readText (s : WorkersState) (w : StepWorld) : Option PresenceText :=
  if w.unreadable then none else s.presence.map fun ino => (s.files ino).text

/-- `readQueueWorkerFile(files.presence)` -/
def readPresence (s : WorkersState) (w : StepWorld) : Option Presence :=
  match s.readText w with
  | none => none
  | some text => text.parsed

/-- `readQueueWorkerFile(files.stop)` -/
def readStop (s : WorkersState) (w : StepWorld) : Option StopRequest :=
  if w.unreadable then none
  else
    match s.stop with
    | none => none
    | some text => text

def owns (s : WorkersState) (p : Worker) (presence : Presence) : Bool :=
  ownedPresence s.projectKey p (s.identity p) presence

end WorkersState

open WorkersState

def queueWorkerPresenceRecord (s : WorkersState) (p : Worker) (generation fields : String)
    (w : StepWorld) : Presence where
  pid := p.pid
  instanceId := p.instanceId
  projectKey := s.projectKey
  ownerGeneration := some generation
  startedAt := w.startedAt
  heartbeatAt := some w.now
  fields := fields

/-- A file-system write of a record; one that fails may leave half a text. -/
def writeRecord (s : WorkersState) (p : Worker) (ino : Nat) (generation fields : String)
    (w : StepWorld) : WorkersState :=
  let text :=
    if !w.fails then .record (queueWorkerPresenceRecord s p generation fields w)
    else if w.unreadable then .unreadable "" else (s.files ino).text
  (s.writeText ino text).emit (.wrote p generation ino)

/-- The error path of a file that was created: it is removed if it is still the one at the
path. -/
def removeCreated (s : WorkersState) (p : Worker) (ino : Nat) (generation : String)
    (w : StepWorld) : WorkersState :=
  if w.fails || s.presence != some ino then s
  else { s with presence := none }.emit (.removed p generation ino)

/-! ### Claim -/

/-- `retireStartupStop`: the request is a legacy one, or for the owner that was taken over. -/
def retiresAtStartup (projectKey : String) (takenOver : Option PresenceText) (stop : StopRequest) :
    Bool :=
  legacyStop stop
    || sameStopTarget stop.address (stopTarget projectKey (takenOver.bind PresenceText.parsed))

def rememberClaim (s : WorkersState) (p : Worker) (generation : String) (ino : Nat) :
    WorkersState :=
  s.setWorker p
    { s.worker p with identity := some ⟨generation, false, ino⟩, legacyStop := none }

def nextAttempt (s : WorkersState) (p : Worker) (attempt : Nat)
    (takenOver : Option PresenceText) : WorkersState :=
  if attempt + 1 < 2 then s.setPc p (.claim (.create (attempt + 1) takenOver)) else s.leave p

/-- Whether the worker of an existing presence file still runs. An unreadable file is
judged by its age alone. -/
def judgedLive (w : StepWorld) : PresenceText → Bool
  | .record presence => queueWorkerPresenceLive w.pidAlive presence w.now
  | .unreadable _ => w.modifiedMs != 0 && w.now < w.modifiedMs + queueWorkerPresenceFreshMs

def claimStep (s : WorkersState) (p : Worker) (w : StepWorld) : ClaimPc → WorkersState
  | .lock =>
    if s.holder = none && !w.fails then
      { s with holder := some p }.setPc p (.claim (.create 0 none))
    else s.finish p
  | .create attempt takenOver =>
    match s.presence with
    | some _ => s.setPc p (.claim (.judge attempt takenOver))
    | none =>
      if w.fails || s.inUse w.ino || s.drawn.contains w.generation then s.leave p
      else
        { s.createPresence w.ino w.generation with drawn := w.generation :: s.drawn }.setPc p
          (.claim (.startupStop w.ino w.generation takenOver))
  | .startupStop ino generation takenOver =>
    match s.readStop w with
    | some stop =>
      if retiresAtStartup s.projectKey takenOver stop then
        s.setPc p (.claim (.unlinkStop ino generation takenOver stop))
      else s.setPc p (.claim (.write ino generation))
    | none => s.setPc p (.claim (.write ino generation))
  | .unlinkStop ino generation takenOver _ =>
    if w.fails then s.setPc p (.claim (.undo ino generation))
    else
      (({ s with stop := none }.setLegacyStop p none).setPc p
        (.claim (.write ino generation))).emit
          (.retiredAtStartup s.stop takenOver)
  | .write ino generation =>
    let written := writeRecord s p ino generation "" w
    if w.fails then written.setPc p (.claim (.undo ino generation))
    else (rememberClaim written p generation ino).leave p
  | .undo ino generation => (removeCreated s p ino generation w).leave p
  | .judge attempt takenOver =>
    match s.readText w with
    | none => nextAttempt s p attempt takenOver
    | some existing =>
      if judgedLive w existing then s.leave p
      else s.setPc p (.claim (.moveAside attempt existing))
  | .moveAside attempt staleText =>
    match s.presence with
    | none => nextAttempt s p attempt (some staleText)
    | some ino =>
      if w.fails then s.leave p
      else { s with presence := none }.setPc p (.claim (.compare attempt staleText ino))
  | .compare attempt staleText aside =>
    if !w.unreadable && (s.files aside).text = staleText then
      nextAttempt
        { s with
          takeovers := fun generation =>
            if (s.files aside).createdFor = some generation then s.takeovers generation + 1
            else s.takeovers generation }
        p attempt (some staleText)
    else s.setPc p (.claim (.linkBack aside))
  | .linkBack aside =>
    if w.fails || s.presence.isSome then s.leave p
    else { s with presence := some aside }.leave p

/-! ### Refresh -/

/-- A refresh through the descriptor: `none` when the file is another worker's. The first
check compares the descriptor with the entry that was found at the path. -/
def mayRefresh (s : WorkersState) (p : Worker) (w : StepWorld) (entry descriptor : Nat) : Bool :=
  if descriptor != entry then false
  else
    match if w.unreadable then none else (s.files descriptor).text.parsed with
    | some current => s.owns p current
    | none =>
      match s.identity p with
      | some claim => claim.ino == descriptor
      | none => true

def refreshStep (s : WorkersState) (p : Worker) (w : StepWorld) : RefreshPc → WorkersState
  | .stat fields =>
    if w.fails then s.finish p
    else
      match s.presence with
      | some entry => s.setPc p (.refresh (.open fields entry))
      | none => s.setPc p (.refresh (.lock fields))
  | .open fields entry =>
    if w.fails then s.finish p
    else
      match s.presence with
      | some descriptor => s.setPc p (.refresh (.read fields entry descriptor))
      | none => s.setPc p (.refresh (.lock fields))
  | .read fields entry descriptor =>
    if w.fails then s.finish p
    else if mayRefresh s p w entry descriptor then
      s.setPc p (.refresh (.write fields descriptor))
    else (s.retire p).finish p
  | .write fields descriptor =>
    match s.identity p with
    | some claim =>
      let written := writeRecord s p descriptor claim.generation fields w
      if w.fails then written.finish p else written.setPc p (.refresh .confirm)
    | none => s.finish p
  | .confirm =>
    match s.readPresence w, s.identity p with
    | some owner, some claim =>
      if s.owns p owner then (s.finish p).emit (.refreshed p claim.generation)
      else (s.retire p).finish p
    | _, _ => (s.retire p).finish p
  | .lock fields =>
    if s.holder = none && !w.fails then
      { s with holder := some p }.setPc p (.refresh (.look fields))
    else s.finish p
  | .look fields =>
    match s.readPresence w, s.identity p with
    | some owner, some claim =>
      if s.owns p owner then (s.leave p).emit (.refreshed p claim.generation)
      else (s.retire p).leave p
    | some _, none => s.leave p
    | none, _ => s.setPc p (.refresh (.create fields))
  | .create fields =>
    match s.presence, s.identity p with
    | none, some claim =>
      if w.fails || s.inUse w.ino then s.leave p
      else
        (s.createPresence w.ino claim.generation).setPc p (.refresh (.publish fields w.ino))
    | _, _ => s.leave p
  | .publish fields ino =>
    match s.identity p with
    | some claim =>
      let written := writeRecord s p ino claim.generation fields w
      if w.fails then written.setPc p (.refresh (.undo ino))
      else
        { (written.setIdentity p (some { claim with ino })).leave p with
          effects := [.wrote p claim.generation ino, .refreshed p claim.generation] }
    | none => s.leave p
  | .undo ino =>
    match s.identity p with
    | some claim => (removeCreated s p ino claim.generation w).leave p
    | none => s.leave p

/-! ### Release -/

def releaseStep (s : WorkersState) (p : Worker) (w : StepWorld) : ReleasePc → WorkersState
  | .lock =>
    if s.holder = none && !w.fails then
      { s with holder := some p }.setPc p (.release .read)
    else s.finish p
  | .read =>
    match s.readPresence w with
    | some current =>
      if s.owns p current then s.setPc p (.release (.readStop current))
      else (s.retire p).leave p
    | none => (s.retire p).leave p
  | .readStop current =>
    match s.readStop w with
    | some stop =>
      let belongs := stopBelongsTo (s.worker p).legacyStop stop
        (stopTarget s.projectKey (some current))
      (s.setLegacyStop p belongs.2).setPc p
        (.release (if belongs.1 then .unlinkStop current stop else .unlink))
    | none => s.setPc p (.release .unlink)
  | .unlinkStop current _ =>
    if w.fails then s.leave p
    else
      (({ s with stop := none }.setLegacyStop p none).setPc p (.release .unlink)).emit
        (.retired p s.stop current)
  | .unlink =>
    match s.presence, s.identity p with
    | some ino, some claim =>
      if w.fails then s.leave p
      else
        (({ s with presence := none }.retire p).leave p).emit
          (.removed p claim.generation ino)
    | _, _ => s.leave p

/-! ### Stop requests -/

/-- What `writeQueueWorkerStop` writes. -/
def newStop (p : Worker) (w : StepWorld) (now : Bool) (target : Option StopTarget) :
    StopRequest where
  address := match target with | some target => .to target | none => .absent
  now := some now
  requestedAt := w.requestedAt
  byPid := p.pid

/-- The file at the stop path may be replaced: nothing is there, a legacy request, or one
for the same target. -/
def mayReplaceStop (stop : Option StopText) (target : Option StopTarget)
    (previous : Option StopRequest) : Bool :=
  match previous with
  | none => stop.isNone
  | some previous => legacyStop previous || sameStopTarget previous.address target

/-- `sameOwner` -/
def sameOwner (bound : Option LegacyStop) (target : Option StopTarget)
    (previous : Option StopRequest) : Bool × Option LegacyStop :=
  match previous, target with
  | none, _ => (false, bound)
  | some previous, some target => stopBelongsTo bound previous (some target)
  | some previous, none => (legacyStop previous, bound)

def writeStopStep (s : WorkersState) (p : Worker) (w : StepWorld) : StopPc → WorkersState
  | .lock now =>
    if s.holder = none && !w.fails then
      { s with holder := some p }.setPc p (.writeStop (.readPresence now))
    else s.finish p
  | .readPresence now =>
    s.setPc p (.writeStop (.readPrevious now (stopTarget s.projectKey (s.readPresence w))))
  | .readPrevious now target =>
    let previous := s.readStop w
    if mayReplaceStop s.stop target previous then
      let same := sameOwner (s.worker p).legacyStop target previous
      let kept := same.1 && (previous.bind StopRequest.now).getD false
      (s.setLegacyStop p same.2).setPc p (.writeStop (.write now kept target previous))
    else s.leave p
  | .write now kept target _ =>
    if w.fails then s.leave p
    else
      let stop := newStop p w (now || kept) target
      ({ s with stop := some (some stop) }.leave p).emit (.requested s.stop kept stop)

/-- The worker loop asks whether it has to stop. -/
def readStopStep (s : WorkersState) (p : Worker) (w : StepWorld) : ReadStopPc → WorkersState
  | .readStop =>
    match s.readStop w with
    | none => s.finish p
    | some stop => s.setPc p (.readStop (.readPresence stop))
  | .readPresence stop =>
    match s.readPresence w, s.identity p with
    | some presence, some claim =>
      if s.owns p presence then
        let target := stopTarget s.projectKey (some presence)
        if legacyStop stop then
          let associated := associateLegacyStop (s.worker p).legacyStop stop target
          let s' := (s.setLegacyStop p associated.2).finish p
          if associated.1 then s'.emit (.obeyed p claim.generation stop) else s'
        else if stop.address != .absent && !sameStopTarget stop.address target then s.finish p
        else (s.finish p).emit (.obeyed p claim.generation stop)
      else (s.retire p).finish p
    | _, _ => (s.retire p).finish p

/-! ### The system -/

/-- The first step of an operation. A worker refreshes, releases and asks for stop requests
with the claim that it was granted; one that is retired does nothing. -/
def startOperation (process : WorkerProcess) : Operation → Pc
  | .claim => .claim .lock
  | .writeStop now => .writeStop (.lock now)
  | .refresh fields =>
    match process.identity with
    | some claim => if claim.retired then .idle else .refresh (.stat fields)
    | none => .idle
  | .release =>
    match process.identity with
    | some claim => if claim.retired then .idle else .release .lock
    | none => .idle
  | .readStop => if process.identity.isSome then .readStop .readStop else .idle

def pcStep (s : WorkersState) (p : Worker) (w : StepWorld) : Pc → WorkersState
  | .idle => s
  | .claim pc => claimStep s p w pc
  | .refresh pc => refreshStep s p w pc
  | .release pc => releaseStep s p w pc
  | .writeStop pc => writeStopStep s p w pc
  | .readStop pc => readStopStep s p w pc

def workersStep (s : WorkersState) (event : WorkerEvent) : WorkersState :=
  let quiet := { s with effects := [] }
  match event with
  | .call p operation =>
    if (s.worker p).pc = .idle then
      { quiet with started := p :: quiet.started }.setPc p
        (startOperation (s.worker p) operation)
    else quiet
  | .step p w => pcStep quiet p w (s.worker p).pc
  | .crash p =>
    { quiet with holder := if s.holder = some p then none else s.holder }.setWorker p .initial

end AgentBridge.Workers
