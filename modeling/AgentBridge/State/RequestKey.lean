import AgentBridge.Systems.Interference
import AgentBridge.Systems.Run

/-!
# The key of the state directory

`queueRequestKey` over the entries of one state directory, its runs in any number of
processes, and the calls that share the promise of their process. Around each file-system
operation the environment may let it fail, before or after its effect, and a process may die
between two of them.
-/

namespace AgentBridge.State

open Systems

abbrev Key := List UInt8

/-! ## The directory -/

inductive FileKind where
  | regular | link | special
  deriving DecidableEq

/-- A file with its permission bits. `creator` is the run that created it; no code reads it. -/
structure KeyFile where
  kind : FileKind
  mode : Nat
  content : Key
  creator : Option Nat

/-- The files, each under the number it was created with, and the two kinds of names. -/
structure KeyDirectory where
  files : List KeyFile
  key : Option Nat
  temporary : String → Option Nat

inductive KeyEntry where
  | key
  | temporary (name : String)

def KeyDirectory.entry (s : KeyDirectory) : KeyEntry → Option Nat
  | .key => s.key
  | .temporary name => s.temporary name

/-- What an operation through a name works on. -/
def KeyDirectory.file (s : KeyDirectory) (entry : KeyEntry) : Option KeyFile :=
  (s.entry entry).bind fun number => s.files[number]?

def KeyDirectory.update (s : KeyDirectory) (number : Nat) (change : KeyFile → KeyFile) :
    KeyDirectory :=
  { s with files := s.files.modify number change }

/-- A directory with a key file or without one, and what crashed runs left. -/
def KeyDirectory.start (key : Option KeyFile) (leftovers : List (String × KeyFile)) :
    KeyDirectory where
  files := key.toList ++ leftovers.map Prod.snd
  key := key.map fun _ => 0
  temporary name :=
    ((leftovers.map Prod.fst).idxOf? name).map fun index => key.toList.length + index

/-! ## Operations -/

inductive KeyError where
  | notFound
  | exists
  | other (message : String)
  deriving DecidableEq

inductive KeyCommand where
  | mkdir
  | assertNoLinkedDirectory
  | assertNoLinkedPath (entry : KeyEntry)
  | lstat (entry : KeyEntry)
  | readFile (entry : KeyEntry)
  | chmod (entry : KeyEntry)
  | randomKey
  | randomName
  | openNew (name : String)
  | stat (handle : Nat)
  | writeFile (handle : Nat) (content : Key)
  | chmodHandle (handle : Nat)
  | sync (handle : Nat)
  | close (handle : Nat)
  | link (name : String)
  | unlink (name : String)

abbrev KeyReply : KeyCommand → Type
  | .lstat _ | .stat _ => KeyFile
  | .readFile _ => Key
  | .randomKey => { key : Key // key.length = 32 }
  | .randomName => String
  | .openNew _ => Nat
  | _ => Unit

/-- How an operation fails: before its effect, after it, or a write with a part of the
content written. -/
inductive KeyFault where
  | none
  | before (error : KeyError)
  | after (error : KeyError)
  | torn (written : Nat) (error : KeyError)

/-- What the environment does with one operation, with the random values it gives. -/
structure KeyEnv where
  fault : KeyFault
  key : { key : Key // key.length = 32 }
  name : String

/-- The reply of an operation through a name. -/
def KeyDirectory.ask {α : Type} (s : KeyDirectory) (entry : KeyEntry) (answer : KeyFile → α) :
    Except KeyError α :=
  match s.file entry with
  | some file => .ok (answer file)
  | none => .error .notFound

/-- The effect of an operation of a run and its reply. -/
def perform (id : Nat) (env : KeyEnv) (s : KeyDirectory) :
    (command : KeyCommand) → KeyDirectory × Except KeyError (KeyReply command)
  | .mkdir | .assertNoLinkedDirectory => (s, .ok ())
  | .assertNoLinkedPath entry =>
    (s, match s.file entry with
      | some file =>
        if file.kind = .link then .error (.other "traverses a symbolic link or junction")
        else .ok ()
      | none => .error .notFound)
  | .lstat entry => (s, s.ask entry fun file => file)
  | .readFile entry => (s, s.ask entry KeyFile.content)
  | .chmod entry =>
    match s.entry entry with
    | some number => (s.update number fun file => { file with mode := 0o600 }, .ok ())
    | none => (s, .error .notFound)
  | .randomKey => (s, .ok env.key)
  | .randomName => (s, .ok env.name)
  | .openNew name =>
    match s.temporary name with
    | some _ => (s, .error .exists)
    | none =>
      ({ s with
          files := s.files ++ [⟨.regular, 0o600, [], some id⟩]
          temporary := Function.update s.temporary name (some s.files.length) },
        .ok s.files.length)
  | .stat handle =>
    (s, match s.files[handle]? with
      | some file => .ok file
      | none => .error (.other "EBADF"))
  | .writeFile handle content =>
    (s.update handle fun file => { file with content := content }, .ok ())
  | .chmodHandle handle => (s.update handle fun file => { file with mode := 0o600 }, .ok ())
  | .sync _ | .close _ => (s, .ok ())
  | .link name =>
    match s.key, s.temporary name with
    | some _, _ => (s, .error .exists)
    | none, none => (s, .error .notFound)
    | none, some number => ({ s with key := some number }, .ok ())
  | .unlink name =>
    match s.temporary name with
    | some _ => ({ s with temporary := Function.update s.temporary name none }, .ok ())
    | none => (s, .error .notFound)

/-- A write that fails leaves a part of the content. -/
def tornCommand (written : Nat) : KeyCommand → KeyCommand
  | .writeFile handle content => .writeFile handle (content.take written)
  | command => command

def execute (id : Nat) (env : KeyEnv) (s : KeyDirectory) (command : KeyCommand) :
    KeyDirectory × Except KeyError (KeyReply command) :=
  match env.fault with
  | .none => perform id env s command
  | .before error => (s, .error error)
  | .after error => ((perform id env s command).1, .error error)
  | .torn written error => ((perform id env s (tornCommand written command)).1, .error error)

/-! ## `queueRequestKey` -/

/-- `temporaryHandle` and `temporaryOwned` -/
structure KeyLocals where
  temporaryHandle : Option Nat
  temporaryOwned : Bool

abbrev KeyAction (α : Type) : Type := Procedure KeyCommand KeyReply KeyLocals KeyError α

def issue (command : KeyCommand) : KeyAction (KeyReply command) := Procedure.call command

/-- Others than the owner have rights. -/
def exposed (mode : Nat) : Bool := mode &&& 0o077 ≠ 0

def refuseUnless (condition : Bool) (message : String) : KeyAction Unit :=
  if condition then pure () else Procedure.raise (.other message)

/-- A key file that others may read is closed to them. -/
def tightenPermissions (windows : Bool) (details : KeyFile) : KeyAction Unit :=
  if !windows && exposed details.mode then do
    issue (.chmod .key)
    let tightened : KeyFile ← issue (.lstat .key)
    refuseUnless (!exposed tightened.mode) "Queue request key permissions must be 0600."
  else pure ()

def existingKey (windows : Bool) : KeyAction Key := do
  let details : KeyFile ← issue (.lstat .key)
  refuseUnless (details.kind = .regular)
    "Queue request key must be a regular file, not a link or special entry."
  let existing : Key ← issue (.readFile .key)
  refuseUnless (existing.length = 32) "Queue request key must be exactly 32 bytes."
  tightenPermissions windows details
  pure existing

def closeToOthers (windows : Bool) (handle : Nat) : KeyAction Unit :=
  if !windows then issue (.chmodHandle handle) else pure ()

def verifyTemporary (windows : Bool) (temporaryPath : String) : KeyAction Unit := do
  issue (.assertNoLinkedPath (.temporary temporaryPath))
  let temporaryDetails : KeyFile ← issue (.lstat (.temporary temporaryPath))
  refuseUnless (temporaryDetails.kind = .regular)
    "Queue request temporary key must be a regular file, not a link or special entry."
  refuseUnless (temporaryDetails.content.length = 32)
    "Queue request temporary key must be exactly 32 bytes."
  refuseUnless (windows || !exposed temporaryDetails.mode)
    "Queue request temporary key permissions must be 0600."

/-- The link never replaces a key file that is there. -/
def linkKey (windows : Bool) (key : Key) (temporaryPath : String) : KeyAction Key :=
  Procedure.recover
    (do
      issue (.link temporaryPath)
      pure key)
    fun error =>
      if error = .exists then do
        issue (.assertNoLinkedPath .key)
        existingKey windows
      else Procedure.raise error

/-- The `try` block after a random key and a random name: the complete file under the
temporary name, then the link. -/
def publishKey (windows : Bool) (key : Key) (temporaryPath : String) : KeyAction Key := do
  let handle : Nat ← issue (.openNew temporaryPath)
  Procedure.assign fun _ => ⟨some handle, true⟩
  let opened : KeyFile ← issue (.stat handle)
  refuseUnless (opened.kind = .regular) "Queue request temporary key must be a regular file."
  issue (.writeFile handle key)
  closeToOthers windows handle
  issue (.sync handle)
  issue (.close handle)
  Procedure.assign fun locals => { locals with temporaryHandle := none }
  verifyTemporary windows temporaryPath
  linkKey windows key temporaryPath

/-- The `finally` block. -/
def cleanUpTemporary (temporaryPath : String) : KeyAction Unit :=
  Procedure.lastly
    (do
      let locals ← Procedure.locals
      match locals.temporaryHandle with
      | some handle => issue (.close handle)
      | none => pure ())
    (do
      let locals ← Procedure.locals
      if locals.temporaryOwned then
        Procedure.recover (issue (.unlink temporaryPath)) fun error =>
          if error = .notFound then pure () else Procedure.raise error
      else pure ())

def createKey (windows : Bool) : KeyAction Key := do
  let key : { key : Key // key.length = 32 } ← issue .randomKey
  let temporaryPath : String ← issue .randomName
  Procedure.lastly (publishKey windows key.1 temporaryPath) (cleanUpTemporary temporaryPath)

/-- The promise of `queueRequestKey`. -/
def queueRequestKey (windows : Bool) : KeyAction Key := do
  issue .mkdir
  issue .assertNoLinkedDirectory
  let existing : Option Key ← Procedure.recover (some <$> existingKey windows) fun error =>
    if error = .notFound then pure none else Procedure.raise error
  match existing with
  | some key => pure key
  | none => createKey windows

/-! ## Processes -/

abbrev KeyProgram : Type :=
  Program KeyCommand (fun command => Except KeyError (KeyReply command))
    (Except KeyError Key × KeyLocals)

/-- Nothing of the environment gets in the way of an operation: it does not fail, and a random
name is not in use. -/
def Clear (env : KeyEnv) (s : KeyDirectory) (command : KeyCommand) : Prop :=
  env.fault = .none ∧ ∀ name, command = .openNew name → s.temporary name = none

/-- The runs of `queueRequestKey` in all processes. A run is one promise; `cached` is
`QUEUE_REQUEST_KEY_PROMISES` of a process, and `calls` has the run that each call awaits.
`troubled` records that the environment got in the way of a run. -/
structure KeyState where
  directory : KeyDirectory
  runs : Nat
  process : Nat → Nat
  live : Nat → Option KeyProgram
  ended : Nat → Option (Except KeyError Key)
  troubled : Nat → Prop
  cached : Nat → Option Nat
  calls : List Nat

def KeyState.start (directory : KeyDirectory) : KeyState where
  directory
  runs := 0
  process _ := 0
  live _ := none
  ended _ := none
  troubled _ := False
  cached _ := none
  calls := []

inductive KeyEvent where
  | call (process : Nat)
  | advance (id : Nat) (env : KeyEnv)
  | die (process : Nat)

/-- A run goes on with what is left of its program; a failed promise leaves the cache. -/
def KeyState.settle (s : KeyState) (id : Nat) : KeyProgram → KeyState
  | .done (.ok key, _) =>
    { s with
      live := Function.update s.live id none
      ended := Function.update s.ended id (some (.ok key)) }
  | .done (.error error, _) =>
    { s with
      live := Function.update s.live id none
      ended := Function.update s.ended id (some (.error error))
      cached := Function.update s.cached (s.process id) none }
  | .call command next => { s with live := Function.update s.live id (some (.call command next)) }

def keyStep (windows : Bool) (s : KeyState) : KeyEvent → KeyState
  | .call process =>
    match s.cached process with
    | some id => { s with calls := s.calls ++ [id] }
    | none =>
      { s with
        runs := s.runs + 1
        process := Function.update s.process s.runs process
        live := Function.update s.live s.runs
          (some (queueRequestKey windows ⟨none, false⟩))
        cached := Function.update s.cached process (some s.runs)
        calls := s.calls ++ [s.runs] }
  | .advance id env =>
    match s.live id with
    | some (.call command next) =>
      let reply := execute id env s.directory command
      { s with
        directory := reply.1
        troubled := Function.update s.troubled id
          (s.troubled id ∨ ¬Clear env s.directory command) }.settle id (next reply.2)
    | _ => s
  | .die process =>
    { s with
      live := fun id => if s.process id = process then none else s.live id
      cached := Function.update s.cached process none }

end AgentBridge.State
