import AgentBridge.Journal.Transition
import AgentBridge.Systems.Program

/-!
# The checkout and the journal around one integration call

The files of a checkout, its HEAD and index, and the journal row of one
operation, with the commands through which the apply and the recovery reach
them. Around each command the environment may write any path, move HEAD or the
index, abort the call, let its lock row go, and make the command fail before
or after its effect.
-/

namespace AgentBridge.Journal

open Systems

/-- What `lstat` finds at a path, with the content of a file. -/
inductive Leaf where
  | missing
  | link (target : String)
  | file (mode : Nat) (content : List UInt8)
  | directory
  deriving DecidableEq

/-- The size of a regular file, as `lstat` reports it. -/
def Leaf.fileBytes : Leaf → Nat
  | .file _ content => content.length
  | _ => 0

def Leaf.recordedBytes : Leaf → Nat
  | .link target => target.utf8ByteSize
  | .file _ content => content.length
  | _ => 0

/-- A snapshot value: `missing`, `link:<target>` or `file:<mode>:<sha256>`, with
the content in place of its hash. -/
inductive Fingerprint where
  | missing
  | link (target : String)
  | file (executable : Bool) (content : List UInt8)
  deriving DecidableEq

/-- `CONFIG` and the worktree rules that snapshots read. -/
structure JournalSettings where
  maxSnapshotFileBytes : Nat
  maxSnapshotTotalBytes : Nat
  execBit : Bool

def integrationFingerprintMode (execBit : Bool) (permissions : Nat) : Bool :=
  execBit && permissions.testBit 6

/-- The recorded form of what is at a path; a directory has none. -/
def Leaf.fingerprint (execBit : Bool) : Leaf → Option Fingerprint
  | .missing => some .missing
  | .link target => some (.link target)
  | .file mode content => some (.file (integrationFingerprintMode execBit mode) content)
  | .directory => none

/-- A row of `integration_operation_files`. `preIndexEntry` is `none` in rows of
older bridges. -/
structure JournalFile where
  path : String
  pre : Leaf
  post : Fingerprint
  preIndexEntry : Option Nat

def JournalFile.preFingerprint (settings : JournalSettings) (file : JournalFile) :
    Option Fingerprint :=
  file.pre.fingerprint settings.execBit

structure JournalOperation where
  row : IntegrationOperation
  targetHead : Nat
  preIndexSha : Nat
  files : List JournalFile

/-- The real index: its whole identity, the entry of a path, and whether
`git ls-files --eol` allows the CRLF tolerance for a path with a content (no
entry, or `i/lf` and `w/crlf`). -/
structure IndexState where
  sha : Nat
  entry : String → Nat
  crlf : String → Leaf → Bool

/-- What happened, newest first. A write of the bridge records the journal status
it happened under. -/
inductive JournalEvent where
  | external (path : String)
  | read (path : String)
  | wrote (path : String) (status : Option OperationStatus)
  | commitLost (status : OperationStatus)
  deriving DecidableEq

structure Machine where
  files : String → Leaf
  head : Nat
  index : IndexState
  operation : Option JournalOperation
  lockOwned : Bool
  aborted : Bool
  blocked : Bool
  trace : List JournalEvent

def Machine.status (s : Machine) : Option OperationStatus :=
  s.operation.map (·.row.status)

/-- How a command fails: before its effect, after it, or, for a file write,
halfway with some content left at the path. -/
inductive Fault where
  | none
  | before (error : JournalError)
  | after (error : JournalError)
  | torn (error : JournalError) (leaf : Leaf)

/-- The outcome of the validation command; no `errorType` means that it passed. -/
structure ValidationGate where
  errorType : Option String
  processTreeUnconfirmed : Bool

/-- What the environment does with one command. The last fields are the answers
of commands whose outcome the checkout and the journal do not decide. -/
structure JournalEnv where
  writes : List (String × Leaf) := []
  movedHead : Option Nat := none
  movedIndex : Option IndexState := none
  aborts : Bool := false
  losesLock : Bool := false
  fault : Fault := .none
  now : Nat := 0
  holds : Bool := true
  refusal : Option String := none
  paths : List String := []
  leaf : Option Leaf := none
  validation : ValidationGate := ⟨none, false⟩

/-- The questions that the source asks git, the policy file or a hook about
things outside the affected files and the journal. -/
inductive Question where
  | recordedHeadExists
  | presentInCommit (path : String)
  | pathSetExact
  | policyTrusted
  | validationTouchedNothing
  | validationTouchedReviewedOnly
  | targetStateCaptured

inductive JournalCommand where
  | signalAborted
  | preflight
  | lstat (path : String)
  | readLeaf (path : String)
  | eolRecord (path : String)
  | readHead
  | readIndex
  | readIndexEntry (path : String)
  | committedChanges
  | readEvidence (path : String)
  | insertOperation (operation : JournalOperation) (lock : Bool)
  | transition (transition : JournalTransition)
  | loadOperation (operationId : String)
  | integrationPrepared
  | stagePatch
  | isolatedEol
  | commitLeaf (path : String)
  | ask (question : Question)
  | validate
  | writeTemporary
  | removeLeaf (path : String)
  | renameInto (path : String) (leaf : Leaf)
  | checkoutIndex (path : String) (leaf : Leaf)
  | blockRoot

def JournalReply : JournalCommand → Type
  | .signalAborted => Bool
  | .preflight => Option String
  | .lstat _ => Leaf
  | .readLeaf _ => Leaf
  | .eolRecord _ => Bool
  | .readHead => Nat
  | .readIndex => Nat
  | .readIndexEntry _ => Nat
  | .committedChanges => List String
  | .loadOperation _ => Option JournalOperation
  | .stagePatch => Bool
  | .isolatedEol => List String
  | .commitLeaf _ => Option Leaf
  | .ask _ => Bool
  | .validate => ValidationGate
  | _ => Unit

/-- What the environment does before the command takes effect. -/
def Machine.interfere (s : Machine) (env : JournalEnv) : Machine :=
  { s with
    files := env.writes.foldl (fun files write => Function.update files write.1 write.2) s.files
    head := env.movedHead.getD s.head
    index := env.movedIndex.getD s.index
    aborted := s.aborted || env.aborts
    lockOwned := s.lockOwned && !env.losesLock
    trace := (env.writes.map (fun write => .external write.1)).reverse ++ s.trace }

/-- The effect of a write of the bridge at a path. -/
def Machine.write (s : Machine) (path : String) (leaf : Leaf) : Machine :=
  { s with
    files := Function.update s.files path leaf
    trace := .wrote path s.status :: s.trace }

def Machine.setOperation (s : Machine) (operation : JournalOperation) : Machine :=
  { s with operation := some operation }

def Machine.record (s : Machine) (event : JournalEvent) : Machine :=
  { s with trace := event :: s.trace }

/-- A command without effect: every failure comes before its answer. -/
def answering {α : Type} (s : Machine) (env : JournalEnv) (reply : α) :
    Machine × Except JournalError α :=
  match env.fault with
  | .none => (s, .ok reply)
  | .before error | .after error | .torn error _ => (s, .error error)

/-- A read of exact bytes; a failed one is no check of the path. -/
def reading (s : Machine) (env : JournalEnv) (path : String) : Machine × Except JournalError Leaf :=
  match env.fault with
  | .none => (s.record (.read path), .ok (s.files path))
  | .before error | .after error | .torn error _ => (s, .error error)

/-- A write of the bridge at a path. -/
def writing (s : Machine) (env : JournalEnv) (path : String) (leaf : Leaf) :
    Machine × Except JournalError Unit :=
  match env.fault with
  | .none => (s.write path leaf, .ok ())
  | .before error => (s, .error error)
  | .after error => (s.write path leaf, .error error)
  | .torn error torn => (s.write path torn, .error error)

/-- A journal transaction that commits the operation `next`, or throws what its
body threw. An error after the commit is recorded. -/
def committing (s : Machine) (env : JournalEnv) (next : Except JournalError JournalOperation) :
    Machine × Except JournalError Unit :=
  match env.fault, next with
  | .before error, _ | .torn error _, _ => (s, .error error)
  | _, .error error => (s, .error error)
  | .none, .ok operation => (s.setOperation operation, .ok ())
  | .after error, .ok operation =>
    ((s.setOperation operation).record (.commitLost operation.row.status), .error error)

/-- The body of the insert of `prepareIntegrationOperation`. -/
def insertIntegrationOperation (context : JournalContext) (holds : Bool) (lock : Bool)
    (operation : JournalOperation) : Except JournalError JournalOperation := do
  assertIntegrationLockOwned context lock
  -- no quarantined operation of the repository and room in the state database
  if !holds then throw (.ofType "integration_recovery_quarantined")
  return operation

/-- `transitionIntegrationOperation` on the operation of the machine. -/
def transitionOperation (context : JournalContext) (transition : JournalTransition)
    (operation : Option JournalOperation) : Except JournalError JournalOperation := do
  let row ← transitionIntegrationOperation context transition (operation.map (·.row))
  match operation with
  | none => throw (.ofType "")
  | some operation => return { operation with row }

/-- Execute one command of the bridge instance `instanceId`. -/
def execute (instanceId : String) (env : JournalEnv) (s : Machine) :
    (command : JournalCommand) → Machine × Except JournalError (JournalReply command)
  | .signalAborted => (s.interfere env, .ok (s.interfere env).aborted)
  | .preflight => answering (s.interfere env) env env.refusal
  | .lstat path => answering (s.interfere env) env ((s.interfere env).files path)
  | .readLeaf path => reading (s.interfere env) env path
  | .eolRecord path =>
    answering (s.interfere env) env
      ((s.interfere env).index.crlf path ((s.interfere env).files path))
  | .readHead => answering (s.interfere env) env (s.interfere env).head
  | .readIndex => answering (s.interfere env) env (s.interfere env).index.sha
  | .readIndexEntry path => answering (s.interfere env) env ((s.interfere env).index.entry path)
  | .committedChanges => answering (s.interfere env) env env.paths
  | .insertOperation operation lock =>
    committing (s.interfere env) env (insertIntegrationOperation
      ⟨instanceId, (s.interfere env).lockOwned, env.now⟩ env.holds lock operation)
  | .transition transition =>
    committing (s.interfere env) env (transitionOperation
      ⟨instanceId, (s.interfere env).lockOwned, env.now⟩ transition (s.interfere env).operation)
  | .readEvidence _ => answering (s.interfere env) env ()
  | .loadOperation operationId =>
    answering (s.interfere env) env ((s.interfere env).operation.filter fun operation =>
      operation.row.operationId == operationId && !operation.row.status.resolved)
  | .integrationPrepared => answering (s.interfere env) env ()
  | .stagePatch => answering (s.interfere env) env env.holds
  | .isolatedEol => answering (s.interfere env) env env.paths
  | .commitLeaf _ => answering (s.interfere env) env env.leaf
  | .ask _ => answering (s.interfere env) env env.holds
  | .validate => answering (s.interfere env) env env.validation
  | .writeTemporary => answering (s.interfere env) env ()
  | .removeLeaf path => writing (s.interfere env) env path .missing
  | .renameInto path leaf => writing (s.interfere env) env path leaf
  | .checkoutIndex path leaf => writing (s.interfere env) env path leaf
  | .blockRoot => ({ s.interfere env with blocked := true }, .ok ())

end AgentBridge.Journal
