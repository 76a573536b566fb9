import AgentBridge.Integration.MovedTarget
import AgentBridge.Redaction.Patterns
import AgentBridge.Systems.Program

/-!
# The commit of an auto-integration

`autoIntegrationCommitHooks.commit` over the git commands that it runs. The bridge builds the
tree in an index of its own and moves HEAD with a compare-and-swap; around every command other
processes write objects and move HEAD as they like, and the command may fail.
-/

namespace AgentBridge.Queue.Commits

open Paths Redaction Systems
open Integration (directoriesAbove)

/-! ## Trees and commits -/

structure TreeEntry where
  mode : String
  blob : Text
  deriving DecidableEq

/-- A tree as the map from its paths to their entries. -/
abbrev Tree := List (PathText × TreeEntry)

namespace Tree

def set (tree : Tree) (path : PathText) (entry : TreeEntry) : Tree :=
  tree.filter (fun other => other.1 != path) ++ [(path, entry)]

/-- A file of the tree is a directory of the path, or the path one of a file. -/
def clashes (tree : Tree) (path : PathText) : Bool :=
  tree.any fun other =>
    (directoriesAbove path).contains other.1 || (directoriesAbove other.1).contains path

/-- `git ls-tree -r`: the paths that are one of the given, or lie below one. -/
def listed (tree : Tree) (paths : List PathText) : List PathText :=
  (tree.map Prod.fst).filter fun path =>
    paths.any fun given => given == path || (directoriesAbove path).contains given

end Tree

abbrev CommitId := String

structure CommitObject where
  tree : Tree
  parents : List CommitId
  authorName : Text
  authorEmail : Text
  message : Text
  deriving DecidableEq

structure PreparedFile where
  path : PathText
  entry : TreeEntry

/-- `prepared.files`: `changedFiles` has every path once. -/
structure Prepared where
  files : List PreparedFile
  distinct : (files.map PreparedFile.path).Nodup

structure Refusal where
  errorType : String
  error : Text

structure Committed where
  commit : CommitId
  parent : CommitId
  files : List PathText
  authorName : Text
  headRetries : Nat
  indexUpdated : Bool
  indexWarning : Text

/-! ## The repository -/

inductive Mover where
  | bridge | others

structure HeadMove where
  mover : Mover
  before : Option CommitId
  after : Option CommitId

/-- Objects are under their ids; an id never changes its object. -/
structure Repository where
  objects : List (CommitId × CommitObject)
  /-- What HEAD names, if it names a commit. -/
  head : Option CommitId
  /-- The index of the bridge's own (`GIT_INDEX_FILE`). -/
  scratch : Tree
  /-- Every move of HEAD, every HEAD that the bridge read and every answer to its swaps. -/
  moves : List HeadMove
  reads : List (Option CommitId)
  swaps : List Bool

namespace Repository

def objectAt (s : Repository) (id : CommitId) : Option CommitObject := s.objects.lookup id

def writeObject (s : Repository) (id : CommitId) (object : CommitObject) : Repository :=
  if (s.objectAt id).isSome then s else { s with objects := s.objects ++ [(id, object)] }

def moveHead (s : Repository) (mover : Mover) (after : Option CommitId) : Repository :=
  { s with head := after, moves := s.moves ++ [⟨mover, s.head, after⟩] }

end Repository

inductive OtherStep where
  | writeObject (id : CommitId) (object : CommitObject)
  | moveHead (after : Option CommitId)

def Repository.interfere (s : Repository) : OtherStep → Repository
  | .writeObject id object => s.writeObject id object
  | .moveHead after => s.moveHead .others after

/-- What happens around a command: the steps of other processes before it, whether it runs
without an error of its own, what it prints, and the id of an object that it writes. -/
structure Around where
  others : List OtherStep
  succeeds : Bool
  stdout : Text
  stderr : Text
  newId : CommitId

/-! ## Commands -/

structure GitResult where
  ok : Bool
  stdout : Text
  stderr : Text

inductive Command where
  /-- `hash-object -w --path` -/
  | hashObject (path : PathText)
  | config (key : String)
  /-- `log -1 --format=%an%x00%ae` -/
  | lastAuthor
  /-- `rev-parse --verify HEAD^{commit}` -/
  | readHead
  | mkdtemp
  | readTree (commit : CommitId)
  /-- `update-index --add --cacheinfo` of a file, in the bridge's index -/
  | updateIndex (file : PreparedFile)
  | writeTree
  | commitTree (object : CommitObject)
  | updateRef (commit oldHead : CommitId)
  | delayWithSignal
  | lsTree (commit : CommitId) (paths : List PathText)
  /-- `update-index --add --cacheinfo` of all files, in the owner's index -/
  | updateOwnerIndex (files : List PreparedFile)
  | removeScratch

/-- A printed object id is read as the object it names; `none` is any other text. -/
abbrev Reply : Command → Type
  | .readHead => Option CommitId
  | .mkdtemp | .delayWithSignal | .removeScratch => Unit
  | .writeTree => Option Tree
  | .commitTree _ => Except Text CommitId
  | .lsTree _ _ => Except Text (List PathText)
  | _ => GitResult

/-- How a call of `commit` leaves early: it returns a refusal, or something threw. -/
inductive Stop where
  | refused (refusal : Refusal)
  | thrown (message : Text)

abbrev Action (α : Type) := Procedure Command Reply Unit Stop α

def Around.result (around : Around) (ok : Bool) : GitResult :=
  ⟨around.succeeds && ok, around.stdout, around.stderr⟩

/-- A command after what happens before it. -/
def execute (around : Around) (s : Repository) :
    (command : Command) → Repository × Except Stop (Reply command)
  | .hashObject _ | .config _ | .lastAuthor | .updateOwnerIndex _ =>
    (s, .ok (around.result true))
  | .readHead =>
    let found := s.head.filter fun id => around.succeeds && (s.objectAt id).isSome
    ({ s with reads := s.reads ++ [found] }, .ok found)
  | .mkdtemp => (s, if around.succeeds then .ok () else .error (.thrown around.stderr))
  | .readTree commit =>
    match s.objectAt commit with
    | some object =>
      if around.succeeds then ({ s with scratch := object.tree }, .ok (around.result true))
      else (s, .ok (around.result false))
    | none => (s, .ok (around.result false))
  -- without `--replace`, a file in the way of a directory is an error
  | .updateIndex file =>
    if around.succeeds && !s.scratch.clashes file.path then
      ({ s with scratch := s.scratch.set file.path file.entry }, .ok (around.result true))
    else (s, .ok (around.result false))
  | .writeTree => (s, .ok (if around.succeeds then some s.scratch else none))
  -- the id of an object is that of its content
  | .commitTree object =>
    let s' := s.writeObject around.newId object
    if around.succeeds && s'.objectAt around.newId == some object then
      (s', .ok (.ok around.newId))
    else (s, .ok (.error around.stderr))
  | .updateRef commit oldHead =>
    if around.succeeds && s.head == some oldHead then
      ({ s.moveHead .bridge (some commit) with swaps := s.swaps ++ [true] },
        .ok (around.result true))
    else ({ s with swaps := s.swaps ++ [false] }, .ok (around.result false))
  | .delayWithSignal => (s, .ok ())
  | .lsTree commit paths =>
    (s, .ok (match s.objectAt commit with
      | some object =>
        if around.succeeds then .ok (object.tree.listed paths) else .error around.stderr
      | none => .error around.stderr))
  | .removeScratch => (s, .ok ())

def perform (around : Around) (s : Repository) (command : Command) :
    Repository × Except Stop (Reply command) :=
  execute around (around.others.foldl Repository.interfere s) command

/-! ## The hook -/

section

def autoIntegrationHeadRetries : Nat := 5

def autoIntegrationEmptyIndexRetries : Nat := 5

def refuse {α : Type} (errorType : String) (error : Text) : Action α :=
  Procedure.raise (.refused ⟨errorType, error⟩)

def hashObject (path : PathText) : Action GitResult := Procedure.call (Command.hashObject path)

def config (key : String) : Action GitResult := Procedure.call (Command.config key)

def readHead (error : Text) : Action CommitId := do
  match ← (Procedure.call Command.readHead : Action (Option CommitId)) with
  | some id => pure id
  | none => refuse "auto_integration_head_unreadable" error

/-- Every file in the checkout has the blob that was prepared. -/
def checkBlobs : List PreparedFile → Action Unit
  | [] => pure ()
  | file :: files => do
    let written ← hashObject file.path
    if !written.ok then
      refuse "auto_integration_hash_failed" ((redactSensitiveText written.stderr).take 300)
    else if trim written.stdout ≠ file.entry.blob then
      refuse "auto_integration_content_mismatch"
        (file.path ++ " in the checkout is not the reviewed content (blob ".toList ++
          (trim written.stdout).take 12 ++ ", expected ".toList ++ file.entry.blob.take 12 ++
          "); nothing was committed.".toList)
    else checkBlobs files

def configured (key : String) : Action Text := do
  let read ← config key
  pure (if read.ok then trim read.stdout else [])

/-- The name and the email to commit with: the configured ones, or those of the last commit. -/
def authorIdentity : Action (Text × Text) := do
  let name ← configured "user.name"
  let email ← configured "user.email"
  let identity ← (if name = [] ∨ email = [] then do
      let last ← (Procedure.call Command.lastAuthor : Action GitResult)
      let parts := if last.ok then (trim last.stdout).splitOn '\x00' else []
      pure (parts[0]?.getD [], parts[1]?.getD [])
    else pure (name, email) : Action (Text × Text))
  if trim identity.1 = [] ∨ trim identity.2 = [] then
    refuse "auto_integration_identity_missing"
      ("The target repository has no user.name and user.email configured, and its last commit " ++
        "has no author name and email to commit with.").toList
  else pure (trim identity.1, trim identity.2)

/-- A step that builds the tree. -/
def indexStep (step : Action GitResult) : Action Unit := do
  let done ← step
  if done.ok then pure ()
  else refuse "auto_integration_index_failed" ((redactSensitiveText done.stderr).take 300)

def updateIndex : List PreparedFile → Action Unit
  | [] => pure ()
  | file :: files => do
    indexStep (Procedure.call (Command.updateIndex file))
    updateIndex files

structure CommitInfo where
  authorName : Text
  authorEmail : Text
  message : Text

def buildCommit (files : List PreparedFile) (info : CommitInfo) (oldHead : CommitId) :
    Action CommitId := do
  indexStep (Procedure.call (Command.readTree oldHead))
  updateIndex files
  match ← (Procedure.call Command.writeTree : Action (Option Tree)) with
  | none => refuse "auto_integration_index_failed" "git write-tree returned no tree.".toList
  | some tree => do
    let object : CommitObject :=
      ⟨tree, [oldHead], info.authorName, info.authorEmail, info.message⟩
    match ← (Procedure.call (Command.commitTree object) : Action (Except Text CommitId)) with
    | .ok commit => pure commit
    | .error stderr =>
      refuse "auto_integration_commit_failed" ((redactSensitiveText stderr).take 300)

/-- The prepared paths are new in the commit. -/
def requireNew (files : List PreparedFile) (newHead : CommitId) : Action Unit := do
  match ← (Procedure.call (Command.lsTree newHead (files.map PreparedFile.path)) :
      Action (Except Text (List PathText))) with
  | .error stderr =>
    refuse "auto_integration_head_unreadable"
      ("The new HEAD ".toList ++ newHead.toList.take 12 ++ " could not be inspected: ".toList ++
        (redactSensitiveText stderr).take 200)
  | .ok taken =>
    if taken ≠ [] then
      refuse "auto_integration_path_committed_meanwhile"
        (", ".toList.intercalate taken ++
          " was committed by someone else while this integration ran (HEAD ".toList ++
          newHead.toList.take 12 ++
          "); the files are in the checkout but the bridge did not commit them.".toList)
    else pure ()

/-- HEAD after the loop. -/
structure Landed where
  commit : CommitId
  parent : CommitId
  headRetries : Nat

/-- One round: a commit on the given HEAD, and the rest where HEAD is no longer that. -/
def commitRound (files : List PreparedFile) (info : CommitInfo) (headRetries : Nat)
    (rest : GitResult → Action Landed) (oldHead : CommitId) : Action Landed := do
  let commit ← buildCommit files info oldHead
  let moved ← (Procedure.call (Command.updateRef commit oldHead) : Action GitResult)
  if moved.ok then pure ⟨commit, oldHead, headRetries⟩ else rest moved

/-- The loop, with the retries that are left. -/
def commitRounds (files : List PreparedFile) (info : CommitInfo) : Nat → CommitId → Action Landed
  | 0 =>
    commitRound files info autoIntegrationHeadRetries fun moved =>
      refuse "auto_integration_head_moved"
        ("HEAD moved while committing ".toList ++
          (toString (autoIntegrationHeadRetries + 1)).toList ++
          " times in a row; nothing was committed (".toList ++
          (redactSensitiveText moved.stderr).take 200 ++ ").".toList)
  | left + 1 =>
    commitRound files info (autoIntegrationHeadRetries - (left + 1)) fun _ => do
      Procedure.call Command.delayWithSignal
      let newHead ← readHead "The target HEAD could not be read after it moved.".toList
      requireNew files newHead
      commitRounds files info left newHead

/-- `/index\.lock|unable to lock|cannot lock|File exists/i` -/
def indexBusy (stderr : Text) : Bool :=
  ["index.lock".toList, "unable to lock".toList, "cannot lock".toList, "file exists".toList].any
    fun part => part <:+: stderr.map Char.toLower

/-- The owner's index: a concurrent git is waited for. -/
def updateOwnerIndex (files : List PreparedFile) : Nat → Action GitResult
  | 0 => Procedure.call (Command.updateOwnerIndex files)
  | left + 1 => do
    let indexed ← (Procedure.call (Command.updateOwnerIndex files) : Action GitResult)
    if indexed.ok || !indexBusy indexed.stderr then pure indexed
    else do
      Procedure.call Command.delayWithSignal
      updateOwnerIndex files left

def commitOnHead (files : List PreparedFile) (info : CommitInfo) (oldHead : CommitId) :
    Action Committed := do
  let landed ← commitRounds files info autoIntegrationHeadRetries oldHead
  let indexed ← updateOwnerIndex files (autoIntegrationEmptyIndexRetries - 1)
  pure
    { commit := landed.commit
      parent := landed.parent
      files := files.map PreparedFile.path
      authorName := info.authorName
      headRetries := landed.headRetries
      indexUpdated := indexed.ok
      indexWarning := if indexed.ok then [] else
        "The commit is in place, but the index entries of these paths could not be updated (".toList
          ++ (redactSensitiveText indexed.stderr).take 200 ++
          "); run git status and git reset -- <paths> if they show as staged deletions.".toList }

/-- `finally`: the scratch directory is removed however the body ends. -/
def withScratch {α : Type} (body : Action α) : Action α := do
  Procedure.call Command.mkdtemp
  let value ← body.recover fun stop => do
    Procedure.call Command.removeScratch
    Procedure.raise stop
  Procedure.call Command.removeScratch
  pure value

/-- The label, the agent and the model that the message names. -/
structure CommitLabel where
  label : Text
  agent : Text
  model : Text

def CommitLabel.message (label : CommitLabel) (files : List PreparedFile) : Text :=
  "Auto-integrate ".toList ++ label.label ++ ": ".toList ++ (toString files.length).toList ++
    " new file(s) by ".toList ++ (if label.agent = [] then "agent".toList else label.agent) ++
    (if label.model = [] then [] else " on ".toList ++ label.model)

def commitPrepared (label : CommitLabel) (files : List PreparedFile) : Action Committed := do
  checkBlobs files
  let author ← authorIdentity
  let oldHead ← readHead "The target HEAD could not be read.".toList
  withScratch (commitOnHead files ⟨author.1, author.2, label.message files⟩ oldHead)

/-- `commit`: a refusal is returned, anything that throws goes on. -/
def commit (label : CommitLabel) (prepared : Option (Except Refusal Prepared)) :
    Action (Except Refusal Committed) :=
  match prepared with
  | none => pure (.error ⟨"auto_integration_not_prepared",
      "The source files were not hashed before cleanup.".toList⟩)
  | some (.error refusal) => pure (.error refusal)
  | some (.ok prepared) =>
    (do
      let committed ← commitPrepared label prepared.files
      pure (.ok committed) : Action (Except Refusal Committed)).recover fun
        | .refused refusal => pure (.error refusal)
        | .thrown message => Procedure.raise (.thrown message)

end

end AgentBridge.Queue.Commits
