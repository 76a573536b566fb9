import AgentBridge.Journal.Machine

/-!
# Exact snapshots and restored leaves

The file operations that the apply, its rollback and the recovery share.
-/

namespace AgentBridge.Journal

open Systems

/-- A procedure of the bridge with the local variables of its caller. -/
abbrev Action (Local α : Type) : Type :=
  Procedure JournalCommand JournalReply Local JournalError α

variable {Local : Type}

def issue (command : JournalCommand) : Action Local (JournalReply command) :=
  Procedure.call command

/-- A snapshot map, in the order in which its paths were read. -/
abbrev Snapshot := List (String × Fingerprint)

def snapshotLimit : JournalError := .ofType "snapshot_safety_limit_exceeded"

/-- The fingerprint of one path and the bytes counted so far. -/
def snapshotLeaf (settings : JournalSettings) (totalBytes : Nat) :
    Leaf → Except JournalError (Fingerprint × Nat)
  | .missing => .ok (.missing, totalBytes)
  | .link target => .ok (.link target, totalBytes)
  | .directory => .error snapshotLimit
  | .file mode content =>
    if settings.maxSnapshotFileBytes < content.length then .error snapshotLimit
    else if settings.maxSnapshotTotalBytes < totalBytes + content.length then
      .error snapshotLimit
    else .ok (.file (integrationFingerprintMode settings.execBit mode) content,
      totalBytes + content.length)

def exactIntegrationFileSnapshotFrom (settings : JournalSettings) :
    Nat → List String → Action Local Snapshot
  | _, [] => pure []
  | totalBytes, path :: paths => do
    let leaf : Leaf ← issue (.readLeaf path)
    match snapshotLeaf settings totalBytes leaf with
    | .error error => Procedure.raise error
    | .ok (fingerprint, totalBytes) =>
      let rest ← exactIntegrationFileSnapshotFrom settings totalBytes paths
      pure ((path, fingerprint) :: rest)

def exactIntegrationFileSnapshot (settings : JournalSettings) (paths : List String) :
    Action Local Snapshot :=
  exactIntegrationFileSnapshotFrom settings 0 paths

def snapshotMismatches (expected actual : Snapshot) (paths : List String) : List String :=
  paths.filter fun path => expected.lookup path ≠ actual.lookup path

/-- The bytes with every CRLF made LF, and whether one was; a lone CR has no
conversion. -/
def crlfToLf : List UInt8 → Option (List UInt8 × Bool)
  | [] => some ([], false)
  | 0x0d :: 0x0a :: rest => (crlfToLf rest).map fun output => (0x0a :: output.1, true)
  | 0x0d :: _ => none
  | byte :: rest => (crlfToLf rest).map fun output => (byte :: output.1, output.2)

def crlfToLfBytes (content : List UInt8) : Option (List UInt8) :=
  (crlfToLf content).bind fun output => if output.2 then some output.1 else none

/-- Both values are regular files of one mode: their contents. -/
def regularFilePair : Option Fingerprint → Option Fingerprint → Option (List UInt8 × List UInt8)
  | some (.file mode content), some (.file mode' content') =>
    if mode = mode' then some (content, content') else none
  | _, _ => none

/-- Whether the CRLF tolerance is open to a path: by the given records, or by
the real index when there are none. -/
def eolAllowed (eolRecords : Option (List String)) (path : String) : Action Local Bool :=
  match eolRecords with
  | some records => pure (records.contains path)
  | none => issue (.eolRecord path)

/-- The body of the loop of `integrationContentMismatches`. -/
def integrationContentMatches (expected actual : Snapshot) (eolRecords : Option (List String))
    (path : String) : Action Local Bool :=
  if expected.lookup path = actual.lookup path then pure true
  else
    match regularFilePair (expected.lookup path) (actual.lookup path) with
    | none => pure false
    | some (expectedContent, actualContent) => do
      let allowed ← eolAllowed eolRecords path
      if !allowed then pure false
      else
        Procedure.recover
          (do
            let leaf : Leaf ← issue (.readLeaf path)
            match leaf with
            | .file _ content =>
              pure (content == actualContent && crlfToLfBytes content == some expectedContent)
            | _ => pure false)
          fun _ => pure false

def integrationContentMismatches (expected actual : Snapshot)
    (eolRecords : Option (List String)) : List String → Action Local (List String)
  | [] => pure []
  | path :: paths => do
    let same ← integrationContentMatches expected actual eolRecords path
    let rest ← integrationContentMismatches expected actual eolRecords paths
    pure (if same then rest else path :: rest)

/-- Remove what is at a path unless it is a directory. -/
def removeRollbackLeaf (path : String) : Action Local Bool := do
  let details : Leaf ← issue (.lstat path)
  match details with
  | .missing => pure true
  | .directory => pure false
  | _ => do
    issue (.removeLeaf path)
    pure true

def Leaf.isLink : Leaf → Bool
  | .link _ => true
  | _ => false

/-- Whether the target is removed before the rename: `rename` must neither follow
nor keep a link. -/
def Leaf.removedFirst (existing leaf : Leaf) : Bool :=
  existing != .missing && (existing.isLink || leaf.isLink)

/-- Put a complete leaf in place of what is at a path. -/
def replaceRollbackLeaf (path : String) (leaf : Leaf) : Action Local Bool := do
  let existing : Leaf ← issue (.lstat path)
  if existing = .directory then pure false
  else
    Procedure.recover
      (do
        issue .writeTemporary
        if existing.removedFirst leaf then issue (.removeLeaf path)
        issue (.renameInto path leaf)
        pure true)
      fun _ => pure false

/-! ## `rollbackVerifiedOwnedChanges` -/

inductive RollbackEntry where
  | unrestorable
  | present (mode : Nat) (content : List UInt8)
  | absent

abbrev RollbackBaseline := List (String × RollbackEntry)

structure RollbackResult where
  rollbackFiles : List String
  unresolvedFiles : List String
  ownershipMismatches : List String
  deriving DecidableEq

/-- `restoreFromGitHead`: the leaf that a checkout of the commit would write. -/
def restoreFromGitHead (settings : JournalSettings) (path : String) : Action Local Bool :=
  Procedure.recover
    (do
      let committed : Option Leaf ← issue (.commitLeaf path)
      match committed with
      | none => pure false
      | some leaf => do
        let restored ← replaceRollbackLeaf path leaf
        if !restored then pure false
        else
          let actual ← exactIntegrationFileSnapshot settings [path]
          pure (actual.lookup path == leaf.fingerprint settings.execBit))
    fun _ => pure false

/-- The body of the loop of `rollbackUnsafeChanges`: whether the path was rolled
back. -/
def rollbackUnsafeChange (settings : JournalSettings) (baseline : RollbackBaseline)
    (path : String) : Action Local Bool :=
  Procedure.recover
    (match baseline.lookup path with
    | some .unrestorable => pure false
    | some (.present mode content) => replaceRollbackLeaf path (.file mode content)
    | some .absent => removeRollbackLeaf path
    | none => do
      let tracked : Bool ← issue (.ask (.presentInCommit path))
      if tracked then restoreFromGitHead settings path else removeRollbackLeaf path)
    fun _ => pure false

/-- `rollbackUnsafeChanges`: the paths rolled back and the unresolved ones. -/
def rollbackUnsafeChanges (settings : JournalSettings) (baseline : RollbackBaseline) :
    List String → Action Local (List String × List String)
  | [] => pure ([], [])
  | path :: paths => do
    let restored ← rollbackUnsafeChange settings baseline path
    let rest ← rollbackUnsafeChanges settings baseline paths
    pure (if restored then (path :: rest.1, rest.2) else (rest.1, path :: rest.2))

/-- Whether the current bytes of a path are the bridge's own. -/
def verifiedOwned (settings : JournalSettings) (ownedSnapshot : Snapshot)
    (eolRecords : Option (List String)) (path : String) : Action Local Bool :=
  Procedure.recover
    (do
      let current ← exactIntegrationFileSnapshot settings [path]
      if current.lookup path = ownedSnapshot.lookup path then pure true
      else
        match eolRecords with
        | none => pure false
        | some _ => integrationContentMatches ownedSnapshot current eolRecords path)
    fun _ => pure false

/-- The paths whose bytes are the bridge's own and the others. -/
def partitionOwned (settings : JournalSettings) (ownedSnapshot : Snapshot)
    (eolRecords : Option (List String)) : List String → Action Local (List String × List String)
  | [] => pure ([], [])
  | path :: paths => do
    let owned ← verifiedOwned settings ownedSnapshot eolRecords path
    let rest ← partitionOwned settings ownedSnapshot eolRecords paths
    pure (if owned then (path :: rest.1, rest.2) else (rest.1, path :: rest.2))

def rollbackVerifiedOwnedChanges (settings : JournalSettings) (baseline : RollbackBaseline)
    (paths : List String) (ownedSnapshot : Option Snapshot)
    (eolRecords : Option (List String)) : Action Local RollbackResult :=
  match ownedSnapshot with
  | none => pure ⟨[], paths, paths⟩
  | some ownedSnapshot => do
    let owned ← partitionOwned settings ownedSnapshot eolRecords paths
    let result ← rollbackUnsafeChanges settings baseline owned.1
    pure ⟨result.1, result.2 ++ owned.2, owned.2⟩

end AgentBridge.Journal
