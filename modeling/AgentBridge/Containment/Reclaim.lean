import AgentBridge.Containment.Record
import AgentBridge.Providers.Store
import AgentBridge.Systems.Run

/-!
# Reclaiming quarantines

The reclaim passes of `lib/provider-quarantine.js` beside a running machine. Processes
start, end and reuse pids; listings take time and are stamped when they end; records
are made from listings; and any transaction may rewrite the two databases between the
`SELECT` of a pass and its `DELETE`.

A listing does not see one moment: it has every process that was there from its
beginning to its end, and of the others any. Parents may change, so they belong to a
row of a listing and not to a process. A check may consult any listing that has ended,
of whatever age; `processTableNewerThan` picks one of them.
-/

namespace AgentBridge.Containment

open Systems Providers

structure Process where
  pid : Nat
  createdAt : String
  serial : Nat
  deriving DecidableEq

structure Listing where
  /-- The processes it lists, each with its parent's pid. -/
  seen : List (Process × Nat)
  /-- How many processes had started when it began. -/
  started : Nat
  /-- Whether it has creation times. -/
  dated : Bool
  ok : Bool
  stamp : Nat

def Listing.row (listing : Listing) (entry : Process × Nat) : ProcessRow :=
  ⟨entry.1.pid, entry.2, if listing.dated then entry.1.createdAt else ""⟩

/-- What `processTable` returns for it. -/
def Listing.table (listing : Listing) : ProcessTable :=
  ⟨listing.ok, listing.stamp, if listing.ok then listing.seen.map listing.row else []⟩

structure MadeRecord where
  info : Record
  listing : Listing

def MadeRecord.named (made : MadeRecord) : List Process :=
  (made.listing.seen.map (·.1)).filter (·.pid ∈ made.info.pids)

inductive QuarantineKey where
  | lease (leaseId : String)
  | lock (runId : String)

/-- The provider and the project database, with their primary keys. -/
structure QuarantineStore where
  providers : ProviderDb
  locks : LockDb
  leaseKey : (providers.leases.map (·.leaseId)).Nodup
  runKey : (locks.runs.map (·.runId)).Nodup

/-- The containment text of a run, `""` for a missing run. -/
def runContainment (locks : LockDb) (runId : String) : String :=
  ((locks.runs.find? (·.runId = runId)).map (·.containment)).getD ""

def QuarantineStore.stored (store : QuarantineStore) : QuarantineKey → Option String
  | .lease leaseId =>
    (store.providers.leases.find? fun row =>
      row.leaseId = leaseId ∧ row.expiresAt = Providers.maxSafeInteger).map (·.containment)
  | .lock runId =>
    if store.locks.locks.any fun row =>
        row.runId = runId ∧ row.expiresAt = AgentBridge.maxSafeInteger then
      some (runContainment store.locks runId)
    else none

theorem leaseKey_reclaim {providers : ProviderDb}
    (key : (providers.leases.map (·.leaseId)).Nodup) (leaseId : String) :
    ((reclaimProviderQuarantine providers leaseId).leases.map (·.leaseId)).Nodup :=
  key.sublist (List.filter_sublist.map _)

theorem runKey_reclaim {locks : LockDb} (key : (locks.runs.map (·.runId)).Nodup)
    (runId : String) (now : Nat) :
    ((Locks.reclaimLockQuarantine locks runId now).runs.map (·.runId)).Nodup := by
  have hsame : (Locks.reclaimLockQuarantine locks runId now).runs.map (·.runId) =
      locks.runs.map (·.runId) := by
    unfold Locks.reclaimLockQuarantine
    rw [List.map_map]
    apply List.map_congr_left
    intro run _
    rw [Function.comp_apply]
    split <;> rfl
  rw [hsame]
  exact key

/-- The `DELETE` of a reclaim pass. -/
def QuarantineStore.reclaim (store : QuarantineStore) (now : Nat) :
    QuarantineKey → QuarantineStore
  | .lease leaseId =>
    { store with
      providers := reclaimProviderQuarantine store.providers leaseId
      leaseKey := leaseKey_reclaim store.leaseKey leaseId }
  | .lock runId =>
    { store with
      locks := Locks.reclaimLockQuarantine store.locks runId now
      runKey := runKey_reclaim store.runKey runId now }

/-- One row of a reclaim pass between its `SELECT` and its `DELETE`. -/
structure Check where
  key : QuarantineKey
  text : String
  info : Record
  /-- The pids still to be asked about, the first one in question now. -/
  left : List Nat
  /-- The first pid is in use, and a listing decides. -/
  waiting : Bool
  /-- `containmentStillPossible` returned false. -/
  proven : Bool
  /-- The processes that the record named when it was read. -/
  named : List Process
  /-- Some transaction has stored another text with the quarantine since. -/
  overwritten : Bool

structure Host where
  clock : Nat
  starts : Nat
  live : List Process
  /-- Listings under way: the processes at their beginning, and how many had started. -/
  reading : List (List Process × Nat)
  listings : List Listing
  made : List MadeRecord
  checks : List Check
  store : QuarantineStore

inductive ReclaimEvent where
  | tick (ms : Nat)
  | start (pid : Nat) (createdAt : String)
  | exit (serial : Nat)
  | beginListing
  | endListing (reading : Nat) (seen : List (Process × Nat)) (dated ok : Bool)
  | record (listing supervisorPid payloadPid : Nat)
  | write (store : QuarantineStore)
  | select (key : QuarantineKey)
  | probe (check : Nat)
  | consult (check listing : Nat)
  | conclude (check : Nat)
  | delete (check : Nat)

/-- A pass notices nothing when the databases are written; `overwritten` is for the
statements only. -/
def Check.noticeWrite (store : QuarantineStore) (check : Check) : Check :=
  { check with
    overwritten := check.overwritten || (store.stored check.key).any (· ≠ check.text) }

def Host.withStore (s : Host) (store : QuarantineStore) : Host :=
  { s with store := store, checks := s.checks.map (·.noticeWrite store) }

/-- A listing may end with these rows. -/
def Host.Lists (s : Host) (reading : List Process × Nat) (seen : List (Process × Nat)) : Prop :=
  (∀ process ∈ reading.1, process ∈ s.live → process ∈ seen.map (·.1)) ∧
    (∀ entry ∈ seen, entry.1.serial < s.starts) ∧ (seen.map (·.1.pid)).Nodup

instance (s : Host) (reading : List Process × Nat) (seen : List (Process × Nat)) :
    Decidable (s.Lists reading seen) :=
  inferInstanceAs (Decidable (_ ∧ _ ∧ _))

def Host.containmentProcessExists (s : Host) (pid : Nat) : Bool :=
  s.live.any (·.pid = pid)

/-- `Date.now() - recordedAt < CONFIG.containmentReleaseGraceMs` -/
def graceLeft (grace clock recordedAt : Nat) : Bool :=
  decide ((clock : Int) - recordedAt < grace)

/-- The start of `containmentStillPossible` for the text that a pass has read. -/
def readContainment (parse : String → Option Record) (text : String) : Option Record :=
  (parse text).filter admissible

def newCheck (s : Host) (key : QuarantineKey) (text : String) (info : Record) : Check :=
  { key := key
    text := text
    info := info
    left := info.pids
    waiting := false
    proven := false
    named := (s.made.filter (·.info = info)).flatMap (·.named)
    overwritten := false }

/-- The next pid of a check: gone, still possible, or up to a listing. -/
def probeCheck (s : Host) (check : Check) : Option Check :=
  match check.left with
  | [] => some check
  | pid :: left =>
    if check.waiting then some check
    else if s.containmentProcessExists pid = false then some { check with left := left }
    else if createdAtByPid check.info pid = "" then none
    else some { check with waiting := true }

def consultCheck (table : ProcessTable) (check : Check) : Option Check :=
  match check.left with
  | [] => some check
  | pid :: left =>
    if check.waiting = false then some check
    else if listedStillRuns table pid (createdAtByPid check.info pid) check.info.recordedAt then
      none
    else some { check with left := left, waiting := false }

def concludeCheck (grace clock : Nat) (check : Check) : Option Check :=
  if check.left ≠ [] then some check
  else if graceLeft grace clock check.info.recordedAt then none
  else some { check with proven := true }

/-- Replace a check, or give it up. -/
def Host.setCheck (s : Host) (index : Nat) : Option Check → Host
  | some check => { s with checks := s.checks.set index check }
  | none => { s with checks := s.checks.eraseIdx index }

def reclaimStep (parse : String → Option Record) (grace : Nat) (s : Host) : ReclaimEvent → Host
  | .tick ms => { s with clock := s.clock + ms }
  | .start pid createdAt =>
    if pid = 0 ∨ s.containmentProcessExists pid then s
    else { s with live := ⟨pid, createdAt, s.starts⟩ :: s.live, starts := s.starts + 1 }
  | .exit serial => { s with live := s.live.filter (·.serial ≠ serial) }
  | .beginListing => { s with reading := s.reading ++ [(s.live, s.starts)] }
  | .endListing index seen dated ok =>
    match s.reading[index]? with
    | none => s
    | some reading =>
      if s.Lists reading seen then
        { s with listings := s.listings ++ [⟨seen, reading.2, dated, ok, s.clock⟩] }
      else s
  | .record index supervisorPid payloadPid =>
    match s.listings[index]? with
    | none => s
    | some listing =>
      { s with
        made := s.made ++
          [⟨containmentRecord listing.table supervisorPid payloadPid s.clock, listing⟩] }
  | .write store => s.withStore store
  | .select key =>
    match s.store.stored key with
    | none => s
    | some text =>
      match readContainment parse text with
      | none => s
      | some info => { s with checks := s.checks ++ [newCheck s key text info] }
  | .probe index =>
    match s.checks[index]? with
    | none => s
    | some check => s.setCheck index (probeCheck s check)
  | .consult index source =>
    match s.checks[index]?, s.listings[source]? with
    | some check, some listing => s.setCheck index (consultCheck listing.table check)
    | _, _ => s
  | .conclude index =>
    match s.checks[index]? with
    | none => s
    | some check => s.setCheck index (concludeCheck grace s.clock check)
  | .delete index =>
    match s.checks[index]? with
    | none => s
    | some check =>
      if check.proven then
        { s with checks := s.checks.eraseIdx index }.withStore
          (s.store.reclaim s.clock check.key)
      else s

def emptyStore : QuarantineStore :=
  { providers := .empty
    locks := ⟨[], [], [], [], []⟩
    leaseKey := List.nodup_nil
    runKey := List.nodup_nil }

def emptyHost : Host := ⟨0, 0, [], [], [], [], [], emptyStore⟩

/-! ### Soundness and its condition -/

/-- The quarantine rows that the `DELETE` removes are stored with this text. -/
def DeletesOnly (store : QuarantineStore) (now : Nat) (text : String) : QuarantineKey → Prop
  | .lease leaseId => ∀ row ∈ store.providers.leases,
      row ∉ (reclaimProviderQuarantine store.providers leaseId).leases → row.containment = text
  | .lock runId => ∀ row ∈ store.locks.locks,
      row ∉ (Locks.reclaimLockQuarantine store.locks runId now).locks →
        runContainment store.locks row.runId = text

instance (store : QuarantineStore) (now : Nat) (text : String) :
    (key : QuarantineKey) → Decidable (DeletesOnly store now text key)
  | .lease leaseId => inferInstanceAs (Decidable (∀ row ∈ store.providers.leases,
      row ∉ (reclaimProviderQuarantine store.providers leaseId).leases → row.containment = text))
  | .lock runId => inferInstanceAs (Decidable (∀ row ∈ store.locks.locks,
      row ∉ (Locks.reclaimLockQuarantine store.locks runId now).locks →
        runContainment store.locks row.runId = text))

/-- What each step of a sound reclaim guarantees: a record marked complete covers its
tree; a verdict that containment is over is right about every process the record
names; a deletion removes only what was proven gone. -/
def SoundStep (grace : Nat) (s : Host) : ReclaimEvent → Prop
  | .record index supervisorPid payloadPid => ∀ listing ∈ s.listings[index]?,
      (containmentRecord listing.table supervisorPid payloadPid s.clock).complete →
        Covers listing.table (containmentRoots supervisorPid payloadPid)
          (containmentRecord listing.table supervisorPid payloadPid s.clock)
  | .conclude index => ∀ check ∈ s.checks[index]?, check.left = [] →
      graceLeft grace s.clock check.info.recordedAt = false →
        ∀ process ∈ check.named, process ∉ s.live
  | .delete index => ∀ check ∈ s.checks[index]?, check.proven →
      DeletesOnly s.store s.clock check.text check.key
  | _ => True

/-- The listing that a check consults, if it is stamped late enough to count, began
after the process it is asked about had started, and has creation times. -/
def ConsultsFresh (live : List Process) (check : Check) (listing : Listing) : Prop :=
  listing.ok → check.info.recordedAt ≤ listing.stamp → ∀ process ∈ check.named,
    check.left.head? = some process.pid → process ∈ live →
      process.serial < listing.started ∧ listing.dated

instance (live : List Process) (check : Check) (listing : Listing) :
    Decidable (ConsultsFresh live check listing) :=
  inferInstanceAs (Decidable (listing.ok → check.info.recordedAt ≤ listing.stamp →
    ∀ process ∈ check.named, check.left.head? = some process.pid → process ∈ live →
      process.serial < listing.started ∧ listing.dated))

/-- The steps that keep a reclaim sound. -/
def Careful (s : Host) : ReclaimEvent → Prop
  | .record index supervisorPid payloadPid => ∀ listing ∈ s.listings[index]?,
      (containmentRecord listing.table supervisorPid payloadPid s.clock).complete →
        ¬ WalkCutShort listing.table (containmentRoots supervisorPid payloadPid)
  | .consult index source => ∀ check ∈ s.checks[index]?, ∀ listing ∈ s.listings[source]?,
      ConsultsFresh s.live check listing
  | .delete index => ∀ check ∈ s.checks[index]?, check.overwritten = false
  | _ => True

instance (s : Host) : (event : ReclaimEvent) → Decidable (Careful s event)
  | .record index supervisorPid payloadPid =>
    inferInstanceAs (Decidable (∀ listing ∈ s.listings[index]?,
      (containmentRecord listing.table supervisorPid payloadPid s.clock).complete →
        ¬ WalkCutShort listing.table (containmentRoots supervisorPid payloadPid)))
  | .consult index source =>
    inferInstanceAs (Decidable (∀ check ∈ s.checks[index]?,
      ∀ listing ∈ s.listings[source]?, ConsultsFresh s.live check listing))
  | .delete index =>
    inferInstanceAs (Decidable (∀ check ∈ s.checks[index]?, check.overwritten = false))
  | .tick _ | .start .. | .exit _ | .beginListing | .endListing .. | .write _ | .select _
  | .probe _ | .conclude _ => isTrue trivial

instance (grace : Nat) (s : Host) : (event : ReclaimEvent) → Decidable (SoundStep grace s event)
  | .record index supervisorPid payloadPid =>
    if h : ∀ listing ∈ s.listings[index]?,
        (containmentRecord listing.table supervisorPid payloadPid s.clock).complete →
          ¬ WalkCutShort listing.table (containmentRoots supervisorPid payloadPid) then
      isTrue fun listing hlisting hcomplete =>
        (containmentRecord_covers_iff hcomplete).mpr (h listing hlisting hcomplete)
    else
      isFalse fun hsound => h fun listing hlisting hcomplete =>
        (containmentRecord_covers_iff hcomplete).mp (hsound listing hlisting hcomplete)
  | .conclude index =>
    inferInstanceAs (Decidable (∀ check ∈ s.checks[index]?, check.left = [] →
      graceLeft grace s.clock check.info.recordedAt = false →
        ∀ process ∈ check.named, process ∉ s.live))
  | .delete index =>
    inferInstanceAs (Decidable (∀ check ∈ s.checks[index]?, check.proven →
      DeletesOnly s.store s.clock check.text check.key))
  | .tick _ | .start .. | .exit _ | .beginListing | .endListing .. | .write _ | .select _
  | .probe _ | .consult .. => isTrue trivial

end AgentBridge.Containment
