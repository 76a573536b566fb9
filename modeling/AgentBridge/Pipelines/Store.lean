import AgentBridge.Pipelines.Record
import AgentBridge.Systems.Run

/-!
# The pipeline store

The row of one pipeline and the record objects that bridge processes hold of it. An
update waits in a chain of its process, computes a candidate from its object, encrypts it
and writes it if the row still has the revision and the owner of the candidate. A process
may hold several objects of the pipeline, and what it holds may be older than the row.

The calls are of any type of request that says which patch it makes. `tookOver` of an
object is not part of the program: it says that the object got the
revision of the row without the rest of its content.
-/

namespace AgentBridge.Pipelines

open Systems

structure StoreRuntime (Request : Type) where
  patch : Request → PipelinePatch
  /-- The private details are at most `maxSnapshotFileBytes` long. -/
  detailsFit : PipelineRecord → Bool

structure RecordObject where
  /-- `BRIDGE_INSTANCE_ID` of the process that holds it -/
  bridgeInstanceId : String
  record : PipelineRecord
  tookOver : Bool

/-- A call of `updatePipelineRecord` that waits in the chain of its process. -/
structure PipelineCall (Request : Type) where
  object : Nat
  request : Request

/-- An update whose candidate has been computed. -/
structure PipelineWrite (Request : Type) where
  object : Nat
  bridgeInstanceId : String
  request : Request
  expectedRevision : Nat
  candidate : PipelineRecord

structure StoreState (Request : Type) where
  row : PipelineRecord
  objects : List RecordObject
  calls : List (PipelineCall Request)
  writes : List (PipelineWrite Request)

variable {Request : Type}

/-- What `detailsEncrypted` and `record_json` keep of a record: of details that are too
long, neither the audit trail nor the results of the gates. -/
def storedRecord (runtime : StoreRuntime Request) (record : PipelineRecord) : PipelineRecord :=
  if runtime.detailsFit record then record
  else
    { record with
      finalValidationResult := none
      reviewerResult := none
      testerResult := none
      events := (record.events.reverse.find? fun event =>
        event.type = "source_cleanup_authorized").toList
      errors := [] }

/-- `pipelineOwnedByThisInstance` -/
def ownedBy (bridgeInstanceId : String) (record : PipelineRecord) : Bool :=
  record.ownerInstanceId ≠ "" && record.ownerInstanceId = bridgeInstanceId

def updateCandidate (record : PipelineRecord) (changes : PipelineChanges) : PipelineRecord :=
  { record.assign changes with revision := record.revision + 1 }

/-- The condition of the update statement. -/
def writeMatches (row : PipelineRecord) (expectedRevision : Nat) (candidate : PipelineRecord)
    (ownerLive : Bool) : Bool :=
  row.revision = expectedRevision && row.ownerInstanceId = candidate.ownerInstanceId
    && row.ownerGeneration = candidate.ownerGeneration && row.ownerGeneration ≠ ""
    && ownerLive

/-- What a refused update copies from the row into its object. -/
def takeOverState (record row : PipelineRecord) : PipelineRecord :=
  { record with
    status := row.status
    revision := row.revision
    ownerInstanceId := row.ownerInstanceId
    ownerGeneration := row.ownerGeneration
    batchState := row.batchState
    cleanupState := row.cleanupState }

/-- `authoritative` of `claimPersistedPipeline`: the record with the state of the row. -/
def claimedState (record row : PipelineRecord) : PipelineRecord :=
  { record with
    status := row.status
    revision := row.revision
    ownerInstanceId := orText row.ownerInstanceId record.ownerInstanceId
    ownerGeneration := orText row.ownerGeneration record.ownerGeneration
    batchState := orText row.batchState record.batchState
    cleanupState := orText row.cleanupState record.cleanupState }

/-- The leases that a claim finds, and whether the row has its encrypted request. -/
structure ClaimView where
  leaseLive : Bool
  ownerLive : Bool
  replayable : Bool

/-- `claimPersistedPipeline`: whether it succeeds, the record and the row. -/
def claimPersistedPipeline (bridgeInstanceId freshGeneration : String) (view : ClaimView)
    (record row : PipelineRecord) : Bool × PipelineRecord × PipelineRecord :=
  let authoritative := claimedState record row
  if authoritative.status.closed then (false, authoritative, row)
  else if (authoritative.status = .planned || authoritative.status = .running)
      && !view.replayable then (false, authoritative, row)
  else if authoritative.ownerInstanceId = bridgeInstanceId && authoritative.ownerGeneration ≠ ""
      && authoritative.ownerGeneration = record.ownerGeneration then
    -- Its own generation: renewed in place when the lease has lapsed.
    (true, authoritative, row)
  else if view.leaseLive || view.ownerLive then (false, authoritative, row)
  else if row.ownerInstanceId = authoritative.ownerInstanceId
      && row.ownerGeneration = authoritative.ownerGeneration then
    (true,
      { authoritative with
        ownerInstanceId := bridgeInstanceId
        ownerGeneration := freshGeneration
        revision := row.revision + 1 },
      { row with
        ownerInstanceId := bridgeInstanceId
        ownerGeneration := freshGeneration
        revision := row.revision + 1 })
  else (false, record, row)

/-- What `activatePipelineBatch` sets. -/
def activationChanges (record : PipelineRecord) (time : Nat) : PipelineChanges where
  status := some .running
  finishedAt := some none
  batchState := some "released"
  events := some (record.events ++ [{ type := "queue_batch_activated", time := time }])

inductive StoreEvent (Request : Type) where
  /-- `readPersistedPipelineRecord` -/
  | read (bridgeInstanceId : String)
  /-- `authoritativePipelineRecord`, when the object it knows is of the row's revision -/
  | reread (object : Nat)
  | claim (object : Nat) (freshGeneration : String) (view : ClaimView)
  /-- `updatePipelineRecord` is called, and waits. -/
  | call (object : Nat) (request : Request)
  /-- The chain of the process reaches the call: its candidate is computed. -/
  | begin (call : Nat)
  | commit (write : Nat) (ownerLive : Bool)
  /-- The end of a child job closes the pipeline. -/
  | propagate (failed : Bool) (time : Nat)
  | activate (object : Nat) (ownerLive : Bool) (time : Nat)

namespace StoreState

/-- The row of a new pipeline and the object of the process that made it. -/
def created (record : PipelineRecord) : StoreState Request :=
  ⟨record, [⟨record.ownerInstanceId, record, false⟩], [], []⟩

/-- The chain of the process has no write under way. -/
def chainFree (s : StoreState Request) (bridgeInstanceId : String) : Bool :=
  s.writes.all fun write => write.bridgeInstanceId ≠ bridgeInstanceId

end StoreState

def RecordObject.refused (object : RecordObject) (row : PipelineRecord) : RecordObject where
  bridgeInstanceId := object.bridgeInstanceId
  record := takeOverState object.record row
  tookOver := object.tookOver || object.record.revision ≠ row.revision

/-- `updatePipelineRecord`, from the moment its turn comes to the encryption. -/
def beginUpdate (runtime : StoreRuntime Request) (s : StoreState Request) (index : Nat) :
    StoreState Request :=
  match s.calls[index]? with
  | none => s
  | some call =>
    match s.objects[call.object]? with
    | none => s
    | some object =>
      if s.chainFree object.bridgeInstanceId then
        let rest := s.calls.eraseIdx index
        match runtime.patch call.request object.record with
        | .changes changes =>
          { s with
            calls := rest
            writes := s.writes ++ [⟨call.object, object.bridgeInstanceId, call.request,
              object.record.revision, updateCandidate object.record changes⟩] }
        | .unchanged => { s with calls := rest }
        | .refused _ => { s with calls := rest }
      else s

/-- `writePipelineRecordSnapshot`, and what `updatePipelineRecord` makes of its outcome. -/
def commitUpdate (runtime : StoreRuntime Request) (s : StoreState Request) (index : Nat)
    (ownerLive : Bool) : StoreState Request :=
  match s.writes[index]? with
  | none => s
  | some write =>
    let rest := s.writes.eraseIdx index
    if writeMatches s.row write.expectedRevision write.candidate ownerLive then
      { s with
        row := storedRecord runtime write.candidate
        objects := s.objects.modify write.object fun object =>
          ⟨object.bridgeInstanceId, write.candidate, false⟩
        writes := rest }
    else
      { s with
        objects := s.objects.modify write.object fun object => object.refused s.row
        writes := rest }

/-- `activatePipelineBatch` on the pipeline itself. -/
def activateBatch (runtime : StoreRuntime Request) (s : StoreState Request) (index : Nat)
    (ownerLive : Bool) (time : Nat) : StoreState Request :=
  match s.objects[index]? with
  | none => s
  | some object =>
    let candidate := updateCandidate object.record (activationChanges object.record time)
    if s.chainFree object.bridgeInstanceId && s.row.status = .planned
        && (s.row.batchState = "unstarted" || s.row.batchState = "legacy")
        && ownedBy object.bridgeInstanceId s.row
        && writeMatches s.row object.record.revision candidate ownerLive then
      { s with
        row := storedRecord runtime candidate
        objects := s.objects.modify index fun object =>
          ⟨object.bridgeInstanceId, candidate, false⟩ }
    else s

def storeStep (runtime : StoreRuntime Request) (s : StoreState Request) :
    StoreEvent Request → StoreState Request
  | .read bridgeInstanceId => { s with objects := s.objects ++ [⟨bridgeInstanceId, s.row, false⟩] }
  | .reread index =>
    { s with
      objects := s.objects.modify index fun object =>
        if object.record.ownerInstanceId = s.row.ownerInstanceId
            && object.record.ownerGeneration = s.row.ownerGeneration
            && object.record.revision = s.row.revision then
          ⟨object.bridgeInstanceId, s.row, false⟩
        else object }
  | .claim index freshGeneration view =>
    match s.objects[index]? with
    | none => s
    | some object =>
      let claimed := claimPersistedPipeline object.bridgeInstanceId freshGeneration view
        object.record s.row
      { s with
        row := claimed.2.2
        objects := s.objects.modify index fun object =>
          ⟨object.bridgeInstanceId, claimed.2.1,
            object.tookOver || object.record.revision ≠ s.row.revision⟩ }
  | .call index request =>
    match s.objects[index]? with
    | none => s
    | some object =>
      if ownedBy object.bridgeInstanceId object.record then
        { s with calls := s.calls ++ [⟨index, request⟩] }
      else s
  | .begin index => beginUpdate runtime s index
  | .commit index ownerLive => commitUpdate runtime s index ownerLive
  | .propagate failed time =>
    if s.row.status = .planned || s.row.status = .running then
      { s with row :=
          { s.row with
            status := if failed then .failed else .cancelled
            finishedAt := some time
            revision := s.row.revision + 1 } }
    else s
  | .activate index ownerLive time => activateBatch runtime s index ownerLive time

end AgentBridge.Pipelines
