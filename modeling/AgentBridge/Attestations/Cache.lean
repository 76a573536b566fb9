import AgentBridge.Systems.Run

/-!
# The shared attestation cache

`cachedAttestation` of `lib/attestation-cache.js` in any number of processes. A call reads
the fingerprint of its inputs, looks into the memory of its process, joins a lookup of the
process that is under way, or starts one: it looks into the database, claims the flight, or
waits for the process that has it, runs its operation, and publishes the value. Every
`await` and every transaction is an event; between them other calls and processes act and
the inputs change.
-/

namespace AgentBridge.Attestations

open Systems

/-- `cacheKey`, the hash of these four texts. -/
structure CacheKey where
  buildNamespace : String
  stateDirectory : String
  key : String
  input : String
  deriving DecidableEq

/-- A value and the time at which its operation ended. -/
structure Entry (Value : Type) where
  value : Value
  attestedAt : Int
  deriving DecidableEq

/-- A row of `attestation_entries`; a hash is kept as what it hashes. -/
structure EntryRow (Value : Type) where
  cacheKey : CacheKey
  buildNamespace : String
  attestedAt : Int
  expiresAt : Int
  payload : Value
  payloadSha256 : Value

structure FlightRow where
  cacheKey : CacheKey
  token : Nat
  pid : Nat
  expiresAt : Int

/-- `attestation-cache.sqlite` of one state directory. -/
structure CacheDb (Value : Type) where
  entries : List (EntryRow Value)
  flights : List FlightRow

structure CacheProcess where
  buildNamespace : String
  stateDirectory : String
  memoryLimit : Nat
  flightLeaseMs : Int

structure CacheHost where
  process : Nat → CacheProcess
  fingerprintScopeKey : String → String

structure CacheMemory (Value : Type) where
  memory : List (CacheKey × Entry Value)
  /-- The call that makes the lookup of a `flightKey`. -/
  flights : List ((CacheKey × Int) × Nat)
  invalidateShared : Bool

inductive FingerprintRead where
  | pending
  | settled (fingerprint : Option String)
  | rejected

structure FingerprintPromise where
  process : Nat
  scopeKey : String
  read : FingerprintRead

structure FingerprintScope where
  closed : Bool
  inputs : List ((String × String) × Nat)

inductive AttestationSource where
  | fresh
  | shared (readAt : Int)
  | thisProcess (readAt : Int)
  deriving DecidableEq

/-- What a call returns; `stamp` is absent while the cache is off. -/
structure Attestation (Value : Type) where
  value : Value
  stamp : Option (Int × AttestationSource)
  deriving DecidableEq

inductive OperationPurpose where
  /-- The cache is off. -/
  | unshared
  /-- The inputs have no fingerprint. -/
  | unidentified
  /-- The inputs changed while the call waited. -/
  | changed
  /-- The cache failed. -/
  | fallback
  | claimed
  deriving DecidableEq

inductive CallPhase (Value : Type) where
  | entering
  /-- It waits for the lookup it has joined. -/
  | joining
  | seeking
  | claiming
  | verifying
  | operating (purpose : OperationPurpose)
  | revoking (entry : Entry Value)
  | checking (entry : Entry Value)
  | publishing (entry : Entry Value)
  | releasing (outcome : Option (Entry Value))
  | answered (answer : Attestation Value)
  | rejected
  /-- Its process has ended. -/
  | gone
  deriving DecidableEq

structure Call (Value : Type) where
  process : Nat
  key : String
  cacheable : Value → Bool
  scope : Option Nat
  ttl : Int
  ageLimit : Int
  promise : Nat
  input : String
  inputsCurrent : Bool
  /-- `openDb` has returned. -/
  db : Bool
  /-- The call whose lookup it has joined. -/
  joined : Option Nat
  /-- What its operation returned. -/
  result : Option (Entry Value)
  phase : CallPhase Value

structure CacheState (Value : Type) where
  /-- The fingerprint that the inputs of a scope key have for a process. -/
  inputs : Nat → String → Option String
  promises : List FingerprintPromise
  /-- The scopes of each process. -/
  scopes : Nat → Nat → FingerprintScope
  memory : Nat → CacheMemory Value
  db : String → CacheDb Value
  calls : List (Call Value)

inductive TransactionEnd where
  | committed
  | notBegun
  | rolledBack
  /-- `COMMIT` reports an error after its rows are durable. -/
  | unreported
  deriving DecidableEq

/-- What `Date.now()` and `ttlMs()` give. -/
structure CacheClock where
  now : Int
  ttl : Int

/-- `retried` says of a failure that the lookup tries again; `none` is success. -/
inductive CacheEvent (Value : Type) where
  | change (process : Nat) (scopeKey : String) (fingerprint : Option String)
  | clearAttestationCache (process : Nat)
  | finishScope (process scope : Nat)
  | crash (process : Nat)
  /-- The bytes of a row are damaged. -/
  | damage (stateDirectory : String) (cacheKey : CacheKey) (payload : Value)
  | call (process : Nat) (key : String) (cacheable : Value → Bool) (maxAgeMs : Option Int)
      (scope : Option Nat) (clock : CacheClock)
  | fingerprint (promise : Nat) (rejects : Bool)
  | enter (call : Nat) (clock : CacheClock)
  | openDb (call : Nat) (retried : Option Bool)
  | look (call : Nat) (clock : CacheClock) (retried : Option Bool)
  | claim (call : Nat) (clock : CacheClock) (alive : Bool) (ending : TransactionEnd)
      (retried : Bool)
  | verify (call : Nat) (rejects : Bool)
  | operationEnds (call : Nat) (clock : CacheClock) (value : Option Value)
  | revoke (call : Nat) (ending : TransactionEnd)
  | check (call : Nat) (rejects fits : Bool)
  | publish (call : Nat) (clock : CacheClock) (ending : TransactionEnd)
  | release (call : Nat) (ending : TransactionEnd)

variable {Value : Type} (host : CacheHost)

def TransactionEnd.durable : TransactionEnd → Bool
  | .committed | .unreported => true
  | .notBegun | .rolledBack => false

/-! ### Memory and tables -/

def remember (memoryLimit : Nat) (clock : CacheClock) (cacheKey : CacheKey) (entry : Entry Value)
    (memory : List (CacheKey × Entry Value)) : List (CacheKey × Entry Value) :=
  let young := memory.filter fun held => clock.now - held.2.attestedAt < clock.ttl
  let kept := young.filter (fun held => held.1 ≠ cacheKey) ++ [(cacheKey, entry)]
  kept.drop (kept.length - memoryLimit)

def readEntry [DecidableEq Value] (db : CacheDb Value) (cacheKey : CacheKey)
    (buildNamespace : String) (now ageLimit : Int) (cacheable : Value → Bool) :
    Option (Entry Value) := do
  let row ← db.entries.find? fun row =>
    row.cacheKey = cacheKey && row.buildNamespace = buildNamespace
  if row.attestedAt > now || now - row.attestedAt ≥ ageLimit || row.expiresAt ≤ now then none
  else if row.payload ≠ row.payloadSha256 then none
  else if cacheable row.payload then some ⟨row.payload, row.attestedAt⟩
  else none

def holder (db : CacheDb Value) (cacheKey : CacheKey) : Option FlightRow :=
  db.flights.find? fun flight => flight.cacheKey = cacheKey

/-- `INSERT OR REPLACE INTO attestation_flights` -/
def putFlight (flight : FlightRow) (db : CacheDb Value) : CacheDb Value :=
  { db with flights := db.flights.filter (fun held => held.cacheKey ≠ flight.cacheKey) ++ [flight] }

/-- `INSERT OR REPLACE INTO attestation_entries` -/
def putEntry (row : EntryRow Value) (db : CacheDb Value) : CacheDb Value :=
  { db with entries := db.entries.filter (fun held => held.cacheKey ≠ row.cacheKey) ++ [row] }

def deleteEntries (guard : EntryRow Value → Bool) (db : CacheDb Value) : CacheDb Value :=
  { db with entries := db.entries.filter fun row => !guard row }

def deleteFlight (cacheKey : CacheKey) (token : Nat) (db : CacheDb Value) : CacheDb Value :=
  { db with
    flights := db.flights.filter fun held => !(held.cacheKey = cacheKey && held.token = token) }

def holds (db : CacheDb Value) (cacheKey : CacheKey) (token : Nat) : Bool :=
  db.flights.any fun flight => flight.cacheKey = cacheKey && flight.token = token

namespace Call

def cacheKey (call : Call Value) : CacheKey where
  buildNamespace := (host.process call.process).buildNamespace
  stateDirectory := (host.process call.process).stateDirectory
  key := call.key
  input := call.input

def flightKey (call : Call Value) : CacheKey × Int := (call.cacheKey host, call.ageLimit)

def scopeKey (call : Call Value) : String := host.fingerprintScopeKey call.key

end Call

namespace CacheState

variable (s : CacheState Value)

def setCall (c : Nat) (call : Call Value) : CacheState Value :=
  { s with calls := s.calls.set c call }

def setMemory (process : Nat) (memory : CacheMemory Value) : CacheState Value :=
  { s with memory := Function.update s.memory process memory }

def setDb (stateDirectory : String) (db : CacheDb Value) : CacheState Value :=
  { s with db := Function.update s.db stateDirectory db }

/-- The database of a call. -/
def dbOf (call : Call Value) : CacheDb Value := s.db (host.process call.process).stateDirectory

def setDbOf (call : Call Value) (db : CacheDb Value) : CacheState Value :=
  s.setDb (host.process call.process).stateDirectory db

def setScope (process scope : Nat) (shared : FingerprintScope) : CacheState Value :=
  { s with
    scopes := Function.update s.scopes process
      (Function.update (s.scopes process) scope shared) }

def finishScope (process : Nat) (scope : Option Nat) : CacheState Value :=
  match scope with
  | none => s
  | some scope => s.setScope process scope ⟨true, []⟩

/-- `freshOperation()` -/
def startOperation (c : Nat) (call : Call Value) (purpose : OperationPurpose) :
    CacheState Value :=
  (s.finishScope call.process call.scope).setCall c { call with db := false, phase := .operating purpose }

def isJoining (call : Call Value) : Bool :=
  match call.phase with
  | .joining => true
  | _ => false

/-- The lookup of a call ends, for it and for every call that has joined it. -/
def settle (c : Nat) (call : Call Value) (phase : CallPhase Value) : CacheState Value :=
  let memory := s.memory call.process
  let settled := s.setMemory call.process
    { memory with flights := memory.flights.filter fun flight => flight.2 ≠ c }
  { settled with
    calls := (s.calls.set c { call with db := false, phase := phase }).map fun other =>
      if isJoining other && other.joined = some c then { other with phase := phase } else other }

/-- The cache fails while a call seeks: it tries again or runs its operation. -/
def fails (c : Nat) (call : Call Value) (retried : Bool) : CacheState Value :=
  if retried then s.setCall c { call with db := false, phase := .seeking }
  else s.startOperation c call .fallback

def rememberFor (clock : CacheClock) (call : Call Value) (entry : Entry Value) :
    CacheState Value :=
  let memory := s.memory call.process
  s.setMemory call.process
    { memory with
      memory := remember (host.process call.process).memoryLimit clock (call.cacheKey host) entry
        memory.memory }

/-- `memory.delete(cacheKey)` -/
def forget (call : Call Value) : CacheState Value :=
  let memory := s.memory call.process
  s.setMemory call.process
    { memory with memory := memory.memory.filter fun held => held.1 ≠ call.cacheKey host }

end CacheState

open CacheState

/-! ### The steps of a call -/

/-- `ageLimit` -/
def ageLimitOf (ttl : Int) : Option Int → Int
  | none => ttl
  | some maxAgeMs => min ttl (max 0 maxAgeMs)

/-- `scopedFingerprint`: the promise of a call, and the state with it. -/
def scopedFingerprint (s : CacheState Value) (process : Nat) (key : String)
    (scope : Option Nat) : Nat × CacheState Value :=
  let scopeKey := host.fingerprintScopeKey key
  let fresh := s.promises.length
  let promised := { s with promises := s.promises ++ [⟨process, scopeKey, .pending⟩] }
  match scope with
  | none => (fresh, promised)
  | some scope =>
    let shared := s.scopes process scope
    let inputKey := ((host.process process).stateDirectory, scopeKey)
    if shared.closed then (fresh, promised)
    else
      match shared.inputs.find? fun input => input.1 = inputKey with
      | some input => (input.2, s)
      | none =>
        (fresh,
          promised.setScope process scope ⟨false, shared.inputs ++ [(inputKey, fresh)]⟩)

/-- `cachedAttestation`, up to its first `await`. -/
def beginCall (s : CacheState Value) (process : Nat) (key : String) (cacheable : Value → Bool)
    (maxAgeMs : Option Int) (scope : Option Nat) (clock : CacheClock) : CacheState Value :=
  let call : Call Value :=
    { process := process, key := key, cacheable := cacheable, scope := scope, ttl := clock.ttl
      ageLimit := ageLimitOf clock.ttl maxAgeMs, promise := 0, input := "", inputsCurrent := true
      db := false, joined := none, result := none, phase := .entering }
  let c := s.calls.length
  if clock.ttl ≤ 0 then
    { s with calls := s.calls ++ [call] }.startOperation c call .unshared
  else
    let (promise, promised) := scopedFingerprint host s process key scope
    { promised with calls := s.calls ++ [{ call with promise := promise }] }

/-- A fingerprint is read. -/
def settlePromise (s : CacheState Value) (promise : Nat) (rejects : Bool) : CacheState Value :=
  match s.promises[promise]? with
  | none => s
  | some ⟨process, scopeKey, .pending⟩ =>
    let read := if rejects then .rejected else .settled (s.inputs process scopeKey)
    { s with promises := s.promises.set promise ⟨process, scopeKey, read⟩ }
  | some _ => s

/-- The rest of `cachedAttestation`, once the input is known. -/
def enterWith (s : CacheState Value) (c : Nat) (call : Call Value) (clock : CacheClock) :
    CacheState Value :=
  let memory := s.memory call.process
  let hit := (memory.memory.find? fun held => held.1 = call.cacheKey host).map Prod.snd
  match hit.filter fun entry =>
      clock.now - entry.attestedAt < call.ageLimit && call.cacheable entry.value with
  | some entry =>
    (s.rememberFor host clock call entry).settle c call
      (.answered ⟨entry.value, some (entry.attestedAt, .thisProcess clock.now)⟩)
  | none =>
    let s := if hit.any fun entry => clock.now - entry.attestedAt ≥ call.ttl then
        s.forget host call
      else s
    let memory := s.memory call.process
    match memory.flights.find? fun flight => flight.1 = call.flightKey host with
    | some flight => s.setCall c { call with joined := some flight.2, phase := .joining }
    | none =>
      (s.setMemory call.process
        { memory with flights := memory.flights ++ [(call.flightKey host, c)] }).setCall c
        { call with phase := .seeking }

def enter (s : CacheState Value) (c : Nat) (call : Call Value) (clock : CacheClock) :
    CacheState Value :=
  match call.phase, (s.promises[call.promise]?).map FingerprintPromise.read with
  | .entering, some .rejected => s.settle c call .rejected
  | .entering, some (.settled none) => s.startOperation c call .unidentified
  | .entering, some (.settled (some input)) => enterWith host s c { call with input := input } clock
  | _, _ => s

/-- The invalidation that `openDb` makes. -/
def invalidate (s : CacheState Value) (call : Call Value) : CacheState Value :=
  let memory := s.memory call.process
  if memory.invalidateShared then
    let buildNamespace := (host.process call.process).buildNamespace
    (s.setDbOf host call
      (deleteEntries (fun row => row.buildNamespace = buildNamespace) (s.dbOf host call))).setMemory
      call.process { memory with invalidateShared := false }
  else s

/-- The value a claimed lookup returns. -/
def freshAnswer (entry : Entry Value) : CallPhase Value :=
  .answered ⟨entry.value, some (entry.attestedAt, .fresh)⟩

def releasedPhase : Option (Entry Value) → CallPhase Value
  | none => .rejected
  | some entry => freshAnswer entry

/-- `openDb()`; `none` is success. -/
def openDb (s : CacheState Value) (c : Nat) (call : Call Value) (retried : Option Bool) :
    CacheState Value :=
  match call.phase, retried with
  | .seeking, none | .revoking _, none | .publishing _, none | .releasing _, none =>
    (invalidate host s call).setCall c { call with db := true }
  | .seeking, some retried => s.fails c call retried
  | .revoking entry, some _ => s.setCall c { call with phase := .releasing (some entry) }
  | .publishing entry, some _ => s.setCall c { call with phase := .releasing (some entry) }
  | .releasing outcome, some _ => s.settle c call (releasedPhase outcome)
  | _, _ => s

variable [DecidableEq Value]

/-- The row of the call, as `read` accepts it. -/
def readFor (s : CacheState Value) (call : Call Value) (clock : CacheClock) :
    Option (Entry Value) :=
  readEntry (s.dbOf host call) (call.cacheKey host) (host.process call.process).buildNamespace
    clock.now call.ageLimit call.cacheable

/-- The read before the transaction. -/
def look (s : CacheState Value) (c : Nat) (call : Call Value) (clock : CacheClock)
    (retried : Option Bool) : CacheState Value :=
  match call.phase, call.db, retried with
  | .seeking, true, some retried => s.fails c call retried
  | .seeking, true, none =>
    match readFor host s call clock with
    | none => s.setCall c { call with phase := .claiming }
    | some entry =>
      if call.inputsCurrent then
        (s.rememberFor host clock call entry).settle c call
          (.answered ⟨entry.value, some (entry.attestedAt, .shared clock.now)⟩)
      else s.setCall c { call with db := false, phase := .verifying }
  | _, _, _ => s

/-- The row of `attestation_flights` that a call writes. -/
def flightOf (c : Nat) (call : Call Value) (clock : CacheClock) : FlightRow where
  cacheKey := call.cacheKey host
  token := c
  pid := call.process
  expiresAt := clock.now + (host.process call.process).flightLeaseMs

def claimAvailable (s : CacheState Value) (call : Call Value) (clock : CacheClock)
    (alive : Bool) : Bool :=
  match holder (s.dbOf host call) (call.cacheKey host) with
  | none => true
  | some flight => flight.pid = 0 || flight.expiresAt ≤ clock.now || !alive

/-- The transaction: the second read and the claim. -/
def claim (s : CacheState Value) (c : Nat) (call : Call Value) (clock : CacheClock) (alive : Bool)
    (ending : TransactionEnd) (retried : Bool) : CacheState Value :=
  match call.phase, ending with
  | .claiming, .notBegun => s.fails c call retried
  | .claiming, ending =>
    match readFor host s call clock with
    | some _ =>
      let call := { call with inputsCurrent := false }
      if ending = .committed then s.setCall c { call with db := false, phase := .verifying }
      else s.fails c call retried
    | none =>
      if claimAvailable host s call clock alive && call.inputsCurrent then
        let claimed := s.setDbOf host call
          (putFlight (flightOf host c call clock) (s.dbOf host call))
        if ending = .committed then claimed.startOperation c call .claimed
        else if ending = .unreported then claimed.fails c call retried
        else s.fails c call retried
      else if ending ≠ .committed then s.fails c call retried
      else if claimAvailable host s call clock alive then
        s.setCall c { call with db := false, phase := .verifying }
      else s.setCall c { call with db := false, inputsCurrent := false, phase := .seeking }
  | _, _ => s

/-- `await fingerprint(key) !== input`, at the decision. -/
def verify (s : CacheState Value) (c : Nat) (call : Call Value) (rejects : Bool) :
    CacheState Value :=
  match call.phase with
  | .verifying =>
    if rejects then s.startOperation c call .fallback
    else if s.inputs call.process (call.scopeKey host) = some call.input then
      s.setCall c { call with inputsCurrent := true, phase := .seeking }
    else s.startOperation c call .changed
  | _ => s

/-- The operation returns a value, or throws. -/
def operationEnds (s : CacheState Value) (c : Nat) (call : Call Value) (clock : CacheClock)
    (value : Option Value) : CacheState Value :=
  match call.phase, value with
  | .operating .unshared, some value =>
    s.settle c { call with result := some ⟨value, clock.now⟩ } (.answered ⟨value, none⟩)
  | .operating .claimed, some value =>
    let entry : Entry Value := ⟨value, clock.now⟩
    let call := { call with result := some entry }
    if call.cacheable value then s.setCall c { call with phase := .checking entry }
    else (s.forget host call).setCall c { call with phase := .revoking entry }
  | .operating _, some value =>
    s.settle c { call with result := some ⟨value, clock.now⟩ } (freshAnswer ⟨value, clock.now⟩)
  | .operating .changed, none => s.startOperation c call .fallback
  | .operating .claimed, none => s.setCall c { call with phase := .releasing none }
  | .operating _, none => s.settle c call .rejected
  | _, _ => s

/-- A value that is not `cacheable` takes the published one away. -/
def revoke (s : CacheState Value) (c : Nat) (call : Call Value) (ending : TransactionEnd) :
    CacheState Value :=
  match call.phase, call.db with
  | .revoking entry, true =>
    let db := s.dbOf host call
    let revoked := if ending.durable && holds db (call.cacheKey host) c then
        s.setDbOf host call (deleteEntries (fun row => row.cacheKey = call.cacheKey host) db)
      else s
    revoked.setCall c { call with db := false, phase := .releasing (some entry) }
  | _, _ => s

/-- `await fingerprint(key) === input`, and the size of the bytes. -/
def check (s : CacheState Value) (c : Nat) (call : Call Value) (rejects fits : Bool) :
    CacheState Value :=
  match call.phase with
  | .checking entry =>
    if rejects then s.setCall c { call with phase := .releasing none }
    else if s.inputs call.process (call.scopeKey host) = some call.input && fits then
      s.setCall c { call with phase := .publishing entry }
    else s.setCall c { call with phase := .releasing (some entry) }
  | _ => s

/-- The row of `attestation_entries` that a call writes. -/
def entryRowOf (call : Call Value) (clock : CacheClock) (entry : Entry Value) :
    EntryRow Value where
  cacheKey := call.cacheKey host
  buildNamespace := (host.process call.process).buildNamespace
  attestedAt := entry.attestedAt
  expiresAt := entry.attestedAt + clock.ttl
  payload := entry.value
  payloadSha256 := entry.value

/-- `owner?.token === token && owner.expires_at > Date.now()` -/
def ownsFlight (s : CacheState Value) (c : Nat) (call : Call Value) (clock : CacheClock) : Bool :=
  (holder (s.dbOf host call) (call.cacheKey host)).any fun owner =>
    owner.token = c && owner.expiresAt > clock.now

/-- The transaction that publishes the value. -/
def publish (s : CacheState Value) (c : Nat) (call : Call Value) (clock : CacheClock)
    (ending : TransactionEnd) : CacheState Value :=
  match call.phase, call.db with
  | .publishing entry, true =>
    let released := { call with db := false, phase := .releasing (some entry) }
    if ending = .notBegun || !ownsFlight host s c call clock then s.setCall c released
    else
      let published := if ending.durable then
          s.setDbOf host call (putEntry (entryRowOf host call clock entry)
            (deleteEntries (fun row => row.expiresAt ≤ clock.now) (s.dbOf host call)))
        else s
      (published.rememberFor host clock call entry).setCall c released
  | _, _ => s

/-- The `finally` of a claimed lookup, and its end. -/
def release (s : CacheState Value) (c : Nat) (call : Call Value) (ending : TransactionEnd) :
    CacheState Value :=
  match call.phase, call.db with
  | .releasing outcome, true =>
    let released := if ending.durable then
        s.setDbOf host call (deleteFlight (call.cacheKey host) c (s.dbOf host call))
      else s
    released.settle c call (releasedPhase outcome)
  | _, _ => s

/-- The process ends; what it has returned stays returned. -/
def crashCall (process : Nat) (call : Call Value) : Call Value :=
  if call.process = process then
    match call.phase with
    | .answered _ | .rejected => call
    | _ => { call with phase := .gone }
  else call

/-! ### The system -/

def withCall (s : CacheState Value) (c : Nat) (next : Call Value → CacheState Value) :
    CacheState Value :=
  match s.calls[c]? with
  | none => s
  | some call => next call

def cacheStep (s : CacheState Value) : CacheEvent Value → CacheState Value
  | .change process scopeKey fingerprint =>
    { s with
      inputs := Function.update s.inputs process
        (Function.update (s.inputs process) scopeKey fingerprint) }
  | .clearAttestationCache process =>
    s.setMemory process { s.memory process with memory := [], invalidateShared := true }
  | .finishScope process scope => s.finishScope process (some scope)
  | .crash process =>
    { s.setMemory process ⟨[], [], false⟩ with calls := s.calls.map (crashCall process) }
  | .damage stateDirectory cacheKey payload =>
    s.setDb stateDirectory { s.db stateDirectory with
      entries := (s.db stateDirectory).entries.map fun row =>
        if row.cacheKey = cacheKey then { row with payload := payload } else row }
  | .call process key cacheable maxAgeMs scope clock =>
    beginCall host s process key cacheable maxAgeMs scope clock
  | .fingerprint promise rejects => settlePromise s promise rejects
  | .enter c clock => withCall s c fun call => enter host s c call clock
  | .openDb c retried => withCall s c fun call => openDb host s c call retried
  | .look c clock retried => withCall s c fun call => look host s c call clock retried
  | .claim c clock alive ending retried =>
    withCall s c fun call => claim host s c call clock alive ending retried
  | .verify c rejects => withCall s c fun call => verify host s c call rejects
  | .operationEnds c clock value => withCall s c fun call => operationEnds host s c call clock value
  | .revoke c ending => withCall s c fun call => revoke host s c call ending
  | .check c rejects fits => withCall s c fun call => check host s c call rejects fits
  | .publish c clock ending => withCall s c fun call => publish host s c call clock ending
  | .release c ending => withCall s c fun call => release host s c call ending

/-- No process has made a call yet. -/
def CacheState.initial : CacheState Value where
  inputs _ _ := none
  promises := []
  scopes _ _ := ⟨false, []⟩
  memory _ := ⟨[], [], false⟩
  db _ := ⟨[], []⟩
  calls := []

/-- The state that a run leaves. -/
def after (events : List (CacheEvent Value)) : CacheState Value :=
  run (cacheStep host) .initial events

end AgentBridge.Attestations
