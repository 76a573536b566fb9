import Mathlib

/-!
# The provider lease store

The tables of `provider-concurrency.sqlite` and the transactions of
`lib/provider-leases.js` and `lib/provider-quarantine.js` on them. The database is
shared by every bridge process of the machine; each process brings its own
environment limits, so two processes may disagree on the capacity of one key.

A process keeps the last settings it read in memory. A slot is always decided on the
settings read inside the deciding transaction, so the memory copy does not appear
here.
-/

namespace AgentBridge.Providers

/-- A limit that the environment readers or the settings reader let through. -/
abbrev SlotLimit := { slots : Nat // 0 < slots }

/-- `Number.MAX_SAFE_INTEGER`, the expiry of a quarantined lease. -/
def maxSafeInteger : Nat := 9007199254740991

structure ProviderLeaseRow where
  leaseId : String
  providerKey : String
  ownerInstanceId : String
  ownerProcessId : Nat
  createdAt : Nat
  heartbeatAt : Nat
  expiresAt : Nat
  containment : String
deriving DecidableEq

structure ProviderCapacityRow where
  providerKey : String
  capacity : Nat
  updatedAt : Nat
deriving DecidableEq

structure ProviderCooldownRow where
  providerKey : String
  untilAt : Nat
  errorType : String
  reason : String
  setAt : Nat
deriving DecidableEq

structure RuntimeSettingRow where
  name : String
  value : Int
  updatedAt : Nat
deriving DecidableEq

structure ProviderDb where
  leases : List ProviderLeaseRow
  capacities : List ProviderCapacityRow
  cooldowns : List ProviderCooldownRow
  settings : List RuntimeSettingRow
deriving DecidableEq

/-- The tables as `openProviderLeaseDb` creates them. -/
def ProviderDb.empty : ProviderDb := ⟨[], [], [], []⟩

/-- What one process reads from its environment at startup. -/
structure BridgeConfig where
  bridgeInstanceId : String
  processId : Nat
  envProviderConcurrencyLimit : SlotLimit
  /-- `0` is no cap. -/
  envGlobalWorkerLimit : Nat
  providerLimits : List (String × SlotLimit)
  providerConcurrencyKey : String
  providerLeaseMs : SlotLimit

/-! ### The settings in force -/

def maxRuntimeConcurrencyLimit : Int := 32

def maxGlobalWorkerLimit : Int := 64

def runtimeProviderLimitSetting : String := "provider_concurrency_limit"
def runtimeQueueLimitSetting : String := "queue_parallel_limit"
def runtimeGlobalLimitSetting : String := "global_worker_limit"
def runtimePerProviderLimitPrefix : String := "provider_limit:"

structure RuntimeConcurrency where
  providerLimit : Option SlotLimit
  queueParallelLimit : Option SlotLimit
  globalWorkerLimit : Option Nat
  providerLimits : List (String × SlotLimit)

/-- The value when `runtimeConcurrencyLimitError` has nothing against it. -/
def runtimeConcurrencyLimit (value : Int) : Option SlotLimit :=
  if h : 1 ≤ value ∧ value ≤ maxRuntimeConcurrencyLimit then
    some ⟨value.toNat, by omega⟩
  else none

/-- The value when `globalWorkerLimitError` has nothing against it. -/
def globalWorkerLimit (value : Int) : Option Nat :=
  if 0 ≤ value ∧ value ≤ maxGlobalWorkerLimit then some value.toNat else none

def providerLimitName (name : String) : Bool :=
  match name.toList with
  | [] => false
  | c :: cs => c.isAlphanum && cs.all fun d => d.isAlphanum || d == '.' || d == '_' || d == '-'

/-- `Map.prototype.set` on the entries in insertion order. -/
def mapSet {α : Type} (entries : List (String × α)) (key : String) (value : α) :
    List (String × α) :=
  if entries.any fun entry => entry.1 == key then
    entries.map fun entry => if entry.1 == key then (key, value) else entry
  else entries ++ [(key, value)]

/-- The rest of the text behind a prefix it starts with. -/
def afterPrefix (pre text : String) : Option String :=
  if pre.toList.isPrefixOf text.toList then
    some (String.ofList (text.toList.drop pre.toList.length))
  else none

/-- `name LIKE 'provider\_limit:%'`; `LIKE` ignores the case of ASCII letters. -/
def likeProviderLimit (name : String) : Bool :=
  (afterPrefix runtimePerProviderLimitPrefix name.toLower).isSome

def selectedSetting (row : RuntimeSettingRow) : Bool :=
  row.name == runtimeProviderLimitSetting || row.name == runtimeQueueLimitSetting ||
    row.name == runtimeGlobalLimitSetting || likeProviderLimit row.name

/-- One row of the loop in `readRuntimeConcurrencyRows`; a value outside the accepted
range is ignored. -/
def readSettingRow (settings : RuntimeConcurrency) (row : RuntimeSettingRow) :
    RuntimeConcurrency :=
  match afterPrefix runtimePerProviderLimitPrefix row.name with
  | some provider =>
    match runtimeConcurrencyLimit row.value with
    | some limit =>
      if providerLimitName provider then
        { settings with
          providerLimits := mapSet settings.providerLimits provider.toLower limit }
      else settings
    | none => settings
  | none =>
    if row.name == runtimeGlobalLimitSetting then
      match globalWorkerLimit row.value with
      | some limit => { settings with globalWorkerLimit := some limit }
      | none => settings
    else
      match runtimeConcurrencyLimit row.value with
      | some limit =>
        if row.name == runtimeProviderLimitSetting then
          { settings with providerLimit := some limit }
        else { settings with queueParallelLimit := some limit }
      | none => settings

def readRuntimeConcurrencyRows (settings : List RuntimeSettingRow) : RuntimeConcurrency :=
  ((settings.filter selectedSetting).insertionSort fun a b => a.name ≤ b.name).foldl
    readSettingRow ⟨none, none, none, []⟩

namespace BridgeConfig

variable (config : BridgeConfig) (runtime : RuntimeConcurrency)

/-- `CONFIG.providerConcurrencyLimit` -/
def providerConcurrencyLimit : SlotLimit :=
  runtime.providerLimit.getD config.envProviderConcurrencyLimit

/-- `CONFIG.globalWorkerLimit` -/
def globalWorkerLimit : Nat :=
  runtime.globalWorkerLimit.getD config.envGlobalWorkerLimit

def providerLimitForKey (providerKey : String) : SlotLimit :=
  if runtime.providerLimits.isEmpty && config.providerLimits.isEmpty then
    config.providerConcurrencyLimit runtime
  else
    match afterPrefix (config.providerConcurrencyKey ++ ":") providerKey with
    | none => config.providerConcurrencyLimit runtime
    | some provider =>
      ((runtime.providerLimits.lookup provider).or
        (config.providerLimits.lookup provider)).getD
          (config.providerConcurrencyLimit runtime)

end BridgeConfig

/-! ### Counting and capacity rows -/

/-- `SELECT COUNT(*) FROM provider_leases WHERE provider_key = ?` -/
def leaseCount (providerKey : String) (leases : List ProviderLeaseRow) : Nat :=
  leases.countP (·.providerKey == providerKey)

/-- `SELECT capacity FROM provider_capacities WHERE provider_key = ?` -/
def storedCapacity (providerKey : String) (capacities : List ProviderCapacityRow) : Option Nat :=
  (capacities.find? (·.providerKey == providerKey)).map (·.capacity)

/-- The capacity a slot is decided on and the capacity rows the decision leaves. While
leases are held under another stored capacity, the stricter of the two counts and the
row stays; once they have drained, the row follows the configuration. -/
def settleCapacity (capacities : List ProviderCapacityRow) (providerKey : String)
    (active : Nat) (configured : SlotLimit) (now : Nat) : Nat × List ProviderCapacityRow :=
  match storedCapacity providerKey capacities with
  | none => (configured, capacities ++ [⟨providerKey, configured, now⟩])
  | some stored =>
    if stored = configured then (configured, capacities)
    else if 0 < active then
      (if 0 < stored then min stored configured else configured, capacities)
    else
      (configured, capacities.map fun row =>
        if row.providerKey == providerKey then
          { row with capacity := configured, updatedAt := now }
        else row)

/-! ### Asking for a slot -/

/-- One look of the wait loop: what the caller asks for, the clock before the
transaction, what the process answers about its deadline and its signal inside it,
and the random part of a new lease id. -/
structure SlotRequest where
  providerKey : String
  pauseKeys : List String
  now : Nat
  deadlinePassed : Bool
  aborted : Bool
  randomHex : String

structure ProviderLease where
  id : String
  providerKey : String
  expiresAt : Nat
deriving DecidableEq

inductive SlotAnswer where
  | granted (lease : ProviderLease)
  | paused (pausedKey errorType reason : String) (untilAt : Nat)
  | waitTimeout
  | cancelled
  /-- `provider_concurrency_failed` -/
  | failed
  /-- No slot yet; the loop looks again. -/
  | full (holders capacity : Nat) (globalWorkers : Option (Nat × Nat))
deriving DecidableEq

/-- The pauses that hold a request, the longest first. -/
def cooldownInForce (request : SlotRequest) (cooldowns : List ProviderCooldownRow) :
    Option ProviderCooldownRow :=
  (cooldowns.filter fun row =>
    row.providerKey != "" && (request.providerKey :: request.pauseKeys).contains
      row.providerKey).argmax (·.untilAt)

/-- `SELECT COUNT(*) FROM provider_leases`, which is only asked under a cap. -/
def globalHeld (globalLimit : Nat) (leases : List ProviderLeaseRow) : Nat :=
  if 0 < globalLimit then leases.length else 0

/-- The leases that are left once the expired ones are gone. -/
def unexpired (db : ProviderDb) (now : Nat) : List ProviderLeaseRow :=
  db.leases.filter fun row => !(row.expiresAt ≤ now)

/-- One pass of the loop in `waitForProviderLease`: a single transaction, rolled back
unless it grants. -/
def waitForProviderLease (db : ProviderDb) (config : BridgeConfig) (request : SlotRequest) :
    SlotAnswer × ProviderDb :=
  let leases := unexpired db request.now
  let cooldowns := db.cooldowns.filter fun row => !(row.untilAt ≤ request.now)
  let runtime := readRuntimeConcurrencyRows db.settings
  match cooldownInForce request cooldowns with
  | some cooldown =>
    (.paused cooldown.providerKey cooldown.errorType cooldown.reason cooldown.untilAt, db)
  | none =>
    let active := leaseCount request.providerKey leases
    let configuredCapacity := config.providerLimitForKey runtime request.providerKey
    let (effectiveCapacity, capacities) :=
      settleCapacity db.capacities request.providerKey active configuredCapacity request.now
    let globalLimit := config.globalWorkerLimit runtime
    let held := globalHeld globalLimit leases
    if active < effectiveCapacity ∧ (globalLimit = 0 ∨ held < globalLimit) then
      if request.deadlinePassed then (.waitTimeout, db)
      else if request.aborted then (.cancelled, db)
      else
        let lease : ProviderLease :=
          { id := config.bridgeInstanceId ++ "-" ++ request.randomHex
            providerKey := request.providerKey
            expiresAt := request.now + config.providerLeaseMs }
        -- The lease id is the primary key: the insert of a taken one throws.
        if leases.any (·.leaseId == lease.id) then (.failed, db)
        else
          (.granted lease,
            { db with
              leases := leases ++ [
                { leaseId := lease.id
                  providerKey := request.providerKey
                  ownerInstanceId := config.bridgeInstanceId
                  ownerProcessId := config.processId
                  createdAt := request.now
                  heartbeatAt := request.now
                  expiresAt := lease.expiresAt
                  containment := "" }]
              capacities := capacities
              cooldowns := cooldowns })
    else
      (.full active effectiveCapacity
        (if 0 < globalLimit then some (held, globalLimit) else none), db)

/-! ### Held leases -/

/-- `DELETE … WHERE lease_id = ? AND owner_instance_id = ?`; also how a grant that came
after the deadline is withdrawn. -/
def releaseProviderLease (db : ProviderDb) (config : BridgeConfig) (leaseId : String) :
    ProviderDb :=
  { db with
    leases := db.leases.filter fun row =>
      !(row.leaseId == leaseId && row.ownerInstanceId == config.bridgeInstanceId) }

def effectiveLeaseMs (config : BridgeConfig) : Nat := max 250 config.providerLeaseMs

/-- The renewal of a heartbeat: only of an unexpired lease that is not quarantined. -/
def renewable (config : BridgeConfig) (leaseId : String) (now : Nat) (row : ProviderLeaseRow) :
    Bool :=
  row.leaseId == leaseId && row.ownerInstanceId == config.bridgeInstanceId &&
    decide (now < row.expiresAt) && decide (row.expiresAt < maxSafeInteger)

/-- The write of `pulse` in `startProviderLeaseHeartbeat`, and whether it renewed. -/
def heartbeatProviderLease (db : ProviderDb) (config : BridgeConfig) (leaseId : String)
    (now : Nat) : Bool × ProviderDb :=
  (db.leases.countP (renewable config leaseId now) == 1,
    { db with
      leases := db.leases.map fun row =>
        if renewable config leaseId now row then
          { row with heartbeatAt := now, expiresAt := now + effectiveLeaseMs config }
        else row })

/-- The row is held by this process and has not expired. -/
def ownedUnexpired (config : BridgeConfig) (leaseId : String) (now : Nat)
    (row : ProviderLeaseRow) : Bool :=
  row.leaseId == leaseId && row.ownerInstanceId == config.bridgeInstanceId &&
    decide (now < row.expiresAt)

/-- A lease whose process tree may still run keeps its slot without an expiry; one that
expired meanwhile gets a new row, whatever the capacity. -/
def quarantineProviderLease (db : ProviderDb) (config : BridgeConfig) (lease : ProviderLease)
    (containment randomHex : String) (now : Nat) : ProviderDb :=
  if db.leases.countP (ownedUnexpired config lease.id now) = 1 then
    { db with
      leases := db.leases.map fun row =>
        if ownedUnexpired config lease.id now row then
          { row with
            heartbeatAt := now
            expiresAt := maxSafeInteger
            containment := containment }
        else row }
  else
    let released := releaseProviderLease db config lease.id
    let leaseId := config.bridgeInstanceId ++ "-quarantine-" ++ randomHex
    if released.leases.any (·.leaseId == leaseId) then db
    else
      { released with
        leases := released.leases ++ [
          { leaseId := leaseId
            providerKey :=
              if lease.providerKey = "" then config.providerConcurrencyKey else lease.providerKey
            ownerInstanceId := config.bridgeInstanceId
            ownerProcessId := config.processId
            createdAt := now
            heartbeatAt := now
            expiresAt := maxSafeInteger
            containment := containment }] }

/-- The delete of `reclaimProvenGoneProviderQuarantines` for a row whose process tree
`containmentStillPossible` denies. -/
def reclaimProviderQuarantine (db : ProviderDb) (leaseId : String) : ProviderDb :=
  { db with
    leases := db.leases.filter fun row =>
      !(row.leaseId == leaseId && row.expiresAt == maxSafeInteger) }

/-! ### Changing the limits -/

/-- The arguments of `set_opencode_concurrency`; a provider set to `none` loses its own
limit. -/
structure ConcurrencyRequest where
  providerLimit : Option Int
  queueParallelLimit : Option Int
  globalWorkerLimit : Option Int
  providerLimits : List (String × Option Int)
  reset : Bool

namespace ConcurrencyRequest

def maxRuntimeProviderLimitEntries : Nat := 32

/-- `""` of `runtimeProviderLimitsError` -/
def providerLimitsUsable (limits : List (String × Option Int)) : Bool :=
  decide (limits.length ≤ maxRuntimeProviderLimitEntries) &&
    limits.all fun entry => providerLimitName entry.1 &&
      entry.2.all fun limit => (runtimeConcurrencyLimit limit).isSome

/-- The request passes the checks made before the database is opened. -/
def usable (request : ConcurrencyRequest) : Bool :=
  let named := request.providerLimit.isSome || request.queueParallelLimit.isSome ||
    request.globalWorkerLimit.isSome || !request.providerLimits.isEmpty
  (request.reset != named) &&
    (request.providerLimit.all fun limit => (runtimeConcurrencyLimit limit).isSome) &&
    (request.queueParallelLimit.all fun limit => (runtimeConcurrencyLimit limit).isSome) &&
    (request.globalWorkerLimit.all fun limit =>
      (Providers.globalWorkerLimit limit).isSome) &&
    providerLimitsUsable request.providerLimits

end ConcurrencyRequest

/-- `INSERT … ON CONFLICT(name) DO UPDATE` -/
def upsertSetting (settings : List RuntimeSettingRow) (name : String) (value : Int) (now : Nat) :
    List RuntimeSettingRow :=
  if settings.any (·.name == name) then
    settings.map fun row =>
      if row.name == name then { row with value := value, updatedAt := now } else row
  else settings ++ [⟨name, value, now⟩]

def upsertSetting? (settings : List RuntimeSettingRow) (name : String) (value : Option Int)
    (now : Nat) : List RuntimeSettingRow :=
  match value with
  | some value => upsertSetting settings name value now
  | none => settings

def changeProviderSetting (now : Nat) (settings : List RuntimeSettingRow)
    (change : String × Option Int) : List RuntimeSettingRow :=
  let name := runtimePerProviderLimitPrefix ++ change.1.toLower
  match change.2 with
  | none => settings.filter (·.name != name)
  | some limit => upsertSetting settings name limit now

def providerLimitsText (limits : List (String × SlotLimit)) : String :=
  ",".intercalate (limits.map fun entry => entry.1 ++ "=" ++ toString entry.2.val)

/-- The settings a usable request leaves. -/
def changedSettings (settings : List RuntimeSettingRow) (request : ConcurrencyRequest)
    (now : Nat) : List RuntimeSettingRow :=
  if request.reset then settings.filter fun row => !selectedSetting row
  else
    let settings :=
      upsertSetting? settings runtimeProviderLimitSetting request.providerLimit now
    let settings :=
      upsertSetting? settings runtimeQueueLimitSetting request.queueParallelLimit now
    let settings :=
      upsertSetting? settings runtimeGlobalLimitSetting request.globalWorkerLimit now
    request.providerLimits.foldl (changeProviderSetting now) settings

/-- The capacity rows are a cache of the configured limits: those a change of the
settings makes stale are dropped. -/
def keptCapacities (config : BridgeConfig) (before after : RuntimeConcurrency)
    (capacities : List ProviderCapacityRow) : List ProviderCapacityRow :=
  if config.providerConcurrencyLimit after ≠ config.providerConcurrencyLimit before then []
  else if providerLimitsText after.providerLimits ≠ providerLimitsText before.providerLimits then
    let providers := (before.providerLimits ++ after.providerLimits).map (·.1)
    let changed := providers.filter fun provider =>
      before.providerLimits.lookup provider != after.providerLimits.lookup provider
    capacities.filter fun row =>
      !(changed.any fun provider =>
        row.providerKey == config.providerConcurrencyKey ++ ":" ++ provider)
  else capacities

def setRuntimeConcurrency (db : ProviderDb) (config : BridgeConfig)
    (request : ConcurrencyRequest) (now : Nat) : ProviderDb :=
  if request.usable then
    let settings := changedSettings db.settings request now
    { db with
      settings := settings
      capacities := keptCapacities config (readRuntimeConcurrencyRows db.settings)
        (readRuntimeConcurrencyRows settings) db.capacities }
  else db

end AgentBridge.Providers
