import AgentBridge.Providers.Store
import AgentBridge.Systems.Run

/-!
# Provider capacity

Processes with different limits ask for slots, renew, release and quarantine leases
and change the limits in any order. Every stored capacity is positive, because only a
configured limit is ever stored; a slot is then decided on the stricter of the stored
and the configured capacity, and on a count of all the rows that are left once the
expired ones are gone. A heartbeat renews a row that is still there, so the rows that
were counted are the only ones it can keep alive.
-/

namespace AgentBridge.Providers

open Systems

/-- One transaction of one process with everything it takes from outside. The pauses
change freely between transactions. -/
inductive ProviderEvent where
  | look (config : BridgeConfig) (request : SlotRequest)
  | release (config : BridgeConfig) (leaseId : String)
  | heartbeat (config : BridgeConfig) (leaseId : String) (now : Nat)
  | quarantine (config : BridgeConfig) (lease : ProviderLease) (containment randomHex : String)
      (now : Nat)
  | reclaim (leaseId : String)
  | setConcurrency (config : BridgeConfig) (request : ConcurrencyRequest) (now : Nat)
  | pauses (cooldowns : List ProviderCooldownRow)

def providerStep (db : ProviderDb) : ProviderEvent → ProviderDb
  | .look config request => (waitForProviderLease db config request).2
  | .release config leaseId => releaseProviderLease db config leaseId
  | .heartbeat config leaseId now => (heartbeatProviderLease db config leaseId now).2
  | .quarantine config lease containment randomHex now =>
    quarantineProviderLease db config lease containment randomHex now
  | .reclaim leaseId => reclaimProviderQuarantine db leaseId
  | .setConcurrency config request now => setRuntimeConcurrency db config request now
  | .pauses cooldowns => { db with cooldowns := cooldowns }

/-- The leases of a key that have not expired at a time. -/
def liveLeases (providerKey : String) (time : Nat) (leases : List ProviderLeaseRow) :
    List ProviderLeaseRow :=
  leases.filter fun row => row.providerKey == providerKey && decide (time < row.expiresAt)

/-- The leases of all keys that have not expired at a time. -/
def allLiveLeases (time : Nat) (leases : List ProviderLeaseRow) : List ProviderLeaseRow :=
  leases.filter fun row => decide (time < row.expiresAt)

theorem liveLeases_length_le (providerKey : String) (time : Nat)
    (leases : List ProviderLeaseRow) :
    (liveLeases providerKey time leases).length ≤ leaseCount providerKey leases := by
  rw [liveLeases, leaseCount, ← List.countP_eq_length_filter]
  apply List.countP_mono_left
  intro row _ h
  simp only [Bool.and_eq_true] at h
  exact h.1

theorem allLiveLeases_length_le (time : Nat) (leases : List ProviderLeaseRow) :
    (allLiveLeases time leases).length ≤ leases.length :=
  List.length_filter_le _ _

/-! ### Stored capacities -/

def CapacitiesPositive (capacities : List ProviderCapacityRow) : Prop :=
  ∀ row ∈ capacities, 0 < row.capacity

variable {capacities : List ProviderCapacityRow} {providerKey : String}

theorem storedCapacity_pos (positive : CapacitiesPositive capacities) {stored : Nat}
    (h : storedCapacity providerKey capacities = some stored) : 0 < stored := by
  obtain ⟨row, hrow, rfl⟩ := Option.map_eq_some_iff.mp h
  exact positive row (List.mem_of_find?_eq_some hrow)

theorem storedCapacity_append_of_none (h : storedCapacity providerKey capacities = none)
    (capacity updatedAt : Nat) :
    storedCapacity providerKey (capacities ++ [⟨providerKey, capacity, updatedAt⟩])
      = some capacity := by
  have hnone : capacities.find? (·.providerKey == providerKey) = none :=
    Option.map_eq_none_iff.mp h
  simp [storedCapacity, List.find?_append, hnone]

theorem storedCapacity_update {stored : Nat}
    (h : storedCapacity providerKey capacities = some stored) (capacity now : Nat) :
    storedCapacity providerKey (capacities.map fun row =>
      if row.providerKey == providerKey then { row with capacity := capacity, updatedAt := now }
      else row) = some capacity := by
  induction capacities with
  | nil => simp [storedCapacity] at h
  | cons row rows ih =>
    by_cases hrow : row.providerKey = providerKey
    · simp [storedCapacity, hrow]
    · have htail : storedCapacity providerKey rows = some stored := by
        simpa [storedCapacity, List.find?_cons, hrow] using h
      simpa [storedCapacity, List.find?_cons, hrow] using ih htail

/-- A slot is decided on the stricter of the capacity it leaves stored and the
configured one. -/
theorem settleCapacity_le (positive : CapacitiesPositive capacities) (providerKey : String)
    (active : Nat) (configured : SlotLimit) (now : Nat) :
    ∃ stored,
      storedCapacity providerKey
          (settleCapacity capacities providerKey active configured now).2 = some stored ∧
        (settleCapacity capacities providerKey active configured now).1
          ≤ min stored configured := by
  cases hstored : storedCapacity providerKey capacities with
  | none =>
    refine ⟨configured, ?_, ?_⟩
    · simp only [settleCapacity, hstored]
      exact storedCapacity_append_of_none hstored _ _
    · simp [settleCapacity, hstored]
  | some stored =>
    have hpos : 0 < stored := storedCapacity_pos positive hstored
    by_cases heq : stored = configured
    · exact ⟨stored, by simp [settleCapacity, hstored, heq], by
        simp [settleCapacity, hstored, heq]⟩
    by_cases hactive : 0 < active
    · refine ⟨stored, ?_, ?_⟩
      · simp [settleCapacity, hstored, heq, hactive]
      · simp [settleCapacity, hstored, heq, hactive, hpos]
    · refine ⟨configured, ?_, ?_⟩
      · simp only [settleCapacity, hstored, heq, hactive, if_false]
        exact storedCapacity_update hstored _ _
      · simp [settleCapacity, hstored, heq, hactive]

theorem settleCapacity_positive (positive : CapacitiesPositive capacities) (providerKey : String)
    (active : Nat) (configured : SlotLimit) (now : Nat) :
    CapacitiesPositive (settleCapacity capacities providerKey active configured now).2 := by
  intro row hrow
  cases hstored : storedCapacity providerKey capacities with
  | none =>
    simp only [settleCapacity, hstored, List.mem_append, List.mem_singleton] at hrow
    rcases hrow with hrow | rfl
    · exact positive row hrow
    · exact configured.2
  | some stored =>
    simp only [settleCapacity, hstored] at hrow
    split_ifs at hrow with heq hactive
    · exact positive row hrow
    · exact positive row hrow
    · exact positive row hrow
    · obtain ⟨old, hold, rfl⟩ := List.mem_map.mp hrow
      by_cases hkey : old.providerKey = providerKey
      · simpa [hkey] using configured.2
      · simpa [hkey] using positive old hold

/-! ### What a look does -/

structure Granted (db : ProviderDb) (config : BridgeConfig) (request : SlotRequest)
    (lease : ProviderLease) (db' : ProviderDb) (capacity : Nat) : Prop where
  settled : (capacity, db'.capacities) = settleCapacity db.capacities request.providerKey
    (leaseCount request.providerKey (unexpired db request.now))
    (config.providerLimitForKey (readRuntimeConcurrencyRows db.settings) request.providerKey)
    request.now
  slotFree : leaseCount request.providerKey (unexpired db request.now) < capacity
  workerFree : 0 < config.globalWorkerLimit (readRuntimeConcurrencyRows db.settings) →
    (unexpired db request.now).length
      < config.globalWorkerLimit (readRuntimeConcurrencyRows db.settings)
  inserted : ∃ row : ProviderLeaseRow, row.leaseId = lease.id ∧
    row.providerKey = request.providerKey ∧ row.expiresAt = lease.expiresAt ∧
    db'.leases = unexpired db request.now ++ [row]
  settings : db'.settings = db.settings

/-- A look grants under the conditions above or changes nothing. -/
theorem waitForProviderLease_cases (db : ProviderDb) (config : BridgeConfig)
    (request : SlotRequest) :
    (∃ lease capacity, (waitForProviderLease db config request).1 = .granted lease ∧
      Granted db config request lease (waitForProviderLease db config request).2 capacity) ∨
    ((∀ lease, (waitForProviderLease db config request).1 ≠ .granted lease) ∧
      (waitForProviderLease db config request).2 = db) := by
  simp only [waitForProviderLease]
  split
  · right
    simp
  · split_ifs with hfree hdeadline haborted htaken
    · right
      simp
    · right
      simp
    · right
      simp
    · left
      refine ⟨_, _, rfl, rfl, hfree.1, ?_, ⟨_, rfl, rfl, rfl, rfl⟩, rfl⟩
      intro hcap
      have hheld := hfree.2.resolve_left (by omega)
      simpa only [globalHeld, hcap, if_true] using hheld
    all_goals
      right
      simp

theorem waitForProviderLease_granted {db : ProviderDb} {config : BridgeConfig}
    {request : SlotRequest} {lease : ProviderLease}
    (granted : (waitForProviderLease db config request).1 = .granted lease) :
    ∃ capacity,
      Granted db config request lease (waitForProviderLease db config request).2 capacity := by
  rcases waitForProviderLease_cases db config request with ⟨found, capacity, h, spec⟩ | ⟨h, -⟩
  · obtain rfl : found = lease := by simpa [h] using granted
    exact ⟨capacity, spec⟩
  · exact absurd granted (h lease)

/-! ### Every run -/

theorem providerStep_positive (db : ProviderDb) (event : ProviderEvent)
    (positive : CapacitiesPositive db.capacities) :
    CapacitiesPositive (providerStep db event).capacities := by
  cases event with
  | look config request =>
    rcases waitForProviderLease_cases db config request with
      ⟨lease, capacity, -, granted⟩ | ⟨-, hdb⟩
    · have hsettled := settleCapacity_positive positive request.providerKey
        (leaseCount request.providerKey (unexpired db request.now))
        (config.providerLimitForKey (readRuntimeConcurrencyRows db.settings)
          request.providerKey) request.now
      rw [← granted.settled] at hsettled
      exact hsettled
    · simpa only [providerStep, hdb] using positive
  | quarantine config lease containment randomHex now =>
    simp only [providerStep, quarantineProviderLease]
    split_ifs
    all_goals exact positive
  | setConcurrency config request now =>
    simp only [providerStep, setRuntimeConcurrency, keptCapacities]
    split_ifs
    · intro row hrow
      simp at hrow
    · intro row hrow
      exact positive row (List.mem_of_mem_filter hrow)
    · exact positive
    · exact positive
  | release config leaseId => exact positive
  | heartbeat config leaseId now => exact positive
  | reclaim leaseId => exact positive
  | pauses cooldowns => exact positive

theorem run_positive (events : List ProviderEvent) :
    CapacitiesPositive (run providerStep .empty events).capacities := by
  have initial : CapacitiesPositive ProviderDb.empty.capacities := by
    intro row hrow
    simp [ProviderDb.empty] at hrow
  exact run_preserves providerStep_positive initial events

/-- Whatever processes with whatever limits did before, a granted slot leaves no more
live leases of its key than both the stored and the configured capacity allow, and no
more live leases in all than the global cap. -/
theorem provider_capacity_safety (events : List ProviderEvent) (config : BridgeConfig)
    (request : SlotRequest) (lease : ProviderLease)
    (granted : (waitForProviderLease (run providerStep .empty events) config request).1
      = .granted lease) :
    let db := (waitForProviderLease (run providerStep .empty events) config request).2
    let runtime := readRuntimeConcurrencyRows db.settings
    ∃ stored, storedCapacity request.providerKey db.capacities = some stored ∧
      ∀ time,
        (liveLeases request.providerKey time db.leases).length
            ≤ min stored (config.providerLimitForKey runtime request.providerKey).val ∧
          (0 < config.globalWorkerLimit runtime →
            (allLiveLeases time db.leases).length ≤ config.globalWorkerLimit runtime) := by
  intro db runtime
  obtain ⟨capacity, found⟩ := waitForProviderLease_granted granted
  obtain ⟨row, -, hkey, -, hleases⟩ := found.inserted
  obtain ⟨stored, hstored, hmin⟩ := settleCapacity_le (run_positive events)
    request.providerKey
    (leaseCount request.providerKey (unexpired (run providerStep .empty events) request.now))
    (config.providerLimitForKey
      (readRuntimeConcurrencyRows (run providerStep .empty events).settings)
      request.providerKey) request.now
  rw [← found.settled] at hstored hmin
  have hruntime : runtime
      = readRuntimeConcurrencyRows (run providerStep .empty events).settings :=
    congrArg readRuntimeConcurrencyRows found.settings
  refine ⟨stored, hstored, fun time => ⟨?_, fun hcap => ?_⟩⟩
  · have hcount : leaseCount request.providerKey db.leases
        = leaseCount request.providerKey
            (unexpired (run providerStep .empty events) request.now) + 1 := by
      show leaseCount request.providerKey
        (waitForProviderLease (run providerStep .empty events) config request).2.leases = _
      simp [hleases, leaseCount, List.countP_append, hkey]
    have hlive := liveLeases_length_le request.providerKey time db.leases
    have hfree := found.slotFree
    rw [hruntime]
    omega
  · have htotal : db.leases.length
        = (unexpired (run providerStep .empty events) request.now).length + 1 := by
      show (waitForProviderLease (run providerStep .empty events) config
        request).2.leases.length = _
      simp [hleases]
    have hlive := allLiveLeases_length_le time db.leases
    rw [hruntime] at hcap ⊢
    have hfree := found.workerFree hcap
    omega

/-- A process with the default settings and its own slot limit. -/
def defaultConfig (bridgeInstanceId : String) (limit : SlotLimit) : BridgeConfig where
  bridgeInstanceId := bridgeInstanceId
  processId := 1
  envProviderConcurrencyLimit := limit
  envGlobalWorkerLimit := 2
  providerLimits := []
  providerConcurrencyKey := "opencode-default-account"
  providerLeaseMs := ⟨240000, by decide⟩

def slotRequest (now : Nat) (randomHex : String) : SlotRequest where
  providerKey := "opencode-default-account"
  pauseKeys := []
  now := now
  deadlinePassed := false
  aborted := false
  randomHex := randomHex

/-- A process that allows three slots takes two; one that allows a single slot waits. -/
def disagreementRun : List ProviderEvent :=
  [.look (defaultConfig "a" ⟨3, by decide⟩) (slotRequest 10 "0a"),
    .look (defaultConfig "a" ⟨3, by decide⟩) (slotRequest 20 "0b"),
    .look (defaultConfig "b" ⟨1, by decide⟩) (slotRequest 30 "0c"),
    .heartbeat (defaultConfig "a" ⟨3, by decide⟩) "a-0a" 40,
    .release (defaultConfig "a" ⟨3, by decide⟩) "a-0b"]

theorem provider_capacity_safety_of_disagreement :
    let db := (waitForProviderLease (run providerStep .empty disagreementRun)
      (defaultConfig "c" ⟨2, by decide⟩) (slotRequest 50 "0d")).2
    (liveLeases "opencode-default-account" 60 db.leases).length ≤ 2 ∧
      (allLiveLeases 60 db.leases).length ≤ 2 := by
  obtain ⟨stored, -, hlive⟩ := provider_capacity_safety disagreementRun
    (defaultConfig "c" ⟨2, by decide⟩) (slotRequest 50 "0d")
    ⟨"c-0d", "opencode-default-account", 240050⟩ (by decide)
  have hkey := (hlive 60).1.trans (Nat.min_le_right _ _)
  have hall := (hlive 60).2 (by decide)
  exact ⟨hkey, hall⟩

end AgentBridge.Providers
