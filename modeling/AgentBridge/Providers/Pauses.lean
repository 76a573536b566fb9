import AgentBridge.Providers.Store
import AgentBridge.Systems.Run
import AgentBridge.Systems.Table

/-!
# Recorded provider pauses

`recordProviderCooldown` and `recordRateLimitPause`: every bridge process of the machine writes
the ends of pauses into one table, each with the limits of its own environment. A call reads
the clock once before it opens the database (`called`) and, for a cooldown, once more inside.
-/

namespace AgentBridge.Providers

open Systems Nat

structure PauseStrikeRow where
  pauseKey : String
  strikes : Nat
  lastStrikeAt : Nat
deriving DecidableEq

/-- The provider database with the table of strikes. -/
structure PauseDb extends ProviderDb where
  pauseStrikes : List PauseStrikeRow
deriving DecidableEq

def PauseDb.empty : PauseDb := ⟨ProviderDb.empty, []⟩

def providerCooldownMaxMs : Nat := 24 * 60 * 60 * 1000

/-- `CODEX_OPENCODE_RATE_LIMIT_PAUSE_MS` and `CODEX_OPENCODE_RATE_LIMIT_PAUSE_MAX_MS` of a process;
both readers let every natural number through. -/
structure PauseConfig where
  rateLimitPauseMs : Nat
  rateLimitPauseMaxMs : Nat

/-- The arguments of `recordProviderCooldown`; the numbers are rounded up, and the reason is
redacted and cut. -/
structure CooldownCall where
  providerKey : String
  durationMs : Int
  untilAt : Int
  errorType : String
  reason : String

/-- The statement both functions end with: an earlier end never replaces a later one. -/
def storeCooldown (row : ProviderCooldownRow) (rows : List ProviderCooldownRow) :
    List ProviderCooldownRow :=
  upsert ProviderCooldownRow.providerKey row
    (fun stored => { row with untilAt := max stored.untilAt row.untilAt }) rows

namespace CooldownCall

variable (call : CooldownCall)

def exactUntilAt : Int := if 0 < call.untilAt then call.untilAt else 0

def boundedMs (called : Nat) : Int :=
  min providerCooldownMaxMs
    (max 0 (if call.exactUntilAt ≠ 0 then call.exactUntilAt - called else call.durationMs))

/-- An exact end counts as it is, unless it is more than a day ahead. -/
def endAt (called now : Nat) : Int :=
  if call.exactUntilAt ≠ 0 ∧ call.exactUntilAt - now ≤ providerCooldownMaxMs then
    call.exactUntilAt
  else now + call.boundedMs called

end CooldownCall

/-- The end that a cooldown call asks for, if it records one. -/
def cooldownEnd (call : CooldownCall) (called now : Nat) : Option Nat :=
  if call.providerKey = "" ∨ call.boundedMs called ≤ 0 then none
  else if call.endAt called now ≤ now then none
  else some (call.endAt called now).toNat

def recordProviderCooldown (call : CooldownCall) (called now : Nat) (db : PauseDb) : PauseDb :=
  match cooldownEnd call called now with
  | none => db
  | some untilAt =>
    let errorType := if call.errorType = "" then "opencode_quota_exhausted" else call.errorType
    { db with cooldowns :=
        storeCooldown ⟨call.providerKey, untilAt, errorType, call.reason, now⟩ db.cooldowns }

/-- A pause of the key runs at the given time. -/
def pauseInForce (db : PauseDb) (pauseKey : String) (now : Nat) : Bool :=
  db.cooldowns.any fun row => row.providerKey = pauseKey ∧ now < row.untilAt

/-- The number of the strike of a hit: a strike long ago is forgotten. -/
def nextStrike (db : PauseDb) (pauseKey : String) (maxMs now : Nat) : Nat :=
  match lookup PauseStrikeRow.pauseKey pauseKey db.pauseStrikes with
  | none => 1
  | some row => if (now : Int) - row.lastStrikeAt < 2 * maxMs then row.strikes + 1 else 1

/-- The longest pause of a rate limit: the first step counts as a maximum of its own. -/
def PauseConfig.longestPauseMs (config : PauseConfig) : Nat :=
  max config.rateLimitPauseMs config.rateLimitPauseMaxMs

def strikePauseMs (config : PauseConfig) (strikes : Nat) : Nat :=
  min config.longestPauseMs
    (min providerCooldownMaxMs (config.rateLimitPauseMs * 2 ^ min 20 (strikes - 1)))

/-- The end that a hit asks for, if it records one. -/
def rateLimitEnd (config : PauseConfig) (pauseKey : String) (now : Nat) (db : PauseDb) :
    Option Nat :=
  if pauseKey = "" ∨ config.rateLimitPauseMs = 0 ∨ pauseInForce db pauseKey now = true then none
  else some (now + strikePauseMs config (nextStrike db pauseKey config.longestPauseMs now))

def recordRateLimitPause (config : PauseConfig) (pauseKey reason : String) (now : Nat)
    (db : PauseDb) : PauseDb :=
  match rateLimitEnd config pauseKey now db with
  | none => db
  | some untilAt =>
    let strikes := nextStrike db pauseKey config.longestPauseMs now
    { db with
      pauseStrikes := upsert PauseStrikeRow.pauseKey ⟨pauseKey, strikes, now⟩
        (fun _ => ⟨pauseKey, strikes, now⟩) db.pauseStrikes
      cooldowns := storeCooldown ⟨pauseKey, untilAt, "provider_rate_limited", reason, now⟩
        db.cooldowns }

/-! ### Any order of calls -/

/-- A call of one of the two functions by some process. -/
inductive PauseEvent where
  | cooldown (call : CooldownCall) (called now : Nat)
  | rateLimit (config : PauseConfig) (pauseKey reason : String) (now : Nat)

namespace PauseEvent

def key : PauseEvent → String
  | cooldown call _ _ => call.providerKey
  | rateLimit _ pauseKey _ _ => pauseKey

/-- The time of the hit. -/
def now : PauseEvent → Nat
  | cooldown _ _ now => now
  | rateLimit _ _ _ now => now

/-- The longest pause that the call may record. -/
def boundMs : PauseEvent → Nat
  | cooldown .. => providerCooldownMaxMs
  | rateLimit config .. => min config.longestPauseMs providerCooldownMaxMs

def recordedEnd (db : PauseDb) : PauseEvent → Option Nat
  | cooldown call called now => cooldownEnd call called now
  | rateLimit config pauseKey _ now => rateLimitEnd config pauseKey now db

end PauseEvent

def pauseStep (db : PauseDb) : PauseEvent → PauseDb
  | .cooldown call called now => recordProviderCooldown call called now db
  | .rateLimit config pauseKey reason now => recordRateLimitPause config pauseKey reason now db

/-- The end that rows hold under a key. -/
def endIn (rows : List ProviderCooldownRow) (key : String) : Option Nat :=
  (lookup ProviderCooldownRow.providerKey key rows).map ProviderCooldownRow.untilAt

def storedEnd (db : PauseDb) (key : String) : Option Nat := endIn db.cooldowns key

/-- No stored end is moved earlier or removed. -/
def PausesKept (db db' : PauseDb) : Prop :=
  ∀ key ending, storedEnd db key = some ending →
    ∃ ending', storedEnd db' key = some ending' ∧ ending ≤ ending'

theorem PausesKept.trans {first second third : PauseDb} (h : PausesKept first second)
    (h' : PausesKept second third) : PausesKept first third := by
  intro key ending hending
  obtain ⟨middle, hmiddle, hle⟩ := h key ending hending
  obtain ⟨last, hlast, hle'⟩ := h' key middle hmiddle
  exact ⟨last, hlast, le_trans hle hle'⟩

/-- What one call does to the pauses. -/
structure PauseGrows (db : PauseDb) (event : PauseEvent) : Prop where
  kept : PausesKept db (pauseStep db event)
  noStrike : pauseInForce db event.key event.now = true →
    (pauseStep db event).pauseStrikes = db.pauseStrikes
  bounded : ∀ ending, event.recordedEnd db = some ending → ending ≤ event.now + event.boundMs
  recorded : ∀ key, storedEnd (pauseStep db event) key =
    if key = event.key then
      match event.recordedEnd db with
      | some ending => some (((storedEnd db key).map (max · ending)).getD ending)
      | none => storedEnd db key
    else storedEnd db key

/-! ### One call -/

theorem endIn_storeCooldown (row : ProviderCooldownRow) (rows : List ProviderCooldownRow)
    (key : String) :
    endIn (storeCooldown row rows) key =
      if key = row.providerKey then
        some (((endIn rows key).map (max · row.untilAt)).getD row.untilAt)
      else endIn rows key := by
  have hkey : ∀ stored : ProviderCooldownRow, stored.providerKey = row.providerKey →
      ({ row with untilAt := max stored.untilAt row.untilAt } : ProviderCooldownRow).providerKey =
        row.providerKey := fun _ _ => rfl
  unfold endIn storeCooldown
  split_ifs with hsame
  · subst hsame
    rw [lookup_upsert_self hkey, Option.map_some]
    cases lookup ProviderCooldownRow.providerKey row.providerKey rows <;> rfl
  · rw [lookup_upsert_other hkey hsame]

theorem CooldownCall.endAt_le (call : CooldownCall) (called now : Nat) :
    call.endAt called now ≤ now + providerCooldownMaxMs := by
  have hbounded : call.boundedMs called ≤ providerCooldownMaxMs := min_le_left _ _
  unfold CooldownCall.endAt
  split_ifs with hexact
  · omega
  · omega

theorem cooldownEnd_le {call : CooldownCall} {called now ending : Nat}
    (h : cooldownEnd call called now = some ending) : ending ≤ now + providerCooldownMaxMs := by
  have hle := call.endAt_le called now
  unfold cooldownEnd at h
  split_ifs at h
  cases h
  omega

theorem rateLimitEnd_le {config : PauseConfig} {pauseKey : String} {now ending : Nat}
    {db : PauseDb} (h : rateLimitEnd config pauseKey now db = some ending) :
    ending ≤ now + min config.longestPauseMs providerCooldownMaxMs := by
  unfold rateLimitEnd at h
  split at h
  · cases h
  · cases h
    apply Nat.add_le_add_left
    apply Nat.le_min.mpr
    constructor
    · exact Nat.min_le_left _ _
    · exact Nat.le_trans (Nat.min_le_right _ _) (Nat.min_le_left _ _)

variable (db : PauseDb) (event : PauseEvent) (events : List PauseEvent)

theorem storedEnd_pauseStep (key : String) :
    storedEnd (pauseStep db event) key =
      if key = event.key then
        match event.recordedEnd db with
        | some ending => some (((storedEnd db key).map (max · ending)).getD ending)
        | none => storedEnd db key
      else storedEnd db key := by
  cases event with
  | cooldown call called now =>
    simp only [pauseStep, recordProviderCooldown, PauseEvent.recordedEnd, PauseEvent.key]
    cases cooldownEnd call called now with
    | none => exact (ite_self _).symm
    | some ending => exact endIn_storeCooldown _ db.cooldowns key
  | rateLimit config pauseKey reason now =>
    simp only [pauseStep, recordRateLimitPause, PauseEvent.recordedEnd, PauseEvent.key]
    cases rateLimitEnd config pauseKey now db with
    | none => exact (ite_self _).symm
    | some ending => exact endIn_storeCooldown _ db.cooldowns key

theorem pauseStep_kept : PausesKept db (pauseStep db event) := by
  intro key ending hending
  rw [storedEnd_pauseStep, hending]
  split_ifs
  · cases event.recordedEnd db with
    | none => exact ⟨ending, rfl, le_refl _⟩
    | some recorded => exact ⟨max ending recorded, rfl, le_max_left _ _⟩
  · exact ⟨ending, rfl, le_refl _⟩

theorem pauseStep_grows : PauseGrows db event where
  kept := pauseStep_kept db event
  noStrike := by
    intro hforce
    cases event with
    | cooldown call called now =>
      simp only [pauseStep, recordProviderCooldown]
      cases cooldownEnd call called now <;> rfl
    | rateLimit config pauseKey reason now =>
      have hnone : rateLimitEnd config pauseKey now db = none :=
        if_pos (.inr (.inr hforce))
      simp only [pauseStep, recordRateLimitPause, hnone]
  bounded := by
    intro ending hending
    cases event with
    | cooldown call called now => exact cooldownEnd_le hending
    | rateLimit config pauseKey reason now => exact rateLimitEnd_le hending
  recorded := storedEnd_pauseStep db event

/-! ### Every run -/

/-- The end was stored before the run, or a call of the run recorded it within its bound. -/
def EndAccounted (db : PauseDb) (events : List PauseEvent) (key : String) (ending : Nat) : Prop :=
  storedEnd db key = some ending ∨
    ∃ event ∈ events, event.key = key ∧ ending ≤ event.now + event.boundMs

theorem run_kept : PausesKept db (run pauseStep db events) := by
  induction events generalizing db with
  | nil =>
    intro key ending hending
    exact ⟨ending, hending, le_refl _⟩
  | cons event events ih => exact (pauseStep_kept db event).trans (ih (pauseStep db event))

theorem run_accounted {key : String} {ending : Nat}
    (h : storedEnd (run pauseStep db events) key = some ending) :
    EndAccounted db events key ending := by
  induction events generalizing db with
  | nil => exact .inl h
  | cons event events ih =>
    cases ih (pauseStep db event) h with
    | inr hlater =>
      obtain ⟨later, hmem, hbound⟩ := hlater
      exact .inr ⟨later, List.mem_cons_of_mem _ hmem, hbound⟩
    | inl hstored =>
      rw [storedEnd_pauseStep] at hstored
      split_ifs at hstored with hkey
      · cases hrecorded : event.recordedEnd db with
        | none =>
          rw [hrecorded] at hstored
          exact .inl hstored
        | some recorded =>
          have hbound := (pauseStep_grows db event).bounded recorded hrecorded
          rw [hrecorded, Option.some.injEq] at hstored
          cases hold : storedEnd db key with
          | none =>
            rw [hold] at hstored
            exact .inr ⟨event, List.mem_cons_self, hkey.symm, hstored ▸ hbound⟩
          | some old =>
            rw [hold, Option.map_some, Option.getD_some] at hstored
            obtain hle | hle := le_total recorded old
            · rw [max_eq_left hle] at hstored
              exact .inl (by rw [hold, hstored])
            · rw [max_eq_right hle] at hstored
              exact .inr ⟨event, List.mem_cons_self, hkey.symm, hstored ▸ hbound⟩
      · exact .inl hstored

/-- In every run of the two functions, from any content of the database, each call keeps every
stored end, adds no strike while a pause of its key runs and records an end within its bound;
what is stored after the run was stored before or is within the bound of one of its calls. -/
theorem pauses_only_grow :
    Along pauseStep PauseGrows db events ∧
      PausesKept db (run pauseStep db events) ∧
      ∀ key ending, storedEnd (run pauseStep db events) key = some ending →
        EndAccounted db events key ending := by
  refine ⟨?_, run_kept db events, fun key ending h => run_accounted db events h⟩
  induction events generalizing db with
  | nil => trivial
  | cons event events ih => exact ⟨pauseStep_grows db event, ih (pauseStep db event)⟩

/-- A process whose first pause is longer than the maximum it is given. -/
def longFirstPause : PauseConfig := ⟨7200000, 3600000⟩

/-- The first hit pauses its key for two hours where the maximum is one. -/
theorem first_pause_exceeds_maximum :
    (PauseEvent.rateLimit longFirstPause "account:openai/model" "" 0).recordedEnd PauseDb.empty =
        some 7200000 ∧
      ¬ 7200000 ≤ 0 + min longFirstPause.rateLimitPauseMaxMs providerCooldownMaxMs := by
  decide

end AgentBridge.Providers
