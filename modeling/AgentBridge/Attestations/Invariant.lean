import AgentBridge.Attestations.Cache
import AgentBridge.Systems.Past

/-!
# Where the values of the attestation cache come from

Every entry in a memory or in the table was made by an operation whose inputs had the
fingerprint of the cache key before it started and again after it ended. Each step keeps
this, and with it what a lookup under way knows of its own entry and what those that have
joined it wait for.
-/

namespace AgentBridge.Attestations

open Systems List Function Option

variable {Value : Type} [DecidableEq Value] (host : CacheHost)

/-! ### Where a value comes from -/

/-- The inputs of the call had its fingerprint at a moment before which the call was not past its
entry, so before its operation. -/
def SeenBefore (c : Nat) (call : Call Value) : List (CacheEvent Value) → Prop :=
  Past fun entered =>
    (∃ earlier, (after host entered).calls[c]? = some earlier ∧ earlier.phase = .entering) ∧
    Past (fun seen => (after host seen).inputs call.process (call.scopeKey host)
      = some call.input) entered

/-- An operation under the cache key returned the entry, its inputs had the fingerprint before it
started, and had it again when they were checked, between its end and its publication. -/
def Produced (cacheKey : CacheKey) (entry : Entry Value) : List (CacheEvent Value) → Prop :=
  Past fun checked => ∃ producer call,
    (after host checked).calls[producer]? = some call ∧
    call.cacheKey host = cacheKey ∧
    call.result = some entry ∧
    call.phase = .checking entry ∧
    (after host checked).inputs call.process (call.scopeKey host) = some call.input ∧
    SeenBefore host producer call checked

/-- The answer is a value of the cache, accepted and young when it was read. -/
def FromCache (call : Call Value) (answer : Attestation Value)
    (events : List (CacheEvent Value)) : Prop :=
  ∃ attestedAt readAt source, answer.stamp = some (attestedAt, source) ∧
    (source = .shared readAt ∨ source = .thisProcess readAt) ∧
    readAt - attestedAt < call.ageLimit ∧
    call.cacheable answer.value = true ∧
    Produced host (call.cacheKey host) ⟨answer.value, attestedAt⟩ events

/-- The answer is what the operation of the call returned. -/
def Own (call : Call Value) (answer : Attestation Value) : Prop :=
  ∃ attestedAt, call.result = some ⟨answer.value, attestedAt⟩

/-! ### The invariant -/

namespace CallPhase

/-- The call makes a lookup that others may join. -/
def underway : CallPhase Value → Bool
  | .seeking | .claiming | .verifying | .operating .changed | .operating .fallback
  | .operating .claimed | .revoking _ | .checking _ | .publishing _ | .releasing _ => true
  | _ => false

def settled : CallPhase Value → Bool
  | .answered _ | .rejected | .gone => true
  | _ => false

/-- The entry that a claimed lookup has in hand. -/
def entry : CallPhase Value → Option (Entry Value)
  | .revoking entry | .checking entry | .publishing entry => some entry
  | .releasing outcome => outcome
  | _ => none

end CallPhase

structure CallInvariant (events : List (CacheEvent Value)) (promises : List FingerprintPromise)
    (c : Nat) (call : Call Value) : Prop where
  promised : call.phase = .entering → ∃ promise, promises[call.promise]? = some promise ∧
    promise.process = call.process ∧ promise.scopeKey = call.scopeKey host
  seen : call.phase.underway = true → SeenBefore host c call events
  returned : ∀ entry, call.phase.entry = some entry → call.result = some entry
  checked : ∀ entry, call.phase = .publishing entry →
    Produced host (call.cacheKey host) entry events
  alone : call.joined ≠ none → call.phase = .joining ∨ call.phase.settled = true
  answered : ∀ answer, call.phase = .answered answer → call.joined = none →
    Own call answer ∨ FromCache host call answer events

/-- What the lookup of one call tells about a call that has joined it. -/
structure Leads (call lead : Call Value) : Prop where
  process : lead.process = call.process
  flightKey : lead.flightKey host = call.flightKey host
  first : lead.joined = none
  leads : lead.phase.underway = true ∨ lead.phase.settled = true
  underway : call.phase = .joining → lead.phase.underway = true
  answered : ∀ answer, call.phase = .answered answer → lead.phase = .answered answer

structure CacheInvariant (events : List (CacheEvent Value)) (s : CacheState Value) : Prop where
  promises : ∀ promise ∈ s.promises, ∀ input, promise.read = .settled (some input) →
    Past (fun seen => (after host seen).inputs promise.process promise.scopeKey = some input)
      events
  scopes : ∀ process scope, ∀ input ∈ (s.scopes process scope).inputs,
    ∃ promise, s.promises[input.2]? = some promise ∧ promise.process = process ∧
      promise.scopeKey = input.1.2
  calls : ∀ c call, s.calls[c]? = some call → CallInvariant host events s.promises c call
  joined : ∀ (c : Nat) call leader, s.calls[c]? = some call → call.joined = some leader →
    ∃ lead, s.calls[leader]? = some lead ∧ Leads host call lead
  flights : ∀ process, ∀ flight ∈ (s.memory process).flights,
    ∃ lead, s.calls[flight.2]? = some lead ∧ lead.process = process ∧
      lead.flightKey host = flight.1 ∧ lead.joined = none ∧ lead.phase.underway = true
  memory : ∀ process, ∀ held ∈ (s.memory process).memory, Produced host held.1 held.2 events
  entries : ∀ stateDirectory, ∀ row ∈ (s.db stateDirectory).entries,
    Produced host row.cacheKey ⟨row.payloadSha256, row.attestedAt⟩ events

variable {host} {events : List (CacheEvent Value)} {s : CacheState Value} {c : Nat}
  {call old : Call Value}

variable {entry : Entry Value}

theorem Produced.append {cacheKey : CacheKey} (h : Produced host cacheKey entry events)
    (later : List (CacheEvent Value)) : Produced host cacheKey entry (events ++ later) :=
  Past.append h later

variable {promises : List FingerprintPromise}

theorem CallInvariant.append (h : CallInvariant host events promises c call)
    (later : List (CacheEvent Value)) : CallInvariant host (events ++ later) promises c call where
  promised := h.promised
  seen hphase := (h.seen hphase).append later
  returned := h.returned
  checked entry hphase := (h.checked entry hphase).append later
  alone := h.alone
  answered := by
    intro answer hphase hjoined
    cases h.answered answer hphase hjoined with
    | inl hown => exact .inl hown
    | inr hcache =>
      obtain ⟨attestedAt, readAt, source, hstamp, hsource, hage, haccepted, hproduced⟩ := hcache
      exact .inr ⟨attestedAt, readAt, source, hstamp, hsource, hage, haccepted,
        hproduced.append later⟩

/-- The invariant outlasts whatever comes next, as far as the state stays. -/
theorem CacheInvariant.append (h : CacheInvariant host events s)
    (later : List (CacheEvent Value)) : CacheInvariant host (events ++ later) s where
  promises promise hpromise input hread := (h.promises promise hpromise input hread).append later
  scopes := h.scopes
  calls c call hcall := (h.calls c call hcall).append later
  joined := h.joined
  flights := h.flights
  memory process held hheld := (h.memory process held hheld).append later
  entries stateDirectory row hrow := (h.entries stateDirectory row hrow).append later

/-! ### What keeps the invariant -/

theorem CacheInvariant.setDb (h : CacheInvariant host events s) {stateDirectory : String}
    {db : CacheDb Value}
    (hentries : ∀ row ∈ db.entries,
      Produced host row.cacheKey ⟨row.payloadSha256, row.attestedAt⟩ events) :
    CacheInvariant host events (s.setDb stateDirectory db) where
  promises := h.promises
  scopes := h.scopes
  calls := h.calls
  joined := h.joined
  flights := h.flights
  memory := h.memory
  entries := by
    intro other row hrow
    by_cases heq : other = stateDirectory
    · subst heq
      simp only [CacheState.setDb, update_self] at hrow
      exact hentries row hrow
    · simp only [CacheState.setDb, update_of_ne heq] at hrow
      exact h.entries other row hrow

variable {process : Nat}

theorem CacheInvariant.setMemory (h : CacheInvariant host events s) {memory : CacheMemory Value}
    (hflights : ∀ flight ∈ memory.flights, ∃ lead, s.calls[flight.2]? = some lead ∧
      lead.process = process ∧ lead.flightKey host = flight.1 ∧ lead.joined = none ∧
      lead.phase.underway = true)
    (hmemory : ∀ held ∈ memory.memory, Produced host held.1 held.2 events) :
    CacheInvariant host events (s.setMemory process memory) where
  promises := h.promises
  scopes := h.scopes
  calls := h.calls
  joined := h.joined
  flights := by
    intro other flight hflight
    by_cases heq : other = process
    · subst heq
      simp only [CacheState.setMemory, update_self] at hflight
      exact hflights flight hflight
    · simp only [CacheState.setMemory, update_of_ne heq] at hflight
      exact h.flights other flight hflight
  memory := by
    intro other held hheld
    by_cases heq : other = process
    · subst heq
      simp only [CacheState.setMemory, update_self] at hheld
      exact hmemory held hheld
    · simp only [CacheState.setMemory, update_of_ne heq] at hheld
      exact h.memory other held hheld
  entries := h.entries

theorem CacheInvariant.setScope (h : CacheInvariant host events s) {scope : Nat}
    {shared : FingerprintScope}
    (hinputs : ∀ input ∈ shared.inputs, ∃ promise, s.promises[input.2]? = some promise ∧
      promise.process = process ∧ promise.scopeKey = input.1.2) :
    CacheInvariant host events (s.setScope process scope shared) where
  promises := h.promises
  scopes := by
    intro process' scope' input hinput
    by_cases hprocess : process' = process
    · subst hprocess
      by_cases hscope : scope' = scope
      · subst hscope
        simp only [CacheState.setScope, update_self] at hinput
        exact hinputs input hinput
      · simp only [CacheState.setScope, update_self, update_of_ne hscope]
          at hinput
        exact h.scopes process' scope' input hinput
    · simp only [CacheState.setScope, update_of_ne hprocess] at hinput
      exact h.scopes process' scope' input hinput
  calls := h.calls
  joined := h.joined
  flights := h.flights
  memory := h.memory
  entries := h.entries

theorem CacheInvariant.finishScope (h : CacheInvariant host events s) (process : Nat)
    (scope : Option Nat) : CacheInvariant host events (s.finishScope process scope) := by
  cases scope with
  | none => exact h
  | some scope => exact h.setScope fun input hinput => absurd hinput (not_mem_nil)

omit [DecidableEq Value] in
theorem calls_setCall (hold : s.calls[c]? = some old) (d : Nat) :
    (s.setCall c call).calls[d]? = if d = c then some call else s.calls[d]? := by
  obtain ⟨hc, -⟩ := List.getElem?_eq_some_iff.mp hold
  rw [CacheState.setCall, List.getElem?_set]
  by_cases heq : d = c
  · simp [heq, hc]
  · simp [heq, Ne.symm heq]

/-- A call goes on: a lookup that others may have joined stays one. -/
theorem CacheInvariant.setCall (h : CacheInvariant host events s)
    (hold : s.calls[c]? = some old) (hopen : old.phase.settled = false)
    (hcall : CallInvariant host events s.promises c call)
    (hlead : old.phase.underway = true → call.process = old.process ∧
      call.flightKey host = old.flightKey host ∧ call.joined = none ∧
      call.phase.underway = true)
    (hjoined : ∀ leader, call.joined = some leader →
      leader ≠ c ∧ ∃ lead, s.calls[leader]? = some lead ∧ Leads host call lead) :
    CacheInvariant host events (s.setCall c call) where
  promises := h.promises
  scopes := h.scopes
  calls := by
    intro d other hother
    rw [calls_setCall hold] at hother
    split at hother
    · next heq =>
      subst heq
      cases hother
      exact hcall
    · exact h.calls d other hother
  joined := by
    intro d other leader hother hleader
    rw [calls_setCall hold] at hother
    split at hother
    · cases hother
      obtain ⟨hne, lead, hfound, hleads⟩ := hjoined leader hleader
      exact ⟨lead, by rw [calls_setCall hold, if_neg hne]; exact hfound, hleads⟩
    · obtain ⟨lead, hfound, hleads⟩ := h.joined d other leader hother hleader
      by_cases heq : leader = c
      · subst heq
        rw [hold] at hfound
        cases hfound
        have hunderway : old.phase.underway = true := by
          cases hleads.leads with
          | inl h => exact h
          | inr h => rw [hopen] at h; cases h
        obtain ⟨hprocess, hkey, hfirst, hstill⟩ := hlead hunderway
        refine ⟨call, by rw [calls_setCall hold, if_pos rfl], ?_⟩
        refine ⟨hprocess.trans hleads.process, hkey.trans hleads.flightKey, hfirst, .inl hstill,
          fun _ => hstill, ?_⟩
        intro answer hanswer
        have hover := hleads.answered answer hanswer
        rw [hover] at hopen
        cases hopen
      · exact ⟨lead, by rw [calls_setCall hold, if_neg heq]; exact hfound, hleads⟩
  flights := by
    intro process flight hflight
    obtain ⟨lead, hfound, hprocess, hkey, hfirst, hunderway⟩ := h.flights process flight hflight
    rw [calls_setCall hold]
    by_cases heq : flight.2 = c
    · rw [heq, hold] at hfound
      cases hfound
      obtain ⟨hprocess', hkey', hfirst', hunderway'⟩ := hlead hunderway
      exact ⟨call, if_pos heq, hprocess'.trans hprocess, hkey'.trans hkey, hfirst', hunderway'⟩
    · exact ⟨lead, by rw [if_neg heq]; exact hfound, hprocess, hkey, hfirst, hunderway⟩
  memory := h.memory
  entries := h.entries

/-- What the end of the lookup `c` makes of another call. -/
def settleJoined (c : Nat) (phase : CallPhase Value) (other : Call Value) : Call Value :=
  if CacheState.isJoining other && other.joined = some c then { other with phase := phase }
  else other

variable {phase : CallPhase Value}

omit [DecidableEq Value] in
theorem settleJoined_of_first (h : call.joined = none) : settleJoined c phase call = call := by
  simp [settleJoined, h]

omit [DecidableEq Value] in
theorem calls_settle (hold : s.calls[c]? = some old) (hfirst : call.joined = none) (d : Nat) :
    (s.settle c call phase).calls[d]? = if d = c then some { call with db := false, phase := phase }
      else (s.calls[d]?).map (settleJoined c phase) := by
  obtain ⟨hc, -⟩ := List.getElem?_eq_some_iff.mp hold
  show ((s.calls.set c { call with db := false, phase := phase }).map
    (settleJoined c phase))[d]? = _
  rw [List.getElem?_map, List.getElem?_set]
  by_cases heq : d = c
  · have hsame : settleJoined c phase { call with db := false, phase := phase }
        = { call with db := false, phase := phase } := settleJoined_of_first hfirst
    simp [heq, hc, hsame]
  · simp [heq, Ne.symm heq]

omit [DecidableEq Value] in
theorem CallPhase.not_underway_of_over (h : phase.settled = true) :
    phase.underway = false ∧ phase.entry = none ∧ phase ≠ .entering ∧ phase ≠ .joining ∧
      ∀ entry, phase ≠ .publishing entry := by
  cases phase with
  | answered | rejected | gone =>
    exact ⟨rfl, rfl, nofun, nofun, nofun⟩
  | entering | joining | seeking | claiming | verifying | operating | revoking | checking
  | publishing | releasing => cases h

theorem CallInvariant.of_over (h : call.phase.settled = true)
    (hanswered : ∀ answer, call.phase = .answered answer → call.joined = none →
      Own call answer ∨ FromCache host call answer events) :
    CallInvariant host events promises c call := by
  obtain ⟨hunderway, hentry, hentering, -, hpublishing⟩ := CallPhase.not_underway_of_over h
  refine ⟨fun hphase => absurd hphase hentering, ?_, ?_, ?_, fun _ => .inr h, hanswered⟩
  · intro hphase
    rw [hunderway] at hphase
    cases hphase
  · intro entry hphase
    rw [hentry] at hphase
    cases hphase
  · intro entry hphase
    exact absurd hphase (hpublishing entry)

/-- A lookup ends, for its call and for those that have joined it. -/
theorem CacheInvariant.settle (h : CacheInvariant host events s) (hold : s.calls[c]? = some old)
    (hopen : old.phase.settled = false) (hphase : phase.settled = true)
    (hprocess : call.process = old.process)
    (hkey : old.phase.underway = true → call.flightKey host = old.flightKey host)
    (hfirst : call.joined = none) (hanswered : ∀ answer, phase = .answered answer →
      Own call answer ∨ FromCache host call answer events) :
    CacheInvariant host events (s.settle c call phase) where
  promises := h.promises
  scopes := h.scopes
  calls := by
    intro d other hother
    rw [calls_settle hold hfirst] at hother
    split at hother
    · cases hother
      exact .of_over hphase fun answer hanswer _ => hanswered answer hanswer
    · obtain ⟨before, hbefore, rfl⟩ := map_eq_some_iff.mp hother
      rw [settleJoined]
      split
      · next hjoining =>
        refine .of_over hphase fun answer _ hnone => ?_
        simp only [Bool.and_eq_true, decide_eq_true_eq] at hjoining
        rw [hjoining.2] at hnone
        cases hnone
      · exact h.calls d before hbefore
  joined := by
    intro d other leader hother hleader
    rw [calls_settle hold hfirst] at hother
    split at hother
    · cases hother
      rw [show call.joined = some leader from hleader] at hfirst
      cases hfirst
    · next hne =>
      obtain ⟨before, hbefore, rfl⟩ := map_eq_some_iff.mp hother
      have hsame : before.joined = some leader := by
        rw [settleJoined] at hleader
        split at hleader
        · exact hleader
        · exact hleader
      obtain ⟨lead, hfound, hleads⟩ := h.joined d before leader hbefore hsame
      by_cases heq : leader = c
      · subst heq
        rw [hold] at hfound
        cases hfound
        have hunderway : old.phase.underway = true := by
          cases hleads.leads with
          | inl h => exact h
          | inr h => rw [hopen] at h; cases h
        refine ⟨{ call with db := false, phase := phase },
          by rw [calls_settle hold hfirst, if_pos rfl], ?_⟩
        rw [settleJoined]
        split
        · refine ⟨hprocess.trans hleads.process, (hkey hunderway).trans hleads.flightKey, hfirst,
            .inr hphase, ?_, fun _ hanswer => hanswer⟩
          intro hjoining
          exact absurd hjoining (CallPhase.not_underway_of_over hphase).2.2.2.1
        · next hnot =>
          refine ⟨hprocess.trans hleads.process, (hkey hunderway).trans hleads.flightKey, hfirst,
            .inr hphase, ?_, ?_⟩
          · intro hjoining
            simp [CacheState.isJoining, hjoining, hsame] at hnot
          · intro answer hanswer
            have hover := hleads.answered answer hanswer
            rw [hover] at hopen
            cases hopen
      · have hkept : settleJoined c phase before = before := by
          rw [settleJoined, if_neg]
          simp only [hsame, Option.some.injEq, Bool.and_eq_true, decide_eq_true_eq, not_and]
          exact fun _ => heq
        refine ⟨lead, ?_, by rw [hkept]; exact hleads⟩
        rw [calls_settle hold hfirst, if_neg heq, hfound]
        exact congrArg some (settleJoined_of_first hleads.first)
  flights := by
    intro process flight hflight
    have hother : flight ∈ (s.memory process).flights ∧ (process = call.process → flight.2 ≠ c) := by
      by_cases heq : process = call.process
      · subst heq
        simp only [CacheState.settle, CacheState.setMemory, update_self] at hflight
        obtain ⟨hmem, hne⟩ := mem_filter.mp hflight
        exact ⟨hmem, fun _ => by simpa using hne⟩
      · simp only [CacheState.settle, CacheState.setMemory, update_of_ne heq] at hflight
        exact ⟨hflight, fun h => absurd h heq⟩
    obtain ⟨lead, hfound, hlead, hkey, hnone, hunderway⟩ := h.flights process flight hother.1
    have hne : flight.2 ≠ c := by
      intro heq
      rw [heq, hold] at hfound
      cases hfound
      exact hother.2 (hlead.symm.trans hprocess.symm) heq
    refine ⟨lead, ?_, hlead, hkey, hnone, hunderway⟩
    rw [calls_settle hold hfirst, if_neg hne, hfound]
    exact congrArg some (settleJoined_of_first hnone)
  memory := by
    intro process held hheld
    by_cases heq : process = call.process
    · subst heq
      simp only [CacheState.settle, CacheState.setMemory, update_self] at hheld
      exact h.memory _ held hheld
    · simp only [CacheState.settle, CacheState.setMemory, update_of_ne heq] at hheld
      exact h.memory process held hheld
  entries := h.entries

/-! ### A lookup under way -/

structure SameLookup (old call : Call Value) : Prop where
  process : call.process = old.process
  key : call.key = old.key
  input : call.input = old.input
  ageLimit : call.ageLimit = old.ageLimit
  joined : call.joined = old.joined

section

variable (same : SameLookup old call)

include same

omit [DecidableEq Value] in
theorem SameLookup.cacheKey : call.cacheKey host = old.cacheKey host := by
  rw [Call.cacheKey, Call.cacheKey, same.process, same.key, same.input]

omit [DecidableEq Value] in
theorem SameLookup.flightKey : call.flightKey host = old.flightKey host := by
  rw [Call.flightKey, Call.flightKey, same.cacheKey, same.ageLimit]

theorem SameLookup.seen (h : SeenBefore host c old events) : SeenBefore host c call events := by
  rw [SeenBefore, Call.scopeKey, same.process, same.key, same.input]
  exact h

end

omit [DecidableEq Value] in
theorem not_over_of_underway (h : phase.underway = true) : phase.settled = false := by
  by_contra hover
  have hnot := (CallPhase.not_underway_of_over (by simpa using hover)).1
  rw [h] at hnot
  cases hnot

/-- A lookup under way has joined no other. -/
theorem CallInvariant.first (h : CallInvariant host events promises c call)
    (hunderway : call.phase.underway = true) : call.joined = none := by
  by_contra hjoined
  cases h.alone hjoined with
  | inl hjoining => rw [hjoining] at hunderway; cases hunderway
  | inr hover => rw [not_over_of_underway hunderway] at hover; cases hover

section

variable (h : CacheInvariant host events s) (hold : s.calls[c]? = some old)
  (hunderway : old.phase.underway = true) (same : SameLookup old call)

include h hold hunderway same

theorem CacheInvariant.goesOn (hphase : call.phase.underway = true)
    (hreturned : ∀ entry, call.phase.entry = some entry → call.result = some entry)
    (hchecked : ∀ entry, call.phase = .publishing entry →
      Produced host (call.cacheKey host) entry events) :
    CacheInvariant host events (s.setCall c call) := by
  have hinvariant := h.calls c old hold
  have hfirst : call.joined = none := same.joined.trans (hinvariant.first hunderway)
  refine h.setCall hold (not_over_of_underway hunderway) ?_
    (fun _ => ⟨same.process, same.flightKey, hfirst, hphase⟩) ?_
  · refine ⟨?_, fun _ => same.seen (hinvariant.seen hunderway), hreturned, hchecked, ?_, ?_⟩
    · intro hentering
      rw [hentering] at hphase
      cases hphase
    · intro hjoined
      exact absurd hfirst hjoined
    · intro answer hanswer
      rw [hanswer] at hphase
      cases hphase
  · intro leader hleader
    rw [hfirst] at hleader
    cases hleader

theorem CacheInvariant.ends (hphase : phase.settled = true)
    (hanswered : ∀ answer, phase = .answered answer →
      Own call answer ∨ FromCache host call answer events) :
    CacheInvariant host events (s.settle c call phase) :=
  h.settle hold (not_over_of_underway hunderway) hphase same.process (fun _ => same.flightKey)
    (same.joined.trans ((h.calls c old hold).first hunderway)) hanswered

/-- A lookup runs its operation. -/
theorem CacheInvariant.starts {purpose : OperationPurpose}
    (hpurpose : (.operating purpose : CallPhase Value).underway = true) :
    CacheInvariant host events (s.startOperation c call purpose) := by
  have hscope : (s.finishScope call.process call.scope).calls[c]? = some old := by
    cases call.scope with
    | none => exact hold
    | some scope => exact hold
  exact (h.finishScope call.process call.scope).goesOn hscope hunderway
    ⟨same.process, same.key, same.input, same.ageLimit, same.joined⟩ hpurpose nofun nofun

theorem CacheInvariant.fails (retried : Bool) :
    CacheInvariant host events (s.fails c call retried) := by
  rw [CacheState.fails]
  split
  · exact h.goesOn hold hunderway
      ⟨same.process, same.key, same.input, same.ageLimit, same.joined⟩ rfl nofun nofun
  · exact h.starts hold hunderway same rfl

end

variable {clock : CacheClock}

omit [DecidableEq Value] in
theorem mem_remember {memoryLimit : Nat} {cacheKey : CacheKey}
    {memory : List (CacheKey × Entry Value)} {held : CacheKey × Entry Value}
    (h : held ∈ remember memoryLimit clock cacheKey entry memory) :
    held = (cacheKey, entry) ∨ held ∈ memory := by
  have hkept := mem_of_mem_drop h
  cases mem_append.mp hkept with
  | inl hold => exact .inr (mem_of_mem_filter (mem_of_mem_filter hold))
  | inr hnew => exact .inl (mem_singleton.mp hnew)

theorem CacheInvariant.rememberFor (h : CacheInvariant host events s)
    (hentry : Produced host (call.cacheKey host) entry events) :
    CacheInvariant host events (s.rememberFor host clock call entry) := by
  refine h.setMemory (h.flights call.process) ?_
  intro held hheld
  cases mem_remember hheld with
  | inl hnew => rw [hnew]; exact hentry
  | inr hmem => exact h.memory call.process held hmem

theorem CacheInvariant.forget (h : CacheInvariant host events s) (call : Call Value) :
    CacheInvariant host events (s.forget host call) := by
  refine h.setMemory (h.flights call.process) ?_
  intro held hheld
  exact h.memory call.process held (mem_of_mem_filter hheld)

theorem CacheInvariant.setDbOf (h : CacheInvariant host events s) {call : Call Value}
    {db : CacheDb Value}
    (hentries : ∀ row ∈ db.entries, row ∈ (s.dbOf host call).entries ∨
      Produced host row.cacheKey ⟨row.payloadSha256, row.attestedAt⟩ events) :
    CacheInvariant host events (s.setDbOf host call db) := by
  refine h.setDb ?_
  intro row hrow
  cases hentries row hrow with
  | inl hkept => exact h.entries _ row hkept
  | inr hnew => exact hnew

theorem CacheInvariant.invalidate (h : CacheInvariant host events s) (call : Call Value) :
    CacheInvariant host events (invalidate host s call) := by
  rw [Attestations.invalidate]
  dsimp only
  split
  · have hdb : CacheInvariant host events (s.setDbOf host call
        (deleteEntries (fun row => row.buildNamespace
          = (host.process call.process).buildNamespace) (s.dbOf host call))) :=
      h.setDbOf fun row hrow => .inl (mem_of_mem_filter hrow)
    exact hdb.setMemory (h.flights call.process) (h.memory call.process)
  · exact h

theorem readFor_eq_some (hread : readFor host s call clock = some entry) :
    (∃ row ∈ (s.dbOf host call).entries, row.cacheKey = call.cacheKey host ∧
      row.payloadSha256 = entry.value ∧ row.attestedAt = entry.attestedAt) ∧
    clock.now - entry.attestedAt < call.ageLimit ∧ call.cacheable entry.value = true := by
  obtain ⟨row, hfound, hrow⟩ := bind_eq_some_iff.mp hread
  have hmem := mem_of_find?_eq_some hfound
  have hkey := List.find?_some hfound
  simp only [Bool.and_eq_true, decide_eq_true_eq] at hkey
  split at hrow
  · cases hrow
  next hage =>
  split at hrow
  · cases hrow
  next hintact =>
  split at hrow
  next haccepted =>
    cases hrow
    simp only [Bool.or_eq_true, decide_eq_true_eq, not_or, Int.not_le] at hage
    exact ⟨⟨row, hmem, hkey.1, (not_not.mp hintact).symm, rfl⟩, hage.1.2, haccepted⟩
  · cases hrow

/-! ### The steps of a lookup -/

section

variable (h : CacheInvariant host events s) (hold : s.calls[c]? = some call)

include h hold

theorem CacheInvariant.openDb (retried : Option Bool) :
    CacheInvariant host events (openDb host s c call retried) := by
  have hinvariant := h.calls c call hold
  have hreturned := hinvariant.returned
  have hchecked := hinvariant.checked
  have hopened : (Attestations.invalidate host s call).calls[c]? = some call := by
    rw [Attestations.invalidate]
    dsimp only
    split <;> exact hold
  unfold Attestations.openDb
  split
  case h_1 | h_2 | h_3 | h_4 =>
    next hphase =>
    refine (h.invalidate call).goesOn hopened (by rw [hphase]; rfl) ⟨rfl, rfl, rfl, rfl, rfl⟩
      (by rw [hphase]; rfl) hreturned hchecked
  case h_5 =>
    next hphase =>
    exact h.fails hold (by rw [hphase]; rfl) ⟨rfl, rfl, rfl, rfl, rfl⟩ _
  case h_6 | h_7 =>
    next hphase =>
    refine h.goesOn hold (by rw [hphase]; rfl) ⟨rfl, rfl, rfl, rfl, rfl⟩ rfl ?_ nofun
    intro entry hentry
    exact hreturned entry (by rw [hphase]; exact hentry)
  case h_8 =>
    next outcome _ hphase =>
    rw [hphase] at hreturned
    cases outcome with
    | none => exact h.ends hold (by rw [hphase]; rfl) ⟨rfl, rfl, rfl, rfl, rfl⟩ rfl nofun
    | some entry =>
      refine h.ends hold (by rw [hphase]; rfl) ⟨rfl, rfl, rfl, rfl, rfl⟩ rfl ?_
      intro answer hanswer
      cases hanswer
      exact .inl ⟨entry.attestedAt, hreturned entry rfl⟩
  case h_9 => exact h

theorem CacheInvariant.look (clock : CacheClock) (retried : Option Bool) :
    CacheInvariant host events (look host s c call clock retried) := by
  unfold Attestations.look
  split
  case h_1 =>
    next hphase _ =>
    exact h.fails hold (by rw [hphase]; rfl) ⟨rfl, rfl, rfl, rfl, rfl⟩ _
  case h_2 =>
    next hphase _ =>
    have hunderway : call.phase.underway = true := by rw [hphase]; rfl
    split
    · exact h.goesOn hold hunderway ⟨rfl, rfl, rfl, rfl, rfl⟩ rfl nofun nofun
    next entry hread =>
      split
      · obtain ⟨⟨row, hrow, hkey, hvalue, hat⟩, hage, haccepted⟩ := readFor_eq_some hread
        have hproduced := h.entries _ row hrow
        rw [hkey, hvalue, hat] at hproduced
        refine (h.rememberFor hproduced).ends hold hunderway ⟨rfl, rfl, rfl, rfl, rfl⟩ rfl ?_
        intro answer hanswer
        cases hanswer
        exact .inr ⟨entry.attestedAt, clock.now, .shared clock.now, rfl, .inl rfl, hage, haccepted,
          hproduced⟩
      · exact h.goesOn hold hunderway ⟨rfl, rfl, rfl, rfl, rfl⟩ rfl nofun nofun
  case h_3 => exact h

theorem CacheInvariant.claim (clock : CacheClock) (alive : Bool) (ending : TransactionEnd)
    (retried : Bool) :
    CacheInvariant host events (claim host s c call clock alive ending retried) := by
  unfold Attestations.claim
  split
  case h_1 =>
    next hphase =>
    exact h.fails hold (by rw [hphase]; rfl) ⟨rfl, rfl, rfl, rfl, rfl⟩ _
  case h_2 =>
    next hphase _ =>
    have hunderway : call.phase.underway = true := by rw [hphase]; rfl
    have hclaimed : CacheInvariant host events (s.setDbOf host call
        (putFlight (flightOf host c call clock) (s.dbOf host call))) :=
      h.setDbOf fun _ hrow => .inl hrow
    split
    · dsimp only
      split
      · exact h.goesOn hold hunderway ⟨rfl, rfl, rfl, rfl, rfl⟩ rfl nofun nofun
      · refine h.fails hold hunderway ?_ retried
        exact ⟨rfl, rfl, rfl, rfl, rfl⟩
    · split
      · dsimp only
        split
        · exact hclaimed.starts hold hunderway ⟨rfl, rfl, rfl, rfl, rfl⟩ rfl
        · split
          · exact hclaimed.fails hold hunderway ⟨rfl, rfl, rfl, rfl, rfl⟩ _
          · exact h.fails hold hunderway ⟨rfl, rfl, rfl, rfl, rfl⟩ _
      · split
        · exact h.fails hold hunderway ⟨rfl, rfl, rfl, rfl, rfl⟩ _
        · split <;> exact h.goesOn hold hunderway ⟨rfl, rfl, rfl, rfl, rfl⟩ rfl nofun nofun
  case h_3 => exact h

theorem CacheInvariant.verify (rejects : Bool) :
    CacheInvariant host events (verify host s c call rejects) := by
  unfold Attestations.verify
  split
  case h_1 =>
    next hphase =>
    have hunderway : call.phase.underway = true := by rw [hphase]; rfl
    split
    · exact h.starts hold hunderway ⟨rfl, rfl, rfl, rfl, rfl⟩ rfl
    · split
      · exact h.goesOn hold hunderway ⟨rfl, rfl, rfl, rfl, rfl⟩ rfl nofun nofun
      · exact h.starts hold hunderway ⟨rfl, rfl, rfl, rfl, rfl⟩ rfl
  case h_2 => exact h

theorem first_of_operating {purpose : OperationPurpose} (hphase : call.phase = .operating purpose) :
    call.joined = none := by
  by_contra hjoined
  cases (h.calls c call hold).alone hjoined with
  | inl hjoining => rw [hphase] at hjoining; cases hjoining
  | inr hover => rw [hphase] at hover; cases hover

theorem CacheInvariant.operationEnds (clock : CacheClock) (value : Option Value) :
    CacheInvariant host events (operationEnds host s c call clock value) := by
  unfold Attestations.operationEnds
  split
  case h_1 =>
    next value hphase =>
    have hfirst := first_of_operating h hold hphase
    refine h.settle hold (by rw [hphase]; rfl) rfl rfl (fun _ => rfl) hfirst ?_
    intro answer hanswer
    cases hanswer
    exact .inl ⟨clock.now, rfl⟩
  case h_2 =>
    next value hphase =>
    have hunderway : call.phase.underway = true := by rw [hphase]; rfl
    dsimp only
    split
    · exact h.goesOn hold hunderway ⟨rfl, rfl, rfl, rfl, rfl⟩ rfl (fun _ hentry => hentry) nofun
    · exact (h.forget _).goesOn hold hunderway ⟨rfl, rfl, rfl, rfl, rfl⟩ rfl
        (fun _ hentry => hentry) nofun
  case h_3 =>
    next value _ _ hphase =>
    have hfirst := first_of_operating h hold hphase
    refine h.settle hold (by rw [hphase]; rfl) rfl rfl (fun _ => rfl) hfirst ?_
    intro answer hanswer
    cases hanswer
    exact .inl ⟨clock.now, rfl⟩
  case h_4 =>
    next hphase =>
    exact h.starts hold (by rw [hphase]; rfl) ⟨rfl, rfl, rfl, rfl, rfl⟩ rfl
  case h_5 =>
    next hphase =>
    exact h.goesOn hold (by rw [hphase]; rfl) ⟨rfl, rfl, rfl, rfl, rfl⟩ rfl nofun nofun
  case h_6 =>
    next hphase =>
    exact h.settle hold (by rw [hphase]; rfl) rfl rfl (fun _ => rfl)
      (first_of_operating h hold hphase) nofun
  case h_7 => exact h

theorem CacheInvariant.revoke (ending : TransactionEnd) :
    CacheInvariant host events (revoke host s c call ending) := by
  unfold Attestations.revoke
  split
  case h_1 =>
    next entry hphase _ =>
    have hunderway : call.phase.underway = true := by rw [hphase]; rfl
    have hreturned := (h.calls c call hold).returned entry (by rw [hphase]; rfl)
    have hresult : ∀ other, (CallPhase.releasing (some entry)).entry = some other →
        call.result = some other := fun _ hother => hother ▸ hreturned
    dsimp only
    split
    · exact (h.setDbOf fun row hrow => .inl (mem_of_mem_filter hrow)).goesOn hold hunderway
        ⟨rfl, rfl, rfl, rfl, rfl⟩ rfl hresult nofun
    · exact h.goesOn hold hunderway ⟨rfl, rfl, rfl, rfl, rfl⟩ rfl hresult nofun
  case h_2 => exact h

theorem CacheInvariant.check (rejects fits : Bool)
    (hproduced : ∀ entry, call.phase = .checking entry →
      s.inputs call.process (call.scopeKey host) = some call.input →
      Produced host (call.cacheKey host) entry events) :
    CacheInvariant host events (check host s c call rejects fits) := by
  unfold Attestations.check
  split
  case h_1 =>
    next entry hphase =>
    have hunderway : call.phase.underway = true := by rw [hphase]; rfl
    have hreturned := (h.calls c call hold).returned entry (by rw [hphase]; rfl)
    split
    · exact h.goesOn hold hunderway ⟨rfl, rfl, rfl, rfl, rfl⟩ rfl nofun nofun
    · split
      · next hcurrent =>
        simp only [Bool.and_eq_true, decide_eq_true_eq] at hcurrent
        refine h.goesOn hold hunderway ⟨rfl, rfl, rfl, rfl, rfl⟩ rfl ?_ ?_
        · intro other hother
          exact hother ▸ hreturned
        · intro other hother
          cases hother
          exact hproduced entry hphase hcurrent.1
      · exact h.goesOn hold hunderway ⟨rfl, rfl, rfl, rfl, rfl⟩ rfl
          (fun other hother => hother ▸ hreturned) nofun
  case h_2 => exact h

theorem CacheInvariant.publish (clock : CacheClock) (ending : TransactionEnd) :
    CacheInvariant host events (publish host s c call clock ending) := by
  unfold Attestations.publish
  split
  case h_1 =>
    next entry hphase _ =>
    have hunderway : call.phase.underway = true := by rw [hphase]; rfl
    have hreturned := (h.calls c call hold).returned entry (by rw [hphase]; rfl)
    have hproduced := (h.calls c call hold).checked entry hphase
    have hresult : ∀ other, (CallPhase.releasing (some entry)).entry = some other →
        call.result = some other := fun _ hother => hother ▸ hreturned
    dsimp only
    split
    · exact h.goesOn hold hunderway ⟨rfl, rfl, rfl, rfl, rfl⟩ rfl hresult nofun
    · split
      · have hrows : CacheInvariant host events (s.setDbOf host call
            (putEntry (entryRowOf host call clock entry)
              (deleteEntries (fun row => row.expiresAt ≤ clock.now) (s.dbOf host call)))) := by
          refine h.setDbOf ?_
          intro row hrow
          cases mem_append.mp hrow with
          | inl hkept => exact .inl (mem_of_mem_filter (mem_of_mem_filter hkept))
          | inr hnew =>
            rw [mem_singleton.mp hnew]
            exact .inr hproduced
        exact (hrows.rememberFor hproduced).goesOn hold hunderway ⟨rfl, rfl, rfl, rfl, rfl⟩ rfl
          hresult nofun
      · exact (h.rememberFor hproduced).goesOn hold hunderway ⟨rfl, rfl, rfl, rfl, rfl⟩ rfl
          hresult nofun
  case h_2 => exact h

theorem CacheInvariant.release (ending : TransactionEnd) :
    CacheInvariant host events (release host s c call ending) := by
  unfold Attestations.release
  split
  case h_1 =>
    next outcome hphase _ =>
    have hunderway : call.phase.underway = true := by rw [hphase]; rfl
    have hreturned := (h.calls c call hold).returned
    rw [hphase] at hreturned
    have hover : (releasedPhase outcome).settled = true := by cases outcome <;> rfl
    have hanswered : ∀ answer, releasedPhase outcome = .answered answer →
        Own call answer ∨ FromCache host call answer events := by
      intro answer hanswer
      cases outcome with
      | none => cases hanswer
      | some entry =>
        cases hanswer
        exact .inl ⟨entry.attestedAt, hreturned entry rfl⟩
    dsimp only
    split
    · have hdeleted : CacheInvariant host events (s.setDbOf host call
          (deleteFlight (call.cacheKey host) c (s.dbOf host call))) :=
        h.setDbOf fun row hrow => .inl hrow
      exact hdeleted.ends hold hunderway ⟨rfl, rfl, rfl, rfl, rfl⟩ hover hanswered
    · exact h.ends hold hunderway ⟨rfl, rfl, rfl, rfl, rfl⟩ hover hanswered
  case h_2 => exact h

end

/-! ### The entry of a call -/

section

variable (h : CacheInvariant host events s) (hold : s.calls[c]? = some old)
  (hentering : old.phase = .entering)

include h hold hentering

theorem first_of_entering : old.joined = none := by
  by_contra hjoined
  cases (h.calls c old hold).alone hjoined with
  | inl hjoining => rw [hentering] at hjoining; cases hjoining
  | inr hover => rw [hentering] at hover; cases hover

/-- An entering call ends. -/
theorem CacheInvariant.answers (hphase : phase.settled = true)
    (hprocess : call.process = old.process) (hfirst : call.joined = none)
    (hanswered : ∀ answer, phase = .answered answer →
      Own call answer ∨ FromCache host call answer events) :
    CacheInvariant host events (s.settle c call phase) :=
  h.settle hold (by rw [hentering]; rfl) hphase hprocess
    (fun hunderway => by rw [hentering] at hunderway; cases hunderway) hfirst hanswered

/-- An entering call goes on by itself. -/
theorem CacheInvariant.leaves (hfirst : call.joined = none)
    (hcall : CallInvariant host events s.promises c call) :
    CacheInvariant host events (s.setCall c call) := by
  refine h.setCall hold (by rw [hentering]; rfl) hcall ?_ ?_
  · intro hunderway
    rw [hentering] at hunderway
    cases hunderway
  · intro leader hleader
    rw [hfirst] at hleader
    cases hleader

/-- The call begins a lookup of its own. -/
theorem CacheInvariant.seeks (hfirst : call.joined = none) (hphase : call.phase = .seeking)
    (hseen : SeenBefore host c call events) :
    CacheInvariant host events ((s.setMemory call.process
      { s.memory call.process with
        flights := (s.memory call.process).flights ++ [(call.flightKey host, c)] }).setCall c
          call) := by
  have hcall : CallInvariant host events s.promises c call := by
    refine ⟨?_, fun _ => hseen, ?_, ?_, fun hjoined => absurd hfirst hjoined, ?_⟩
    all_goals
      rw [hphase]
      exact nofun
  have hgone := h.leaves hold hentering hfirst hcall
  refine hgone.setMemory ?_ (h.memory call.process)
  intro flight hflight
  cases mem_append.mp hflight with
  | inl hknown => exact hgone.flights call.process flight hknown
  | inr hnew =>
    rw [mem_singleton.mp hnew, calls_setCall hold, if_pos rfl]
    exact ⟨call, rfl, rfl, rfl, hfirst, by rw [hphase]; rfl⟩

theorem CacheInvariant.joins {flight : (CacheKey × Int) × Nat}
    (hflight : flight ∈ (s.memory call.process).flights)
    (hkey : flight.1 = call.flightKey host) (hphase : call.phase = .joining)
    (hjoins : call.joined = some flight.2) :
    CacheInvariant host events (s.setCall c call) := by
  obtain ⟨lead, hfound, hprocess, hsame, hfirst, hunderway⟩ := h.flights _ flight hflight
  refine h.setCall hold (by rw [hentering]; rfl) ?_ ?_ ?_
  · refine ⟨?_, ?_, ?_, ?_, fun _ => .inl hphase, ?_⟩
    all_goals
      rw [hphase]
      exact nofun
  · intro h
    rw [hentering] at h
    cases h
  · intro leader hleader
    obtain rfl : flight.2 = leader := Option.some.inj (hjoins.symm.trans hleader)
    refine ⟨?_, lead, hfound, hprocess, hsame.trans hkey, hfirst, .inl hunderway,
      fun _ => hunderway, ?_⟩
    · intro heq
      rw [heq, hold] at hfound
      cases hfound
      rw [hentering] at hunderway
      cases hunderway
    · intro answer hanswer
      rw [hphase] at hanswer
      cases hanswer

theorem CacheInvariant.enterWith (clock : CacheClock) (hprocess : call.process = old.process)
    (hfirst : call.joined = none) (hseen : SeenBefore host c call events) :
    CacheInvariant host events (enterWith host s c call clock) := by
  unfold Attestations.enterWith
  dsimp only
  generalize hhit : (((s.memory call.process).memory.find? fun held =>
    held.1 = call.cacheKey host).map Prod.snd) = hit
  split
  · next entry hyoung =>
    obtain ⟨hentry, haccepted⟩ := filter_eq_some_iff.mp hyoung
    rw [← hhit] at hentry
    obtain ⟨held, hfound, rfl⟩ := map_eq_some_iff.mp hentry
    simp only [Bool.and_eq_true, decide_eq_true_eq] at haccepted
    have hkey : held.1 = call.cacheKey host := by simpa using List.find?_some hfound
    have hproduced := h.memory _ held (mem_of_find?_eq_some hfound)
    rw [hkey] at hproduced
    refine (h.rememberFor hproduced).answers hold hentering rfl hprocess hfirst ?_
    intro answer hanswer
    cases hanswer
    exact .inr ⟨held.2.attestedAt, clock.now, .thisProcess clock.now, rfl, .inr rfl,
      haccepted.1, haccepted.2, hproduced⟩
  · generalize hforgotten : (if hit.any fun entry => clock.now - entry.attestedAt ≥ call.ttl
      then s.forget host call else s) = forgotten
    have hinvariant : CacheInvariant host events forgotten ∧ forgotten.calls[c]? = some old := by
      rw [← hforgotten]
      split
      · exact ⟨h.forget call, hold⟩
      · exact ⟨h, hold⟩
    split
    · next flight hfound =>
      have hkey : flight.1 = call.flightKey host := by simpa using List.find?_some hfound
      exact hinvariant.1.joins hinvariant.2 hentering (mem_of_find?_eq_some hfound) hkey rfl
        rfl
    · have hseeks : ∀ next : Call Value, next = { call with phase := .seeking } →
          CacheInvariant host events ((forgotten.setMemory next.process
            { forgotten.memory next.process with
              flights := (forgotten.memory next.process).flights
                ++ [(next.flightKey host, c)] }).setCall c next) := by
        rintro next rfl
        exact hinvariant.1.seeks hinvariant.2 hentering hfirst rfl hseen
      exact hseeks _ rfl

end

/-- The entry of a call, once its promise has settled. -/
theorem CacheInvariant.enter (h : CacheInvariant host events s)
    (hold : s.calls[c]? = some call) (clock : CacheClock)
    (hentered : ∀ input promise, call.phase = .entering →
      s.promises[call.promise]? = some promise → promise.read = .settled (some input) →
      SeenBefore host c { call with input := input } events) :
    CacheInvariant host events (enter host s c call clock) := by
  unfold Attestations.enter
  split
  case h_1 =>
    next hphase _ =>
    exact h.answers hold hphase rfl rfl (first_of_entering h hold hphase) nofun
  case h_2 =>
    next hphase _ =>
    have hfirst := first_of_entering h hold hphase
    have hscope : (s.finishScope call.process call.scope).calls[c]? = some call := by
      cases call.scope with
      | none => exact hold
      | some scope => exact hold
    refine (h.finishScope call.process call.scope).leaves hscope hphase hfirst ?_
    exact ⟨nofun, nofun, nofun, nofun, fun hjoined => absurd hfirst hjoined, nofun⟩
  case h_3 =>
    next input hphase hread =>
    obtain ⟨promise, hpromise, hsettled⟩ := map_eq_some_iff.mp hread
    have hfirst := first_of_entering h hold hphase
    exact h.enterWith hold hphase clock rfl hfirst
      (hentered input promise hphase hpromise hsettled)
  case h_4 => exact h

/-! ### Promises and new calls -/

/-- Every promise stays the promise of its process and scope key. -/
def PromisesKept (promises later : List FingerprintPromise) : Prop :=
  ∀ (i : Nat) promise, promises[i]? = some promise → ∃ promise', later[i]? = some promise' ∧
    promise'.process = promise.process ∧ promise'.scopeKey = promise.scopeKey

theorem CallInvariant.setPromises {later : List FingerprintPromise}
    (h : CallInvariant host events promises c call) (hkept : PromisesKept promises later) :
    CallInvariant host events later c call where
  promised := by
    intro hphase
    obtain ⟨promise, hfound, hprocess, hscope⟩ := h.promised hphase
    obtain ⟨promise', hfound', hprocess', hscope'⟩ := hkept _ promise hfound
    exact ⟨promise', hfound', hprocess'.trans hprocess, hscope'.trans hscope⟩
  seen := h.seen
  returned := h.returned
  checked := h.checked
  alone := h.alone
  answered := h.answered

section

variable (h : CacheInvariant host events s)

include h

theorem CacheInvariant.setPromises {later : List FingerprintPromise}
    (hkept : PromisesKept s.promises later)
    (hread : ∀ promise ∈ later, ∀ input, promise.read = .settled (some input) →
      Past (fun seen => (after host seen).inputs promise.process promise.scopeKey = some input)
        events) : CacheInvariant host events { s with promises := later } where
  promises := hread
  scopes := by
    intro process scope input hinput
    obtain ⟨promise, hfound, hprocess, hscope⟩ := h.scopes process scope input hinput
    obtain ⟨promise', hfound', hprocess', hscope'⟩ := hkept _ promise hfound
    exact ⟨promise', hfound', hprocess'.trans hprocess, hscope'.trans hscope⟩
  calls c call hcall := (h.calls c call hcall).setPromises hkept
  joined := h.joined
  flights := h.flights
  memory := h.memory
  entries := h.entries

theorem CacheInvariant.newPromise (process : Nat) (scopeKey : String) :
    CacheInvariant host events
      { s with promises := s.promises ++ [⟨process, scopeKey, .pending⟩] } := by
  refine h.setPromises ?_ ?_
  · intro i promise hfound
    obtain ⟨hi, -⟩ := List.getElem?_eq_some_iff.mp hfound
    exact ⟨promise, by rw [List.getElem?_append_left hi]; exact hfound, rfl, rfl⟩
  · intro promise hpromise input hread
    cases mem_append.mp hpromise with
    | inl hknown => exact h.promises promise hknown input hread
    | inr hnew =>
      rw [mem_singleton.mp hnew] at hread
      cases hread

/-- The promise of a new call is of its process and its scope key. -/
theorem CacheInvariant.scopedFingerprint (process : Nat) (key : String) (scope : Option Nat) :
    CacheInvariant host events (scopedFingerprint host s process key scope).2 ∧
      (scopedFingerprint host s process key scope).2.calls = s.calls ∧
      ∃ promise, (scopedFingerprint host s process key scope).2.promises[
          (scopedFingerprint host s process key scope).1]? = some promise ∧
        promise.process = process ∧ promise.scopeKey = host.fingerprintScopeKey key := by
  have hpromised := h.newPromise process (host.fingerprintScopeKey key)
  have hfresh : (s.promises ++ [⟨process, host.fingerprintScopeKey key, .pending⟩])[
      s.promises.length]? = some ⟨process, host.fingerprintScopeKey key, .pending⟩ :=
    List.getElem?_concat_length
  unfold Attestations.scopedFingerprint
  cases scope with
  | none => exact ⟨hpromised, rfl, _, hfresh, rfl, rfl⟩
  | some scope =>
    dsimp only
    split
    · exact ⟨hpromised, rfl, _, hfresh, rfl, rfl⟩
    · split
      · next input hfound =>
        obtain ⟨promise, hpromise, hprocess, hscope⟩ :=
          h.scopes process scope input (mem_of_find?_eq_some hfound)
        have hkey : input.1 = ((host.process process).stateDirectory,
            host.fingerprintScopeKey key) := by simpa using List.find?_some hfound
        rw [hkey] at hscope
        exact ⟨h, rfl, promise, hpromise, hprocess, hscope⟩
      · refine ⟨hpromised.setScope ?_, rfl, _, hfresh, rfl, rfl⟩
        intro input hinput
        cases mem_append.mp hinput with
        | inl hknown => exact hpromised.scopes process scope input hknown
        | inr hnew =>
          rw [mem_singleton.mp hnew]
          exact ⟨_, hfresh, rfl, rfl⟩

theorem CacheInvariant.newCall (hcall : CallInvariant host events s.promises s.calls.length call)
    (hfirst : call.joined = none) :
    CacheInvariant host events { s with calls := s.calls ++ [call] } := by
  have hkept : ∀ (i : Nat) lead, s.calls[i]? = some lead →
      (s.calls ++ [call])[i]? = some lead := by
    intro i lead hfound
    obtain ⟨hi, -⟩ := List.getElem?_eq_some_iff.mp hfound
    rw [List.getElem?_append_left hi]
    exact hfound
  have hcases : ∀ (i : Nat) other, (s.calls ++ [call])[i]? = some other →
      s.calls[i]? = some other ∨ (i = s.calls.length ∧ other = call) := by
    intro i other hother
    by_cases hi : i < s.calls.length
    · rw [List.getElem?_append_left hi] at hother
      exact .inl hother
    · rw [List.getElem?_append_right (Nat.le_of_not_lt hi)] at hother
      obtain ⟨hlast, hother⟩ := List.getElem?_eq_some_iff.mp hother
      rw [length_singleton] at hlast
      exact .inr ⟨by omega, by simpa using hother.symm⟩
  refine ⟨h.promises, h.scopes, ?_, ?_, ?_, h.memory, h.entries⟩
  · intro i other hother
    cases hcases i other hother with
    | inl hknown => exact h.calls i other hknown
    | inr hnew =>
      obtain ⟨rfl, rfl⟩ := hnew
      exact hcall
  · intro i other leader hother hleader
    cases hcases i other hother with
    | inl hknown =>
      obtain ⟨lead, hfound, hleads⟩ := h.joined i other leader hknown hleader
      exact ⟨lead, hkept leader lead hfound, hleads⟩
    | inr hnew =>
      rw [hnew.2, hfirst] at hleader
      cases hleader
  · intro process flight hflight
    obtain ⟨lead, hfound, hlead⟩ := h.flights process flight hflight
    exact ⟨lead, hkept _ lead hfound, hlead⟩

theorem CacheInvariant.beginCall (process : Nat) (key : String) (cacheable : Value → Bool)
    (maxAgeMs : Option Int) (scope : Option Nat) (clock : CacheClock) :
    CacheInvariant host events (beginCall host s process key cacheable maxAgeMs scope clock) := by
  rw [Attestations.beginCall]
  dsimp only
  split
  · have hcalls : ∀ first second : Call Value,
        (s.calls ++ [first]).set s.calls.length second = s.calls ++ [second] := by
      intro first second
      rw [set_append, if_neg (Nat.lt_irrefl _), Nat.sub_self, set_cons_zero]
    rw [CacheState.startOperation, CacheState.setCall]
    cases scope with
    | none =>
      dsimp only [CacheState.finishScope]
      rw [hcalls]
      exact h.newCall ⟨nofun, nofun, nofun, nofun, fun hjoined => absurd rfl hjoined, nofun⟩ rfl
    | some scope =>
      dsimp only [CacheState.finishScope, CacheState.setScope]
      rw [hcalls]
      exact (h.finishScope process (some scope)).newCall
        ⟨nofun, nofun, nofun, nofun, fun hjoined => absurd rfl hjoined, nofun⟩ rfl
  · obtain ⟨hpromised, hcalls, hpromise⟩ := h.scopedFingerprint process key scope
    rw [← hcalls]
    exact hpromised.newCall
      ⟨fun _ => hpromise, nofun, nofun, nofun, fun hjoined => absurd rfl hjoined, nofun⟩ rfl

theorem CacheInvariant.settlePromise (promise : Nat) (rejects : Bool)
    (hnow : ∀ process scopeKey input, s.inputs process scopeKey = some input →
      Past (fun seen => (after host seen).inputs process scopeKey = some input) events) :
    CacheInvariant host events (settlePromise s promise rejects) := by
  unfold Attestations.settlePromise
  split
  · exact h
  · next process scopeKey hfound =>
    refine h.setPromises ?_ ?_
    · intro i kept hkept
      obtain ⟨hi, -⟩ := List.getElem?_eq_some_iff.mp hkept
      rw [List.getElem?_set]
      by_cases heq : promise = i
      · subst heq
        rw [hfound] at hkept
        cases hkept
        rw [if_pos rfl, if_pos hi]
        exact ⟨_, rfl, rfl, rfl⟩
      · exact ⟨kept, by rw [if_neg heq]; exact hkept, rfl, rfl⟩
    · intro settled hsettled input hread
      cases mem_or_eq_of_mem_set hsettled with
      | inl hknown => exact h.promises settled hknown input hread
      | inr hnew =>
        subst hnew
        dsimp only at hread
        split at hread
        · cases hread
        · exact hnow process scopeKey input (by simpa using hread)
  · exact h

/-! ### The end of a process -/

end

omit [DecidableEq Value] in
theorem crashCall_of_ne (h : call.process ≠ process) : crashCall process call = call := if_neg h

omit [DecidableEq Value] in
theorem crashCall_of_eq (h : call.process = process) :
    (crashCall process call = call ∧ call.phase.settled = true) ∨
      (crashCall process call = { call with phase := .gone } ∧ ∀ answer,
        call.phase ≠ .answered answer) := by
  rw [crashCall, if_pos h]
  cases call.phase with
  | answered | rejected => exact .inl ⟨rfl, rfl⟩
  | entering | joining | seeking | claiming | verifying | operating | revoking | checking
  | publishing | releasing | gone => exact .inr ⟨rfl, nofun⟩

theorem CacheInvariant.crash (h : CacheInvariant host events s) (process : Nat) :
    CacheInvariant host events
      { s.setMemory process ⟨[], [], false⟩ with calls := s.calls.map (crashCall process) } := by
  have hempty : CacheInvariant host events (s.setMemory process ⟨[], [], false⟩) :=
    h.setMemory (fun flight hflight => absurd hflight not_mem_nil)
      (fun held hheld => absurd hheld not_mem_nil)
  refine ⟨h.promises, h.scopes, ?calls, ?joined, ?flights, hempty.memory, h.entries⟩
  case calls =>
    intro c other hother
    rw [List.getElem?_map] at hother
    obtain ⟨call, hcall, rfl⟩ := map_eq_some_iff.mp hother
    by_cases hprocess : call.process = process
    · cases crashCall_of_eq hprocess with
      | inl hover => rw [hover.1]; exact h.calls c call hcall
      | inr hgone => rw [hgone.1]; exact .of_over rfl nofun
    · rw [crashCall_of_ne hprocess]
      exact h.calls c call hcall
  case joined =>
    intro c other leader hother hleader
    rw [List.getElem?_map] at hother
    obtain ⟨call, hcall, rfl⟩ := map_eq_some_iff.mp hother
    have hsame : call.joined = some leader := by
      by_cases hprocess : call.process = process
      · cases crashCall_of_eq hprocess with
        | inl hover => rw [hover.1] at hleader; exact hleader
        | inr hgone => rw [hgone.1] at hleader; exact hleader
      · rw [crashCall_of_ne hprocess] at hleader
        exact hleader
    obtain ⟨lead, hfound, hleads⟩ := h.joined c call leader hcall hsame
    refine ⟨crashCall process lead, by rw [List.getElem?_map, hfound]; rfl, ?_⟩
    by_cases hprocess : call.process = process
    · have hlead : lead.process = process := hleads.process.trans hprocess
      cases crashCall_of_eq hprocess with
      | inl hover =>
        rw [hover.1]
        cases crashCall_of_eq hlead with
        | inl hended => rw [hended.1]; exact hleads
        | inr hgone =>
          rw [hgone.1]
          refine ⟨hleads.process, hleads.flightKey, hleads.first, .inr rfl, ?_, ?_⟩
          · intro hjoining
            rw [hjoining] at hover
            cases hover.2
          · intro answer hanswer
            exact absurd (hleads.answered answer hanswer) (hgone.2 answer)
      | inr hgone =>
        rw [hgone.1]
        cases crashCall_of_eq hlead with
        | inl hended =>
          rw [hended.1]
          exact ⟨hleads.process, hleads.flightKey, hleads.first, hleads.leads, nofun, nofun⟩
        | inr hgoneLead =>
          rw [hgoneLead.1]
          exact ⟨hleads.process, hleads.flightKey, hleads.first, .inr rfl, nofun, nofun⟩
    · have hlead : lead.process ≠ process := fun heq => hprocess (hleads.process.symm.trans heq)
      rw [crashCall_of_ne hprocess, crashCall_of_ne hlead]
      exact hleads
  case flights =>
    intro other flight hflight
    obtain ⟨lead, hfound, hlead, hrest⟩ := hempty.flights other flight hflight
    have hne : lead.process ≠ process := by
      intro heq
      rw [← hlead, heq] at hflight
      simp only [CacheState.setMemory, update_self, not_mem_nil] at hflight
    refine ⟨lead, ?_, hlead, hrest⟩
    have hcall : s.calls[flight.2]? = some lead := hfound
    rw [List.getElem?_map, hcall]
    exact congrArg some (crashCall_of_ne hne)

/-! ### Every run -/

theorem CacheInvariant.withCall (h : CacheInvariant host events s) (c : Nat)
    {next : Call Value → CacheState Value}
    (hnext : ∀ call, s.calls[c]? = some call → CacheInvariant host events (next call)) :
    CacheInvariant host events (withCall s c next) := by
  rw [Attestations.withCall]
  split
  · exact h
  · next call hcall => exact hnext call hcall

theorem after_append (events later : List (CacheEvent Value)) :
    after host (events ++ later) = run (cacheStep host) (after host events) later :=
  run_append _ _ _

theorem cacheInvariant_step (h : CacheInvariant host events (after host events))
    (event : CacheEvent Value) :
    CacheInvariant host (events ++ [event]) (cacheStep host (after host events) event) := by
  have hnow := h.append [event]
  cases event with
  | change process scopeKey fingerprint =>
    exact ⟨hnow.promises, hnow.scopes, hnow.calls, hnow.joined, hnow.flights, hnow.memory,
      hnow.entries⟩
  | clearAttestationCache process =>
    exact hnow.setMemory (hnow.flights process) (fun held hheld => absurd hheld not_mem_nil)
  | finishScope process scope => exact hnow.finishScope process (some scope)
  | crash process => exact hnow.crash process
  | damage stateDirectory cacheKey payload =>
    refine hnow.setDb ?_
    intro row hrow
    obtain ⟨before, hbefore, rfl⟩ := mem_map.mp hrow
    have hproduced := hnow.entries stateDirectory before hbefore
    split
    · exact hproduced
    · exact hproduced
  | call process key cacheable maxAgeMs scope clock =>
    exact hnow.beginCall process key cacheable maxAgeMs scope clock
  | fingerprint promise rejects =>
    exact hnow.settlePromise promise rejects fun process scopeKey input hinput =>
      Past.one_later hinput _
  | enter c clock =>
    refine hnow.withCall c fun call hcall => hnow.enter hcall clock ?_
    intro input promise hphase hpromise hread
    obtain ⟨promise', hpromise', hprocess, hscope⟩ := (h.calls c call hcall).promised hphase
    rw [hpromise] at hpromise'
    cases hpromise'
    have hseen := h.promises promise (mem_of_getElem? hpromise) input hread
    rw [hprocess, hscope] at hseen
    exact .one_later ⟨⟨call, hcall, hphase⟩, hseen⟩ _
  | openDb c retried => exact hnow.withCall c fun call hcall => hnow.openDb hcall retried
  | look c clock retried => exact hnow.withCall c fun call hcall => hnow.look hcall clock retried
  | claim c clock alive ending retried =>
    exact hnow.withCall c fun call hcall => hnow.claim hcall clock alive ending retried
  | verify c rejects => exact hnow.withCall c fun call hcall => hnow.verify hcall rejects
  | operationEnds c clock value =>
    exact hnow.withCall c fun call hcall => hnow.operationEnds hcall clock value
  | revoke c ending => exact hnow.withCall c fun call hcall => hnow.revoke hcall ending
  | check c rejects fits =>
    refine hnow.withCall c fun call hcall => hnow.check hcall rejects fits ?_
    intro entry hphase hinput
    have hinvariant := h.calls c call hcall
    exact .one_later ⟨c, call, hcall, rfl,
      hinvariant.returned entry (by rw [hphase]; rfl), hphase, hinput,
      hinvariant.seen (by rw [hphase]; rfl)⟩ _
  | publish c clock ending => exact hnow.withCall c fun call hcall => hnow.publish hcall clock ending
  | release c ending => exact hnow.withCall c fun call hcall => hnow.release hcall ending

theorem cacheInvariant_initial :
    CacheInvariant host ([] : List (CacheEvent Value)) CacheState.initial where
  promises promise hpromise := absurd hpromise not_mem_nil
  scopes process scope input hinput := absurd hinput not_mem_nil
  calls c call hcall := by cases hcall
  joined c call leader hcall := by cases hcall
  flights process flight hflight := absurd hflight not_mem_nil
  memory process held hheld := absurd hheld not_mem_nil
  entries stateDirectory row hrow := absurd hrow not_mem_nil

theorem cacheInvariant_run (events : List (CacheEvent Value)) :
    CacheInvariant host events (after host events) := by
  induction events using List.reverseRecOn with
  | nil => exact cacheInvariant_initial
  | append_singleton events event ih =>
    rw [after_append]
    exact cacheInvariant_step ih event

end AgentBridge.Attestations
