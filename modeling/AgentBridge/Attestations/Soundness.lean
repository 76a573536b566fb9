import AgentBridge.Attestations.Invariant

/-!
# What the attestation cache serves

A value that a call did not make itself comes from the lookup it has joined, or from the
cache: then an operation made it whose inputs had the fingerprint before it started and
again when they were checked for the publication. Only the holder of the flight publishes.
-/

namespace AgentBridge.Attestations

open Systems Function

variable {Value : Type} {host : CacheHost}
  {events : List (CacheEvent Value)} {s : CacheState Value} {c : Nat} {call : Call Value}

/-! ### Who publishes -/

/-- No table has a row in `s'` that it had not in `s`. -/
def NoNewRow (s s' : CacheState Value) : Prop :=
  ∀ stateDirectory, (s'.db stateDirectory).entries ⊆ (s.db stateDirectory).entries

namespace NoNewRow

variable {s' : CacheState Value}

theorem of_db (h : s'.db = s.db) : NoNewRow s s' := by
  intro stateDirectory
  rw [h]
  exact List.Subset.refl _

theorem setDb {stateDirectory : String} {db : CacheDb Value}
    (h : db.entries ⊆ (s.db stateDirectory).entries) : NoNewRow s (s.setDb stateDirectory db) := by
  intro other
  by_cases heq : other = stateDirectory
  · subst heq
    simp only [CacheState.setDb, update_self]
    exact h
  · simp only [CacheState.setDb, update_of_ne heq]
    exact List.Subset.refl _

theorem finishScope (process : Nat) (scope : Option Nat) :
    (s.finishScope process scope).db = s.db := by
  cases scope <;> rfl

theorem startOperation (purpose : OperationPurpose) :
    (s.startOperation c call purpose).db = s.db :=
  finishScope call.process call.scope

theorem fails (retried : Bool) : (s.fails c call retried).db = s.db := by
  rw [CacheState.fails]
  split
  · rfl
  · exact startOperation _

theorem invalidate (call : Call Value) : NoNewRow s (invalidate host s call) := by
  rw [Attestations.invalidate]
  dsimp only
  split
  · have hdeleted : NoNewRow s (s.setDbOf host call (deleteEntries (fun row =>
        row.buildNamespace = (host.process call.process).buildNamespace) (s.dbOf host call))) :=
      setDb fun row hrow => List.mem_of_mem_filter hrow
    exact hdeleted
  · exact of_db rfl

theorem openDb (retried : Option Bool) : NoNewRow s (openDb host s c call retried) := by
  unfold Attestations.openDb
  split
  case h_1 | h_2 | h_3 | h_4 => exact invalidate call
  case h_5 => exact of_db (fails _)
  case h_6 | h_7 | h_8 | h_9 => exact of_db rfl

theorem look [DecidableEq Value] (clock : CacheClock) (retried : Option Bool) :
    NoNewRow s (look host s c call clock retried) := by
  unfold Attestations.look
  split
  · exact of_db (fails _)
  · split
    · exact of_db rfl
    · split <;> exact of_db rfl
  · exact of_db rfl

theorem claim [DecidableEq Value] (clock : CacheClock) (alive : Bool) (ending : TransactionEnd)
    (retried : Bool) :
    NoNewRow s (claim host s c call clock alive ending retried) := by
  have hclaimed : NoNewRow s (s.setDbOf host call
      (putFlight (flightOf host c call clock) (s.dbOf host call))) :=
    setDb (List.Subset.refl _)
  unfold Attestations.claim
  split
  · exact of_db (fails _)
  · split
    · dsimp only
      split
      · exact of_db rfl
      · exact of_db (fails _)
    · split
      · dsimp only
        split
        · intro stateDirectory
          rw [startOperation]
          exact hclaimed stateDirectory
        · split
          · intro stateDirectory
            rw [fails]
            exact hclaimed stateDirectory
          · exact of_db (fails _)
      · split
        · exact of_db (fails _)
        · split <;> exact of_db rfl
  · exact of_db rfl

theorem verify (rejects : Bool) : NoNewRow s (verify host s c call rejects) := by
  unfold Attestations.verify
  split
  · split
    · exact of_db (startOperation _)
    · split
      · exact of_db rfl
      · exact of_db (startOperation _)
  · exact of_db rfl

theorem operationEnds (clock : CacheClock) (value : Option Value) :
    NoNewRow s (operationEnds host s c call clock value) := by
  unfold Attestations.operationEnds
  split
  case h_2 =>
    dsimp only
    split <;> exact of_db rfl
  case h_4 => exact of_db (startOperation _)
  case h_1 | h_3 | h_5 | h_6 | h_7 => exact of_db rfl

theorem revoke (ending : TransactionEnd) : NoNewRow s (revoke host s c call ending) := by
  unfold Attestations.revoke
  split
  · dsimp only
    split
    · have hdeleted : NoNewRow s (s.setDbOf host call (deleteEntries (fun row =>
          row.cacheKey = call.cacheKey host) (s.dbOf host call))) :=
        setDb fun row hrow => List.mem_of_mem_filter hrow
      exact hdeleted
    · exact of_db rfl
  · exact of_db rfl

theorem check (rejects fits : Bool) : NoNewRow s (check host s c call rejects fits) := by
  unfold Attestations.check
  split
  · split
    · exact of_db rfl
    · split <;> exact of_db rfl
  · exact of_db rfl

theorem release (ending : TransactionEnd) : NoNewRow s (release host s c call ending) := by
  unfold Attestations.release
  split
  · dsimp only
    split
    · have hdeleted : NoNewRow s (s.setDbOf host call
          (deleteFlight (call.cacheKey host) c (s.dbOf host call))) :=
        setDb (List.Subset.refl _)
      exact hdeleted
    · exact of_db rfl
  · exact of_db rfl

theorem enter (clock : CacheClock) : NoNewRow s (enter host s c call clock) := by
  unfold Attestations.enter
  split
  · exact of_db rfl
  · exact of_db (startOperation _)
  · unfold Attestations.enterWith
    dsimp only
    split
    · exact of_db rfl
    · split <;> split <;> exact of_db rfl
  · exact of_db rfl

theorem beginCall (process : Nat) (key : String) (cacheable : Value → Bool)
    (maxAgeMs : Option Int) (scope : Option Nat) (clock : CacheClock) :
    NoNewRow s (beginCall host s process key cacheable maxAgeMs scope clock) := by
  rw [Attestations.beginCall]
  dsimp only
  split
  · exact of_db (startOperation _)
  · unfold Attestations.scopedFingerprint
    cases scope with
    | none => exact of_db rfl
    | some scope =>
      dsimp only
      split
      · exact of_db rfl
      · split <;> exact of_db rfl

theorem settlePromise (promise : Nat) (rejects : Bool) :
    NoNewRow s (settlePromise s promise rejects) := by
  unfold Attestations.settlePromise
  split <;> exact of_db rfl

theorem withCall {next : Call Value → CacheState Value} (h : ∀ call, NoNewRow s (next call)) :
    NoNewRow s (withCall s c next) := by
  rw [Attestations.withCall]
  split
  · exact of_db rfl
  · exact h _

end NoNewRow

/-- The event is the publication of the row by the call that holds its flight. -/
def Publishes (host : CacheHost) (s : CacheState Value) (event : CacheEvent Value)
    (stateDirectory : String) (row : EntryRow Value) : Prop :=
  ∃ c clock ending call flight, event = .publish c clock ending ∧
    s.calls[c]? = some call ∧ (host.process call.process).stateDirectory = stateDirectory ∧
    row.cacheKey = call.cacheKey host ∧
    holder (s.db stateDirectory) row.cacheKey = some flight ∧
    flight.token = c ∧ clock.now < flight.expiresAt

theorem publish_cases (clock : CacheClock) (ending : TransactionEnd) {stateDirectory : String}
    {row : EntryRow Value}
    (hrow : row ∈ ((publish host s c call clock ending).db stateDirectory).entries) :
    row ∈ (s.db stateDirectory).entries ∨
      ((host.process call.process).stateDirectory = stateDirectory ∧
        row.cacheKey = call.cacheKey host ∧ ownsFlight host s c call clock = true) := by
  unfold Attestations.publish at hrow
  split at hrow
  · dsimp only at hrow
    split at hrow
    · exact .inl hrow
    next entry _ _ howner =>
      simp only [Bool.or_eq_true, decide_eq_true_eq, Bool.not_eq_true', not_or,
        Bool.not_eq_false] at howner
      split at hrow
      · by_cases heq : stateDirectory = (host.process call.process).stateDirectory
        · subst heq
          simp only [CacheState.setCall, CacheState.rememberFor, CacheState.setMemory,
            CacheState.setDbOf, CacheState.setDb, update_self] at hrow
          cases List.mem_append.mp hrow with
          | inl hkept => exact .inl (List.mem_of_mem_filter (List.mem_of_mem_filter hkept))
          | inr hnew =>
            rw [List.mem_singleton.mp hnew]
            exact .inr ⟨rfl, rfl, howner.2⟩
        · simp only [CacheState.setCall, CacheState.rememberFor, CacheState.setMemory,
            CacheState.setDbOf, CacheState.setDb, update_of_ne heq] at hrow
          exact .inl hrow
      · exact .inl hrow
  · exact .inl hrow

variable [DecidableEq Value]

theorem publishes_of_new {event : CacheEvent Value} {stateDirectory : String}
    {row : EntryRow Value}
    (hrow : row ∈ ((cacheStep host s event).db stateDirectory).entries)
    (hnew : row ∉ (s.db stateDirectory).entries)
    (hintact : ∀ directory cacheKey payload, event ≠ .damage directory cacheKey payload) :
    Publishes host s event stateDirectory row := by
  have hnone : NoNewRow s (cacheStep host s event) → Publishes host s event stateDirectory row :=
    fun h => absurd (h stateDirectory hrow) hnew
  cases event with
  | publish c clock ending =>
    have hpublished : row ∈ ((withCall s c fun call =>
        publish host s c call clock ending).db stateDirectory).entries := hrow
    rw [withCall] at hpublished
    split at hpublished
    · exact absurd hpublished hnew
    next call hcall =>
      cases publish_cases clock ending hpublished with
      | inl hkept => exact absurd hkept hnew
      | inr howner =>
        obtain ⟨hdirectory, hkey, howns⟩ := howner
        obtain ⟨flight, hflight, hvalid⟩ := (Option.any_eq_true _ _).mp howns
        simp only [Bool.and_eq_true, decide_eq_true_eq] at hvalid
        refine ⟨c, clock, ending, call, flight, rfl, hcall, hdirectory, hkey, ?_, hvalid.1,
          hvalid.2⟩
        rw [hkey, ← hdirectory]
        exact hflight
  | damage directory cacheKey payload => exact absurd rfl (hintact directory cacheKey payload)
  | change | clearAttestationCache | crash => exact hnone (.of_db rfl)
  | finishScope process scope => exact hnone (NoNewRow.of_db (NoNewRow.finishScope _ _))
  | call process key cacheable maxAgeMs scope clock =>
    exact hnone (.beginCall process key cacheable maxAgeMs scope clock)
  | fingerprint promise rejects => exact hnone (.settlePromise promise rejects)
  | enter c clock => exact hnone (.withCall fun call => .enter clock)
  | openDb c retried => exact hnone (.withCall fun call => .openDb retried)
  | look c clock retried => exact hnone (.withCall fun call => .look clock retried)
  | claim c clock alive ending retried =>
    exact hnone (.withCall fun call => .claim clock alive ending retried)
  | verify c rejects => exact hnone (.withCall fun call => .verify rejects)
  | operationEnds c clock value =>
    exact hnone (.withCall fun call => .operationEnds clock value)
  | revoke c ending => exact hnone (.withCall fun call => .revoke ending)
  | check c rejects fits => exact hnone (.withCall fun call => .check rejects fits)
  | release c ending => exact hnone (.withCall fun call => .release ending)

/-! ### What is served -/

/-- Whatever a call returns is what its operation returned, or a value of the cache that is sound
for it, or the answer of the lookup that it joined: of its process, under its key, its
fingerprint and its age limit, and itself one of the first two. Only the holder of the flight
adds a row to the table. -/
theorem attestations_sound (host : CacheHost) (events : List (CacheEvent Value)) :
    (∀ (c : Nat) call answer, (after host events).calls[c]? = some call →
      call.phase = .answered answer →
      Own call answer ∨ FromCache host call answer events ∨
        ∃ leader lead, call.joined = some leader ∧
          (after host events).calls[leader]? = some lead ∧ lead.process = call.process ∧
          lead.flightKey host = call.flightKey host ∧ lead.phase = .answered answer ∧
          (Own lead answer ∨ FromCache host lead answer events)) ∧
    (∀ event stateDirectory row,
      row ∈ ((after host (events ++ [event])).db stateDirectory).entries →
      row ∉ ((after host events).db stateDirectory).entries →
      (∀ directory cacheKey payload, event ≠ .damage directory cacheKey payload) →
      Publishes host (after host events) event stateDirectory row) := by
  have hinvariant : CacheInvariant host events (after host events) := cacheInvariant_run events
  constructor
  · intro c call answer hcall hanswer
    cases hjoined : call.joined with
    | none =>
      cases (hinvariant.calls c call hcall).answered answer hanswer hjoined with
      | inl hown => exact .inl hown
      | inr hcache => exact .inr (.inl hcache)
    | some leader =>
      obtain ⟨lead, hlead, hleads⟩ := hinvariant.joined c call leader hcall hjoined
      have hsame := hleads.answered answer hanswer
      exact .inr (.inr ⟨leader, lead, rfl, hlead, hleads.process, hleads.flightKey, hsame,
        (hinvariant.calls leader lead hlead).answered answer hsame hleads.first⟩)
  · intro event stateDirectory row hrow hnew hintact
    rw [after_append] at hrow
    exact publishes_of_new hrow hnew hintact

/-! ### Joined lookups and late changes -/

/-- When the value was read for its call. -/
def servedAt (attestedAt : Int) : AttestationSource → Int
  | .fresh => attestedAt
  | .shared readAt | .thisProcess readAt => readAt

/-- The row of the value was published while the inputs of its maker had the fingerprint, and they
had had it before its operation started. -/
def PublishedUnder (host : CacheHost) (cacheKey : CacheKey) (value : Value) :
    List (CacheEvent Value) → Prop := fun events =>
  ∃ published producer clock ending maker entry,
    published ++ [.publish producer clock ending] <+: events ∧
    (after host published).calls[producer]? = some maker ∧
    maker.cacheKey host = cacheKey ∧ maker.phase = .publishing entry ∧ entry.value = value ∧
    (after host published).inputs maker.process (maker.scopeKey host) = some maker.input ∧
    SeenBefore host producer maker published

/-- The answer is the call's own, or accepted, young, and published under the fingerprint. -/
def ServedUnder (host : CacheHost) (events : List (CacheEvent Value)) (call : Call Value)
    (answer : Attestation Value) : Prop :=
  Own call answer ∨
    call.cacheable answer.value = true ∧
      (∃ attestedAt source, answer.stamp = some (attestedAt, source) ∧
        servedAt attestedAt source - attestedAt < call.ageLimit) ∧
      PublishedUnder host (call.cacheKey host) answer.value events

def oneHost : CacheHost where
  process _ := ⟨"build", "state", 256, 1000⟩
  fingerprintScopeKey := id

/-- A lookup of process 1 that claims the flight, up to the end of its operation. -/
def claimedLookup : List (CacheEvent Nat) :=
  [.change 1 "role" (some "input"), .change 2 "role" (some "input"),
    .call 1 "role" (fun value => value = 7) none none ⟨10, 100⟩, .fingerprint 0 false,
    .enter 0 ⟨10, 100⟩, .openDb 0 none, .look 0 ⟨10, 100⟩ none,
    .claim 0 ⟨10, 100⟩ true .committed false]

/-- A second call of the process joins the lookup, whose value is not accepted. -/
def joinedLookup : List (CacheEvent Nat) :=
  claimedLookup ++
    [.call 1 "role" (fun value => value = 7) none none ⟨11, 100⟩, .fingerprint 1 false,
      .enter 1 ⟨11, 100⟩, .operationEnds 0 ⟨20, 100⟩ (some 3), .openDb 0 none,
      .revoke 0 .committed, .openDb 0 none, .release 0 .committed]

/-- The inputs change between the check and the publication; process 2 has read their fingerprint
before. -/
def lateChange : List (CacheEvent Nat) :=
  claimedLookup ++
    [.call 2 "role" (fun value => value = 7) none none ⟨11, 100⟩, .fingerprint 1 false,
      .operationEnds 0 ⟨20, 100⟩ (some 7), .check 0 false true,
      .change 1 "role" (some "other"), .change 2 "role" (some "other"), .openDb 0 none,
      .publish 0 ⟨21, 100⟩ .committed, .enter 1 ⟨22, 100⟩, .openDb 1 none,
      .look 1 ⟨23, 100⟩ none]

/-- The events of `lateChange` before its publication. -/
def beforePublication : List (CacheEvent Nat) := lateChange.take 15

def isPublication : CacheEvent Value → Bool
  | .publish .. => true
  | _ => false

theorem not_publishedUnder_lateChange :
    ¬ PublishedUnder oneHost ⟨"build", "state", "role", "input"⟩ 7 lateChange := by
  rintro ⟨published, producer, clock, ending, maker, entry, hprefix, hmaker, hkey, -, -, hinputs, -⟩
  have hevent : lateChange[published.length]? = some (.publish producer clock ending) := by
    obtain ⟨rest, hrest⟩ := hprefix
    rw [← hrest, List.append_assoc, List.getElem?_append_right (Nat.le_refl _), Nat.sub_self]
    rfl
  have honly : ∀ n < lateChange.length, (lateChange[n]?).any isPublication = true → n = 15 := by
    decide
  have hlength : published.length = 15 := by
    refine honly _ (List.getElem?_eq_some_iff.mp hevent).1 ?_
    rw [hevent]
    rfl
  have hpublished : published = beforePublication := by
    have hbefore := List.prefix_iff_eq_take.mp ((List.prefix_append _ _).trans hprefix)
    rw [hlength] at hbefore
    exact hbefore
  rw [hpublished] at hmaker hinputs
  have hprocess : ∀ other ∈ (after oneHost beforePublication).calls,
      (after oneHost beforePublication).inputs other.process (other.scopeKey oneHost)
        = some "other" := by
    decide
  rw [hprocess maker (List.mem_of_getElem? hmaker)] at hinputs
  have hinput : maker.input = "input" := congrArg CacheKey.input hkey
  rw [hinput] at hinputs
  exact absurd hinputs (by decide)

/-- A call that joins a lookup is answered with a value that it does not accept, and a value is
served that was published after its inputs had changed. -/
theorem joined_and_late_values_served :
    (∃ call answer, (after oneHost joinedLookup).calls[1]? = some call ∧
      call.phase = .answered answer ∧ ¬ ServedUnder oneHost joinedLookup call answer) ∧
    (∃ call answer, (after oneHost lateChange).calls[1]? = some call ∧
      call.phase = .answered answer ∧ ¬ ServedUnder oneHost lateChange call answer) := by
  constructor
  · have hcall : ((after oneHost joinedLookup).calls[1]?).any (fun call =>
        call.phase = .answered ⟨3, some (20, .fresh)⟩ && call.result = none
          && !call.cacheable 3) = true := by decide
    obtain ⟨call, hfound, hcall⟩ := (Option.any_eq_true _ _).mp hcall
    simp only [Bool.and_eq_true, decide_eq_true_eq, Bool.not_eq_true'] at hcall
    obtain ⟨⟨hphase, hresult⟩, hrefused⟩ := hcall
    refine ⟨call, ⟨3, some (20, .fresh)⟩, hfound, hphase, ?_⟩
    intro hserved
    cases hserved with
    | inl hown =>
      obtain ⟨attestedAt, hown⟩ := hown
      rw [hresult] at hown
      cases hown
    | inr hshared =>
      rw [hrefused] at hshared
      exact Bool.false_ne_true hshared.1
  · have hcall : ((after oneHost lateChange).calls[1]?).any (fun call =>
        call.phase = .answered ⟨7, some (20, .shared 23)⟩ && call.result = none
          && call.cacheKey oneHost = ⟨"build", "state", "role", "input"⟩) = true := by
      decide
    obtain ⟨call, hfound, hcall⟩ := (Option.any_eq_true _ _).mp hcall
    simp only [Bool.and_eq_true, decide_eq_true_eq] at hcall
    obtain ⟨⟨hphase, hresult⟩, hkey⟩ := hcall
    refine ⟨call, ⟨7, some (20, .shared 23)⟩, hfound, hphase, ?_⟩
    intro hserved
    cases hserved with
    | inl hown =>
      obtain ⟨attestedAt, hown⟩ := hown
      rw [hresult] at hown
      cases hown
    | inr hshared =>
      have hpublished := hshared.2.2
      rw [hkey] at hpublished
      exact not_publishedUnder_lateChange hpublished

end AgentBridge.Attestations
