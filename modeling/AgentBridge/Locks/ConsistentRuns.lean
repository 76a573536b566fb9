import AgentBridge.Locks.Consistency

/-!
# Consistent runs of the lock tables

The transactions keep the tables consistent, whatever order they come in. A
statement that commits by itself does so as long as it does not delete the last row
of a run that something still depends on: the sweep, the expiry mark and the release
mark that follow then find nothing to do. Where it does delete that row, the run
stays `running` without rows until the later statements are through, and for good if
one of them fails: the next expiry selects its runs from the rows and finds none.
-/

namespace AgentBridge.Locks

open Paths Systems List

variable {runtime : LockRuntime} {db : LockDb} {issued : List (String × String)}

/-! ### One statement -/

/-- What an open procedure relies on from its earlier statements. -/
def Autocommit.Safe (issued : List (String × String)) (db : LockDb) : Autocommit → Prop
  | .discardRows runId token _ _ => (runId, token) ∈ issued
  | .markReleased runId _ _ => Stopped issued db runId
  | .expireRows .. | .sweepAssociations .. | .markExpired .. | .dropAssociation _ => True

variable {db' : LockDb} {statements : Autocommit}

theorem Autocommit.Safe.later (h : statements.Safe issued db) (later : NoRestart issued db db') :
    statements.Safe issued db' := by
  cases statements with
  | markReleased runId queued now => exact .later h later
  | discardRows runId token queued now => exact h
  | expireRows now runIds => trivial
  | sweepAssociations now left runIds => trivial
  | markExpired now left => trivial
  | dropAssociation runId => trivial

theorem KeepsLastRows.hasRow (h : KeepsLastRows runtime db statements) {runId : String}
    (claimed : ¬ Unclaimed db runId) (held : HasRow db.locks runId) :
    HasRow (statements.kept runtime db) runId := by
  obtain ⟨row, hrow, hid⟩ := held
  by_cases hremoved : statements.removes runtime row = true
  · cases h row hrow hremoved with
    | inl hkept => exact hid ▸ hkept
    | inr hfree => exact absurd (hid ▸ hfree) claimed
  · refine ⟨row, mem_filter.mpr ⟨hrow, ?_⟩, hid⟩
    rw [eq_false_of_ne_true hremoved]
    rfl

theorem Tables.deleteRows (t : Tables runtime issued db)
    (last : KeepsLastRows runtime db statements) :
    Keeps runtime issued db { db with locks := statements.kept runtime db } := by
  have rows : ∀ row ∈ statements.kept runtime db, row ∈ db.locks :=
    fun row hrow => (mem_filter.mp hrow).1
  have deleted : Keeps runtime issued db
      { db with
        locks := statements.kept runtime db
        runs := db.runs.map id
        queueJobLocks := db.queueJobLocks } := by
    refine t.shrink rows (fun run => ⟨rfl, Or.inl rfl⟩)
      (t.consistent.shrink rows (fun _ => rfl) ?_ ?_ (fun run _ _ => Or.inl rfl))
    · intro association hassociation
      refine last.hasRow ?_ (t.consistent.associated association hassociation)
      exact fun hfree => hfree.2 association hassociation rfl
    · intro run hrun hholding
      refine last.hasRow ?_ (t.consistent.held run hrun hholding)
      intro hfree
      have hnot := hfree.1 run hrun rfl
      rw [show run.status.holding = true from hholding] at hnot
      cases hnot
  rwa [map_id] at deleted

theorem Tables.dropAssociations (t : Tables runtime issued db) {associations : List QueueJobLock}
    (sub : ∀ association ∈ associations, association ∈ db.queueJobLocks) :
    Keeps runtime issued db { db with queueJobLocks := associations } := by
  refine ⟨⟨⟨?_, t.consistent.held, t.consistent.rowless⟩, t.distinct, t.unique, t.named, t.tokens,
    t.unexpiring, t.incomplete⟩, .refl⟩
  intro association hassociation
  exact t.consistent.associated association (sub association hassociation)

theorem map_runs_eq_self {runs : List RunRow} {f : RunRow → RunRow}
    (same : ∀ run ∈ runs, f run = run) : runs.map f = runs := by
  rw [map_congr_left same, map_id']

theorem Tables.advance (t : Tables runtime issued db) (safe : statements.Safe issued db)
    (last : KeepsLastRows runtime db statements) :
    Keeps runtime issued db (statements.advance runtime db).1 ∧
      ∀ next ∈ (statements.advance runtime db).2,
        next.Safe issued (statements.advance runtime db).1 := by
  cases statements with
  | expireRows now runIds =>
    refine ⟨t.deleteRows last, ?_⟩
    rintro _ ⟨⟩
    trivial
  | sweepAssociations now left runIds =>
    cases left with
    | nil =>
      refine ⟨t.keeps, ?_⟩
      rintro _ ⟨⟩
      trivial
    | cons runId left =>
      refine ⟨t.dropAssociations fun _ h => (mem_filter.mp h).1, ?_⟩
      rintro _ ⟨⟩
      trivial
  | markExpired now left =>
    cases left with
    | nil => exact ⟨t.keeps, nofun⟩
    | cons runId left =>
      have hsame : markRunExpired db runId now = db := by
        unfold markRunExpired
        rw [map_runs_eq_self]
        intro run hrun
        refine if_neg ?_
        intro ⟨_, hrunning, hnone⟩
        refine hasLockRow_eq_false_iff.mp hnone (t.consistent.held run hrun ?_)
        rw [hrunning]
        rfl
      refine ⟨?_, ?_⟩
      · show Keeps runtime issued db (markRunExpired db runId now)
        rw [hsame]
        exact t.keeps
      · rintro _ ⟨⟩
        trivial
  | discardRows runId token queued now =>
    have hdeleted := t.deleteRows last
    refine ⟨hdeleted, ?_⟩
    rintro _ ⟨⟩
    refine ⟨mem_map.mpr ⟨_, safe, rfl⟩, ?_⟩
    -- All rows of this run carried the token, so a run still running would have lost its last.
    intro run hrun hid hrunning
    obtain ⟨row, hrow, hname⟩ := hdeleted.tables.consistent.held run hrun (by rw [hrunning]; rfl)
    obtain ⟨hmem, hkept⟩ := mem_filter.mp hrow
    have htoken := t.tokens _ safe row hmem (hname.trans hid)
    simp [Autocommit.removes, hname.trans hid, htoken] at hkept
  | markReleased runId queued now =>
    have hsame : markRunReleased db runId now = db := by
      unfold markRunReleased
      rw [map_runs_eq_self]
      intro run hrun
      refine if_neg ?_
      intro ⟨hid, hrunning⟩
      exact Stopped.halted safe run hrun hid hrunning
    refine ⟨?_, ?_⟩
    · show Keeps runtime issued db (markRunReleased db runId now)
      rw [hsame]
      exact t.keeps
    · intro next hnext
      cases queued with
      | false => cases hnext
      | true =>
        cases hnext
        trivial
  | dropAssociation runId =>
    exact ⟨t.dropAssociations fun _ h => (mem_filter.mp h).1, nofun⟩

/-- A statement that deletes a last row leaves the tables inconsistent. -/
theorem not_consistent_advance (lost : ¬ KeepsLastRows runtime db statements) :
    ¬ Consistent (statements.advance runtime db).1 := by
  intro consistent
  apply lost
  intro row _ hremoved
  by_contra hgone
  rw [not_or] at hgone
  apply hgone.2
  have hrows : (statements.advance runtime db).1 =
      { db with locks := statements.kept runtime db } := by
    cases statements with
    | expireRows now runIds => rfl
    | discardRows runId token queued now => rfl
    | sweepAssociations now left runIds => cases hremoved
    | markExpired now left => cases hremoved
    | markReleased runId queued now => cases hremoved
    | dropAssociation runId => cases hremoved
  rw [hrows] at consistent
  constructor
  · intro run hrun hid
    rw [← Bool.not_eq_true]
    exact fun hholding => hgone.1 (hid ▸ consistent.held run hrun hholding)
  · intro association hassociation hid
    exact hgone.1 (hid ▸ consistent.associated association hassociation)

/-! ### Steps -/

structure Bookkept (runtime : LockRuntime) (s : Bookkeeping) : Prop where
  tables : Tables runtime s.issued s.db
  receipts : ∀ receipt ∈ s.receipts, GenuineReceipt runtime receipt
  observed : ∀ read ∈ s.observed, completeContainment runtime read.2 →
    Stopped s.issued s.db read.1
  unfinished : ∀ statements ∈ s.unfinished, statements.Safe s.issued s.db

variable {s : Bookkeeping}

theorem Bookkept.withDb (inv : Bookkept runtime s) (keeps : Keeps runtime s.issued s.db db') :
    Bookkept runtime { s with db := db' } :=
  ⟨keeps.tables, inv.receipts,
    fun read hread hcomplete => (inv.observed read hread hcomplete).later keeps.noRestart,
    fun statements hmem => (inv.unfinished statements hmem).later keeps.noRestart⟩

variable {pair : String × String}

theorem Stopped.issue {runId : String} (h : Stopped issued db runId) :
    Stopped (pair :: issued) db runId :=
  ⟨mem_cons_of_mem _ h.known, h.halted⟩

theorem Autocommit.Safe.issue (h : statements.Safe issued db) :
    statements.Safe (pair :: issued) db := by
  cases statements with
  | markReleased runId queued now => exact .issue h
  | discardRows runId token queued now => exact mem_cons_of_mem _ h
  | expireRows now runIds => trivial
  | sweepAssociations now left runIds => trivial
  | markExpired now left => trivial
  | dropAssociation runId => trivial

/-- The tables of an acquisition, together with the run id it was given. -/
theorem Bookkept.issuePair (inv : Bookkept runtime s)
    (tables : Tables runtime (pair :: s.issued) db') (noRestart : NoRestart s.issued s.db db') :
    Bookkept runtime { s with db := db', issued := pair :: s.issued } :=
  ⟨tables, inv.receipts,
    fun read hread hcomplete => ((inv.observed read hread hcomplete).later noRestart).issue,
    fun statements hmem => ((inv.unfinished statements hmem).later noRestart).issue⟩

theorem Bookkept.acquire (inv : Bookkept runtime s) {args : AcquireArgs} {input : AcquireInput}
    (fresh : s.Fresh input.runId) :
    Bookkept runtime
      { s.remember runtime (.lock (.acquire args input)) with
        db := (acquireHardLock runtime s.db args input).2 } := by
  obtain ⟨refusal, hrefused⟩ | ⟨lockType, hpaths, hnew, hacquired⟩ :=
    acquireHardLock_cases runtime s.db args input
  · simp only [Bookkeeping.remember, hrefused]
    exact inv
  · obtain ⟨tables, noRestart⟩ := inv.tables.acquiredDb lockType fresh hpaths hnew
    simp only [Bookkeeping.remember, hacquired]
    exact inv.issuePair tables noRestart

theorem Bookkept.acquireUnconfirmed (inv : Bookkept runtime s) (args : AcquireArgs)
    (input : AcquireInput) (durable : Bool) (now : Timestamp) :
    Bookkept runtime
      (bookkeepingStep runtime s (.acquireUnconfirmed args input durable now)) := by
  unfold bookkeepingStep
  dsimp only
  split
  · rename_i fresh
    obtain ⟨refusal, hrefused⟩ | ⟨lockType, hpaths, hnew, hacquired⟩ :=
      acquireHardLock_cases runtime s.db args input
    · rw [hrefused]
      exact inv
    · rw [hacquired]
      dsimp only
      have hissued : Bookkept runtime
          { s with
            db := if durable then acquiredDb runtime s.db args input lockType else s.db
            issued := (input.runId, input.token) :: s.issued } := by
        cases durable with
        | true =>
          have hnext := inv.tables.acquiredDb lockType fresh hpaths hnew
          exact inv.issuePair hnext.1 hnext.2
        | false => exact inv.issuePair (inv.tables.issue fresh) NoRestart.refl
      refine ⟨hissued.tables, hissued.receipts, hissued.observed, ?_⟩
      intro statements hmem
      cases mem_append.mp hmem with
      | inl hold => exact hissued.unfinished statements hold
      | inr hnew =>
        rw [mem_singleton.mp hnew]
        exact mem_cons_self
  · exact inv

theorem Bookkept.transaction (inv : Bookkept runtime s) {event : ContainmentEvent}
    (authorized : s.Authorized runtime event) :
    Bookkept runtime
      { s.remember runtime event with db := containmentStep runtime s.db event } := by
  have t := inv.tables
  cases event with
  | quarantine lock containment exclusive expectedProtection now =>
    exact inv.withDb
      (t.quarantineHardLock authorized.1 containment expectedProtection now)
  | lock event =>
    cases event with
    | acquire args input => exact inv.acquire authorized
    | discardFailedAcquire runId token queued now => exact authorized.elim
    | release lockId token paths now => exact inv.withDb (t.releaseHardLock lockId token paths now)
    | expire now => exact inv.withDb (t.expireLocksFromDb now)
    | heartbeat lock ttlMs now => exact inv.withDb (t.heartbeatPulse lock ttlMs now)
    | beginProtection lock containment now worktreesOff recoveryBlocked =>
      have hnext := inv.withDb (@Tables.beginFinalizerValidationProtection _ _ _ lock t
        containment now worktreesOff recoveryBlocked)
      unfold Bookkeeping.remember
      dsimp only
      split
      · rename_i receipt hreceipt
        refine ⟨hnext.tables, ?_, hnext.observed, hnext.unfinished⟩
        intro other hother
        cases mem_cons.mp hother with
        | inl heq => exact heq ▸ t.genuineReceipt hreceipt
        | inr hold => exact inv.receipts other hold
      · exact hnext
    | restoreReadLease lock receipt ttlMs now =>
      have genuine := inv.receipts receipt authorized.2
      exact inv.withDb
        (t.restoreFinalizerReadLease genuine.running genuine.evidence ttlMs now)
    | releaseQueueJob lockId now => exact inv.withDb (t.releaseQueueJobLocks lockId now)
    | reclaim runId now =>
      obtain ⟨read, hread, rfl, hcomplete⟩ := authorized
      exact inv.withDb
        (t.reclaimLockQuarantine (inv.observed read hread hcomplete) now)
    | pruneRuns auditCutoff => exact inv.withDb (t.pruneRuns auditCutoff)
    | external activeOwners operations =>
      exact inv.withDb ⟨⟨⟨t.consistent.associated, t.consistent.held, t.consistent.rowless⟩,
        t.distinct, t.unique, t.named, t.tokens, t.unexpiring, t.incomplete⟩, .refl⟩

/-- A quarantine whose record is complete is not a protected finalizer's. -/
theorem Tables.stopped_of_read (t : Tables runtime issued db) {read : String × String}
    (hread : read ∈ quarantineReads db) (complete : completeContainment runtime read.2) :
    Stopped issued db read.1 := by
  obtain ⟨row, hrow, rfl⟩ := mem_map.mp hread
  refine ⟨t.named row (mem_filter.mp hrow).1, ?_⟩
  intro run hrun hid hrunning
  cases hfind : db.runs.find? (·.runId = row.runId) with
  | none =>
    rw [List.find?_eq_none] at hfind
    exact hfind run hrun (by simpa using hid)
  | some found =>
    have hfound : found ∈ db.runs := mem_of_find?_eq_some hfind
    have hname : found.runId = row.runId := by simpa using List.find?_some hfind
    have heq := t.eq_of_runId hfound hrun (hname.trans hid.symm)
    have hincomplete := t.incomplete run hrun hrunning
    simp only [hfind, Option.map_some, Option.getD_some, heq] at complete
    rw [hincomplete] at complete
    cases complete

theorem Bookkept.step (inv : Bookkept runtime s) {event : BookkeepingEvent}
    (last : LastRowsKept runtime s event) : Bookkept runtime (bookkeepingStep runtime s event) := by
  cases event with
  | transaction event =>
    unfold bookkeepingStep
    dsimp only
    split
    · rename_i authorized
      exact inv.transaction authorized
    · exact inv
  | acquireUnconfirmed args input durable now => exact inv.acquireUnconfirmed args input durable now
  | selectQuarantines =>
    refine ⟨inv.tables, inv.receipts, ?_, inv.unfinished⟩
    intro read hread hcomplete
    cases mem_append.mp hread with
    | inl hold => exact inv.observed read hold hcomplete
    | inr hnew => exact inv.tables.stopped_of_read hnew hcomplete
  | selectLapsed now =>
    refine ⟨inv.tables, inv.receipts, inv.observed, ?_⟩
    intro statements hmem
    cases mem_append.mp hmem with
    | inl hold => exact inv.unfinished statements hold
    | inr hnew =>
      rw [mem_singleton.mp hnew]
      trivial
  | statement index =>
    unfold bookkeepingStep
    dsimp only
    split
    · exact inv
    · rename_i statements hget
      have hmem : statements ∈ s.unfinished := mem_of_getElem? hget
      obtain ⟨keeps, hsafe⟩ :=
        inv.tables.advance (inv.unfinished statements hmem) (last statements hget)
      have hnext := inv.withDb keeps
      refine ⟨hnext.tables, hnext.receipts, hnext.observed, ?_⟩
      intro next hin
      cases mem_append.mp hin with
      | inl hold => exact hnext.unfinished next (mem_of_mem_eraseIdx hold)
      | inr hnew => exact hsafe next (Option.mem_toList.mp hnew)

/-- A step that does delete a last row leads to an inconsistent state. -/
theorem not_consistent_step {event : BookkeepingEvent} (lost : ¬ LastRowsKept runtime s event) :
    ¬ Consistent (bookkeepingStep runtime s event).db := by
  cases event with
  | statement index =>
    simp only [LastRowsKept, not_forall] at lost
    obtain ⟨statements, hget, hlost⟩ := lost
    have hget : s.unfinished[index]? = some statements := hget
    simp only [bookkeepingStep, hget]
    exact not_consistent_advance hlost
  | transaction event => exact absurd trivial lost
  | acquireUnconfirmed args input durable now => exact absurd trivial lost
  | selectQuarantines => exact absurd trivial lost
  | selectLapsed now => exact absurd trivial lost

/-! ### Runs -/

theorem bookkept_empty : Bookkept runtime emptyBookkeeping := by
  refine ⟨⟨⟨?_, ?_, ?_⟩, ?_, ?_, ?_, ?_, ?_, ?_⟩, ?_, ?_, ?_⟩ <;>
    simp [emptyBookkeeping, emptyLockDb]

theorem Bookkept.consistent_iff (inv : Bookkept runtime s) (events : List BookkeepingEvent) :
    (∀ earlier, earlier <+: events → Consistent (run (bookkeepingStep runtime) s earlier).db) ↔
      Along (bookkeepingStep runtime) (LastRowsKept runtime) s events := by
  induction events generalizing s with
  | nil =>
    refine ⟨fun _ => trivial, fun _ earlier hearlier => ?_⟩
    rw [List.prefix_nil.mp hearlier]
    exact inv.tables.consistent
  | cons event events ih =>
    rw [along_cons]
    constructor
    · intro h
      have hfirst : LastRowsKept runtime s event := by
        by_contra lost
        exact not_consistent_step lost (h [event] ⟨events, rfl⟩)
      refine ⟨hfirst, (ih (inv.step hfirst)).mp ?_⟩
      intro earlier hearlier
      exact h (event :: earlier) (cons_prefix_cons.mpr ⟨rfl, hearlier⟩)
    · rintro ⟨hfirst, hlater⟩ earlier hearlier
      cases earlier with
      | nil => exact inv.tables.consistent
      | cons event' earlier =>
        obtain ⟨rfl, hrest⟩ := cons_prefix_cons.mp hearlier
        exact (ih (inv.step hfirst)).mpr hlater earlier hrest

/-- Every state of a run is consistent exactly when no statement outside a
transaction ever deletes a last row. -/
theorem consistent_iff_lastRowsKept (runtime : LockRuntime) (events : List BookkeepingEvent) :
    (∀ earlier, earlier <+: events →
        Consistent (run (bookkeepingStep runtime) emptyBookkeeping earlier).db) ↔
      Along (bookkeepingStep runtime) (LastRowsKept runtime) emptyBookkeeping events :=
  bookkept_empty.consistent_iff events

/-- A listing whose `DELETE` is committed and whose later statements never run,
followed by a complete expiry. -/
def cutListing : List BookkeepingEvent :=
  [.transaction (.lock (acquireWrite "src" ⟨1, one_le_maxTime⟩ "run-1")),
    .selectLapsed ⟨1800001, by decide⟩, .statement 0,
    .transaction (.lock (.expire ⟨3600000, by decide⟩))]

/-- The run is still `running` and has no row: the later expiry does not find it. -/
theorem not_consistent_cutListing :
    ¬ ∀ events, Consistent (run (bookkeepingStep posixRuntime) emptyBookkeeping events).db := by
  intro h
  have hcut : ¬ Consistent (run (bookkeepingStep posixRuntime) emptyBookkeeping cutListing).db := by
    decide
  exact hcut (h cutListing)

end AgentBridge.Locks
