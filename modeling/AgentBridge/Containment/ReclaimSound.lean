import AgentBridge.Containment.Reclaim

/-!
# Soundness of the reclaim

Who is still alive is decided pid by pid, at different moments, partly by a probe and
partly by a listing that ended earlier. The invariant says what is left at each moment:
a process that the record names is gone, or its pid is still to be asked about. A probe
keeps it because a pid in nobody's use is in no named process's use; a listing keeps it
when it began after the process had started, because a process that has been there all
along is listed, and with creation times, because its row then says so.
-/

namespace AgentBridge.Containment

open Systems Providers List Nat

variable {s : Host} {parse : String → Option Record} {grace : Nat}

/-! ### Listings and records -/

variable {entry : Process × Nat} {listing : Listing}

theorem find_listed (key : (listing.seen.map (·.1.pid)).Nodup) (hentry : entry ∈ listing.seen)
    {rows : List ProcessRow} (same : ∀ row, row ∈ rows ↔ row ∈ listing.seen.map listing.row)
    {row : ProcessRow} (hrow : rows.find? (·.pid = entry.1.pid) = some row) :
    row = listing.row entry := by
  have hmem := (same row).mp (mem_of_find?_eq_some hrow)
  have hpid : row.pid = entry.1.pid := by simpa using List.find?_some hrow
  obtain ⟨other, hother, rfl⟩ := mem_map.mp hmem
  rw [inj_on_of_nodup_map key hother hentry hpid]

theorem createdAtOf_listed (key : (listing.seen.map (·.1.pid)).Nodup) (hok : listing.ok = true)
    (hentry : entry ∈ listing.seen) :
    createdAtOf listing.table entry.1.pid = (listing.row entry).createdAt := by
  have hrows : listing.table.rows = listing.seen.map listing.row := if_pos hok
  unfold createdAtOf
  rw [hrows]
  cases hfind : (listing.seen.map listing.row).reverse.find? (·.pid = entry.1.pid) with
  | none =>
    rw [List.find?_eq_none] at hfind
    refine absurd ?_ (hfind (listing.row entry)
      (mem_reverse.mpr (mem_map.mpr ⟨entry, hentry, rfl⟩)))
    simp [Listing.row]
  | some row =>
    rw [find_listed key hentry (fun _ => mem_reverse) hfind]
    rfl

variable {now payloadPid supervisorPid : Nat}

theorem containmentRecord_processes {table : ProcessTable} {item : Nat × String}
    (h : item ∈ (containmentRecord table supervisorPid payloadPid now).processes) :
    item.2 = createdAtOf table item.1 := by
  unfold containmentRecord at h
  have hmem := (mem_filter.mp h).1
  split at hmem
  · cases hmem
  · unfold processDescendants at hmem
    split at hmem
    · cases hmem
    · obtain ⟨pid, _, rfl⟩ := mem_map.mp hmem
      rfl

theorem createdAtByPid_listed (key : (listing.seen.map (·.1.pid)).Nodup) (hok : listing.ok = true)
    (hentry : entry ∈ listing.seen) :
    createdAtByPid (containmentRecord listing.table supervisorPid payloadPid now) entry.1.pid = "" ∨
      createdAtByPid (containmentRecord listing.table supervisorPid payloadPid now) entry.1.pid =
        entry.1.createdAt := by
  unfold createdAtByPid
  cases hfind : (containmentRecord listing.table supervisorPid payloadPid now).processes.find?
      (·.1 = entry.1.pid) with
  | none => exact Or.inl rfl
  | some item =>
    have hpid : item.1 = entry.1.pid := by simpa using List.find?_some hfind
    have hcreated := containmentRecord_processes (mem_of_find?_eq_some hfind)
    rw [hpid, createdAtOf_listed key hok hentry] at hcreated
    simp only [Option.map_some, Option.getD_some, hcreated, Listing.row]
    split
    · exact Or.inr rfl
    · exact Or.inl rfl

theorem ok_of_complete
    (h : (containmentRecord listing.table supervisorPid payloadPid now).complete = true) :
    listing.ok = true := by
  cases hok : listing.ok with
  | true => rfl
  | false =>
    have htable : listing.table.ok = false := hok
    unfold containmentRecord at h
    dsimp only at h
    split at h
    · simp at h
    · rw [processDescendants, if_pos htable] at h
      simp at h

/-! ### The invariant -/

/-- A listing has every process that was there all along. -/
structure ListingOk (live : List Process) (starts : Nat) (listing : Listing) : Prop where
  past : listing.started ≤ starts
  lasting : ∀ process ∈ live, process.serial < listing.started →
    process ∈ listing.seen.map (·.1)
  key : (listing.seen.map (·.1.pid)).Nodup
  known : ∀ entry ∈ listing.seen, entry.1.serial < starts

structure CheckOk (live : List Process) (starts : Nat) (store : QuarantineStore)
    (check : Check) : Prop where
  named : ∀ process ∈ check.named, process.serial < starts ∧
    (process.pid ∈ check.left ∨ process ∉ live)
  created : ∀ process ∈ check.named, createdAtByPid check.info process.pid = "" ∨
    createdAtByPid check.info process.pid = process.createdAt
  asked : check.waiting = true → ∀ pid ∈ check.left.head?, createdAtByPid check.info pid ≠ ""
  stored : check.overwritten = false → ∀ text ∈ store.stored check.key, text = check.text

structure Hosted (s : Host) : Prop where
  serials : ∀ process ∈ s.live, process.serial < s.starts
  reading : ∀ reading ∈ s.reading, reading.2 ≤ s.starts ∧
    ∀ process ∈ s.live, process.serial < reading.2 → process ∈ reading.1
  listings : ∀ listing ∈ s.listings, ListingOk s.live s.starts listing
  made : ∀ made ∈ s.made, made.listing ∈ s.listings ∧ ∃ supervisorPid payloadPid now,
    made.info = containmentRecord made.listing.table supervisorPid payloadPid now
  checks : ∀ check ∈ s.checks, CheckOk s.live s.starts s.store check

/-- Starts and exits change who lives, and nobody known comes back. -/
theorem Hosted.withLive (h : Hosted s) {live : List Process} {starts : Nat}
    (later : s.starts ≤ starts)
    (kept : ∀ process ∈ live, process ∈ s.live ∨ s.starts ≤ process.serial)
    (serials : ∀ process ∈ live, process.serial < starts) :
    Hosted { s with live := live, starts := starts } := by
  have old : ∀ {process}, process ∈ live → process.serial < s.starts → process ∈ s.live := by
    intro process hlive hserial
    refine (kept process hlive).resolve_right ?_
    omega
  refine ⟨serials, ?_, ?_, h.made, ?_⟩
  · intro reading hreading
    obtain ⟨hpast, hlasting⟩ := h.reading reading hreading
    refine ⟨hpast.trans later, ?_⟩
    intro process hlive hserial
    exact hlasting process (old hlive (by omega)) hserial
  · intro listing hlisting
    have hok := h.listings listing hlisting
    refine ⟨hok.past.trans later, ?_, hok.key, ?_⟩
    · intro process hlive hserial
      have := hok.past
      exact hok.lasting process (old hlive (by omega)) hserial
    · intro entry hentry
      have := hok.known entry hentry
      show entry.1.serial < starts
      omega
  · intro check hcheck
    have hok := h.checks check hcheck
    refine ⟨?_, hok.created, hok.asked, hok.stored⟩
    intro process hnamed
    obtain ⟨hserial, hstate⟩ := hok.named process hnamed
    refine ⟨hserial.trans_le later, hstate.imp id ?_⟩
    exact fun hdead hlive => hdead (old hlive hserial)

variable {check : Check}

theorem CheckOk.noticeWrite {live : List Process} {starts : Nat} {old : QuarantineStore}
    (h : CheckOk live starts old check) (store : QuarantineStore) :
    CheckOk live starts store (check.noticeWrite store) := by
  refine ⟨h.named, h.created, h.asked, ?_⟩
  intro hclean text htext
  have hstored : store.stored check.key = some text := htext
  simp only [Check.noticeWrite, Bool.or_eq_false_iff, hstored, Option.any_some,
    decide_eq_false_iff_not, not_not] at hclean
  exact hclean.2

theorem Hosted.withStore (h : Hosted s) (store : QuarantineStore) : Hosted (s.withStore store) := by
  refine ⟨h.serials, h.reading, h.listings, h.made, ?_⟩
  intro check hcheck
  obtain ⟨old, hold, rfl⟩ := mem_map.mp hcheck
  exact (h.checks old hold).noticeWrite store

theorem Hosted.withChecks (h : Hosted s) {checks : List Check}
    (ok : ∀ check ∈ checks, CheckOk s.live s.starts s.store check) : Hosted { s with checks := checks } :=
  ⟨h.serials, h.reading, h.listings, h.made, ok⟩

theorem Hosted.setCheck (h : Hosted s) {index : Nat} {next : Option Check}
    (ok : ∀ check ∈ next, CheckOk s.live s.starts s.store check) : Hosted (s.setCheck index next) := by
  cases next with
  | none =>
    exact h.withChecks fun check hcheck => h.checks check (mem_of_mem_eraseIdx hcheck)
  | some check =>
    refine h.withChecks fun other hother => ?_
    cases mem_or_eq_of_mem_set hother with
    | inl hold => exact h.checks other hold
    | inr heq => exact heq ▸ ok check rfl

/-! ### Checks -/

theorem Hosted.newCheck (h : Hosted s) {key : QuarantineKey} {text : String} {info : Record}
    (hstored : s.store.stored key = some text) (hadmissible : admissible info = true) :
    CheckOk s.live s.starts s.store (newCheck s key text info) := by
  have hcomplete : info.complete = true := by
    rw [admissible, decide_eq_true_eq] at hadmissible
    exact hadmissible.1
  have source : ∀ process ∈ (Containment.newCheck s key text info).named,
      ∃ made ∈ s.made, made.info = info ∧ process ∈ made.named := by
    intro process hnamed
    obtain ⟨made, hmade, hin⟩ := mem_flatMap.mp hnamed
    obtain ⟨hmem, hinfo⟩ := mem_filter.mp hmade
    exact ⟨made, hmem, by simpa using hinfo, hin⟩
  refine ⟨?_, ?_, nofun, ?_⟩
  · intro process hnamed
    obtain ⟨made, hmade, rfl, hin⟩ := source process hnamed
    obtain ⟨hseen, hpid⟩ := mem_filter.mp hin
    obtain ⟨entry, hentry, rfl⟩ := mem_map.mp hseen
    obtain ⟨hlisting, _⟩ := h.made made hmade
    exact ⟨(h.listings _ hlisting).known entry hentry, Or.inl (of_decide_eq_true hpid)⟩
  · intro process hnamed
    obtain ⟨made, hmade, rfl, hin⟩ := source process hnamed
    obtain ⟨hseen, _⟩ := mem_filter.mp hin
    obtain ⟨entry, hentry, rfl⟩ := mem_map.mp hseen
    obtain ⟨hlisting, supervisorPid, payloadPid, now, hinfo⟩ := h.made made hmade
    show createdAtByPid made.info entry.1.pid = "" ∨
      createdAtByPid made.info entry.1.pid = entry.1.createdAt
    rw [hinfo] at hcomplete ⊢
    exact createdAtByPid_listed (h.listings _ hlisting).key (ok_of_complete hcomplete) hentry
  · intro _ other hother
    have hother : s.store.stored key = some other := hother
    rw [hstored] at hother
    exact (Option.some.inj hother).symm

/-- Once the first pid is settled, its named processes are gone. -/
theorem CheckOk.settle (h : CheckOk s.live s.starts s.store check) {pid : Nat} {left : List Nat}
    (hleft : check.left = pid :: left)
    (gone : ∀ process ∈ check.named, process.pid = pid → process ∉ s.live) :
    CheckOk s.live s.starts s.store { check with left := left, waiting := false } := by
  refine ⟨?_, h.created, nofun, h.stored⟩
  intro process hnamed
  obtain ⟨hserial, hstate⟩ := h.named process hnamed
  refine ⟨hserial, ?_⟩
  cases hstate with
  | inr hdead => exact Or.inr hdead
  | inl hasked =>
    rw [hleft] at hasked
    cases mem_cons.mp hasked with
    | inl hfirst => exact Or.inr (gone process hnamed hfirst)
    | inr hrest => exact Or.inl hrest

theorem CheckOk.probeCheck (h : CheckOk s.live s.starts s.store check) :
    ∀ next ∈ probeCheck s check, CheckOk s.live s.starts s.store next := by
  intro next hnext
  unfold Containment.probeCheck at hnext
  split at hnext
  · cases hnext
    exact h
  rename_i pid left hleft
  split at hnext
  · cases hnext
    exact h
  rename_i hidle
  split at hnext
  · rename_i hfree
    cases hnext
    have hsettled := h.settle hleft fun process hnamed hpid hlive => by
      have hexists : s.containmentProcessExists pid = true :=
        any_eq_true.mpr ⟨process, hlive, by simpa using hpid⟩
      rw [hfree] at hexists
      cases hexists
    exact ⟨hsettled.named, h.created, fun hwaiting => absurd hwaiting hidle, h.stored⟩
  split at hnext
  · cases hnext
  rename_i hcreated
  cases hnext
  refine ⟨h.named, h.created, ?_, h.stored⟩
  intro _ other hother
  rw [hleft] at hother
  cases hother
  exact hcreated

/-- A consulted listing that does not have a process as recorded shows that it is
gone, if the listing began after the process and has creation times. -/
theorem CheckOk.consultCheck (hosted : Hosted s) (h : CheckOk s.live s.starts s.store check)
    (hlisting : listing ∈ s.listings) (fresh : ConsultsFresh s.live check listing) :
    ∀ next ∈ consultCheck listing.table check, CheckOk s.live s.starts s.store next := by
  intro next hnext
  unfold Containment.consultCheck at hnext
  split at hnext
  · cases hnext
    exact h
  rename_i pid left hleft
  split at hnext
  · cases hnext
    exact h
  rename_i hwaiting
  split at hnext
  · cases hnext
  rename_i hlisted
  cases hnext
  refine h.settle hleft fun process hnamed hpid hlive => hlisted ?_
  -- The process still lives, so the listing has its row, and the row agrees with the record.
  unfold listedStillRuns
  split
  · rfl
  rename_i husable
  rw [not_or, Bool.not_eq_false, not_lt] at husable
  obtain ⟨hok, hstamp⟩ := husable
  obtain ⟨hserial, hdated⟩ := fresh hok hstamp process hnamed (by rw [hleft, hpid]; rfl) hlive
  have hlist := hosted.listings listing hlisting
  obtain ⟨entry, hentry, rfl⟩ := mem_map.mp (hlist.lasting process hlive hserial)
  have hrows : listing.table.rows = listing.seen.map listing.row := if_pos hok
  have hcreated : createdAtByPid check.info pid = entry.1.createdAt := by
    rw [← hpid]
    refine (h.created entry.1 hnamed).resolve_left ?_
    rw [hpid]
    exact h.asked (Bool.eq_true_of_not_eq_false hwaiting) pid (by rw [hleft]; rfl)
  rw [hrows, ← hpid]
  cases hfind : (listing.seen.map listing.row).find? (·.pid = entry.1.pid) with
  | none =>
    rw [List.find?_eq_none] at hfind
    refine absurd ?_ (hfind (listing.row entry) (mem_map.mpr ⟨entry, hentry, rfl⟩))
    simp [Listing.row]
  | some row =>
    rw [find_listed hlist.key hentry (fun _ => Iff.rfl) hfind]
    simp [Listing.row, hdated, hpid, hcreated]

theorem CheckOk.concludeCheck (h : CheckOk s.live s.starts s.store check) :
    ∀ next ∈ concludeCheck grace s.clock check, CheckOk s.live s.starts s.store next := by
  intro next hnext
  unfold Containment.concludeCheck at hnext
  split at hnext
  · cases hnext
    exact h
  · split at hnext
    · cases hnext
    · cases hnext
      exact ⟨h.named, h.created, h.asked, h.stored⟩

/-! ### Steps -/

theorem Hosted.start (h : Hosted s) (pid : Nat) (createdAt : String) :
    Hosted { s with live := ⟨pid, createdAt, s.starts⟩ :: s.live, starts := s.starts + 1 } := by
  refine h.withLive (le_succ _) ?_ ?_
  · intro process hlive
    cases mem_cons.mp hlive with
    | inl heq => rw [heq]; exact Or.inr (le_refl _)
    | inr hold => exact Or.inl hold
  · intro process hlive
    cases mem_cons.mp hlive with
    | inl heq => rw [heq]; exact lt_succ_self _
    | inr hold => exact (h.serials process hold).trans (lt_succ_self _)

theorem Hosted.exit (h : Hosted s) (serial : Nat) :
    Hosted { s with live := s.live.filter (·.serial ≠ serial) } :=
  h.withLive (le_refl _) (fun _ hlive => Or.inl (mem_filter.mp hlive).1)
    (fun process hlive => h.serials process (mem_filter.mp hlive).1)

theorem Hosted.beginListing (h : Hosted s) :
    Hosted { s with reading := s.reading ++ [(s.live, s.starts)] } := by
  refine ⟨h.serials, ?_, h.listings, h.made, h.checks⟩
  intro reading hreading
  cases mem_append.mp hreading with
  | inl hold => exact h.reading reading hold
  | inr hnew =>
    rw [mem_singleton.mp hnew]
    exact ⟨le_refl _, fun _ hlive _ => hlive⟩

theorem Hosted.endListing (h : Hosted s) {reading : List Process × Nat}
    (hreading : reading ∈ s.reading) {seen : List (Process × Nat)} (lists : s.Lists reading seen)
    (dated ok : Bool) :
    Hosted { s with listings := s.listings ++ [⟨seen, reading.2, dated, ok, s.clock⟩] } := by
  refine ⟨h.serials, h.reading, ?_, ?_, h.checks⟩
  · intro listing hlisting
    cases mem_append.mp hlisting with
    | inl hold => exact h.listings listing hold
    | inr hnew =>
      rw [mem_singleton.mp hnew]
      obtain ⟨hpast, hlasting⟩ := h.reading reading hreading
      exact ⟨hpast,
        fun process hlive hserial => lists.1 process (hlasting process hlive hserial) hlive,
        lists.2.2, lists.2.1⟩
  · intro made hmade
    obtain ⟨hlisting, hinfo⟩ := h.made made hmade
    exact ⟨mem_append_left _ hlisting, hinfo⟩

theorem Hosted.record (h : Hosted s) (hlisting : listing ∈ s.listings)
    (supervisorPid payloadPid : Nat) : Hosted { s with made := s.made ++
      [⟨containmentRecord listing.table supervisorPid payloadPid s.clock, listing⟩] } := by
  refine ⟨h.serials, h.reading, h.listings, ?_, h.checks⟩
  intro made hmade
  cases mem_append.mp hmade with
  | inl hold => exact h.made made hold
  | inr hnew =>
    rw [mem_singleton.mp hnew]
    exact ⟨hlisting, supervisorPid, payloadPid, s.clock, rfl⟩

theorem Hosted.step (h : Hosted s) {event : ReclaimEvent} (careful : Careful s event) :
    Hosted (reclaimStep parse grace s event) := by
  cases event with
  | tick ms => exact ⟨h.serials, h.reading, h.listings, h.made, h.checks⟩
  | start pid createdAt =>
    unfold reclaimStep
    dsimp only
    split
    · exact h
    · exact h.start pid createdAt
  | exit serial => exact h.exit serial
  | beginListing => exact h.beginListing
  | endListing index seen dated ok =>
    unfold reclaimStep
    dsimp only
    split
    · exact h
    · rename_i reading hget
      split
      · rename_i lists
        exact h.endListing (mem_of_getElem? hget) lists dated ok
      · exact h
  | record index supervisorPid payloadPid =>
    unfold reclaimStep
    dsimp only
    split
    · exact h
    · rename_i listing hget
      exact h.record (mem_of_getElem? hget) supervisorPid payloadPid
  | write store => exact h.withStore store
  | select key =>
    unfold reclaimStep
    dsimp only
    split
    · exact h
    rename_i text hstored
    split
    · exact h
    rename_i info hinfo
    refine h.withChecks fun check hcheck => ?_
    cases mem_append.mp hcheck with
    | inl hold => exact h.checks check hold
    | inr hnew =>
      rw [mem_singleton.mp hnew]
      exact h.newCheck hstored (Option.mem_filter_iff.mp hinfo).2
  | probe index =>
    unfold reclaimStep
    dsimp only
    split
    · exact h
    · rename_i check hget
      exact h.setCheck (h.checks check (mem_of_getElem? hget)).probeCheck
  | consult index source =>
    unfold reclaimStep
    dsimp only
    split
    · rename_i check listing hcheck hlisting
      exact h.setCheck ((h.checks check (mem_of_getElem? hcheck)).consultCheck h
        (mem_of_getElem? hlisting) (careful check hcheck listing hlisting))
    · exact h
  | conclude index =>
    unfold reclaimStep
    dsimp only
    split
    · exact h
    · rename_i check hget
      exact h.setCheck (h.checks check (mem_of_getElem? hget)).concludeCheck
  | delete index =>
    unfold reclaimStep
    dsimp only
    split
    · exact h
    · split
      · refine .withStore (h.withChecks fun check hcheck => ?_) _
        exact h.checks check (mem_of_mem_eraseIdx hcheck)
      · exact h

/-- A pass whose quarantine was not rewritten removes what it read. -/
theorem CheckOk.deletesOnly (h : CheckOk s.live s.starts s.store check)
    (clean : check.overwritten = false) (now : Nat) :
    DeletesOnly s.store now check.text check.key := by
  have hstored := h.stored clean
  cases hkey : check.key with
  | lease leaseId =>
    intro row hrow hgone
    rw [hkey] at hstored
    have hremoved : row.leaseId = leaseId ∧ row.expiresAt = Providers.maxSafeInteger := by
      by_contra hkept
      refine hgone (mem_filter.mpr ⟨hrow, ?_⟩)
      by_cases hid : row.leaseId = leaseId
      · have hexpiry : row.expiresAt ≠ Providers.maxSafeInteger := fun h => hkept ⟨hid, h⟩
        simp [hexpiry]
      · simp [hid]
    apply hstored
    show (s.store.providers.leases.find? _).map _ = some row.containment
    cases hfind : s.store.providers.leases.find? fun other =>
        other.leaseId = leaseId ∧ other.expiresAt = Providers.maxSafeInteger with
    | none =>
      rw [List.find?_eq_none] at hfind
      exact absurd (decide_eq_true hremoved) (hfind row hrow)
    | some found =>
      have hmem := mem_of_find?_eq_some hfind
      have hname : found.leaseId = leaseId ∧ found.expiresAt = Providers.maxSafeInteger := by
        simpa using List.find?_some hfind
      rw [inj_on_of_nodup_map s.store.leaseKey hmem hrow (hname.1.trans hremoved.1.symm)]
      rfl
  | lock runId =>
    intro row hrow hgone
    rw [hkey] at hstored
    have hremoved : row.runId = runId ∧ row.expiresAt = AgentBridge.maxSafeInteger := by
      by_contra hkept
      exact hgone (mem_filter.mpr ⟨hrow, decide_eq_true hkept⟩)
    rw [hremoved.1]
    apply hstored
    refine if_pos (any_eq_true.mpr ⟨row, hrow, ?_⟩)
    simpa using hremoved

theorem Hosted.soundStep (h : Hosted s) {event : ReclaimEvent} (careful : Careful s event) :
    SoundStep grace s event := by
  cases event with
  | record index supervisorPid payloadPid =>
    intro listing hlisting hcomplete
    exact (containmentRecord_covers_iff hcomplete).mpr (careful listing hlisting hcomplete)
  | conclude index =>
    intro check hcheck hleft _ process hnamed
    have hok := h.checks check (mem_of_getElem? hcheck)
    refine (hok.named process hnamed).2.resolve_left ?_
    rw [hleft]
    exact not_mem_nil
  | delete index =>
    intro check hcheck _
    have hok := h.checks check (mem_of_getElem? hcheck)
    exact hok.deletesOnly (careful check hcheck) s.clock
  | tick ms => trivial
  | start pid createdAt => trivial
  | exit serial => trivial
  | beginListing => trivial
  | endListing index seen dated ok => trivial
  | write store => trivial
  | select key => trivial
  | probe index => trivial
  | consult index source => trivial

/-! ### Runs -/

theorem hosted_empty : Hosted emptyHost := by
  refine ⟨?_, ?_, ?_, ?_, ?_⟩ <;> simp [emptyHost]

/-- Every run of careful steps is sound at each of its steps. -/
theorem reclaim_sound_of_careful (parse : String → Option Record) (grace : Nat)
    (events : List ReclaimEvent) (careful : Along (reclaimStep parse grace) Careful emptyHost events) :
    Along (reclaimStep parse grace) (SoundStep grace) emptyHost events :=
  Along.of_invariant (fun _ _ h => h.step) (fun _ _ h => h.soundStep) hosted_empty careful

/-! ### Concrete runs -/

def payloadCreated : String := "Mon Jan  5 10:00:00 2026"

/-- The record of a payload without descendants, as it is stored. -/
def payloadText : String :=
  "\x7b\"pids\":[7],\"processes\":[\x7b\"pid\":7,\"createdAt\":\"Mon Jan  5 10:00:00 2026\"\x7d],\"pidOnly\":false,\"complete\":true,\"recordedAt\":1\x7d"

def payloadRecord : Record := ⟨[7], [(7, payloadCreated)], false, true, 1⟩

def parsePayload (text : String) : Option Record :=
  if text = payloadText then some payloadRecord else none

def quarantinedLease (text : String) : QuarantineStore :=
  { emptyStore with
    providers :=
      { ProviderDb.empty with
        leases := [⟨"lease-1", "opencode", "bridge-1", 1, 1, 1, Providers.maxSafeInteger, text⟩] }
    leaseKey := by simp }

/-- The payload starts, is listed and recorded, and its lease is quarantined. -/
def quarantinePayload : List ReclaimEvent :=
  [.tick 1, .start 7 payloadCreated, .beginListing,
    .endListing 0 [(⟨7, payloadCreated, 0⟩, 1)] true true, .record 0 0 7,
    .write (quarantinedLease payloadText)]

theorem reclaim_sound_of_ended_payload :
    Along (reclaimStep parsePayload 600000) (SoundStep 600000) emptyHost
      (quarantinePayload ++
        [.exit 0, .tick 600000, .select (.lease "lease-1"), .probe 0, .conclude 0, .delete 0]) :=
  reclaim_sound_of_careful parsePayload 600000 _ (by decide +kernel)

/-- The payload lives on; a listing without creation times has it, and the check takes
the pid for a reused one. -/
def undatedConsult : List ReclaimEvent :=
  quarantinePayload ++
    [.tick 600000, .select (.lease "lease-1"), .probe 0, .beginListing,
      .endListing 1 [(⟨7, payloadCreated, 0⟩, 1)] false true, .consult 0 1, .conclude 0]

/-- A listing that began before the payload started ends after it was recorded. -/
def earlyConsult : List ReclaimEvent :=
  [.tick 1, .beginListing, .start 7 payloadCreated, .beginListing,
    .endListing 1 [(⟨7, payloadCreated, 0⟩, 1)] true true, .record 0 0 7,
    .write (quarantinedLease payloadText), .endListing 0 [] true true,
    .select (.lease "lease-1"), .probe 0, .consult 0 1, .conclude 0]

/-- The lease is quarantined for another process tree while the first is found over. -/
def overwrittenDelete : List ReclaimEvent :=
  quarantinePayload ++
    [.exit 0, .tick 600000, .select (.lease "lease-1"), .probe 0, .conclude 0,
      .write (quarantinedLease "\x7b\"pids\":[8],\"complete\":true,\"recordedAt\":2\x7d"),
      .delete 0]

/-- Each part of soundness fails: a wide tree is recorded as complete without a
process of it, a live payload is taken for gone from an undated listing and, without a
grace, from an early one, and a newer quarantine is deleted for an older record. -/
theorem reclaim_unsound :
    ((containmentRecord (wideTree descendantLimit) 0 1 1).complete = true ∧
      ¬ Covers (wideTree descendantLimit) (containmentRoots 0 1)
        (containmentRecord (wideTree descendantLimit) 0 1 1)) ∧
    ¬ Along (reclaimStep parsePayload 600000) (SoundStep 600000) emptyHost undatedConsult ∧
    ¬ Along (reclaimStep parsePayload 0) (SoundStep 0) emptyHost earlyConsult ∧
    ¬ Along (reclaimStep parsePayload 600000) (SoundStep 600000) emptyHost overwrittenDelete := by
  have hcomplete : (containmentRecord (wideTree descendantLimit) 0 1 1).complete = true := rfl
  refine ⟨⟨hcomplete, ?_⟩, ?_, ?_, ?_⟩
  · rw [containmentRecord_covers_iff hcomplete, not_not]
    exact wideTree_cutShort
  · decide +kernel
  · decide +kernel
  · decide +kernel

end AgentBridge.Containment
