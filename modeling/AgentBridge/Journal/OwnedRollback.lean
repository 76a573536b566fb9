import AgentBridge.Journal.Settled
import AgentBridge.Journal.SoleWriter

/-!
# The verified rollback of owned changes

`rollbackVerifiedOwnedChanges` as it is called, with the normalization of its
path lists and with the report it returns, while the bridge is the only writer
of the checkout.
-/

namespace AgentBridge.Journal

open Paths Systems List

/-! ## The rollback -/

inductive RollbackOutcome where
  | success
  | partlyRolledBack
  | failed
  | notAttemptedUnattributedChanges
  | notNeeded

structure RollbackReport where
  rollback : RollbackOutcome
  result : RollbackResult

/-- The report of `rollbackUnsafeChanges`. -/
def rollbackUnsafeOutcome (files : List String) (result : List String × List String) :
    RollbackOutcome :=
  if result.2 ≠ [] then if result.1 ≠ [] then .partlyRolledBack else .failed
  else if files ≠ [] then .success else .notNeeded

variable {Local : Type}

/-- The body of the verification loop. -/
def verifyOwnedFile (settings : JournalSettings) (ownedSnapshot : Snapshot)
    (eolRecords : Option (List String)) (path : String) : Action Local Bool :=
  Procedure.recover
    (do
      let current ← exactIntegrationFileSnapshot settings (lockPaths [path])
      if current.lookup path = ownedSnapshot.lookup path then pure true
      else
        match eolRecords with
        | none => pure false
        | some _ => do
          let mismatches ←
            integrationContentMismatches ownedSnapshot current eolRecords (lockPaths [path])
          pure mismatches.isEmpty)
    fun _ => pure false

def verifyOwnedFiles (settings : JournalSettings) (ownedSnapshot : Snapshot)
    (eolRecords : Option (List String)) : List String → Action Local (List String × List String)
  | [] => pure ([], [])
  | path :: paths => do
    let owned ← verifyOwnedFile settings ownedSnapshot eolRecords path
    let rest ← verifyOwnedFiles settings ownedSnapshot eolRecords paths
    pure (if owned then (path :: rest.1, rest.2) else (rest.1, path :: rest.2))

/-- What `rollbackVerifiedOwnedChanges` returns after its rollback. -/
def verifiedRollbackReport (verified mismatches : List String)
    (result : List String × List String) : RollbackReport :=
  let unresolvedFiles := lockPaths (result.2 ++ mismatches)
  { rollback :=
      if unresolvedFiles ≠ [] then
        if result.1 ≠ [] then .partlyRolledBack else .notAttemptedUnattributedChanges
      else if verified ≠ [] then rollbackUnsafeOutcome (lockPaths verified) result
      else .notNeeded
    result := ⟨result.1, unresolvedFiles, mismatches⟩ }

/-- `rollbackVerifiedOwnedChanges` on the files of its caller. -/
def rollbackVerifiedOwnedFiles (settings : JournalSettings) (baseline : RollbackBaseline)
    (files : List String) (ownedSnapshot : Option Snapshot) (eolRecords : Option (List String)) :
    Action Local RollbackReport :=
  match ownedSnapshot with
  | none =>
    pure
      { rollback :=
          if lockPaths files ≠ [] then .notAttemptedUnattributedChanges else .notNeeded
        result := ⟨[], lockPaths files, lockPaths files⟩ }
  | some ownedSnapshot => do
    let owned ← verifyOwnedFiles settings ownedSnapshot eolRecords (lockPaths files)
    let result ← rollbackUnsafeChanges settings baseline (lockPaths owned.1)
    pure (verifiedRollbackReport owned.1 owned.2 result)

/-- The current content of the path is the one that the bridge recorded as its
own, or, for a file under the line ending tolerance, the recorded one with CRLF
for LF. -/
def BridgeOwned (settings : JournalSettings) (ownedSnapshot : Option Snapshot)
    (eolRecords : Option (List String)) (files : String → Leaf) (path : String) : Prop :=
  ∃ owned current recorded, ownedSnapshot = some owned ∧
    (files path).fingerprint settings.execBit = some current ∧
    owned.lookup path = some recorded ∧
    (current = recorded ∨
      ∃ records executable content converted, eolRecords = some records ∧ path ∈ records ∧
        current = .file executable content ∧ recorded = .file executable converted ∧
        crlfToLfBytes content = some converted)

/-! ## Leaves -/

variable {eolRecords : Option (List String)} {files : List String}

section

variable {instanceId : String} {commit : String → CommitEntry} (settings : JournalSettings)

theorem removeRollbackLeaf_spec (path : String) (locals : Local) (s : Machine) :
    (removeRollbackLeaf path).wp (executeAlone instanceId commit) (fun _ => True)
      (fun removed _ s' => removed = true → s'.files path = .missing) (fun _ _ _ => True)
      locals s := by
  unfold removeRollbackLeaf
  refine .bind ?_
  refine wp_lstat_alone (fun s' hfiles => ?_) fun _ _ _ => trivial
  have hremove : (issue (.removeLeaf path) >>= fun _ => pure true : Action Local Bool).wp
      (executeAlone instanceId commit) (fun _ => True)
      (fun removed _ s' => removed = true → s'.files path = .missing) (fun _ _ _ => True)
      locals s' := by
    refine .bind (wp_removeLeaf_alone (fun s₂ hwritten => ?_)
      fun _ _ => trivial)
    intro _
    rw [hwritten]
    exact Function.update_self path _ _
  cases hleaf : s.files path with
  | missing =>
    intro _
    rw [hfiles]
    exact hleaf
  | directory => exact nofun
  | link target => exact hremove
  | file mode content => exact hremove

theorem replaceRollbackLeaf_spec (path : String) (leaf : Leaf) (locals : Local) (s : Machine) :
    (replaceRollbackLeaf path leaf).wp (executeAlone instanceId commit) (fun _ => True)
      (fun replaced _ s' => replaced = true → s'.files path = leaf) (fun _ _ _ => True)
      locals s := by
  unfold replaceRollbackLeaf
  refine .bind ?_
  refine wp_lstat_alone (fun s' _ => ?_) fun _ _ _ => trivial
  refine .ite (fun _ => nofun) fun _ => ?_
  refine .recover ?_
  -- A failure after the temporary file reports the path as not replaced.
  have hfailed : ∀ (_ : JournalError) locals s, Procedure.wp (executeAlone instanceId commit)
      (fun _ => True) (pure false : Action Local Bool)
      (fun replaced _ s' => replaced = true → s'.files path = leaf) (fun _ _ _ => True)
      locals s := fun _ _ _ => nofun
  have hrename : ∀ locals s,
      (issue (.renameInto path leaf) >>= fun _ => pure true : Action Local Bool).wp
        (executeAlone instanceId commit) (fun _ => True)
        (fun replaced _ s' => replaced = true → s'.files path = leaf)
        (fun error locals s => Procedure.wp (executeAlone instanceId commit) (fun _ => True)
          (pure false : Action Local Bool)
          (fun replaced _ s' => replaced = true → s'.files path = leaf) (fun _ _ _ => True)
          locals s) locals s := by
    intro locals s
    refine .bind (wp_renameInto_alone (fun s₂ hwritten => ?_)
      fun error s₂ => hfailed error locals s₂)
    intro _
    rw [hwritten]
    exact Function.update_self path _ _
  refine wp_bind_any (fun _ locals s => ?_) hfailed
  exact .ite (fun _ => wp_bind_any (fun _ locals s => hrename locals s) hfailed)
    fun _ => hrename locals s

theorem exactIntegrationFileSnapshot_alone (path : String) (locals : Local) (s : Machine) :
    (exactIntegrationFileSnapshot settings [path]).wp (executeAlone instanceId commit)
      (fun _ => True)
      (fun snapshot _ s' => s'.files = s.files ∧ ∃ value, snapshot = [(path, value)] ∧
        (s.files path).fingerprint settings.execBit = some value)
      (fun _ _ s' => s'.files = s.files) locals s := by
  unfold exactIntegrationFileSnapshot exactIntegrationFileSnapshotFrom
  refine .bind ?_
  refine wp_readLeaf_alone (fun s' hfiles => ?_) fun _ _ hfiles => hfiles
  cases hleaf : snapshotLeaf settings 0 (s.files path) with
  | error error => exact hfiles
  | ok value =>
    refine ⟨hfiles, value.1, rfl, ?_⟩
    exact snapshotLeaf_fingerprint hleaf

theorem restoreFromGitHead_spec (path : String) (locals : Local) (s : Machine) :
    (restoreFromGitHead settings path).wp (executeAlone instanceId commit) (fun _ => True)
      (fun restored _ s' => restored = true → (commit path).leaf? = some (s'.files path))
      (fun _ _ _ => False) locals s := by
  unfold restoreFromGitHead
  refine .recover (.bind ?_)
  refine wp_commitLeaf_alone (fun s' _ => ?_) fun _ _ => nofun
  cases hleaf : (commit path).leaf? with
  | none => exact nofun
  | some leaf =>
    refine .bind ?_
    refine .mono (replaceRollbackLeaf_spec path leaf locals s') ?_
      fun _ _ _ _ => nofun
    intro restored locals₂ s₂ hrestored
    refine .ite (fun _ => nofun) fun hne => .bind ?_
    refine .mono (exactIntegrationFileSnapshot_alone settings path locals₂ s₂) ?_
      fun _ _ _ _ => nofun
    rintro snapshot locals₃ s₃ ⟨hfiles, _⟩ _
    rw [hfiles, hrestored (by simpa using hne)]

/-- A path reported as rolled back has its baseline content. -/
theorem rollbackUnsafeChange_spec (baseline : RollbackBaseline) (path : String) (locals : Local)
    (s : Machine) :
    (rollbackUnsafeChange settings baseline path).wp (executeAlone instanceId commit)
      (fun _ => True)
      (fun restored _ s' => restored = true →
        baselineLeaf commit baseline path = some (s'.files path))
      (fun _ _ _ => False) locals s := by
  unfold rollbackUnsafeChange baselineLeaf
  refine .recover ?_
  cases baseline.lookup path with
  | some entry =>
    cases entry with
    | unrestorable => exact nofun
    | «present» mode content =>
      refine .mono (replaceRollbackLeaf_spec path (.file mode content) locals s) ?_
        fun _ _ _ _ => nofun
      intro replaced _ s' hreplaced h
      rw [hreplaced h]
    | absent =>
      refine .mono (removeRollbackLeaf_spec path locals s) ?_ fun _ _ _ _ => nofun
      intro removed _ s' hremoved h
      rw [hremoved h]
  | none =>
    refine .bind ?_
    refine wp_presentInCommit_alone (fun s' _ => ?_) fun _ _ => nofun
    cases hcommit : commit path with
    | absent =>
      refine .mono (removeRollbackLeaf_spec path locals s') ?_
        fun _ _ _ _ => nofun
      intro removed _ s₂ hremoved h
      rw [hremoved h]
    | leaf found =>
      refine .mono (restoreFromGitHead_spec settings path locals s') ?_
        fun _ _ _ h => h.elim
      intro restored _ s₂ hrestored h
      have hleaf := hrestored h
      rw [hcommit] at hleaf
      exact hleaf
    | unrestorable =>
      refine .mono (restoreFromGitHead_spec settings path locals s') ?_
        fun _ _ _ h => h.elim
      intro restored _ s₂ hrestored h
      have hleaf := hrestored h
      rw [hcommit] at hleaf
      cases hleaf

/-- Later paths leave the content of an earlier one alone: where every path is
rolled back, every path has its baseline content at the end. -/
theorem rollbackUnsafeChanges_spec (baseline : RollbackBaseline) (files : List String)
    (hnodup : files.Nodup) (locals : Local) (s : Machine) :
    (rollbackUnsafeChanges settings baseline files).wp (executeAlone instanceId commit)
      (fun _ => True)
      (fun result _ s' => result.2 = [] →
        ∀ path ∈ files, baselineLeaf commit baseline path = some (s'.files path))
      (fun _ _ _ => True) locals s := by
  induction files generalizing locals s with
  | nil => exact fun _ => by simp
  | cons path files ih =>
    have ⟨hpath, hrest⟩ := nodup_cons.mp hnodup
    unfold rollbackUnsafeChanges
    refine .bind ?_
    refine .mono (rollbackUnsafeChange_spec settings baseline path locals s) ?_
      fun _ _ _ h => h.elim
    intro restored locals₁ s₁ hrestored
    refine .bind ?_
    refine Procedure.wp_consequence (Procedure.wp_and (ih hrest locals₁ s₁)
      (Confined.wroteOnly (rollbackUnsafeChanges_confined settings baseline files) locals₁ s₁))
      (fun _ _ => trivial) ?_ fun _ _ _ _ => trivial
    rintro rest locals₂ s₂ ⟨hfiles, _, hwrote⟩ hresolved other hother
    cases restored with
    | false => cases hresolved
    | true =>
      cases mem_cons.mp hother with
      | inl heq =>
        rw [heq, hwrote.files path hpath]
        exact hrestored rfl
      | inr hmem => exact hfiles hresolved other hmem

/-! ## The verification -/

theorem lockPaths_nodup (files : List String) : (lockPaths files).Nodup := by
  have hnodup : (normalizeLockPathList (files.map String.toList)).Nodup := nodup_eraseDups _
  exact hnodup.map fun _ _ h => String.ofList_injective h

variable {path : String}

theorem mem_lockPaths :
    path ∈ lockPaths files ↔
      path.toList ≠ [] ∧ ∃ file ∈ files, normalizeLockPath file.toList = path.toList := by
  unfold lockPaths
  rw [mem_map]
  constructor
  · rintro ⟨text, htext, rfl⟩
    have ⟨hne, file, hfile, heq⟩ := mem_normalizeLockPathList.mp htext
    have ⟨name, hname, hvalue⟩ := mem_map.mp hfile
    rw [String.toList_ofList]
    exact ⟨hne, name, hname, hvalue ▸ heq⟩
  · rintro ⟨hne, file, hfile, heq⟩
    refine ⟨path.toList, ?_, String.ofList_toList⟩
    exact mem_normalizeLockPathList.mpr ⟨hne, file.toList, mem_map_of_mem hfile, heq⟩

/-- The names that a further normalization leaves alone. -/
def StableName (path : String) : Prop := Stable path.toList

instance (path : String) : Decidable (StableName path) :=
  inferInstanceAs (Decidable (Stable path.toList))

theorem mem_lockPaths_of_stable (h : ∀ file ∈ files, file.toList ≠ [] ∧ StableName file) :
    path ∈ lockPaths files ↔ path ∈ files := by
  rw [mem_lockPaths]
  constructor
  · rintro ⟨_, file, hfile, heq⟩
    have hsame : file.toList = path.toList := (h file hfile).2.symm.trans heq
    exact String.toList_injective hsame ▸ hfile
  · exact fun hpath => ⟨(h path hpath).1, path, hpath, (h path hpath).2⟩

theorem lockPaths_singleton (hne : path.toList ≠ []) (h : StableName path) :
    lockPaths [path] = [path] := by
  have hmem : ∀ other, other ∈ lockPaths [path] ↔ other ∈ [path] := fun other =>
    mem_lockPaths_of_stable (fun file hfile => by
      rw [mem_singleton.mp hfile]
      exact ⟨hne, h⟩)
  have hperm := (perm_ext_iff_of_nodup (lockPaths_nodup [path])
    (nodup_singleton path)).mpr hmem
  exact perm_singleton.mp hperm

theorem regularFilePair_eq_some {expected actual : Option Fingerprint}
    {contents : List UInt8 × List UInt8} (h : regularFilePair expected actual = some contents) :
    ∃ executable, expected = some (.file executable contents.1) ∧
      actual = some (.file executable contents.2) := by
  unfold regularFilePair at h
  split at h
  · split at h
    · rename_i heq
      cases h
      exact ⟨_, rfl, by rw [heq]⟩
    · cases h
  · cases h

/-- The recorded file of the path with CRLF for LF, where the records allow it. -/
def CrlfForm (records : List String) (path : String) (expected actual : Option Fingerprint) :
    Prop :=
  ∃ executable content converted, path ∈ records ∧
    actual = some (.file executable content) ∧ expected = some (.file executable converted) ∧
    crlfToLfBytes content = some converted

theorem integrationContentMatches_spec (expected actual : Snapshot) (records : List String)
    (path : String) (locals : Local) (s : Machine) :
    (integrationContentMatches expected actual (some records) path).wp
      (executeAlone instanceId commit) (fun _ => True)
      (fun same _ _ => same = true → expected.lookup path = actual.lookup path ∨
        CrlfForm records path (expected.lookup path) (actual.lookup path))
      (fun _ _ _ => False) locals s := by
  unfold integrationContentMatches
  refine .ite (fun heq _ => .inl heq) fun _ => ?_
  cases hpair : regularFilePair (expected.lookup path) (actual.lookup path) with
  | none => exact nofun
  | some contents =>
    have ⟨executable, hexpected, hactual⟩ := regularFilePair_eq_some hpair
    refine .bind ?_
    show Procedure.wp _ _ (if !records.contains path then pure false else _) _ _ _ _
    refine .ite (fun _ => nofun) fun hallowed => ?_
    refine .recover (.bind ?_)
    refine wp_readLeaf_alone (fun s' _ => ?_) fun _ _ _ => nofun
    cases s.files path with
    | file mode content =>
      intro hsame
      simp only [Bool.and_eq_true, beq_iff_eq] at hsame
      refine .inr ⟨executable, contents.2, contents.1, ?_, hactual, hexpected, ?_⟩
      · simpa using hallowed
      · rw [← hsame.1]
        exact hsame.2
    | missing | link | directory => exact nofun

variable (ownedSnapshot : Snapshot)

theorem verifyOwnedFile_spec (eolRecords : Option (List String))
    (hsingle : lockPaths [path] = [path]) (locals : Local) (s : Machine) :
    (verifyOwnedFile settings ownedSnapshot eolRecords path).wp (executeAlone instanceId commit)
      (fun _ => True)
      (fun owned _ _ => owned = true →
        BridgeOwned settings (some ownedSnapshot) eolRecords s.files path)
      (fun _ _ _ => False) locals s := by
  unfold verifyOwnedFile
  rw [hsingle]
  refine .recover (.bind ?_)
  refine .mono (exactIntegrationFileSnapshot_alone settings path locals s) ?_
    fun _ _ _ _ => nofun
  rintro _ locals₁ s₁ ⟨_, value, rfl, hvalue⟩
  have hlookup : List.lookup path [(path, value)] = some value := by simp [List.lookup]
  rw [hlookup]
  refine .ite (fun heq _ => ?_) fun hne => ?_
  · exact ⟨ownedSnapshot, value, value, rfl, hvalue, heq.symm, .inl rfl⟩
  · cases eolRecords with
    | none => exact nofun
    | some records =>
      refine .bind (.bind ?_)
      refine .mono (integrationContentMatches_spec ownedSnapshot [(path, value)]
        records path locals₁ s₁) ?_ fun _ _ _ h => h.elim
      intro same locals₂ s₂ hsame hempty
      have hsame' : same = true := by
        cases same with
        | true => rfl
        | false => cases hempty
      rw [hlookup] at hsame
      cases hsame hsame' with
      | inl heq => exact absurd heq.symm hne
      | inr hform =>
        have ⟨executable, content, converted, hmem, hcurrent, hrecorded, hcrlf⟩ := hform
        cases hcurrent
        exact ⟨ownedSnapshot, _, _, rfl, hvalue, hrecorded,
          .inr ⟨records, executable, content, converted, rfl, hmem, rfl, rfl, hcrlf⟩⟩

theorem verifyOwnedFile_confined (eolRecords : Option (List String)) (path : String) :
    Confined [] (verifyOwnedFile settings ownedSnapshot eolRecords path : Action Local Bool) := by
  refine .recover (.bind (exactIntegrationFileSnapshot_confined settings _) fun current =>
    .ite (.pure _) ?_) fun _ => .pure _
  cases eolRecords with
  | none => exact .pure _
  | some records =>
    exact .bind (integrationContentMismatches_confined ownedSnapshot current _ _)
      fun mismatches => .pure _

theorem verifyOwnedFiles_confined (eolRecords : Option (List String)) (files : List String) :
    Confined [] (verifyOwnedFiles settings ownedSnapshot eolRecords files : Action Local _) := by
  induction files with
  | nil => exact .pure _
  | cons path files ih =>
    exact .bind (verifyOwnedFile_confined settings ownedSnapshot eolRecords path)
      fun owned => .bind ih fun rest => .pure _

structure Verified (settings : JournalSettings) (ownedSnapshot : Snapshot)
    (eolRecords : Option (List String)) (current : String → Leaf) (files : List String)
    (lists : List String × List String) : Prop where
  owned : ∀ path ∈ lists.1,
    BridgeOwned settings (some ownedSnapshot) eolRecords current path
  verified_mem : ∀ path ∈ lists.1, path ∈ files
  mismatch_mem : ∀ path ∈ lists.2, path ∈ files
  complete : lists.2 = [] → lists.1 = files

theorem Verified.cons_owned {ownedSnapshot : Snapshot} {current : String → Leaf}
    {lists : List String × List String}
    (h : Verified settings ownedSnapshot eolRecords current files lists)
    (howned : BridgeOwned settings (some ownedSnapshot) eolRecords current path) :
    Verified settings ownedSnapshot eolRecords current (path :: files)
      (path :: lists.1, lists.2) := by
  refine ⟨?_, ?_, ?_, fun hnone => by rw [h.complete hnone]⟩
  · intro other hother
    cases mem_cons.mp hother with
    | inl heq => exact heq ▸ howned
    | inr hmem => exact h.owned other hmem
  · intro other hother
    cases mem_cons.mp hother with
    | inl heq => exact heq ▸ mem_cons_self
    | inr hmem => exact mem_cons_of_mem _ (h.verified_mem other hmem)
  · exact fun other hother => mem_cons_of_mem _ (h.mismatch_mem other hother)

theorem Verified.cons_mismatch {ownedSnapshot : Snapshot} {current : String → Leaf}
    {lists : List String × List String}
    (h : Verified settings ownedSnapshot eolRecords current files lists) :
    Verified settings ownedSnapshot eolRecords current (path :: files)
      (lists.1, path :: lists.2) := by
  refine ⟨h.owned, ?_, ?_, nofun⟩
  · exact fun other hother => mem_cons_of_mem _ (h.verified_mem other hother)
  · intro other hother
    cases mem_cons.mp hother with
    | inl heq => exact heq ▸ mem_cons_self
    | inr hmem => exact mem_cons_of_mem _ (h.mismatch_mem other hmem)

theorem verifyOwnedFiles_spec (eolRecords : Option (List String)) (files : List String)
    (hsingle : ∀ path ∈ files, lockPaths [path] = [path]) (locals : Local) (s : Machine) :
    (verifyOwnedFiles settings ownedSnapshot eolRecords files).wp
      (executeAlone instanceId commit) (fun _ => True)
      (fun lists _ _ => Verified settings ownedSnapshot eolRecords s.files files lists)
      (fun _ _ _ => True) locals s := by
  induction files generalizing locals s with
  | nil => exact ⟨by simp, by simp, by simp, fun _ => rfl⟩
  | cons path files ih =>
    unfold verifyOwnedFiles
    refine .bind ?_
    have hhead := hsingle path mem_cons_self
    refine Procedure.wp_consequence (Procedure.wp_and
      (verifyOwnedFile_spec settings ownedSnapshot eolRecords hhead locals s)
      (Confined.wroteOnly (verifyOwnedFile_confined settings ownedSnapshot eolRecords path)
        locals s)) (fun _ _ => trivial) ?_ fun _ _ _ _ => trivial
    rintro owned locals₁ s₁ ⟨howned, _, hwrote⟩
    have hsame : s₁.files = s.files := (hwrote.mono (by simp)).files_eq
    refine .bind ?_
    refine .mono (ih (fun other hother => hsingle other
      (mem_cons_of_mem _ hother)) locals₁ s₁) ?_ fun _ _ _ h => h
    intro lists _ _ hlists
    rw [hsame] at hlists
    cases owned with
    | true => exact hlists.cons_owned settings (howned rfl)
    | false => exact hlists.cons_mismatch settings

/-! ## The whole call -/

theorem verifiedRollbackReport_success {verified mismatches : List String}
    {result : List String × List String}
    (h : (verifiedRollbackReport verified mismatches result).rollback = .success) :
    result.2 = [] ∧ lockPaths (result.2 ++ mismatches) = [] := by
  simp only [verifiedRollbackReport, rollbackUnsafeOutcome] at h
  split_ifs at h with hunresolved _ _ hresult
  simp_all

/-- At every moment of the call only owned paths have been written, and a call
that reports success has given every path its baseline content. -/
theorem rollbackVerifiedOwnedFiles_spec (baseline : RollbackBaseline) (files : List String)
    (ownedSnapshot : Option Snapshot) (eolRecords : Option (List String))
    (hstable : ∀ path ∈ lockPaths files, StableName path) (locals : Local) (s : Machine) :
    (rollbackVerifiedOwnedFiles settings baseline files ownedSnapshot eolRecords).wp
      (executeAlone instanceId commit)
      (WroteOnly (BridgeOwned settings ownedSnapshot eolRecords s.files) s)
      (fun report _ s' => WroteOnly (BridgeOwned settings ownedSnapshot eolRecords s.files) s s' ∧
        (report.rollback = .success →
          ∀ path ∈ lockPaths files, baselineLeaf commit baseline path = some (s'.files path)))
      (fun _ _ s' => WroteOnly (BridgeOwned settings ownedSnapshot eolRecords s.files) s s')
      locals s := by
  cases ownedSnapshot with
  | none =>
    refine ⟨WroteOnly.refl _ s, fun hsuccess => ?_⟩
    simp only at hsuccess
    split_ifs at hsuccess
  | some ownedSnapshot =>
    have hnames : ∀ path ∈ lockPaths files, path.toList ≠ [] ∧ StableName path :=
      fun path hpath => ⟨(mem_lockPaths.mp hpath).1, hstable path hpath⟩
    refine .bind ?_
    have hsingle : ∀ path ∈ lockPaths files, lockPaths [path] = [path] := fun path hpath =>
      lockPaths_singleton (hnames path hpath).1 (hnames path hpath).2
    refine Procedure.wp_consequence (Procedure.wp_and
      (verifyOwnedFiles_spec settings ownedSnapshot eolRecords _ hsingle locals s)
      (Confined.wroteOnly (verifyOwnedFiles_confined settings ownedSnapshot eolRecords _)
        locals s)) (fun s₁ h => h.2.mono (by simp)) ?_ fun _ _ s₁ h => h.2.2.mono (by simp)
    rintro lists locals₁ s₁ ⟨hlists, _, hnothing⟩
    have hverified : ∀ path, path ∈ lockPaths lists.1 ↔ path ∈ lists.1 := fun path =>
      mem_lockPaths_of_stable fun file hfile => hnames file (hlists.verified_mem file hfile)
    have howned : ∀ path ∈ lockPaths lists.1,
        BridgeOwned settings (some ownedSnapshot) eolRecords s.files path :=
      fun path hpath => hlists.owned path ((hverified path).mp hpath)
    have hbefore :
        WroteOnly (BridgeOwned settings (some ownedSnapshot) eolRecords s.files) s s₁ :=
      hnothing.mono (by simp)
    refine .bind ?_
    refine Procedure.wp_consequence (Procedure.wp_and
      (rollbackUnsafeChanges_spec settings baseline _ (lockPaths_nodup lists.1) locals₁ s₁)
      (Confined.wroteOnly (rollbackUnsafeChanges_confined settings baseline _) locals₁ s₁))
      (fun s₂ h => hbefore.trans (h.2.mono howned)) ?_
      fun _ _ s₂ h => hbefore.trans (h.2.2.mono howned)
    rintro result locals₂ s₂ ⟨hrestored, _, hwrote⟩
    refine ⟨hbefore.trans (hwrote.mono howned), fun hsuccess path hpath => ?_⟩
    have ⟨hresult, hunresolved⟩ := verifiedRollbackReport_success hsuccess
    have hmismatches : lists.2 = [] := by
      refine eq_nil_iff_forall_not_mem.mpr fun other hother => ?_
      have hmem : other ∈ lockPaths (result.2 ++ lists.2) := by
        have hname := hnames other (hlists.mismatch_mem other hother)
        exact mem_lockPaths.mpr
          ⟨hname.1, other, mem_append_right _ hother, hname.2⟩
      rw [hunresolved] at hmem
      cases hmem
    refine hrestored hresult path ((hverified path).mpr ?_)
    rw [hlists.complete hmismatches]
    exact hpath

end

/-- Along every run of the call, cut off or not, only paths whose content at its
start was the bridge's own are written, and a run that reports success has given
every path its baseline content. -/
theorem rollback_writes_owned_paths_only {Local : Type} (instanceId : String)
    (commit : String → CommitEntry) (settings : JournalSettings) (baseline : RollbackBaseline)
    (files : List String) (ownedSnapshot : Option Snapshot) (eolRecords : Option (List String))
    (hstable : ∀ path ∈ lockPaths files, StableName path) (locals : Local) (s : Machine)
    (envs : List JournalEnv) :
    let run := ((rollbackVerifiedOwnedFiles settings baseline files ownedSnapshot eolRecords)
      locals).run (executeAlone instanceId commit) s envs
    WroteOnly (BridgeOwned settings ownedSnapshot eolRecords s.files) s run.1 ∧
      ∀ report locals', run.2 = some (.ok report, locals') → report.rollback = .success →
        ∀ path ∈ lockPaths files, baselineLeaf commit baseline path = some (run.1.files path) := by
  intro run
  have hspec := @rollbackVerifiedOwnedFiles_spec Local instanceId commit settings baseline
    files ownedSnapshot eolRecords hstable locals s
  cases hrun : run with
  | mk s' value =>
    cases value with
    | none => exact ⟨Program.wp_interrupted _ hspec hrun, nofun⟩
    | some value =>
      have hreturned := Program.wp_returned _ hspec hrun
      match value with
      | (.ok report, locals') =>
        refine ⟨hreturned.1, ?_⟩
        rintro _ _ ⟨⟩
        exact hreturned.2
      | (.error error, locals') => exact ⟨hreturned, nofun⟩

/-! ## A run each way -/

def checkoutOf (path : String) (leaf : Leaf) : Machine :=
  { files := fun other => if other = path then leaf else .missing
    head := 0
    index := ⟨0, fun _ => 0, fun _ _ => false⟩
    operation := none
    lockOwned := true
    aborted := false
    blocked := false
    trace := [] }

/-- A rollback in which nothing fails, over an empty commit. -/
def undisturbedRollback (baseline : RollbackBaseline) (files : List String)
    (ownedSnapshot : Snapshot) (eolRecords : Option (List String)) (s : Machine) :
    Machine × Option (Except JournalError RollbackReport × Unit) :=
  ((rollbackVerifiedOwnedFiles ⟨1024, 1024, false⟩ baseline files (some ownedSnapshot) eolRecords)
    ()).run (executeAlone "bridge" fun _ => .absent) s (List.replicate 12 {})

theorem rollback_restores_modified_file :
    some (.file 0o644 [0x62]) = some ((undisturbedRollback [("a.txt", .present 0o644 [0x62])]
      ["a.txt"] [("a.txt", .file false [0x61])] none
      (checkoutOf "a.txt" (.file 0o644 [0x61]))).1.files "a.txt") :=
  (rollback_writes_owned_paths_only "bridge" (fun _ => .absent) ⟨1024, 1024, false⟩
    [("a.txt", .present 0o644 [0x62])] ["a.txt"] (some [("a.txt", .file false [0x61])]) none
    (by decide) () (checkoutOf "a.txt" (.file 0o644 [0x61]))
    (List.replicate 12 {})).2 ⟨.success, ⟨["a.txt"], [], []⟩⟩ () rfl rfl "a.txt"
    (by decide)

/-- A file that differs from the recorded one by CRLF is removed, and so is a
recorded path's neighbour whose name is not left alone by the normalization. -/
theorem rollback_removes_unrecorded_content :
    ((checkoutOf "a.txt" (.file 0o644 [0x61, 0x0d, 0x0a])).files "a.txt").fingerprint false ≠
        List.lookup "a.txt" [("a.txt", Fingerprint.file false [0x61, 0x0a])] ∧
      (undisturbedRollback [("a.txt", .absent)] ["a.txt"] [("a.txt", .file false [0x61, 0x0a])]
        (some ["a.txt"]) (checkoutOf "a.txt" (.file 0o644 [0x61, 0x0d, 0x0a]))).1.files "a.txt" =
        .missing ∧
      (undisturbedRollback [("a", .absent)] ["./ a"] [] none
        (checkoutOf "a" (.file 0o644 [0x61]))).1.files "a" = .missing := by
  decide

end AgentBridge.Journal
