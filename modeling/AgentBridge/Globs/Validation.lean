import AgentBridge.Globs.SerialOnly

/-!
# The scope check after a run

`validateChangedFilesForPlan` of `lib/rollback.js`: the changed files that git reports are
held to the plan's allowed edits, to the write scope of its contract and to its forbidden,
shared and, in a parallel run, serial-only patterns. Each list is consulted through the path
checks, which normalize the name first, and the reported files are normalized again.
-/

namespace AgentBridge.Globs

open AgentBridge.Paths AgentBridge.Systems List

inductive LockType where
  | read
  | write
  | serialIntegration
  | other (raw : String)
  deriving DecidableEq

inductive ScopeMode where
  | read
  | write
  deriving DecidableEq

structure ScopeRules where
  changedFilesMustBeWithinWriteScope : Bool
  forbiddenFilesMustNotChange : Bool
  readOnlyMustNotChangeFiles : Bool

structure ScopeContract where
  mode : ScopeMode
  write : List PathText
  forbidden : List PathText
  validation : ScopeRules

structure LockPlan where
  cwd : Option Directory
  lockType : LockType
  allowedEdits : List PathText
  forbiddenEdits : List PathText
  sharedFiles : List PathText
  serialOnly : List PathText
  scopeContract : Option ScopeContract

structure ScopeViolations where
  outsideWriteScope : List PathText
  forbiddenFiles : List PathText
  readOnlyChangedFiles : List PathText

structure Report where
  disallowedFiles : List PathText
  serialOnlyMatches : List PathText
  forbiddenFiles : List PathText
  sharedFiles : List PathText
  readOnlyChangedFiles : List PathText
  scopeViolations : ScopeViolations

section

variable (host : MatchHost)

/-- The files that the matcher of a nonempty scope leaves out; an empty scope takes none. -/
def unsafeChangedFiles (root : Option Directory) (changedFiles allowedPaths : List PathText) :
    Except String (List PathText) :=
  if allowedPaths = [] then .ok changedFiles
  else do
    let accepts ← createPathMatcher host root allowedPaths
    return changedFiles.filter fun file => !accepts file

/-- `files.filter(check)`, where the check can throw. -/
def filterFiles (check : PathText → Except String Bool) (files : List PathText) :
    Except String (List PathText) :=
  files.filterMapM fun file => do
    if ← check file then return some file else return none

/-- `changedFiles.filter((file) => isWithinAnyPath(file, paths, cwd))` -/
def filesWithin (root : Option Directory) (changedFiles paths : List PathText) :
    Except String (List PathText) :=
  filterFiles (fun file => isWithinAnyPath host root file paths) changedFiles

def outsideWriteScope (plan : LockPlan) (contract : ScopeContract) (changedFiles : List PathText) :
    Except String (List PathText) :=
  if contract.validation.changedFilesMustBeWithinWriteScope ∧ contract.mode = .write then
    unsafeChangedFiles host plan.cwd changedFiles contract.write
  else .ok []

def contractForbidden (plan : LockPlan) (contract : ScopeContract) (changedFiles : List PathText) :
    Except String (List PathText) :=
  if contract.validation.forbiddenFilesMustNotChange then
    filesWithin host plan.cwd changedFiles contract.forbidden
  else .ok []

/-- The contract is for reading only, by its own mode or by the plan's lock. -/
def contractReadOnly (plan : LockPlan) (contract : ScopeContract) : Bool :=
  contract.validation.readOnlyMustNotChangeFiles &&
    (contract.mode == .read || plan.lockType == .read)

def scopeChangedFileViolations (plan : LockPlan) (changedFiles : List PathText) :
    Except String ScopeViolations :=
  match plan.scopeContract with
  | none => .ok ⟨[], [], []⟩
  | some contract => do
    let outside ← outsideWriteScope host plan contract changedFiles
    let forbidden ← contractForbidden host plan contract changedFiles
    return {
      outsideWriteScope := normalizeLockPathList outside
      forbiddenFiles := normalizeLockPathList forbidden
      readOnlyChangedFiles := normalizeLockPathList
        (if contractReadOnly plan contract then normalizeLockPathList changedFiles else []) }

/-- The serial-only patterns are consulted in a parallel run only. -/
def serialOnlyMatchesOf (plan : LockPlan) (parallel : Bool) (changedFiles : List PathText) :
    Except String (List PathText) :=
  if parallel then findSerialOnlyMatches host plan.cwd changedFiles plan.serialOnly else .ok []

def serialOnlyFiles (plan : LockPlan) (serialOnlyMatches changedFiles : List PathText) :
    Except String (List PathText) :=
  if serialOnlyMatches = [] then .ok []
  else filterFiles
    (fun file => do
      let matched ← findSerialOnlyMatches host plan.cwd [file] plan.serialOnly
      return decide (matched ≠ []))
    changedFiles

/-- B-110: every lock type that may edit is held to `allowedEdits`. -/
def outsideAllowedEdits (plan : LockPlan) (changedFiles : List PathText) :
    Except String (List PathText) :=
  if plan.lockType = .read then .ok changedFiles
  else unsafeChangedFiles host plan.cwd changedFiles plan.allowedEdits

def validateChangedFilesForPlan (changedFiles : List PathText) (plan : LockPlan)
    (parallel : Bool) : Except String Report := do
  let serialOnlyMatches ← serialOnlyMatchesOf host plan parallel changedFiles
  let scopeViolations ← scopeChangedFileViolations host plan changedFiles
  let forbidden ← filesWithin host plan.cwd changedFiles plan.forbiddenEdits
  let shared ← filesWithin host plan.cwd changedFiles plan.sharedFiles
  let outside ← outsideAllowedEdits host plan changedFiles
  let serial ← serialOnlyFiles host plan serialOnlyMatches changedFiles
  let forbiddenFiles := normalizeLockPathList forbidden
  let sharedFiles := normalizeLockPathList shared
  return {
    disallowedFiles := normalizeLockPathList (outside ++ forbiddenFiles ++
      scopeViolations.outsideWriteScope ++ scopeViolations.forbiddenFiles ++
      scopeViolations.readOnlyChangedFiles ++ sharedFiles ++ serial)
    serialOnlyMatches := serialOnlyMatches
    forbiddenFiles := forbiddenFiles
    sharedFiles := sharedFiles
    readOnlyChangedFiles :=
      if plan.lockType = .read then normalizeLockPathList changedFiles else []
    scopeViolations := scopeViolations }

end

/-! ### What the plan permits -/

section

variable (host : MatchHost)

/-- A scope accepts the name itself, up to the case of the file system. -/
def acceptsName (root : Option Directory) (paths : List PathText) (file : PathText) :
    Except String Bool := do
  let matchers ← allowedPathMatchers host root paths
  return matchers.any fun accepts => accepts (normalizeFilesystemCase host root file)

/-- A name that normalization leaves alone, up to the case of the file system. -/
structure Canonical (root : Option Directory) (file : PathText) : Prop where
  ne_nil : file ≠ []
  stable : Stable file
  compared : comparePathCandidates host root file = [normalizeFilesystemCase host root file]

/-- Some serial-only pattern, built in or of the plan, overlaps the file. -/
def SerialOnly (plan : LockPlan) (file : PathText) : Prop :=
  ∃ pattern ∈ mergePathLists [serialOnlyPaths, plan.serialOnly],
    pathOverlapsSerialPattern host plan.cwd file pattern ≠ .ok false

/-- What the plan, its contract and the run allow to change. -/
structure Permitted (plan : LockPlan) (parallel : Bool) (file : PathText) : Prop where
  editing : plan.lockType ≠ .read
  allowed : acceptsName host plan.cwd plan.allowedEdits file = .ok true
  inWriteScope : ∀ contract, plan.scopeContract = some contract →
    contract.validation.changedFilesMustBeWithinWriteScope = true → contract.mode = .write →
      acceptsName host plan.cwd contract.write file = .ok true
  notReadOnly : ∀ contract, plan.scopeContract = some contract →
    contractReadOnly plan contract = false
  notForbidden : acceptsName host plan.cwd plan.forbiddenEdits file = .ok false
  notForbiddenByContract : ∀ contract, plan.scopeContract = some contract →
    contract.validation.forbiddenFilesMustNotChange = true →
      acceptsName host plan.cwd contract.forbidden file = .ok false
  notShared : acceptsName host plan.cwd plan.sharedFiles file = .ok false
  notSerialOnly : parallel = true → ¬ SerialOnly host plan file

end

variable {files results : List PathText}

section

variable {host : MatchHost} {root : Option Directory} {file : PathText}

theorem isWithinAnyPath_of_canonical (h : Canonical host root file) (paths : List PathText) :
    isWithinAnyPath host root file paths = acceptsName host root paths file := by
  unfold isWithinAnyPath acceptsName
  cases allowedPathMatchers host root paths with
  | error message => rfl
  | ok matchers =>
    simp [matchesAnyAllowed, h.compared]

variable {check : PathText → Except String Bool}

theorem filterFiles_ok (h : filterFiles check files = .ok results) :
    (∀ file ∈ files, ∃ answer, check file = .ok answer) ∧
      ∀ file, file ∈ results ↔ file ∈ files ∧ check file = .ok true := by
  obtain ⟨hall, hmem⟩ := filterMapM_ok h
  have hstep : ∀ file result, (do if ← check file then return some file else return none) =
      (.ok (some result) : Except String (Option PathText)) ↔
        check file = .ok true ∧ file = result := by
    intro file result
    cases check file with
    | error message => simp [bind, Except.bind]
    | ok answer => cases answer <;> simp [bind, Except.bind, pure, Except.pure]
  constructor
  · intro file hfile
    obtain ⟨found, hfound⟩ := hall file hfile
    cases hcheck : check file with
    | error message => simp [hcheck, bind, Except.bind] at hfound
    | ok answer => exact ⟨answer, rfl⟩
  · intro file
    rw [hmem]
    constructor
    · intro ⟨other, hother, hfound⟩
      obtain ⟨hcheck, rfl⟩ := (hstep other file).mp hfound
      exact ⟨hother, hcheck⟩
    · intro ⟨hfile, hcheck⟩
      exact ⟨file, hfile, (hstep file file).mpr ⟨hcheck, rfl⟩⟩

theorem exists_filterFiles (h : ∀ file ∈ files, ∃ answer, check file = .ok answer) :
    ∃ results, filterFiles check files = .ok results := by
  apply exists_filterMapM
  intro file hfile
  obtain ⟨answer, hanswer⟩ := h file hfile
  cases answer
  · exact ⟨none, by simp [hanswer, bind, Except.bind, pure, Except.pure]⟩
  · exact ⟨some file, by simp [hanswer, bind, Except.bind, pure, Except.pure]⟩

theorem filterFiles_eq_nil (h : filterFiles check files = .ok results) :
    results = [] ↔ ∀ file ∈ files, check file = .ok false := by
  obtain ⟨hall, hmem⟩ := filterFiles_ok h
  rw [eq_nil_iff_forall_not_mem]
  constructor
  · intro hnone file hfile
    obtain ⟨answer, hanswer⟩ := hall file hfile
    cases answer with
    | false => exact hanswer
    | true => exact absurd ((hmem file).mpr ⟨hfile, hanswer⟩) (hnone file)
  · intro hno file hresult
    obtain ⟨hfile, hanswer⟩ := (hmem file).mp hresult
    rw [hno file hfile] at hanswer
    cases hanswer

end

section

variable {host : MatchHost} {plan : LockPlan} {changedFiles : List PathText}

variable {paths : List PathText}

theorem filesWithin_eq_nil (hnames : ∀ file ∈ changedFiles, Canonical host plan.cwd file)
    (h : filesWithin host plan.cwd changedFiles paths = .ok results) :
    results = [] ↔ ∀ file ∈ changedFiles, acceptsName host plan.cwd paths file = .ok false := by
  rw [filterFiles_eq_nil h]
  apply forall₂_congr
  intro file hfile
  rw [isWithinAnyPath_of_canonical (hnames file hfile)]

theorem unsafeChangedFiles_eq_nil (hnames : ∀ file ∈ changedFiles, Canonical host plan.cwd file)
    (h : unsafeChangedFiles host plan.cwd changedFiles paths = .ok results) :
    results = [] ↔ ∀ file ∈ changedFiles, acceptsName host plan.cwd paths file = .ok true := by
  unfold unsafeChangedFiles at h
  split at h
  · rename_i hpaths
    obtain rfl := Except.ok.inj h
    rw [eq_nil_iff_forall_not_mem]
    apply forall_congr'
    intro file
    have hempty : acceptsName host plan.cwd [] file = .ok false := rfl
    rw [hpaths, hempty]
    simp
  · cases createPathMatcher_cases host plan.cwd paths with
    | inl hrefused =>
      obtain ⟨message, hcreate, _⟩ := hrefused
      rw [hcreate] at h
      cases h
    | inr hbuilt =>
      obtain ⟨accepts, matchers, hcreate, hmatchers, hagree⟩ := hbuilt
      rw [hcreate] at h
      obtain rfl := Except.ok.inj h
      rw [filter_eq_nil_iff]
      apply forall₂_congr
      intro file hfile
      have hname : acceptsName host plan.cwd paths file = .ok (accepts file) := by
        rw [← isWithinAnyPath_of_canonical (hnames file hfile), isWithinAnyPath, hmatchers,
          hagree]
        rfl
      rw [hname]
      simp

theorem mem_unsafeChangedFiles {root : Option Directory}
    (h : unsafeChangedFiles host root changedFiles paths = .ok results) {file : PathText}
    (hfile : file ∈ results) : file ∈ changedFiles := by
  unfold unsafeChangedFiles at h
  split at h
  · obtain rfl := Except.ok.inj h
    exact hfile
  · cases hcreate : createPathMatcher host root paths with
    | error message =>
      rw [hcreate] at h
      cases h
    | ok accepts =>
      rw [hcreate] at h
      obtain rfl := Except.ok.inj h
      exact mem_of_mem_filter hfile

theorem mem_normalizeLockPathList_of_canonical
    (hnames : ∀ file ∈ changedFiles, Canonical host plan.cwd file)
    (hsub : ∀ file ∈ files, file ∈ changedFiles) {file : PathText} :
    file ∈ normalizeLockPathList files ↔ file ∈ files :=
  mem_normalizeLockPathList_of_stable fun value hvalue =>
    ⟨(hnames value (hsub value hvalue)).ne_nil, (hnames value (hsub value hvalue)).stable⟩

section

variable (hnames : ∀ file ∈ changedFiles, Canonical host plan.cwd file)

include hnames

theorem normalizeLockPathList_eq_nil (hsub : ∀ file ∈ files, file ∈ changedFiles) :
    normalizeLockPathList files = [] ↔ files = [] := by
  rw [eq_nil_iff_forall_not_mem, eq_nil_iff_forall_not_mem]
  apply forall_congr'
  intro file
  rw [mem_normalizeLockPathList_of_canonical hnames hsub]

theorem findSerialOnlyMatches_of_canonical (hsub : ∀ file ∈ files, file ∈ changedFiles) :
    findSerialOnlyMatches host plan.cwd files plan.serialOnly = .ok [] ↔
      ∀ file ∈ files, ¬ SerialOnly host plan file := by
  rw [findSerialOnlyMatches_eq_nil]
  simp only [mem_normalizeLockPathList_of_canonical hnames hsub, SerialOnly, not_exists, not_and,
    not_not]

/-! ### The parts of the report -/

theorem outsideAllowedEdits_eq_nil (h : outsideAllowedEdits host plan changedFiles = .ok results) :
    results = [] ↔ ∀ file ∈ changedFiles, plan.lockType ≠ .read ∧
      acceptsName host plan.cwd plan.allowedEdits file = .ok true := by
  unfold outsideAllowedEdits at h
  split at h
  · rename_i hread
    obtain rfl := Except.ok.inj h
    rw [eq_nil_iff_forall_not_mem]
    apply forall_congr'
    intro file
    simp [hread]
  · rename_i hread
    rw [unsafeChangedFiles_eq_nil hnames h]
    apply forall₂_congr
    intro file _
    simp [hread]

end

theorem mem_outsideAllowedEdits (h : outsideAllowedEdits host plan changedFiles = .ok results)
    {file : PathText} (hfile : file ∈ results) : file ∈ changedFiles := by
  unfold outsideAllowedEdits at h
  split at h
  · obtain rfl := Except.ok.inj h
    exact hfile
  · exact mem_unsafeChangedFiles h hfile

variable {contract : ScopeContract}

theorem outsideWriteScope_eq_nil (hnames : ∀ file ∈ changedFiles, Canonical host plan.cwd file)
    (h : outsideWriteScope host plan contract changedFiles = .ok results) :
    results = [] ↔ ∀ file ∈ changedFiles,
      contract.validation.changedFilesMustBeWithinWriteScope = true → contract.mode = .write →
        acceptsName host plan.cwd contract.write file = .ok true := by
  unfold outsideWriteScope at h
  split at h
  · rename_i hheld
    rw [unsafeChangedFiles_eq_nil hnames h]
    apply forall₂_congr
    intro file _
    simp [hheld]
  · rename_i hheld
    obtain rfl := Except.ok.inj h
    exact ⟨fun _ file _ hflag hmode => absurd ⟨hflag, hmode⟩ hheld, fun _ => rfl⟩

theorem mem_outsideWriteScope (h : outsideWriteScope host plan contract changedFiles = .ok results)
    {file : PathText} (hfile : file ∈ results) : file ∈ changedFiles := by
  unfold outsideWriteScope at h
  split at h
  · exact mem_unsafeChangedFiles h hfile
  · obtain rfl := Except.ok.inj h
    cases hfile

theorem contractForbidden_eq_nil (hnames : ∀ file ∈ changedFiles, Canonical host plan.cwd file)
    (h : contractForbidden host plan contract changedFiles = .ok results) :
    results = [] ↔ ∀ file ∈ changedFiles,
      contract.validation.forbiddenFilesMustNotChange = true →
        acceptsName host plan.cwd contract.forbidden file = .ok false := by
  unfold contractForbidden at h
  split at h
  · rename_i hheld
    rw [filesWithin_eq_nil hnames h]
    apply forall₂_congr
    intro file _
    simp [hheld]
  · rename_i hheld
    obtain rfl := Except.ok.inj h
    exact ⟨fun _ file _ hflag => absurd hflag hheld, fun _ => rfl⟩

theorem mem_contractForbidden (h : contractForbidden host plan contract changedFiles = .ok results)
    {file : PathText} (hfile : file ∈ results) : file ∈ changedFiles := by
  unfold contractForbidden at h
  split at h
  · exact ((filterFiles_ok h).2 file |>.mp hfile).1
  · obtain rfl := Except.ok.inj h
    cases hfile

/-- What the contract of a plan asks of one file. -/
def KeepsContract (host : MatchHost) (plan : LockPlan) (file : PathText) : Prop :=
  ∀ contract, plan.scopeContract = some contract →
    (contract.validation.changedFilesMustBeWithinWriteScope = true → contract.mode = .write →
      acceptsName host plan.cwd contract.write file = .ok true) ∧
    (contract.validation.forbiddenFilesMustNotChange = true →
      acceptsName host plan.cwd contract.forbidden file = .ok false) ∧
    contractReadOnly plan contract = false

theorem scopeChangedFileViolations_spec
    (hnames : ∀ file ∈ changedFiles, Canonical host plan.cwd file) {violations : ScopeViolations}
    (h : scopeChangedFileViolations host plan changedFiles = .ok violations) :
    (∀ file ∈ violations.outsideWriteScope ++ violations.forbiddenFiles ++
        violations.readOnlyChangedFiles, file ∈ changedFiles) ∧
      (violations.outsideWriteScope ++ violations.forbiddenFiles ++
        violations.readOnlyChangedFiles = [] ↔ ∀ file ∈ changedFiles,
          KeepsContract host plan file) := by
  unfold scopeChangedFileViolations at h
  cases hcontract : plan.scopeContract with
  | none =>
    rw [hcontract] at h
    obtain rfl := Except.ok.inj h
    simp [KeepsContract, hcontract]
  | some contract =>
    simp only [hcontract, bind_ok] at h
    obtain ⟨outside, houtside, forbidden, hforbidden, h⟩ := h
    obtain rfl := Except.ok.inj h
    have hall : ∀ file ∈ changedFiles, file ∈ changedFiles := fun _ hfile => hfile
    have hread : ∀ file, file ∈ normalizeLockPathList
        (if contractReadOnly plan contract then normalizeLockPathList changedFiles else []) ↔
          contractReadOnly plan contract = true ∧ file ∈ changedFiles := by
      intro file
      cases contractReadOnly plan contract with
      | false => simp [mem_normalizeLockPathList]
      | true =>
        have hsub : ∀ other ∈ normalizeLockPathList changedFiles, other ∈ changedFiles :=
          fun other hother => (mem_normalizeLockPathList_of_canonical hnames hall).mp hother
        simp only [if_true, true_and]
        rw [mem_normalizeLockPathList_of_canonical hnames hsub,
          mem_normalizeLockPathList_of_canonical hnames hall]
    have hout : ∀ file, file ∈ normalizeLockPathList outside ↔ file ∈ outside := fun _ =>
      mem_normalizeLockPathList_of_canonical hnames
        (fun other hother => mem_outsideWriteScope houtside hother)
    have hforb : ∀ file, file ∈ normalizeLockPathList forbidden ↔ file ∈ forbidden := fun _ =>
      mem_normalizeLockPathList_of_canonical hnames
        (fun other hother => mem_contractForbidden hforbidden hother)
    constructor
    · intro file hfile
      rw [mem_append, mem_append, hout, hforb, hread] at hfile
      cases hfile with
      | inl hfile =>
        cases hfile with
        | inl hfile => exact mem_outsideWriteScope houtside hfile
        | inr hfile => exact mem_contractForbidden hforbidden hfile
      | inr hfile => exact hfile.2
    · rw [append_eq_nil_iff, append_eq_nil_iff,
        normalizeLockPathList_eq_nil hnames
          (fun other hother => mem_outsideWriteScope houtside hother),
        normalizeLockPathList_eq_nil hnames
          (fun other hother => mem_contractForbidden hforbidden hother),
        outsideWriteScope_eq_nil hnames houtside, contractForbidden_eq_nil hnames hforbidden,
        eq_nil_iff_forall_not_mem]
      simp only [hread, KeepsContract, hcontract, Option.some.injEq, forall_eq', not_and]
      constructor
      · intro ⟨⟨hscope, hforbid⟩, hreads⟩ file hfile
        refine ⟨hscope file hfile, hforbid file hfile, ?_⟩
        rw [← Bool.not_eq_true]
        exact fun hflag => hreads file hflag hfile
      · intro hkeeps
        refine ⟨⟨fun file hfile => (hkeeps file hfile).1,
          fun file hfile => (hkeeps file hfile).2.1⟩, ?_⟩
        intro file hflag hfile
        rw [(hkeeps file hfile).2.2] at hflag
        cases hflag

variable {parallel : Bool}

theorem serialOnlyFiles_spec (hnames : ∀ file ∈ changedFiles, Canonical host plan.cwd file)
    {serialMatches : List PathText}
    (hmatches : serialOnlyMatchesOf host plan parallel changedFiles = .ok serialMatches)
    (h : serialOnlyFiles host plan serialMatches changedFiles = .ok results) :
    (∀ file ∈ results, file ∈ changedFiles) ∧
      (results = [] ↔ ∀ file ∈ changedFiles, parallel = true → ¬ SerialOnly host plan file) := by
  have hall : ∀ file ∈ changedFiles, file ∈ changedFiles := fun _ hfile => hfile
  unfold serialOnlyMatchesOf at hmatches
  unfold serialOnlyFiles at h
  cases parallel with
  | false =>
    obtain rfl := Except.ok.inj hmatches
    rw [if_pos rfl] at h
    obtain rfl := Except.ok.inj h
    simp
  | true =>
    rw [if_pos rfl] at hmatches
    have hnone : serialMatches = [] ↔ ∀ file ∈ changedFiles, ¬ SerialOnly host plan file := by
      rw [← findSerialOnlyMatches_of_canonical hnames hall, hmatches]
      simp
    split at h
    · rename_i hnil
      obtain rfl := Except.ok.inj h
      simpa using hnone.mp hnil
    · rename_i hsome
      constructor
      · intro file hfile
        exact ((filterFiles_ok h).2 file |>.mp hfile).1
      · rw [filterFiles_eq_nil h]
        apply forall₂_congr
        intro file hfile
        have hone : findSerialOnlyMatches host plan.cwd [file] plan.serialOnly = .ok [] ↔
            ¬ SerialOnly host plan file := by
          have hsub : ∀ other ∈ [file], other ∈ changedFiles := by
            intro other hother
            rw [mem_singleton.mp hother]
            exact hfile
          rw [findSerialOnlyMatches_of_canonical hnames hsub]
          simp
        rw [← hone]
        cases findSerialOnlyMatches host plan.cwd [file] plan.serialOnly with
        | error message => simp [bind, Except.bind]
        | ok matched => simp [bind, Except.bind, pure, Except.pure]

theorem permitted_iff {file : PathText} :
    Permitted host plan parallel file ↔
      (plan.lockType ≠ .read ∧ acceptsName host plan.cwd plan.allowedEdits file = .ok true) ∧
        acceptsName host plan.cwd plan.forbiddenEdits file = .ok false ∧
        acceptsName host plan.cwd plan.sharedFiles file = .ok false ∧
        KeepsContract host plan file ∧ (parallel = true → ¬ SerialOnly host plan file) := by
  constructor
  · intro h
    exact ⟨⟨h.editing, h.allowed⟩, h.notForbidden, h.notShared, fun contract hcontract =>
      ⟨h.inWriteScope contract hcontract, h.notForbiddenByContract contract hcontract,
        h.notReadOnly contract hcontract⟩, h.notSerialOnly⟩
  · intro ⟨⟨hediting, hallowed⟩, hforbidden, hshared, hcontract, hserial⟩
    exact ⟨hediting, hallowed, fun contract hsome => (hcontract contract hsome).1,
      fun contract hsome => (hcontract contract hsome).2.2, hforbidden,
      fun contract hsome => (hcontract contract hsome).2.1, hshared, hserial⟩

/-- The report of a run is empty exactly when everything the run changed was permitted. -/
theorem disallowedFiles_eq_nil (hnames : ∀ file ∈ changedFiles, Canonical host plan.cwd file)
    {report : Report}
    (h : validateChangedFilesForPlan host changedFiles plan parallel = .ok report) :
    report.disallowedFiles = [] ↔ ∀ file ∈ changedFiles, Permitted host plan parallel file := by
  simp only [validateChangedFilesForPlan, bind_ok] at h
  obtain ⟨serialMatches, hmatches, violations, hviolations, forbidden, hforbidden, shared, hshared,
    outside, houtside, serial, hserial, h⟩ := h
  obtain rfl := Except.ok.inj h
  obtain ⟨hviolationsSub, hviolationsNil⟩ := scopeChangedFileViolations_spec hnames hviolations
  obtain ⟨hserialSub, hserialNil⟩ := serialOnlyFiles_spec hnames hmatches hserial
  have hforbiddenSub : ∀ file ∈ forbidden, file ∈ changedFiles := fun file hfile =>
    ((filterFiles_ok hforbidden).2 file |>.mp hfile).1
  have hsharedSub : ∀ file ∈ shared, file ∈ changedFiles := fun file hfile =>
    ((filterFiles_ok hshared).2 file |>.mp hfile).1
  have hsub : ∀ file ∈ outside ++ normalizeLockPathList forbidden ++
      violations.outsideWriteScope ++ violations.forbiddenFiles ++
      violations.readOnlyChangedFiles ++ normalizeLockPathList shared ++ serial,
      file ∈ changedFiles := by
    intro file hfile
    simp only [mem_append,
      mem_normalizeLockPathList_of_canonical hnames hforbiddenSub,
      mem_normalizeLockPathList_of_canonical hnames hsharedSub] at hfile
    have hout : file ∈ outside → file ∈ changedFiles := mem_outsideAllowedEdits houtside
    grind
  rw [normalizeLockPathList_eq_nil hnames hsub]
  have hparts : outside ++ normalizeLockPathList forbidden ++
      violations.outsideWriteScope ++ violations.forbiddenFiles ++
      violations.readOnlyChangedFiles ++ normalizeLockPathList shared ++ serial = [] ↔
      outside = [] ∧ forbidden = [] ∧ shared = [] ∧
        violations.outsideWriteScope ++ violations.forbiddenFiles ++
          violations.readOnlyChangedFiles = [] ∧ serial = [] := by
    simp only [append_eq_nil_iff, normalizeLockPathList_eq_nil hnames hforbiddenSub,
      normalizeLockPathList_eq_nil hnames hsharedSub]
    grind
  rw [hparts, outsideAllowedEdits_eq_nil hnames houtside, filesWithin_eq_nil hnames hforbidden,
    filesWithin_eq_nil hnames hshared, hviolationsNil, hserialNil]
  constructor
  · intro ⟨hout, hforb, hshare, hkeeps, hser⟩ file hfile
    exact permitted_iff.mpr ⟨hout file hfile, hforb file hfile, hshare file hfile,
      hkeeps file hfile, hser file hfile⟩
  · intro hall
    have hpermitted := fun file hfile => permitted_iff.mp (hall file hfile)
    exact ⟨fun file hfile => (hpermitted file hfile).1,
      fun file hfile => (hpermitted file hfile).2.1,
      fun file hfile => (hpermitted file hfile).2.2.1,
      fun file hfile => (hpermitted file hfile).2.2.2.1,
      fun file hfile => (hpermitted file hfile).2.2.2.2⟩

/-- The lists of patterns that the check of a plan consults. -/
def consultedPaths (plan : LockPlan) : List (List PathText) :=
  [plan.allowedEdits, plan.forbiddenEdits, plan.sharedFiles] ++
    plan.scopeContract.toList.flatMap fun contract => [contract.write, contract.forbidden]

/-- Every glob that the check of a plan consults is one that `RegExp` takes. -/
structure Compiles (host : MatchHost) (plan : LockPlan) : Prop where
  paths : ∀ paths ∈ consultedPaths plan, ∃ matchers, allowedPathMatchers host plan.cwd paths =
    .ok matchers
  serialOnly : ∀ pattern ∈ mergePathLists [serialOnlyPaths, plan.serialOnly], ∀ candidate,
    ∃ answer, pathOverlapsSerialPattern host plan.cwd candidate pattern = .ok answer

theorem exists_filesWithin
    (h : ∃ matchers, allowedPathMatchers host plan.cwd paths = .ok matchers) :
    ∃ results, filesWithin host plan.cwd changedFiles paths = .ok results := by
  obtain ⟨matchers, hmatchers⟩ := h
  apply exists_filterFiles
  intro file _
  exact ⟨matchesAnyAllowed host plan.cwd file matchers, by rw [isWithinAnyPath, hmatchers]; rfl⟩

theorem exists_unsafeChangedFiles
    (h : ∃ matchers, allowedPathMatchers host plan.cwd paths = .ok matchers) :
    ∃ results, unsafeChangedFiles host plan.cwd changedFiles paths = .ok results := by
  unfold unsafeChangedFiles
  split
  · exact ⟨changedFiles, rfl⟩
  · obtain ⟨matchers, hmatchers⟩ := h
    cases createPathMatcher_cases host plan.cwd paths with
    | inl hrefused =>
      obtain ⟨message, _, herror⟩ := hrefused
      rw [hmatchers] at herror
      cases herror
    | inr hbuilt =>
      obtain ⟨accepts, _, hcreate, _⟩ := hbuilt
      exact ⟨_, by rw [hcreate]; rfl⟩

theorem exists_findSerialOnlyMatches (h : Compiles host plan) (paths : List PathText) :
    ∃ labels, findSerialOnlyMatches host plan.cwd paths plan.serialOnly = .ok labels := by
  obtain ⟨labels, hlabels⟩ : ∃ labels, (serialPairs paths plan.serialOnly).filterMapM
      (serialMatch host plan.cwd) = .ok labels := by
    apply exists_filterMapM
    intro pair hpair
    simp only [serialPairs, mem_flatMap, mem_map] at hpair
    obtain ⟨candidate, _, pattern, hpattern, rfl⟩ := hpair
    obtain ⟨answer, hanswer⟩ := h.serialOnly pattern hpattern candidate
    unfold serialMatch
    rw [hanswer]
    cases answer
    · exact ⟨none, rfl⟩
    · exact ⟨some _, rfl⟩
  exact ⟨labels.eraseDups, by rw [findSerialOnlyMatches, hlabels]; rfl⟩

theorem exists_validateChangedFilesForPlan (h : Compiles host plan) (parallel : Bool) :
    ∃ report, validateChangedFilesForPlan host changedFiles plan parallel = .ok report := by
  have hallowed := h.paths plan.allowedEdits (by simp [consultedPaths])
  have hforbiddenEdits := h.paths plan.forbiddenEdits (by simp [consultedPaths])
  have hsharedFiles := h.paths plan.sharedFiles (by simp [consultedPaths])
  obtain ⟨serialMatches, hmatches⟩ : ∃ serialMatches,
      serialOnlyMatchesOf host plan parallel changedFiles = .ok serialMatches := by
    cases parallel
    · exact ⟨[], rfl⟩
    · exact exists_findSerialOnlyMatches h changedFiles
  obtain ⟨violations, hviolations⟩ : ∃ violations,
      scopeChangedFileViolations host plan changedFiles = .ok violations := by
    unfold scopeChangedFileViolations
    cases hcontract : plan.scopeContract with
    | none => exact ⟨_, rfl⟩
    | some contract =>
      have hwrite := h.paths contract.write (by simp [consultedPaths, hcontract])
      have hforbid := h.paths contract.forbidden (by simp [consultedPaths, hcontract])
      obtain ⟨outside, houtside⟩ : ∃ outside,
          outsideWriteScope host plan contract changedFiles = .ok outside := by
        unfold outsideWriteScope
        split
        · exact exists_unsafeChangedFiles hwrite
        · exact ⟨[], rfl⟩
      obtain ⟨forbidden, hforbidden⟩ : ∃ forbidden,
          contractForbidden host plan contract changedFiles = .ok forbidden := by
        unfold contractForbidden
        split
        · exact exists_filesWithin hforbid
        · exact ⟨[], rfl⟩
      simp only [bind_ok]
      exact ⟨_, outside, houtside, forbidden, hforbidden, rfl⟩
  obtain ⟨forbidden, hforbidden⟩ : ∃ forbidden,
      filesWithin host plan.cwd changedFiles plan.forbiddenEdits = .ok forbidden :=
    exists_filesWithin hforbiddenEdits
  obtain ⟨shared, hshared⟩ : ∃ shared,
      filesWithin host plan.cwd changedFiles plan.sharedFiles = .ok shared :=
    exists_filesWithin hsharedFiles
  obtain ⟨outside, houtside⟩ : ∃ outside,
      outsideAllowedEdits host plan changedFiles = .ok outside := by
    unfold outsideAllowedEdits
    split
    · exact ⟨changedFiles, rfl⟩
    · exact exists_unsafeChangedFiles hallowed
  obtain ⟨serial, hserial⟩ : ∃ serial,
      serialOnlyFiles host plan serialMatches changedFiles = .ok serial := by
    unfold serialOnlyFiles
    split
    · exact ⟨[], rfl⟩
    · apply exists_filterFiles
      intro file _
      obtain ⟨labels, hlabels⟩ := exists_findSerialOnlyMatches h [file]
      exact ⟨decide (labels ≠ []), by rw [hlabels]; rfl⟩
  simp only [validateChangedFilesForPlan, bind_ok]
  exact ⟨_, serialMatches, hmatches, violations, hviolations, forbidden, hforbidden, shared,
    hshared, outside, houtside, serial, hserial, rfl⟩

end

/-! ### The gate -/

/-- On canonical names the check of a plan whose globs compile returns a report, the report
names no file exactly when everything is permitted, and a read plan with any changed file is
reported. -/
theorem validateChangedFilesForPlan_exact (host : MatchHost) (plan : LockPlan) (parallel : Bool)
    (changedFiles : List PathText)
    (hnames : ∀ file ∈ changedFiles, Canonical host plan.cwd file) :
    (Compiles host plan →
      ∃ report, validateChangedFilesForPlan host changedFiles plan parallel = .ok report) ∧
    ∀ report, validateChangedFilesForPlan host changedFiles plan parallel = .ok report →
      (report.disallowedFiles = [] ↔
        ∀ file ∈ changedFiles, Permitted host plan parallel file) ∧
      (plan.lockType = .read → changedFiles ≠ [] → report.disallowedFiles ≠ []) := by
  refine ⟨fun hcompiles => exists_validateChangedFilesForPlan hcompiles parallel, ?_⟩
  intro report hreport
  have hexact := disallowedFiles_eq_nil hnames hreport
  refine ⟨hexact, fun hread hsome hnil => ?_⟩
  obtain ⟨file, rest, hfiles⟩ := exists_cons_of_ne_nil hsome
  exact (hexact.mp hnil file (hfiles ▸ mem_cons_self)).editing hread

/-- A write plan for one path, without a contract. -/
def writePlan (allowed : PathText) : LockPlan :=
  ⟨none, .write, [allowed], [], [], [], none⟩

def readPlan : LockPlan := ⟨none, .read, [], [], [], [], none⟩

theorem validateChangedFilesForPlan_exact_of_writePlan :
    (∀ file ∈ [['a']], Canonical posixHost none file) ∧
    ∀ report, validateChangedFilesForPlan posixHost [['a']] (writePlan ['a']) true = .ok report →
      (report.disallowedFiles = [] ↔
        ∀ file ∈ [['a']], Permitted posixHost (writePlan ['a']) true file) := by
  have hnames : ∀ file ∈ [['a']], Canonical posixHost none file := by
    intro file hfile
    rw [mem_singleton.mp hfile]
    exact ⟨by decide, by decide, by decide⟩
  exact ⟨hnames, fun report hreport =>
    ((validateChangedFilesForPlan_exact posixHost (writePlan ['a']) true [['a']] hnames).2
      report hreport).1⟩

/-- Exactness for every name and with the serial-only patterns in every run. -/
def ExactForEveryRun (host : MatchHost) (plan : LockPlan) (parallel : Bool)
    (changedFiles : List PathText) : Prop :=
  ∀ report, validateChangedFilesForPlan host changedFiles plan parallel = .ok report →
    (report.disallowedFiles = [] ↔ ∀ file ∈ changedFiles,
      acceptsName host plan.cwd plan.allowedEdits file = .ok true ∧
      (∀ contract, plan.scopeContract = some contract →
        acceptsName host plan.cwd contract.write file = .ok true ∧
        acceptsName host plan.cwd contract.forbidden file = .ok false) ∧
      acceptsName host plan.cwd plan.forbiddenEdits file = .ok false ∧
      acceptsName host plan.cwd plan.sharedFiles file = .ok false ∧
      ∀ pattern ∈ serialOnlyPaths ++ plan.serialOnly,
        acceptsName host plan.cwd [pattern] file = .ok false) ∧
    (plan.lockType = .read → changedFiles ≠ [] → report.disallowedFiles ≠ [])

/-- Outside a parallel run a serial-only file is not reported, and a name of blanks is reported
by no plan. -/
theorem validateChangedFilesForPlan_not_exact :
    ¬ ExactForEveryRun posixHost (writePlan "package.json".toList) false
        ["package.json".toList] ∧
      ¬ ExactForEveryRun posixHost readPlan false [[' ']] := by
  constructor
  · intro h
    obtain ⟨report, hreport, hnil⟩ : ∃ report, validateChangedFilesForPlan posixHost
        ["package.json".toList] (writePlan "package.json".toList) false = .ok report ∧
        report.disallowedFiles = [] := ⟨_, rfl, by decide⟩
    have hall := (h report hreport).1.mp hnil _ mem_cons_self
    have hserial := hall.2.2.2.2 "package.json".toList (by decide)
    have haccepted : acceptsName posixHost none ["package.json".toList] "package.json".toList =
        .ok true := by rfl
    rw [show (writePlan "package.json".toList).cwd = none from rfl, haccepted] at hserial
    cases hserial
  · intro h
    obtain ⟨report, hreport, hnil⟩ : ∃ report, validateChangedFilesForPlan posixHost [[' ']]
        readPlan false = .ok report ∧ report.disallowedFiles = [] := ⟨_, rfl, by decide⟩
    exact (h report hreport).2 rfl (by decide) hnil

end AgentBridge.Globs
