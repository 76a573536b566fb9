import AgentBridge.Integration.Composite
import AgentBridge.Paths.Segments
import AgentBridge.Systems.Table

/-!
# Grouped ignored files

`groupIgnoredFiles` and the ignored part of `gitChangedFileSnapshotParts` in
`lib/file-snapshot.js`. The ignored files below a regenerable directory share one entry, whose
value is a hash of their names. A name that one regular expression takes for forbidden keeps an
entry of its own, but the path patterns accept more names than that expression.
-/

namespace AgentBridge.Integration

open AgentBridge.Globs AgentBridge.Paths AgentBridge.Systems List

/-! ### Entries -/

structure SnapshotHost extends MatchHost where
  sha256 : List Char → String

abbrev IgnoredGroup := PathText × List PathText

section

variable (folding : CaseFolding)

def word (text : String) : PathRegex :=
  text.toList.foldr (fun c rest => .seq (exactly folding c) rest) .empty

def anyOf (patterns : List PathRegex) : PathRegex := patterns.foldr .alt .never

/-- `[^/]*` -/
def anyName : PathRegex := .star (notSlash folding)

def regenerableIgnoredDirectory : PathRegex :=
  anyOf (["node_modules", ".venv", "venv", "__pycache__", ".pytest_cache", ".mypy_cache",
      ".ruff_cache", ".tox", ".nox", ".cache", ".gradle", ".next", ".vs", "build", "dist", "out",
      "target", "obj", "bin", "debug", "release", "x64", "x86", "coverage", "htmlcov", ".eggs",
      "cmakefiles"].map (word folding) ++
    [.seq (word folding "cmake-build-") (anyName folding),
      .seq (anyName folding) (word folding ".egg-info")])

/-- `FORBIDDEN_LOOKING_PATH`, with the text around what it finds. -/
def forbiddenLookingPath : PathRegex :=
  let anything : PathRegex := .star (.char fun _ => true)
  .seq (.alt .empty (.seq anything (word folding "/")))
    (anyOf [.seq (word folding ".env")
        (.alt .empty (.seq (word folding ".") (anyName folding))),
      .seq (anyName folding) (word folding ".pem"), .seq (anyName folding) (word folding ".key"),
      .seq (word folding "secrets/") anything])

/-- The first regenerable directory above the file. -/
def regenerableDirectory (file : PathText) : Option PathText :=
  ((segments file).dropLast.findIdx? (regenerableIgnoredDirectory folding).test).map
    fun groupDepth => joinSegments ((segments file).take (groupDepth + 1)) ++ ['/']

def entryOf (file : PathText) : PathText :=
  if (forbiddenLookingPath folding).test file then file
  else (regenerableDirectory folding file).getD file

def addMember (groups : List IgnoredGroup) (file : PathText) : List IgnoredGroup :=
  upsert Prod.fst (entryOf folding file, [file]) (fun group => (group.1, group.2 ++ [file])) groups

def groupsOf (ignoredFiles : List PathText) : List IgnoredGroup :=
  (sortText ignoredFiles).foldl (addMember folding) []

def groupIgnoredFiles (limit : Nat) (ignoredFiles : List PathText) :
    Except String (List IgnoredGroup) :=
  let groups := groupsOf folding ignoredFiles
  if groups.length > limit then
    .error s!"Ignored-file snapshot limit exceeded: {groups.length} ignored entries outside build/cache directories exceeds CODEX_OPENCODE_MAX_IGNORED_SNAPSHOT_FILES={limit}."
  else .ok groups

end

/-! ### Snapshots -/

/-- `metadata:…` or `missing` of one file, `group:…` of the names of a group. -/
inductive Fingerprint where
  | metadata (details : String)
  | group (size : Nat) (digest : String)
deriving DecidableEq

def groupFingerprint (host : SnapshotHost) (fileFingerprint : PathText → String)
    (group : IgnoredGroup) : Fingerprint :=
  if group.2 = [group.1] ∧ group.1.getLast? ≠ some '/' then .metadata (fileFingerprint group.1)
  else .group group.2.length (host.sha256 (group.2.flatMap fun file => file ++ ['\x00']))

def ignoredPart (host : SnapshotHost) (fileFingerprint : PathText → String)
    (groups : List IgnoredGroup) : List (PathText × Fingerprint) :=
  groups.map fun group => (group.1, groupFingerprint host fileFingerprint group)

def changedFilesBetween (before after : List (PathText × Fingerprint)) : List PathText :=
  (sortText ((before ++ after).map Prod.fst).dedup).filter fun file =>
    lookup Prod.fst file before ≠ lookup Prod.fst file after

/-! ### The groups of a list -/

theorem mem_sortText {files : List PathText} {file : PathText} :
    file ∈ sortText files ↔ file ∈ files :=
  (perm_insertionSort _ files).mem_iff

section

variable {folding : CaseFolding} {files : List PathText}

theorem lookup_foldl_addMember (entry : PathText) :
    lookup Prod.fst entry (files.foldl (addMember folding) []) =
      if files.filter (entryOf folding · = entry) = [] then none
      else some (entry, files.filter (entryOf folding · = entry)) := by
  induction files using List.reverseRecOn with
  | nil => rfl
  | append_singleton files file ih =>
    rw [foldl_append, foldl_cons, foldl_nil, filter_append, addMember]
    have hkey : ∀ group : IgnoredGroup, Prod.fst group = Prod.fst (entryOf folding file, [file]) →
        Prod.fst (group.1, group.2 ++ [file]) = Prod.fst (entryOf folding file, [file]) :=
      fun _ h => h
    by_cases hentry : entryOf folding file = entry
    · subst hentry
      refine (lookup_upsert_self hkey).trans ?_
      rw [ih]
      split_ifs with hnone <;> simp_all
    · refine (lookup_upsert_other hkey (Ne.symm hentry)).trans ?_
      simp [ih, hentry]

theorem nodup_foldl_addMember : ((files.foldl (addMember folding) []).map Prod.fst).Nodup := by
  induction files using List.reverseRecOn with
  | nil => exact nodup_nil
  | append_singleton files file ih =>
    rw [foldl_append]
    exact nodup_upsert (fun _ h => h) ih

theorem mem_groupsOf {group : IgnoredGroup} :
    group ∈ groupsOf folding files ↔ group.2 ≠ [] ∧
      group.2 = (sortText files).filter (entryOf folding · = group.1) := by
  constructor
  · intro hgroup
    have hfound := lookup_of_mem nodup_foldl_addMember hgroup
    rw [lookup_foldl_addMember] at hfound
    split_ifs at hfound with hnone
    rw [← Option.some.inj hfound]
    exact ⟨hnone, rfl⟩
  · intro ⟨hne, hmembers⟩
    have hfound : lookup Prod.fst group.1 (groupsOf folding files) = some group := by
      rw [groupsOf, lookup_foldl_addMember, ← hmembers, if_neg hne]
    exact (lookup_some hfound).1

theorem length_groupsOf :
    (groupsOf folding files).length = (files.map (entryOf folding)).dedup.length := by
  have hkeys : ∀ entry, entry ∈ (groupsOf folding files).map Prod.fst ↔
      entry ∈ (files.map (entryOf folding)).dedup := by
    intro entry
    simp only [mem_map, mem_dedup]
    constructor
    · intro ⟨group, hgroup, hentry⟩
      obtain ⟨hne, hmembers⟩ := mem_groupsOf.mp hgroup
      obtain ⟨file, hfile⟩ := exists_mem_of_ne_nil _ hne
      rw [hmembers, mem_filter, mem_sortText, decide_eq_true_eq] at hfile
      exact ⟨file, hfile.1, hfile.2.trans hentry⟩
    · intro ⟨file, hfile, hentry⟩
      refine ⟨(entry, (sortText files).filter (entryOf folding · = entry)),
        mem_groupsOf.mpr ⟨?_, rfl⟩, rfl⟩
      exact ne_nil_of_mem (mem_filter.mpr
        ⟨mem_sortText.mpr hfile, decide_eq_true hentry⟩)
  have hperm := (perm_ext_iff_of_nodup nodup_foldl_addMember (nodup_dedup _)).mpr hkeys
  rw [← hperm.length_eq, groupsOf, length_map]

theorem mem_members {group : IgnoredGroup} (hgroup : group ∈ groupsOf folding files)
    {file : PathText} : file ∈ group.2 ↔ file ∈ files ∧ entryOf folding file = group.1 := by
  rw [(mem_groupsOf.mp hgroup).2, mem_filter, mem_sortText, decide_eq_true_eq]

/-- A name is in the group of its entry, and in no other group. -/
theorem existsUnique_group {file : PathText} (hfile : file ∈ files) :
    ∃! group, group ∈ groupsOf folding files ∧ file ∈ group.2 := by
  have hmem : file ∈ (sortText files).filter (entryOf folding · = entryOf folding file) :=
    mem_filter.mpr ⟨mem_sortText.mpr hfile, decide_eq_true rfl⟩
  refine ⟨(entryOf folding file, _), ⟨mem_groupsOf.mpr ⟨ne_nil_of_mem hmem, rfl⟩, hmem⟩, ?_⟩
  intro group ⟨hgroup, hin⟩
  have hentry := ((mem_members hgroup).mp hin).2
  apply Prod.ext hentry.symm
  rw [(mem_groupsOf.mp hgroup).2, hentry]

end

/-- The entry is the file itself or a directory above it. -/
def Covers (entry file : PathText) : Prop :=
  entry = file ∨ entry.getLast? = some '/' ∧ entry <+: file

theorem joinSegments_append_cons {front : List PathText} (hne : front ≠ []) (next : PathText)
    (back : List PathText) :
    joinSegments (front ++ next :: back) = joinSegments front ++ '/' :: joinSegments (next :: back) := by
  induction front with
  | nil => exact absurd rfl hne
  | cons part front ih =>
    cases front with
    | nil => simp [joinSegments]
    | cons other front =>
      have hrest := ih (by simp)
      simp only [joinSegments, cons_append, intercalate_cons_cons] at hrest ⊢
      simp [hrest]

theorem covers_entryOf (folding : CaseFolding) (file : PathText) :
    Covers (entryOf folding file) file := by
  unfold entryOf regenerableDirectory
  split_ifs with hforbidden
  · exact Or.inl rfl
  cases hdepth : (segments file).dropLast.findIdx? (regenerableIgnoredDirectory folding).test with
  | none => exact Or.inl rfl
  | some groupDepth =>
    have hlength : groupDepth + 1 < (segments file).length := by
      obtain ⟨hlt, _⟩ := List.findIdx?_eq_some_iff_getElem.mp hdepth
      rw [length_dropLast] at hlt
      omega
    refine Or.inr ⟨List.getLast?_concat, ?_⟩
    have hfile := joinSegments_segments file
    rw [← take_append_drop (groupDepth + 1) (segments file),
      drop_eq_getElem_cons hlength, joinSegments_append_cons (by
        rw [← length_pos_iff, length_take]; omega)] at hfile
    exact ⟨_, (append_assoc _ _ _).trans hfile⟩

/-! ### Two snapshots -/

section

variable {host : SnapshotHost} {folding : CaseFolding} {files others : List PathText}
  {before after : PathText → String}

/-- The value of an entry tells the names of its group. -/
theorem names_eq_of_groupFingerprint (hhash : Function.Injective host.sha256)
    {group other : IgnoredGroup} (hnames : ∀ file ∈ group.2, '\x00' ∉ file)
    (hothers : ∀ file ∈ other.2, '\x00' ∉ file) (hentry : other.1 = group.1)
    (h : groupFingerprint host after other = groupFingerprint host before group) :
    other.2 = group.2 := by
  unfold groupFingerprint at h
  split_ifs at h with hother hgroup hgroup
  · rw [hother.1, hgroup.1, hentry]
  · have htext := congrArg (List.splitOn '\x00') (hhash (Fingerprint.group.inj h).2)
    rw [splitOn_flatMap_concat hothers, splitOn_flatMap_concat hnames] at htext
    exact append_cancel_right htext

theorem lookup_ignoredPart_ne (hhash : Function.Injective host.sha256)
    (hnames : ∀ file ∈ files, '\x00' ∉ file) (hothers : ∀ file ∈ others, '\x00' ∉ file)
    {file : PathText} (hfile : file ∈ files) (hnot : file ∉ others) :
    lookup Prod.fst (entryOf folding file) (ignoredPart host before (groupsOf folding files)) ≠
      lookup Prod.fst (entryOf folding file)
        (ignoredPart host after (groupsOf folding others)) := by
  intro heq
  obtain ⟨group, ⟨hgroup, hmem⟩, _⟩ := @existsUnique_group folding _ _ hfile
  have hnodup : ((ignoredPart host before (groupsOf folding files)).map Prod.fst).Nodup := by
    rw [ignoredPart, map_map]
    exact nodup_foldl_addMember
  have hfound := lookup_of_mem hnodup (mem_map_of_mem hgroup)
  rw [((mem_members hgroup).mp hmem).2] at heq
  rw [heq] at hfound
  obtain ⟨other, hother, hsame⟩ := mem_map.mp (lookup_some hfound).1
  obtain ⟨hentry, hvalue⟩ := Prod.ext_iff.mp hsame
  have hmembers := names_eq_of_groupFingerprint hhash
    (fun name hname => hnames name ((mem_members hgroup).mp hname).1)
    (fun name hname => hothers name ((mem_members hother).mp hname).1) hentry hvalue
  exact hnot ((mem_members hother).mp (hmembers ▸ hmem)).1

theorem mem_changedFilesBetween {first second : List (PathText × Fingerprint)} {entry : PathText}
    (h : lookup Prod.fst entry first ≠ lookup Prod.fst entry second) :
    entry ∈ changedFilesBetween first second := by
  rw [changedFilesBetween, mem_filter, mem_sortText, mem_dedup]
  refine ⟨?_, decide_eq_true h⟩
  by_contra hnot
  rw [map_append, mem_append, not_or] at hnot
  have hnone : ∀ rows : List (PathText × Fingerprint), entry ∉ rows.map Prod.fst →
      lookup Prod.fst entry rows = none := by
    intro rows hrows
    apply List.find?_eq_none.mpr
    intro row hrow hentry
    exact hrows (mem_map.mpr ⟨row, hrow, of_decide_eq_true hentry⟩)
  exact h ((hnone first hnot.1).trans (hnone second hnot.2).symm)

end

/-! ### What grouping hides -/

/-- The matcher of the default forbidden paths accepts the path. -/
def Forbidden (host : MatchHost) (root : Option Directory) (path : PathText) : Prop :=
  (do let accepts ← createPathMatcher host root defaultForbiddenEditPaths; return accepts path) =
    .ok true

structure Faithful (host : SnapshotHost) (root : Option Directory) (limit : Nat)
    (files : List PathText) (groups : List IgnoredGroup) : Prop where
  one_entry : ∀ file ∈ files, ∃! group, group ∈ groups ∧ file ∈ group.2
  forbidden : ∀ group ∈ groups, ∀ file ∈ group.2,
    Forbidden host.toMatchHost root file → Forbidden host.toMatchHost root group.1
  changed : ∀ others otherGroups, (∀ file ∈ others, '\x00' ∉ file) →
    groupIgnoredFiles host.ignoreCase limit others = .ok otherGroups →
    ∀ before after file, ¬ (file ∈ files ↔ file ∈ others) →
      ignoredPart host before groups ≠ ignoredPart host after otherGroups ∧
      ∃ entry ∈ changedFilesBetween (ignoredPart host before groups)
        (ignoredPart host after otherGroups), Covers entry file

/-- The list is within the limit and grouped so that nothing is hidden. -/
def HidesNothing (host : SnapshotHost) (root : Option Directory) (limit : Nat)
    (files : List PathText) : Prop :=
  ∃ groups, groupIgnoredFiles host.ignoreCase limit files = .ok groups ∧
    Faithful host root limit files groups

theorem groupIgnoredFiles_eq_ok {folding : CaseFolding} {limit : Nat} {files : List PathText}
    {groups : List IgnoredGroup} : groupIgnoredFiles folding limit files = .ok groups ↔
      (groupsOf folding files).length ≤ limit ∧ groupsOf folding files = groups := by
  simp only [groupIgnoredFiles]
  split_ifs with hlimit
  · simp [Nat.not_le.mpr hlimit]
  · simp [Nat.not_lt.mp hlimit]

def exactSnapshots : SnapshotHost := ⟨posixHost, String.ofList⟩

end AgentBridge.Integration
