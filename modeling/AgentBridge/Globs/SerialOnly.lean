import AgentBridge.Globs.Matcher

/-!
# Serial-only paths

`pathOverlapsSerialPattern` of `lib/paths.js` and `findSerialOnlyMatches` of
`lib/scope-contract.js`: the check that compares scope paths, and after a run the changed
files, with the built-in and configured serial-only patterns.
-/

namespace AgentBridge.Globs

open AgentBridge.Paths AgentBridge.Systems List

def serialOnlyPaths : List PathText :=
  ["package.json", "package-lock.json", "pnpm-lock.yaml", "yarn.lock", "bun.lockb",
    "tsconfig.json", "tsconfig.*.json", "vite.config.*", "next.config.*", "nuxt.config.*",
    "webpack.config.*", "rollup.config.*", "eslint.config.*", ".eslintrc*", ".prettierrc*",
    ".env", ".env.*", "README.md", "CHANGELOG.md", "src/index.*", "src/main.*", "src/app.*",
    "src/routes/**", "app/routes/**", "db/migrations/**", "prisma/schema.prisma", "schema/**",
    "migrations/**", "packages/shared/**", "pyproject.toml", "setup.py", "setup.cfg",
    "requirements.txt", "requirements-dev.txt", "Pipfile", "Pipfile.lock", "poetry.lock",
    "uv.lock", "conftest.py", "tests/conftest.py", "CMakeLists.txt"].map String.toList

def mergePathLists (values : List (List PathText)) : List PathText :=
  normalizeLockPathList (values.flatMap normalizeList)

/-- `value.replace(/\/[^/]*$/, "")` -/
def dropLastSegment (value : PathText) : PathText :=
  if value.contains '/' then beforeLastSlash value else value

def serialPatternStaticPrefix (pattern : PathText) : PathText :=
  normalizeLockPath
    (dropLastSegment ((normalizeLockPath pattern).takeWhile fun c => !isPatternCharacter c))

/-- `value.includes("**")` -/
def includesDoubleStar : PathText → Bool
  | '*' :: '*' :: _ => true
  | _ :: rest => includesDoubleStar rest
  | [] => false

section

variable (host : MatchHost) (root : Option Directory)

/-- `overlaps([left], [right], cwd)` -/
def overlapsIn (left right : PathText) : Bool :=
  pathsOverlap (normalizeFilesystemCase host root (normalizeFor host root left))
    (normalizeFilesystemCase host root (normalizeFor host root right))

/-- The glob part of the comparison, on the normalized texts. -/
def overlapsGlob (candidate pattern : PathText) : Except String Bool := do
  let glob ← globToRegex host.folding pattern false
  let staticPrefix := serialPatternStaticPrefix pattern
  return glob.test candidate ||
    (includesDoubleStar pattern && staticPrefix ≠ [] &&
      overlapsIn host root candidate staticPrefix) ||
    (!pattern.any isPatternCharacter && overlapsIn host root candidate pattern)

def pathOverlapsSerialPattern (candidate pattern : PathText) : Except String Bool :=
  let normalizedCandidate := normalizeFor host root candidate
  let normalizedPattern := normalizeFor host root pattern
  if normalizedCandidate = [] ∨ normalizedPattern = [] then .ok false
  else match root with
    | none => overlapsGlob host root normalizedCandidate normalizedPattern
    | some cwd =>
      -- a link does not make a spelling authoritative
      if host.view.realPathBoundaryReason candidate cwd ≠ "" ∨
          host.view.realPathBoundaryReason pattern cwd ≠ "" then .ok false
      else if !hasAmbiguousPathPattern host.toHost [normalizedPattern] cwd then
        .ok (overlapsIn host root normalizedCandidate normalizedPattern)
      else if matchesLiteral normalizedPattern normalizedCandidate then .ok true
      else overlapsGlob host root normalizedCandidate normalizedPattern

/-- `${candidate} (${pattern})` -/
def matchLabel (candidate pattern : PathText) : PathText :=
  candidate ++ [' ', '('] ++ pattern ++ [')']

/-- The pairs that the check compares, in order. -/
def serialPairs (paths serialOnly : List PathText) : List (PathText × PathText) :=
  (normalizeLockPathList paths).flatMap fun candidate =>
    (mergePathLists [serialOnlyPaths, serialOnly]).map fun pattern => (candidate, pattern)

/-- The label of a pair that matches. -/
def serialMatch (pair : PathText × PathText) : Except String (Option PathText) := do
  if ← pathOverlapsSerialPattern host root pair.1 pair.2 then
    return some (matchLabel pair.1 pair.2)
  else return none

def findSerialOnlyMatches (paths serialOnly : List PathText) : Except String (List PathText) := do
  let labels ← (serialPairs paths serialOnly).filterMapM (serialMatch host root)
  return labels.eraseDups

end

/-! ### When nothing is reported -/

section

variable {host : MatchHost} {root : Option Directory}

section FilterMapM

variable {α β : Type} {action : α → Except String (Option β)} {values : List α}

private theorem filterMapM_cons_ok {value : α} {rest : List α} {results : List β} :
    (value :: rest).filterMapM action = .ok results ↔
      ∃ found others, action value = .ok found ∧ rest.filterMapM action = .ok others ∧
        results = found.toList ++ others := by
  rw [filterMapM_cons]
  cases action value with
  | error message => simp [bind, Except.bind]
  | ok found =>
    cases found with
    | none => simp [bind, Except.bind, eq_comm]
    | some label =>
      cases rest.filterMapM action <;> simp [bind, Except.bind, pure, Except.pure, eq_comm]

/-- The results are what the action found for the values, and it found something or nothing
for each of them. -/
theorem filterMapM_ok {results : List β} (h : values.filterMapM action = .ok results) :
    (∀ value ∈ values, ∃ found, action value = .ok found) ∧
      ∀ result, result ∈ results ↔ ∃ value ∈ values, action value = .ok (some result) := by
  induction values generalizing results with
  | nil =>
    obtain rfl := Except.ok.inj h
    simp
  | cons value rest ih =>
    obtain ⟨found, others, hvalue, hrest, rfl⟩ := filterMapM_cons_ok.mp h
    obtain ⟨hall, hmem⟩ := ih hrest
    constructor
    · intro other hother
      cases hother with
      | head => exact ⟨found, hvalue⟩
      | tail _ hother => exact hall other hother
    · intro result
      simp [hvalue, hmem]

theorem exists_filterMapM (h : ∀ value ∈ values, ∃ found, action value = .ok found) :
    ∃ results, values.filterMapM action = .ok results := by
  induction values with
  | nil => exact ⟨[], rfl⟩
  | cons value rest ih =>
    obtain ⟨found, hvalue⟩ := h value mem_cons_self
    obtain ⟨others, hrest⟩ := ih fun other hother => h other (mem_cons_of_mem value hother)
    exact ⟨found.toList ++ others, filterMapM_cons_ok.mpr ⟨found, others, hvalue, hrest, rfl⟩⟩

theorem filterMapM_eq_nil :
    values.filterMapM action = .ok [] ↔ ∀ value ∈ values, action value = .ok none := by
  constructor
  · intro h value hvalue
    obtain ⟨hall, hmem⟩ := filterMapM_ok h
    obtain ⟨found, hfound⟩ := hall value hvalue
    cases found with
    | none => exact hfound
    | some result => exact absurd ((hmem result).mpr ⟨value, hvalue, hfound⟩) not_mem_nil
  · intro h
    obtain ⟨results, hresults⟩ := exists_filterMapM fun value hvalue => ⟨none, h value hvalue⟩
    have hnil : results = [] := by
      rw [eq_nil_iff_forall_not_mem]
      intro result hresult
      obtain ⟨value, hvalue, hsome⟩ := ((filterMapM_ok hresults).2 result).mp hresult
      rw [h value hvalue] at hsome
      cases hsome
    rw [hresults, hnil]

end FilterMapM

theorem findSerialOnlyMatches_eq_nil {paths serialOnly : List PathText} :
    findSerialOnlyMatches host root paths serialOnly = .ok [] ↔
      ∀ candidate ∈ normalizeLockPathList paths,
        ∀ pattern ∈ mergePathLists [serialOnlyPaths, serialOnly],
          pathOverlapsSerialPattern host root candidate pattern = .ok false := by
  have hlabels : findSerialOnlyMatches host root paths serialOnly = .ok [] ↔
      (serialPairs paths serialOnly).filterMapM (serialMatch host root) = .ok [] := by
    unfold findSerialOnlyMatches
    cases (serialPairs paths serialOnly).filterMapM (serialMatch host root) with
    | error message => simp [bind, Except.bind]
    | ok labels =>
      cases labels with
      | nil => simp [bind, Except.bind, pure, Except.pure]
      | cons label rest => simp [bind, Except.bind, pure, Except.pure, eraseDups_cons]
  have hpair : ∀ pair : PathText × PathText, serialMatch host root pair = .ok none ↔
      pathOverlapsSerialPattern host root pair.1 pair.2 = .ok false := by
    intro pair
    unfold serialMatch
    cases pathOverlapsSerialPattern host root pair.1 pair.2 with
    | error message => simp [bind, Except.bind]
    | ok found => cases found <;> simp [bind, Except.bind, pure, Except.pure]
  rw [hlabels, filterMapM_eq_nil]
  simp only [hpair, serialPairs, mem_flatMap, mem_map]
  constructor
  · intro h candidate hcandidate pattern hpattern
    exact h (candidate, pattern) ⟨candidate, hcandidate, pattern, hpattern, rfl⟩
  · intro h pair ⟨candidate, hcandidate, pattern, hpattern, hpair⟩
    rw [← hpair]
    exact h candidate hcandidate pattern hpattern

/-- The patterns of the check are the built-in and the configured ones, normalized. -/
theorem mem_mergePathLists {serialOnly : List PathText} {pattern : PathText} :
    pattern ∈ mergePathLists [serialOnlyPaths, serialOnly] ↔
      pattern ≠ [] ∧ ∃ value, (value ∈ serialOnlyPaths ∨ value ∈ serialOnly) ∧
        normalizeLockPath value = pattern := by
  rw [mergePathLists, mem_normalizeLockPathList]
  apply and_congr_right
  intro hne
  constructor
  · rintro ⟨value, hvalue, hnormal⟩
    simp only [normalizeList, flatMap_cons, flatMap_nil, append_nil,
      mem_append, mem_filter] at hvalue
    exact ⟨value, hvalue.imp And.left And.left, hnormal⟩
  · rintro ⟨value, hvalue, hnormal⟩
    have hvalue_ne : value ≠ [] := by
      intro hnil
      rw [hnil] at hnormal
      exact hne (hnormal.symm.trans (by decide))
    refine ⟨value, ?_, hnormal⟩
    simp only [normalizeList, flatMap_cons, flatMap_nil, append_nil,
      mem_append, mem_filter]
    have hkeep : decide (value ≠ []) = true := decide_eq_true hvalue_ne
    exact hvalue.imp (fun h => ⟨h, hkeep⟩) fun h => ⟨h, hkeep⟩

end

end AgentBridge.Globs
