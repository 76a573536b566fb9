import AgentBridge.Globs.Translate

/-!
# The two path checks

`isWithinAnyPath` and `createPathMatcher` of `lib/paths.js`. The plain check tests every
scope path in turn; the matcher collects the exact names of all of them, walks the ancestors
of a file through that set, and tries the globs afterwards. A root of `none` is the empty
`cwd`.
-/

namespace AgentBridge.Globs

open AgentBridge.Paths AgentBridge.Systems List

/-- What the path checks read: the process and its file system, and the case table of
regular expressions. -/
structure MatchHost extends Host where
  ignoreCase : CaseFolding

namespace MatchHost

def folding (host : MatchHost) : CaseFolding := flags host.platform host.ignoreCase

end MatchHost

/-- A POSIX machine with a case-sensitive file system in which no path exists. -/
def posixHost : MatchHost where
  platform := ⟨false, id⟩
  view := ⟨[], fun _ => true, fun _ => false, fun _ _ => ""⟩
  ignoreCase := .exact

/-- `normalizeFilesystemCase(value, cwd)` -/
def normalizeFilesystemCase (host : MatchHost) (root : Option Directory) (value : PathText) :
    PathText :=
  match root with
  | some root => foldCaseForRoot host.toHost value root
  | none => foldCase host.platform value

/-- `cwd ? normalizeLockPathForCwd(value, cwd) : normalizeLockPath(value)` -/
def normalizeFor (host : MatchHost) (root : Option Directory) (value : PathText) : PathText :=
  match root with
  | some root => normalizeLockPathForCwd host.toHost value root
  | none => normalizeLockPath value

def comparePathCandidates (host : MatchHost) (root : Option Directory) (value : PathText) :
    List PathText :=
  let raw := normalizeFor host root value
  if raw = [] then []
  else [normalizeFilesystemCase host root
    (stripTrailingSlashes (collapseSlashes (toForwardSlashes raw)))]

/-- `path.join(cwd, value)`: an absolute value is appended too. -/
def joinPath (base : Directory) (value : PathText) : Directory :=
  (value.splitOn '/').foldl
    (fun directory segment =>
      if segment = [] ∨ segment = ['.'] then directory
      else if segment = ['.', '.'] then directory.dropLast
      else directory ++ [segment])
    base

/-- A scope path without `*` and `?` that names an existing path. -/
def namesExisting (host : MatchHost) (root : Option Directory) (normalized : PathText) : Bool :=
  match root with
  | some root => !normalized.any (fun c => c == '*' || c == '?') &&
      host.view.pathExists (joinPath root normalized)
  | none => false

/-- The scope path is read as a glob. -/
def isGlob (host : MatchHost) (root : Option Directory) (normalized : PathText) : Bool :=
  normalized.any isPatternCharacter && !namesExisting host root normalized

/-- The raw scope path ends with "/**". -/
def endsInDescendants (allowed : PathText) : Bool :=
  ['/', '*', '*'].isSuffixOf (stripTrailingSlashes (toForwardSlashes allowed))

/-- The scope path itself, or a path below it. -/
def matchesLiteral (allowed file : PathText) : Bool :=
  file == allowed || (allowed ++ ['/']).isPrefixOf file

section

variable (host : MatchHost) (root : Option Directory)

def allowedPathMatcher (allowed normalized : PathText) : Except String (PathText → Bool) :=
  if isGlob host root normalized then do
    let glob ← globToRegex host.folding normalized (endsInDescendants allowed)
    return fun file => matchesLiteral normalized file || glob.test file
  else return matchesLiteral normalized

/-- The scope paths with their candidates, in order. -/
def scopeCandidates (allowedPaths : List PathText) : List (PathText × PathText) :=
  allowedPaths.flatMap fun allowed =>
    (comparePathCandidates host root allowed).map fun normalized => (allowed, normalized)

def allowedPathMatchers (allowedPaths : List PathText) :
    Except String (List (PathText → Bool)) :=
  (scopeCandidates host root allowedPaths).mapM fun candidate =>
    allowedPathMatcher host root candidate.1 candidate.2

def matchesAnyAllowed (file : PathText) (matchers : List (PathText → Bool)) : Bool :=
  (comparePathCandidates host root file).any fun normalized =>
    matchers.any fun accepts => accepts normalized

def isWithinAnyPath (file : PathText) (allowedPaths : List PathText) : Except String Bool := do
  let matchers ← allowedPathMatchers host root allowedPaths
  return matchesAnyAllowed host root file matchers

/-! ### The precompiled matcher -/

/-- `prefix.slice(0, prefix.lastIndexOf("/"))` -/
def beforeLastSlash (text : PathText) : PathText :=
  ((text.reverse.dropWhile (· ≠ '/')).drop 1).reverse

/-- The walk over the ancestors of a file; the fuel bounds the steps, the length of the text
and one more are enough. -/
def ancestorIn (literals : List PathText) : Nat → PathText → Bool
  | 0, _ => false
  | fuel + 1, text =>
    if text = [] then false
    else if literals.contains text then true
    else if !text.contains '/' then false
    else ancestorIn literals fuel (beforeLastSlash text)

structure Collected where
  literals : List PathText
  globs : List PathRegex

def Collected.start : Collected := ⟨[], []⟩

/-- One candidate: its name is collected, and its glob where it is read as one. -/
def collect (collected : Collected) (candidate : PathText × PathText) :
    Except String Collected := do
  let literals := candidate.2 :: collected.literals
  if isGlob host root candidate.2 then
    let glob ← globToRegex host.folding candidate.2 (endsInDescendants candidate.1)
    return ⟨literals, collected.globs ++ [glob]⟩
  else return ⟨literals, collected.globs⟩

/-- The check of one candidate of a file. -/
def Collected.accepts (collected : Collected) (normalized : PathText) : Bool :=
  (collected.literals.contains [] && (normalized == [] || normalized.head? == some '/')) ||
    ancestorIn collected.literals (normalized.length + 1) normalized ||
    collected.globs.any fun glob => glob.test normalized

def createPathMatcher (paths : List PathText) : Except String (PathText → Bool) := do
  let collected ← (scopeCandidates host root paths).foldlM (collect host root) .start
  return fun file => (comparePathCandidates host root file).any collected.accepts

end

/-! ### The walk over the ancestors -/

theorem beforeLastSlash_append {front last : PathText} (h : '/' ∉ last) :
    beforeLastSlash (front ++ '/' :: last) = front := by
  have hkeep : ∀ c ∈ last.reverse, (decide (c ≠ '/')) = true := by
    intro c hc
    apply decide_eq_true
    intro heq
    exact h (heq ▸ mem_reverse.mp hc)
  have hreverse : (front ++ '/' :: last).reverse = last.reverse ++ '/' :: front.reverse := by
    simp
  rw [beforeLastSlash, hreverse, dropWhile_append_of_pos hkeep]
  simp

theorem exists_last_slash {text : PathText} (h : '/' ∈ text) :
    ∃ front last, '/' ∉ last ∧ text = front ++ '/' :: last := by
  induction text with
  | nil => cases h
  | cons c rest ih =>
    by_cases hrest : '/' ∈ rest
    · obtain ⟨front, last, hlast, rfl⟩ := ih hrest
      exact ⟨c :: front, last, hlast, rfl⟩
    · cases h with
      | head => exact ⟨[], rest, hrest, rfl⟩
      | tail _ h => exact absurd h hrest

theorem matchesLiteral_iff {allowed file : PathText} :
    matchesLiteral allowed file = true ↔ file = allowed ∨ allowed ++ ['/'] <+: file := by
  simp [matchesLiteral]

/-- Below the last slash a scope path covers a file when it covers the file's directory. -/
theorem matchesLiteral_append {allowed front last : PathText} (h : '/' ∉ last) :
    matchesLiteral allowed (front ++ '/' :: last) = true ↔
      front ++ '/' :: last = allowed ∨ matchesLiteral allowed front = true := by
  rw [matchesLiteral_iff, matchesLiteral_iff]
  apply or_congr_right
  constructor
  · intro ⟨after, hafter⟩
    rw [append_assoc, cons_append, nil_append] at hafter
    by_cases hslash : '/' ∈ after
    · obtain ⟨middle, end', hend, rfl⟩ := exists_last_slash hslash
      right
      have hbefore := congrArg beforeLastSlash hafter
      rw [beforeLastSlash_append h, ← cons_append, ← append_assoc,
        beforeLastSlash_append hend] at hbefore
      exact ⟨middle, by rw [← hbefore]; simp⟩
    · left
      have hbefore := congrArg beforeLastSlash hafter
      rw [beforeLastSlash_append h, beforeLastSlash_append hslash] at hbefore
      exact hbefore.symm
  · intro hcase
    cases hcase with
    | inl heq =>
      rw [heq]
      exact ⟨last, by simp⟩
    | inr hpre =>
      obtain ⟨after, rfl⟩ := hpre
      exact ⟨after ++ '/' :: last, by simp⟩

/-- The walk finds a nonempty name exactly when it covers the file. -/
theorem ancestorIn_iff {literals : List PathText} {fuel : Nat} {text : PathText}
    (hfuel : text.length < fuel) :
    ancestorIn literals fuel text = true ↔
      ∃ allowed ∈ literals, allowed ≠ [] ∧ matchesLiteral allowed text = true := by
  induction fuel generalizing text with
  | zero => omega
  | succ fuel ih =>
    rw [ancestorIn]
    by_cases hnil : text = []
    · rw [if_pos hnil]
      constructor
      · exact nofun
      · intro ⟨allowed, _, hne, hmatch⟩
        rw [hnil, matchesLiteral_iff] at hmatch
        cases hmatch with
        | inl heq => exact absurd heq.symm hne
        | inr hpre => simp at hpre
    rw [if_neg hnil]
    by_cases hmem : text ∈ literals
    · rw [if_pos (contains_iff_mem.mpr hmem)]
      exact ⟨fun _ => ⟨text, hmem, hnil, by simp [matchesLiteral]⟩, fun _ => rfl⟩
    rw [if_neg (by simpa using hmem)]
    by_cases hslash : '/' ∈ text
    · obtain ⟨front, last, hlast, rfl⟩ := exists_last_slash hslash
      have hlength : front.length < fuel := by
        simp only [length_append, length_cons] at hfuel
        omega
      rw [if_neg (by simp), beforeLastSlash_append hlast, ih hlength]
      constructor
      · intro ⟨allowed, hallowed, hne, hmatch⟩
        exact ⟨allowed, hallowed, hne, (matchesLiteral_append hlast).mpr (Or.inr hmatch)⟩
      · intro ⟨allowed, hallowed, hne, hmatch⟩
        cases (matchesLiteral_append hlast).mp hmatch with
        | inl heq => exact absurd (heq ▸ hallowed) hmem
        | inr hfront => exact ⟨allowed, hallowed, hne, hfront⟩
    · rw [if_pos (by simpa using hslash)]
      constructor
      · exact nofun
      · intro ⟨allowed, hallowed, _, hmatch⟩
        cases matchesLiteral_iff.mp hmatch with
        | inl heq => exact absurd (heq ▸ hallowed) hmem
        | inr hpre =>
          exact absurd (hpre.subset (mem_append_right _ mem_cons_self)) hslash

/-! ### Agreement -/

section

variable {host : MatchHost} {root : Option Directory}

/-- What the matcher checks is that some collected name covers the file or some glob takes
it. -/
theorem accepts_iff {collected : Collected} {normalized : PathText} :
    collected.accepts normalized = true ↔
      (∃ allowed ∈ collected.literals, matchesLiteral allowed normalized = true) ∨
        ∃ glob ∈ collected.globs, glob.test normalized = true := by
  have hempty : matchesLiteral [] normalized = true ↔
      normalized = [] ∨ normalized.head? = some '/' := by
    rw [matchesLiteral_iff]
    cases normalized with
    | nil => simp
    | cons c rest => simp [eq_comm]
  have hwalk : ancestorIn collected.literals (normalized.length + 1) normalized = true ↔
      ∃ allowed ∈ collected.literals, allowed ≠ [] ∧ matchesLiteral allowed normalized = true :=
    ancestorIn_iff (Nat.lt_succ_self normalized.length)
  simp only [Collected.accepts, Bool.or_eq_true, Bool.and_eq_true, hwalk, contains_iff_mem,
    beq_iff_eq, any_eq_true]
  apply or_congr_left
  constructor
  · intro h
    cases h with
    | inl hroot => exact ⟨[], hroot.1, hempty.mpr hroot.2⟩
    | inr hwalked =>
      obtain ⟨allowed, hallowed, _, hmatch⟩ := hwalked
      exact ⟨allowed, hallowed, hmatch⟩
  · intro ⟨allowed, hallowed, hmatch⟩
    by_cases hne : allowed = []
    · subst hne
      exact Or.inl ⟨hallowed, hempty.mp hmatch⟩
    · exact Or.inr ⟨allowed, hallowed, hne, hmatch⟩

/-- One candidate is refused by both or adds to the collection what its matcher accepts. -/
private theorem collect_step (collected : Collected) (candidate : PathText × PathText) :
    (∃ message, collect host root collected candidate = .error message ∧
      allowedPathMatcher host root candidate.1 candidate.2 = .error message) ∨
    ∃ next accepts, collect host root collected candidate = .ok next ∧
      allowedPathMatcher host root candidate.1 candidate.2 = .ok accepts ∧
      ∀ normalized, next.accepts normalized = true ↔
        collected.accepts normalized = true ∨ accepts normalized = true := by
  unfold collect allowedPathMatcher
  cases hglob : isGlob host root candidate.2 with
  | false =>
    right
    refine ⟨_, _, rfl, rfl, fun normalized => ?_⟩
    simp only [accepts_iff, mem_cons, exists_eq_or_imp]
    rw [or_assoc, or_comm]
  | true =>
    cases hregex : globToRegex host.folding candidate.2 (endsInDescendants candidate.1) with
    | error message => exact Or.inl ⟨message, rfl, rfl⟩
    | ok glob =>
      right
      refine ⟨_, _, rfl, rfl, fun normalized => ?_⟩
      simp only [accepts_iff, mem_cons, mem_append,
        not_mem_nil, or_false, or_and_right, exists_or, exists_eq_left, Bool.or_eq_true]
      grind

/-- Collecting the candidates and building their matchers succeed together, and then the
collection accepts what it accepted before and what one of the matchers accepts. -/
private theorem foldlM_collect (candidates : List (PathText × PathText)) (collected : Collected) :
    (∃ message, candidates.foldlM (collect host root) collected = .error message ∧
      candidates.mapM (fun candidate => allowedPathMatcher host root candidate.1 candidate.2) =
        .error message) ∨
    ∃ result matchers, candidates.foldlM (collect host root) collected = .ok result ∧
      candidates.mapM (fun candidate => allowedPathMatcher host root candidate.1 candidate.2) =
        .ok matchers ∧
      ∀ normalized, result.accepts normalized = true ↔
        collected.accepts normalized = true ∨
          (matchers.any fun accepts => accepts normalized) = true := by
  induction candidates generalizing collected with
  | nil => exact Or.inr ⟨collected, [], rfl, rfl, by simp⟩
  | cons candidate rest ih =>
    cases collect_step collected candidate with
    | inl hrefused =>
      obtain ⟨message, hcollect, hmatcher⟩ := hrefused
      left
      refine ⟨message, ?_, ?_⟩
      · rw [foldlM_cons, hcollect]
        rfl
      · rw [mapM_cons, hmatcher]
        rfl
    | inr hstep =>
      obtain ⟨next, accepts, hcollect, hmatcher, hnext⟩ := hstep
      cases ih next with
      | inl hrefused =>
        obtain ⟨message, hfold, hmap⟩ := hrefused
        left
        refine ⟨message, ?_, ?_⟩
        · rw [foldlM_cons, hcollect]
          exact hfold
        · rw [mapM_cons, hmatcher, hmap]
          rfl
      | inr hrest =>
        obtain ⟨result, matchers, hfold, hmap, hresult⟩ := hrest
        right
        refine ⟨result, accepts :: matchers, ?_, ?_, fun normalized => ?_⟩
        · rw [foldlM_cons, hcollect]
          exact hfold
        · rw [mapM_cons, hmatcher, hmap]
          rfl
        · rw [hresult, hnext, any_cons, Bool.or_eq_true, or_assoc]

theorem createPathMatcher_cases (host : MatchHost) (root : Option Directory)
    (paths : List PathText) :
    (∃ message, createPathMatcher host root paths = .error message ∧
      allowedPathMatchers host root paths = .error message) ∨
    ∃ accepts matchers, createPathMatcher host root paths = .ok accepts ∧
      allowedPathMatchers host root paths = .ok matchers ∧
      ∀ file, accepts file = matchesAnyAllowed host root file matchers := by
  unfold createPathMatcher allowedPathMatchers
  cases foldlM_collect (scopeCandidates host root paths) .start with
  | inl hrefused =>
    obtain ⟨message, hfold, hmap⟩ := hrefused
    left
    exact ⟨message, by rw [hfold]; rfl, hmap⟩
  | inr hbuilt =>
    obtain ⟨result, matchers, hfold, hmap, hresult⟩ := hbuilt
    have hstart : ∀ normalized, Collected.start.accepts normalized = false := by
      intro normalized
      rw [← Bool.not_eq_true, accepts_iff]
      simp [Collected.start]
    have haccepts : result.accepts =
        fun normalized => matchers.any fun accepts => accepts normalized := by
      funext normalized
      rw [Bool.eq_iff_iff, hresult, hstart]
      simp
    right
    refine ⟨_, matchers, by rw [hfold]; rfl, hmap, fun file => ?_⟩
    rw [haccepts]
    rfl

/-- The precompiled matcher and the plain check give the same answer, refusals included. -/
theorem createPathMatcher_eq_isWithinAnyPath (host : MatchHost) (root : Option Directory)
    (paths : List PathText) (file : PathText) :
    (do let accepts ← createPathMatcher host root paths; return accepts file) =
      isWithinAnyPath host root file paths := by
  unfold isWithinAnyPath
  cases createPathMatcher_cases host root paths with
  | inl hrefused =>
    obtain ⟨message, hcreate, hmatchers⟩ := hrefused
    rw [hcreate, hmatchers]
    rfl
  | inr hbuilt =>
    obtain ⟨accepts, matchers, hcreate, hmatchers, hagree⟩ := hbuilt
    rw [hcreate, hmatchers]
    show Except.ok _ = Except.ok _
    rw [hagree]

end

end AgentBridge.Globs
