import AgentBridge.Validation.Command

/-!
# The vectors that a Git validation runs

Acceptance reads the subcommand in lower case and keeps the arguments before
`--` apart from those after it. The rewriting and the staged run compare the
raw strings of the whole vector. The two readings agree exactly for the
commands that are `PlainlySpelled`.
-/

namespace AgentBridge.Validation

open List

variable {platform : Platform} {host : ValidationHost} {strict : Bool}
  {parsed args rest : List Text} {command : Text} {executable : Executable} {prepared : PreparedCommand}

/-- The subcommand that was checked. -/
def checkedName (platform : Platform) (parsed : List Text) : Text :=
  platform.toLowerCase (parsed.getD 1 [])

def selectsIndex (args : List Text) : Prop :=
  cached ∈ args ∨ staged ∈ args

instance (args : List Text) : Decidable (selectsIndex args) :=
  inferInstanceAs (Decidable (_ ∨ _))

/-- The flags that a run of `name` may have beyond those accepted. -/
def addedFlags (name : Text) (isStaged : Bool) : List Text :=
  if name = diff then (if isStaged then [cached] else []) ++ forcedFlags else []

/-- A run starts the built-in `name` with the accepted arguments `rest` and no more
than the added flags. -/
def BoundedRun (coreWhitespace : Option Text) (name : Text) (rest : List Text) (isStaged : Bool)
    (run : GateRun) : Prop :=
  (run.config = [] ∨ run.config = whitespaceConfig coreWhitespace) ∧
    ∃ arguments, run.args = name :: arguments ∧
      (name = diff → ∀ flag ∈ addedFlags name isStaged, flag ∈ options arguments) ∧
      (options arguments).filter (· ∉ addedFlags name isStaged) =
        (options rest).filter (· ∉ addedFlags name isStaged) ∧
      pathspecs arguments = pathspecs rest

/-- Git itself runs, once with the accepted vector and a second time on the index if
that is what is left to check. -/
def BoundedValidation (platform : Platform) (parsed : List Text) (prepared : PreparedCommand) :
    Prop :=
  prepared.windowsShim = none ∧ ∀ answers : GateAnswers, ∃ run more,
    runValidationGateUntimed platform answers prepared = run :: more ∧
    BoundedRun answers.coreWhitespace (checkedName platform parsed) (parsed.drop 2) false run ∧
    (∀ second ∈ more,
      BoundedRun answers.coreWhitespace (checkedName platform parsed) (parsed.drop 2) true second) ∧
    more.length ≤ 1 ∧
    (answers.passes (run.config ++ run.args) = true → (more ≠ [] ↔
      checkedName platform parsed = diff ∧ ¬ selectsIndex (options (parsed.drop 2))))

/-- The raw strings say what was accepted. A Git that is found under another name is
not recognized: its user has to write out what the bridge would add. -/
def PlainlySpelled (platform : Platform) (executable : Executable) (parsed : List Text) : Prop :=
  parsed.getD 1 [] = checkedName platform parsed ∧ executable.shim = none ∧
    (checkedName platform parsed = diff →
      if executableName platform executable.path = git then
        (∀ flag ∈ forcedFlags, flag ∉ pathspecs (parsed.drop 2)) ∧
          (selectsIndex (options (parsed.drop 2)) ∨ ¬ selectsIndex (pathspecs (parsed.drop 2)))
      else
        (∀ flag ∈ forcedFlags, flag ∈ options (parsed.drop 2)) ∧
          selectsIndex (options (parsed.drop 2)))

/-! ### Options and pathspecs -/

theorem mem_iff_options_or_pathspecs {flag : Text} :
    flag ∈ rest ↔ flag ∈ options rest ∨ flag ∈ pathspecs rest := by
  rw [← mem_append, options, pathspecs, takeWhile_append_dropWhile]

theorem selectsIndex_iff :
    selectsIndex rest ↔ selectsIndex (options rest) ∨ selectsIndex (pathspecs rest) := by
  rw [selectsIndex, mem_iff_options_or_pathspecs, @mem_iff_options_or_pathspecs rest staged]
  exact or_or_or_comm

theorem options_cons {flag : Text} (h : flag ≠ separator) :
    options (flag :: rest) = flag :: options rest := by
  simp [options, h]

theorem pathspecs_cons {flag : Text} (h : flag ≠ separator) :
    pathspecs (flag :: rest) = pathspecs rest := by
  simp [pathspecs, h]

section

variable {keep : Text → Bool} (hkeep : keep separator = true)

include hkeep

theorem options_filter : options (rest.filter keep) = (options rest).filter keep := by
  induction rest with
  | nil => rfl
  | cons item rest ih =>
    by_cases hitem : item = separator
    · subst hitem
      simp [options, hkeep]
    · by_cases hkept : keep item = true
      · rw [filter_cons_of_pos hkept, options_cons hitem, options_cons hitem, ih,
          filter_cons_of_pos hkept]
      · rw [filter_cons_of_neg hkept, options_cons hitem, ih,
          filter_cons_of_neg hkept]

theorem pathspecs_filter : pathspecs (rest.filter keep) = (pathspecs rest).filter keep := by
  induction rest with
  | nil => rfl
  | cons item rest ih =>
    by_cases hitem : item = separator
    · subst hitem
      simp [pathspecs, hkeep]
    · rw [pathspecs_cons hitem]
      by_cases hkept : keep item = true
      · rw [filter_cons_of_pos hkept, pathspecs_cons hitem, ih]
      · rw [filter_cons_of_neg hkept, ih]

end

/-! ### What acceptance says -/

theorem check_mem_of_diffArgsError {separatorCount : Nat} {sawCheck : Bool}
    (h : diffArgsError platform false separatorCount sawCheck rest = none) :
    sawCheck = true ∨ check ∈ options rest := by
  induction rest generalizing sawCheck with
  | nil =>
    simp only [diffArgsError] at h
    split at h
    · cases h
    · split at h
      · next hsaw => exact .inl hsaw
      · cases h
  | cons item rest ih =>
    rw [diffArgsError] at h
    by_cases hitem : item = separator
    · rw [if_pos hitem] at h
      have hafter : ∀ (args : List Text) count,
          diffArgsError platform true count sawCheck args = none → sawCheck = true := by
        intro args
        induction args with
        | nil =>
          intro count hnone
          simp only [diffArgsError] at hnone
          split at hnone
          · cases hnone
          · split at hnone
            · assumption
            · cases hnone
        | cons other args ih =>
          intro count hnone
          rw [diffArgsError] at hnone
          split at hnone
          · exact ih _ hnone
          · simp only [Bool.not_true, Bool.false_and, Bool.false_eq_true, if_false] at hnone
            split at hnone
            · exact ih _ hnone
            · cases hnone
      exact .inl (hafter rest _ h)
    · rw [if_neg hitem] at h
      rw [options_cons hitem]
      split at h
      · split at h
        · cases ih h with
          | inl hsaw =>
            simp only [Bool.or_eq_true, decide_eq_true_eq] at hsaw
            exact hsaw.imp_right fun heq => mem_cons.mpr (.inl heq.symm)
          | inr hmem => exact .inr (mem_cons_of_mem _ hmem)
        · cases h
      · simp at h

theorem subcommand_of_accepted (hgit : executableName host.platform command = git)
    (h : validationCommandTrustError host strict (command :: args) = none) :
    host.platform.toLowerCase (args.headD []) ∈ gitSubcommands ∧
      (host.platform.toLowerCase (args.headD []) = diff → check ∈ options args.tail) := by
  simp only [validationCommandTrustError, hgit, ne_eq, not_true, if_false] at h
  split_ifs at h with hlisted hshell hallowed hhelper
  refine ⟨hallowed, fun hdiff => ?_⟩
  rw [strictProjectGitArgsError, hdiff] at h
  exact (check_mem_of_diffArgsError h).resolve_left Bool.false_ne_true

/-! ### The three ways to run a vector -/

theorem runValidationGate_head {answers : GateAnswers} {run : GateRun} {more : List GateRun}
    (h : runValidationGateUntimed platform answers prepared = run :: more) :
    run.args = prepared.args := by
  simp only [runValidationGateUntimed] at h
  split_ifs at h
  all_goals
    obtain ⟨rfl, -⟩ := List.cons.inj h
    rfl

/-- A vector whose raw subcommand is not the checked name runs something else. -/
theorem not_bounded_of_head (hhead : prepared.args.headD [] ≠ checkedName platform parsed) :
    ¬ BoundedValidation platform parsed prepared := by
  rintro ⟨-, hall⟩
  obtain ⟨run, more, heq, ⟨-, arguments, hargs, -⟩, -⟩ := hall ⟨none, fun _ => true⟩
  rw [← runValidationGate_head heq, hargs] at hhead
  exact hhead rfl

/-- A vector that runs as it was accepted. -/
theorem bounded_of_other {name : Text} (hshim : prepared.windowsShim = none)
    (hargs : prepared.args = name :: rest) (hrest : parsed.drop 2 = rest)
    (hname : checkedName platform parsed = name)
    (h : ¬ (executableName platform prepared.executablePath = git ∧ name = diff)) :
    BoundedValidation platform parsed prepared ↔
      (name = diff → (∀ flag ∈ forcedFlags, flag ∈ options rest) ∧
        selectsIndex (options rest)) := by
  have hruns : ∀ answers,
      runValidationGateUntimed platform answers prepared = [⟨[], name :: rest⟩] := by
    intro answers
    have hplain : ¬ ((executableName platform prepared.executablePath = git ∧
        prepared.args.headD [] = diff) ∧ check ∈ prepared.args) := by
      rw [hargs]
      exact fun hdiff => h hdiff.1
    simp only [runValidationGateUntimed, if_neg hplain]
    rw [hargs, if_neg fun hstaged => h hstaged.2.1]
  rw [BoundedValidation, hname, hrest]
  constructor
  · rintro ⟨-, hall⟩ hdiff
    obtain ⟨run, more, heq, ⟨-, arguments, hrun, hflags, -⟩, -, -, hstaged⟩ :=
      hall ⟨none, fun _ => true⟩
    rw [hruns] at heq
    obtain ⟨rfl, rfl⟩ := List.cons.inj heq
    obtain ⟨-, rfl⟩ := List.cons.inj hrun
    refine ⟨fun flag hflag => hflags hdiff flag ?_, ?_⟩
    · rw [addedFlags, if_pos hdiff]
      exact hflag
    · by_contra hnot
      exact (hstaged rfl).mpr ⟨hdiff, hnot⟩ rfl
  · intro hdiff
    refine ⟨hshim, fun answers => ⟨_, [], hruns answers, ?_, by simp, by simp, ?_⟩⟩
    · refine ⟨.inl rfl, rest, rfl, fun h flag hflag => ?_, rfl, rfl⟩
      rw [addedFlags, if_pos h] at hflag
      exact (hdiff h).1 flag hflag
    · exact fun _ => ⟨fun h => absurd rfl h, fun h => absurd (hdiff h.1).2 h.2⟩

/-- The arguments of `git diff` behind the forced flags. -/
def unforced (rest : List Text) : List Text := rest.filter (· ∉ forcedFlags)

theorem options_unforced : options (unforced rest) = (options rest).filter (· ∉ forcedFlags) :=
  options_filter (by decide)

theorem pathspecs_unforced :
    pathspecs (unforced rest) = pathspecs rest ↔ ∀ flag ∈ forcedFlags, flag ∉ pathspecs rest := by
  rw [unforced, pathspecs_filter (by decide), filter_eq_self]
  simp only [decide_not, Bool.not_eq_eq_eq_not, Bool.not_true, decide_eq_false_iff_not]
  exact ⟨fun h flag hflag hmem => h flag hmem hflag, fun h flag hmem hflag => h flag hflag hmem⟩

theorem selectsIndex_unforced : selectsIndex (unforced rest) ↔ selectsIndex rest := by
  rw [selectsIndex, selectsIndex, unforced, mem_filter, mem_filter]
  have hcached : decide (cached ∉ forcedFlags) = true := by decide
  have hstaged : decide (staged ∉ forcedFlags) = true := by decide
  simp only [hcached, hstaged, and_true]

theorem options_append {flags : List Text} (h : separator ∉ flags) (args : List Text) :
    options (flags ++ args) = flags ++ options args ∧
      pathspecs (flags ++ args) = pathspecs args := by
  induction flags with
  | nil => exact ⟨rfl, rfl⟩
  | cons flag flags ih =>
    rw [mem_cons, not_or] at h
    obtain ⟨hoptions, hpathspecs⟩ := ih h.2
    rw [cons_append, options_cons (Ne.symm h.1), pathspecs_cons (Ne.symm h.1), hoptions,
      hpathspecs]
    exact ⟨rfl, rfl⟩

theorem boundedRun_rewritten (coreWhitespace : Option Text) (isStaged : Bool) :
    BoundedRun coreWhitespace diff rest isStaged
        ⟨whitespaceConfig coreWhitespace, diff :: (addedFlags diff isStaged ++ unforced rest)⟩ ↔
      ∀ flag ∈ forcedFlags, flag ∉ pathspecs rest := by
  have hplain : separator ∉ addedFlags diff isStaged := by
    cases isStaged
    · decide
    · decide
  have hforced : ∀ flag ∈ forcedFlags, flag ∈ addedFlags diff isStaged := by
    intro flag hflag
    exact mem_append_right _ hflag
  obtain ⟨hoptions, hpathspecs⟩ := options_append hplain (unforced rest)
  rw [← pathspecs_unforced]
  constructor
  · rintro ⟨-, arguments, heq, -, -, hkept⟩
    obtain ⟨-, rfl⟩ := List.cons.inj heq
    rwa [hpathspecs] at hkept
  · intro hkept
    refine ⟨.inr rfl, _, rfl, ?_, ?_, hpathspecs.trans hkept⟩
    · intro _ flag hflag
      rw [hoptions]
      exact mem_append_left _ hflag
    · rw [hoptions, options_unforced]
      generalize addedFlags diff isStaged = added at *
      have hnone : added.filter (· ∉ added) = [] :=
        filter_eq_nil_iff.mpr fun flag hflag => by simpa using hflag
      rw [filter_append, hnone, nil_append, filter_filter]
      apply filter_congr
      intro item _
      by_cases hitem : item ∈ added
      · simp [hitem]
      · simp [hitem, mt (hforced item) hitem]

theorem runValidationGate_rewritten (hgit : executableName platform prepared.executablePath = git)
    (hargs : prepared.args = diff :: (addedFlags diff false ++ unforced rest))
    (hcheck : check ∈ options rest) (answers : GateAnswers) :
    runValidationGateUntimed platform answers prepared =
      ⟨whitespaceConfig answers.coreWhitespace, prepared.args⟩ ::
        (if answers.passes (whitespaceConfig answers.coreWhitespace ++ prepared.args) = true ∧
            ¬ selectsIndex rest then
          [⟨whitespaceConfig answers.coreWhitespace,
            diff :: (addedFlags diff true ++ unforced rest)⟩]
        else []) := by
  have hmem : check ∈ prepared.args.tail := by
    rw [hargs, tail_cons]
    apply mem_append_right
    rw [unforced, mem_filter]
    exact ⟨mem_iff_options_or_pathspecs.mpr (.inl hcheck), by decide⟩
  have hdiff : executableName platform prepared.executablePath = git ∧
      prepared.args.headD [] = diff := by
    rw [hargs]
    exact ⟨hgit, rfl⟩
  have hindex : (cached ∈ prepared.args.tail ∨ staged ∈ prepared.args.tail) ↔
      selectsIndex rest := by
    rw [← selectsIndex_unforced, hargs, tail_cons, mem_append, mem_append]
    have hcached : cached ∉ addedFlags diff false := by decide
    have hstaged : staged ∉ addedFlags diff false := by decide
    rw [or_iff_right hcached, or_iff_right hstaged]
    rfl
  have hconfig := And.intro hdiff (mem_of_mem_tail hmem)
  simp only [runValidationGateUntimed, if_pos hconfig]
  by_cases hstaged : answers.passes (whitespaceConfig answers.coreWhitespace ++ prepared.args) =
      true ∧ ¬ selectsIndex rest
  · rw [if_pos hstaged, if_pos ⟨hstaged.1, hdiff, hmem, mt hindex.mp hstaged.2⟩, hargs]
    rfl
  · rw [if_neg hstaged, if_neg fun h => hstaged ⟨h.1, mt hindex.mpr h.2.2.2⟩]

theorem bounded_of_rewritten (hgit : executableName platform prepared.executablePath = git)
    (hshim : prepared.windowsShim = none)
    (hargs : prepared.args = diff :: (addedFlags diff false ++ unforced rest))
    (hrest : parsed.drop 2 = rest) (hname : checkedName platform parsed = diff)
    (hcheck : check ∈ options rest) :
    BoundedValidation platform parsed prepared ↔
      (∀ flag ∈ forcedFlags, flag ∉ pathspecs rest) ∧
        (selectsIndex (options rest) ∨ ¬ selectsIndex (pathspecs rest)) := by
  have hruns := runValidationGate_rewritten hgit hargs hcheck
  rw [BoundedValidation, hname, hrest]
  constructor
  · rintro ⟨-, hall⟩
    obtain ⟨run, more, heq, hbounded, -, -, hstaged⟩ := hall ⟨none, fun _ => true⟩
    rw [hruns] at heq
    obtain ⟨rfl, rfl⟩ := List.cons.inj heq
    rw [hargs, boundedRun_rewritten] at hbounded
    refine ⟨hbounded, or_iff_not_imp_left.mpr fun hoptions hpathspecs => ?_⟩
    apply (hstaged rfl).mpr ⟨rfl, hoptions⟩
    exact if_neg fun h => h.2 (selectsIndex_iff.mpr (.inr hpathspecs))
  · rintro ⟨hflags, hindex⟩
    refine ⟨hshim, fun answers => ⟨_, _, hruns answers, ?_, ?_, ?_, ?_⟩⟩
    · rw [hargs]
      exact (boundedRun_rewritten _ false).mpr hflags
    · intro second hsecond
      split at hsecond
      · obtain rfl := mem_singleton.mp hsecond
        exact (boundedRun_rewritten _ true).mpr hflags
      · cases hsecond
    · split
      · exact le_refl 1
      · exact Nat.zero_le 1
    · intro hpasses
      have hsame : selectsIndex rest ↔ selectsIndex (options rest) := by
        rw [selectsIndex_iff]
        exact ⟨fun h => h.elim id fun hlater => hindex.resolve_right (not_not.mpr hlater), .inl⟩
      rw [← hsame]
      constructor
      · exact fun hmore => ⟨rfl, fun hselects => hmore (if_neg fun h => h.2 hselects)⟩
      · rintro ⟨-, hselects⟩
        rw [if_pos ⟨hpasses, hselects⟩]
        exact cons_ne_nil _ _

theorem prepared_eq (hprepared : prepareValidationCommand host strict parsed = .ok prepared)
    (hresolved : host.resolve (parsed.headD []) = some executable) :
    validationCommandTrustError host strict parsed = none ∧ parsed ≠ [] ∧
      prepared.windowsShim = executable.shim ∧
      (executable.shim = none → prepared.executablePath = executable.path ∧
        prepared.args =
          preparedArgs (executableName host.platform executable.path) parsed.tail) := by
  cases parsed with
  | nil => cases hprepared
  | cons command args =>
    rw [prepareValidationCommand] at hprepared
    split at hprepared
    · cases hprepared
    · next haccepted =>
      refine ⟨haccepted, cons_ne_nil _ _, ?_⟩
      rw [headD_cons] at hresolved
      simp only [hresolved] at hprepared
      split_ifs at hprepared with hpath hpinned
      cases hshim : executable.shim with
      | none =>
        rw [hshim] at hprepared
        cases hprepared
        exact ⟨rfl, fun _ => ⟨rfl, rfl⟩⟩
      | some shim =>
        rw [hshim] at hprepared
        cases hprepared
        exact ⟨rfl, nofun⟩

theorem headD_preparedArgs (name : Text) (args : List Text) :
    (preparedArgs name args).headD [] = args.headD [] := by
  rw [preparedArgs]
  split
  · next h => exact h.2.symm
  · rfl

/-- A Git validation keeps to the vector that was accepted exactly when that vector says
with its raw strings what acceptance read. -/
theorem validation_bounded_iff_plainlySpelled
    (hgit : executableName host.platform (parsed.headD []) = git)
    (hresolved : host.resolve (parsed.headD []) = some executable)
    (hprepared : prepareValidationCommand host strict parsed = .ok prepared) :
    BoundedValidation host.platform parsed prepared ↔
      PlainlySpelled host.platform executable parsed := by
  obtain ⟨haccepted, hne, hshimmed, hargs⟩ := prepared_eq hprepared hresolved
  cases parsed with
  | nil => exact absurd rfl hne
  | cons command args =>
    obtain ⟨hallowed, hcheck⟩ := subcommand_of_accepted hgit haccepted
    have hname : checkedName host.platform (command :: args) =
        host.platform.toLowerCase (args.headD []) := by
      cases args <;> rfl
    have hraw : (command :: args).getD 1 [] = args.headD [] := by cases args <;> rfl
    have hrest : (command :: args).drop 2 = args.tail := by cases args <;> rfl
    rw [← hname] at hallowed hcheck
    rw [PlainlySpelled, hraw, hrest]
    by_cases hshim : executable.shim = none
    · obtain ⟨hpath, hprepared⟩ := hargs hshim
      rw [tail_cons] at hprepared
      by_cases hspelled : args.headD [] = checkedName host.platform (command :: args)
      · have hshape : args = checkedName host.platform (command :: args) :: args.tail := by
          cases args with
          | nil =>
            rw [← hspelled] at hallowed
            exact absurd hallowed (by decide)
          | cons sub rest => exact congrArg (· :: rest) hspelled
        rw [hshim] at hshimmed
        by_cases hrewritten : executableName host.platform executable.path = git ∧
            checkedName host.platform (command :: args) = diff
        · obtain ⟨hgit, hdiff⟩ := hrewritten
          rw [hdiff] at hspelled
          rw [preparedArgs, if_pos ⟨hgit, hspelled⟩] at hprepared
          rw [bounded_of_rewritten (hpath ▸ hgit) hshimmed hprepared hrest hdiff (hcheck hdiff)]
          exact ⟨fun h => ⟨hspelled.trans hdiff.symm, hshim, fun _ => by rwa [if_pos hgit]⟩,
            fun h => by simpa only [if_pos hgit] using h.2.2 hdiff⟩
        · have hkept : prepared.args = args := by
            rw [hprepared, preparedArgs, if_neg]
            rwa [hspelled]
          rw [bounded_of_other hshimmed (hkept.trans hshape) hrest rfl
            (hpath ▸ hrewritten)]
          constructor
          · intro h
            refine ⟨hspelled, hshim, fun hdiff => ?_⟩
            rw [if_neg fun hgit => hrewritten ⟨hgit, hdiff⟩]
            exact h hdiff
          · rintro ⟨-, -, h⟩ hdiff
            have hplain := h hdiff
            rwa [if_neg fun hgit => hrewritten ⟨hgit, hdiff⟩] at hplain
      · have hhead : prepared.args.headD [] = args.headD [] := by
          rw [hprepared, headD_preparedArgs]
        exact ⟨fun h => absurd h (not_bounded_of_head (by rwa [hhead])),
          fun h => absurd h.1 hspelled⟩
    · exact ⟨fun h => absurd (hshimmed.symm.trans h.1) hshim, fun h => absurd h.2.1 hshim⟩

/-! ### Runs -/

def gitExecutable : Executable := ⟨"/usr/bin/git".toList, "", none⟩

/-- A POSIX host that allows and finds `git` alone. -/
def gitHost : ValidationHost where
  platform := ⟨false, fun value => value.map Char.toLower⟩
  validationExecutableAllowlist := [git]
  validationExecutableSha256Allowlist := []
  resolve name := if name = git then some gitExecutable else none
  otherTrustError _ := none

/-- `git diff --check -- src` is bounded. -/
theorem diff_check_bounded :
    BoundedValidation gitHost.platform [git, diff, check, separator, "src".toList]
      ⟨gitExecutable.path, [diff, noExtDiff, noTextconv, check, separator, "src".toList], none⟩ :=
  (@validation_bounded_iff_plainlySpelled gitHost false _ gitExecutable _ (by decide) rfl rfl).mpr
    ⟨by decide, rfl, fun _ => by decide⟩

/-- `git Diff --check` passes as `diff` and runs whatever `Diff` is an alias of. -/
theorem capital_diff_not_bounded :
    prepareValidationCommand gitHost false [git, "Diff".toList, check] =
        .ok ⟨gitExecutable.path, ["Diff".toList, check], none⟩ ∧
      ¬ BoundedValidation gitHost.platform [git, "Diff".toList, check]
        ⟨gitExecutable.path, ["Diff".toList, check], none⟩ :=
  ⟨rfl, not_bounded_of_head (by decide)⟩

/-- A pathspec that reads like a flag is lost: the whole tree is checked instead. -/
example : prepareValidationCommand gitHost false [git, diff, check, separator, noTextconv] =
    .ok ⟨gitExecutable.path, [diff, noExtDiff, noTextconv, check, separator], none⟩ := rfl

end AgentBridge.Validation
