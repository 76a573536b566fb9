import AgentBridge.Paths

/-!
# Validation commands

The checks of `lib/validation-command.js` on a command that runs Git, the
vector that it prepares and the processes that the gate starts. The rules for
interpreters and package managers are a parameter: they never ask about Git.
-/

namespace AgentBridge.Validation

open Paths

abbrev Text := List Char

def git : Text := "git".toList
def diff : Text := "diff".toList
def separator : Text := "--".toList
def check : Text := "--check".toList
def cached : Text := "--cached".toList
def staged : Text := "--staged".toList
def noExtDiff : Text := "--no-ext-diff".toList
def noTextconv : Text := "--no-textconv".toList

/-- What a `.cmd` or `.bat` file forwards to, as `resolveWindowsNodeShim` reads it. -/
structure WindowsShim where
  nodePath : PathText
  scriptPath : PathText
deriving DecidableEq

structure Executable where
  path : PathText
  sha256 : String
  shim : Option WindowsShim

structure ValidationHost where
  platform : Platform
  validationExecutableAllowlist : List Text
  validationExecutableSha256Allowlist : List String
  /-- `resolveValidationExecutable`, for a name or an absolute path. -/
  resolve : Text → Option Executable
  /-- The rules of `validationCommandTrustError` for executables other than Git. -/
  otherTrustError : List Text → Option String

/-! ## What is accepted -/

/-- `path.basename(value)` -/
def basename (platform : Platform) (value : Text) : Text :=
  let isSeparator := fun c => c == '/' || platform.windows && c == '\\'
  let undriven := match value with
    | c :: ':' :: rest => if platform.windows && isAsciiLetter c then rest else value
    | _ => value
  (undriven.rdropWhile isSeparator).rtakeWhile (! isSeparator ·)

/-- `.replace(/\.(exe|cmd|bat|ps1)$/i, "")` of a name in lower case -/
def stripExecutableExtension (name : Text) : Text :=
  if [".exe", ".cmd", ".bat", ".ps1"].any (fun extension => extension.toList.isSuffixOf name) then
    name.rdrop 4
  else name

def executableName (platform : Platform) (value : Text) : Text :=
  stripExecutableExtension (platform.toLowerCase (basename platform value))

def isAbsolute (platform : Platform) (raw : Text) : Bool :=
  match raw with
  | '/' :: _ => true
  | '\\' :: _ => platform.windows
  | c :: ':' :: s :: _ => platform.windows && isAsciiLetter c && (s == '\\' || s == '/')
  | _ => false

def safeValidationPathspec (platform : Platform) (raw : Text) : Bool :=
  raw ≠ [] && ! isAbsolute platform raw &&
    (match raw with
      | c :: ':' :: _ => ! isAsciiLetter c
      | _ => true) &&
    ! hasParentTraversalSegment raw && raw.all (fun c => 0x1F < c.val && c.val ≠ 0x7F)

def diffOptions : List Text :=
  [check, cached, staged, noExtDiff, noTextconv, "--ignore-submodules".toList]

/-- The loop over the arguments of `git diff`. -/
def diffArgsError (platform : Platform) : Bool → Nat → Bool → List Text → Option String
  | _, separatorCount, sawCheck, [] =>
    if 1 < separatorCount then
      some "Project-policy git diff accepts at most one -- pathspec separator."
    else if sawCheck then none else some "Project-policy git diff must use --check."
  | afterSeparator, separatorCount, sawCheck, item :: rest =>
    if item = separator then diffArgsError platform true (separatorCount + 1) sawCheck rest
    else if ! afterSeparator && ['-'].isPrefixOf item then
      if item ∈ diffOptions then
        diffArgsError platform afterSeparator separatorCount (sawCheck || item = check) rest
      else some ("Project-policy git diff option is forbidden: " ++ String.ofList item)
    else if ! afterSeparator then
      some ("Project-policy git diff revisions/operands are forbidden before --: " ++
        String.ofList item)
    else if safeValidationPathspec platform item then
      diffArgsError platform afterSeparator separatorCount sawCheck rest
    else some ("Project-policy git diff pathspec is unsafe: " ++ String.ofList item)

def statusOptions : List String :=
  ["--short", "--porcelain", "--porcelain=v1", "--porcelain=v2", "--branch",
    "--untracked-files=no", "--untracked-files=normal", "--untracked-files=all"]

def revParseVectors : List (List String) :=
  [["--show-toplevel"], ["--is-inside-work-tree"], ["--verify", "HEAD"], ["HEAD"]]

def lsFilesOptions : List String :=
  ["--cached", "--others", "--exclude-standard", "--error-unmatch"]

/-- The arguments before `--`. -/
def options (args : List Text) : List Text := args.takeWhile (· ≠ separator)

/-- The arguments from `--` on. -/
def pathspecs (args : List Text) : List Text := args.dropWhile (· ≠ separator)

def missing (subcommand : Text) : String :=
  if subcommand = [] then "missing" else String.ofList subcommand

def strictProjectGitArgsError (platform : Platform) (args : List Text) : Option String :=
  let subcommand := platform.toLowerCase (args.headD [])
  let rest := args.tail
  if subcommand = "--version".toList then
    if rest = [] then none
    else some "git --version accepts no additional project-policy arguments."
  else if subcommand = "status".toList then
    if rest.all (fun item => statusOptions.contains (String.ofList item)) then none
    else some ("Project-policy git status accepts only bounded porcelain/status flags and no " ++
      "path arguments.")
  else if subcommand = diff then diffArgsError platform false 0 false rest
  else if subcommand = "rev-parse".toList then
    if rest.map String.ofList ∈ revParseVectors then none
    else some "Project-policy git rev-parse arguments are not an approved fixed vector."
  else if subcommand = "ls-files".toList then
    if (options rest).all (fun item => lsFilesOptions.contains (String.ofList item)) &&
        (pathspecs rest).tail.all (safeValidationPathspec platform) then none
    else some ("Project-policy git ls-files arguments are not bounded to safe flags and " ++
      "repo-relative pathspecs.")
  else some ("Git validation subcommand is not allowed: " ++ missing subcommand)

def gitSubcommands : List Text :=
  ["--version".toList, diff, "status".toList, "rev-parse".toList, "ls-files".toList]

/-- `/^-c(?:$|=)/i` and `/^--(?:config-env|…|textconv)(?:$|=)/i` -/
def selectsHelper (argument : Text) : Bool :=
  ["-c", "--config-env", "--exec-path", "--upload-pack", "--receive-pack", "--ext-diff",
    "--textconv"].any fun name =>
      argument.map Char.toLower = name.toList ||
        (name.toList ++ ['=']).isPrefixOf (argument.map Char.toLower)

def shellNames : List String :=
  ["cmd", "powershell", "pwsh", "bash", "sh", "wsl", "npx", "pnpx", "bunx"]

def validationCommandTrustError (host : ValidationHost) (strictProjectPolicy : Bool) :
    List Text → Option String
  | [] => none
  | command :: args =>
    let executable := executableName host.platform command
    if executable ∉ host.validationExecutableAllowlist.map (executableName host.platform) then
      some ("Validation executable is not operator-allowlisted: " ++ String.ofList command)
    else if shellNames.contains (String.ofList executable) then
      some ("Shell, interpreter, and package-executor validation commands are forbidden: " ++
        String.ofList command)
    else if executable ≠ git then
      if strictProjectPolicy then
        (host.otherTrustError (command :: args)).orElse fun _ =>
          some ("Untrusted project policy may execute only a hash-pinned Git read/check " ++
            "vector. Package scripts and repository interpreters require an external sandbox.")
      else host.otherTrustError (command :: args)
    else
      let subcommand := host.platform.toLowerCase (args.headD [])
      if subcommand ∉ gitSubcommands then
        some ("Git validation subcommand is not allowed: " ++ missing subcommand)
      else if args.any selectsHelper then
        some ("Git validation arguments may not select aliases, helpers, alternate " ++
          "executables, or external diff programs.")
      else strictProjectGitArgsError host.platform args

/-! ## What is run -/

structure PreparedCommand where
  executablePath : PathText
  args : List Text
  windowsShim : Option WindowsShim
deriving DecidableEq

def forcedFlags : List Text := [noExtDiff, noTextconv]

/-- The rewriting of the arguments in `prepareValidationCommand`. -/
def preparedArgs (executable : Text) (args : List Text) : List Text :=
  if executable = git ∧ args.headD [] = diff then
    diff :: noExtDiff :: noTextconv :: args.tail.filter (· ∉ forcedFlags)
  else args

def comparePath (platform : Platform) (value : PathText) : PathText :=
  if platform.windows then platform.toLowerCase value else value

/-- `prepareValidationCommand` of a vector: the error with its type, or the command. -/
def prepareValidationCommand (host : ValidationHost) (requirePinnedExecutable : Bool) :
    List Text → Except (String × String) PreparedCommand
  | [] => .error ("validation_command_parse_error", "Validation command is empty.")
  | command :: args =>
    match validationCommandTrustError host requirePinnedExecutable (command :: args) with
    | some error => .error ("validation_command_untrusted", error)
    | none =>
      match host.resolve command with
      | none => .error ("validation_command_untrusted",
          "Validation executable could not be resolved through the trusted process PATH: " ++
            String.ofList command)
      | some executable =>
        if comparePath host.platform executable.path ∉
            host.validationExecutableAllowlist.filterMap fun item =>
              (host.resolve item).map (comparePath host.platform ·.path) then
          .error ("validation_command_untrusted",
            "Validation executable is not operator-allowlisted: " ++ String.ofList command)
        else if requirePinnedExecutable ∧
            executable.sha256 ∉ host.validationExecutableSha256Allowlist then
          .error ("validation_command_untrusted",
            "Project-policy validation requires the exact executable SHA-256 in " ++
              "CODEX_OPENCODE_VALIDATION_EXECUTABLE_SHA256_ALLOWLIST.")
        else
          let args := preparedArgs (executableName host.platform executable.path) args
          match executable.shim with
          | none => .ok ⟨executable.path, args, none⟩
          | some shim => .ok ⟨shim.nodePath, shim.scriptPath :: args, some shim⟩

structure GateAnswers where
  /-- The trimmed output of `git config --get core.whitespace`, if it ended with 0. -/
  coreWhitespace : Option Text
  /-- Whether a validation process with these arguments ends with 0. -/
  passes : List Text → Bool

/-- `/(^|,)\s*-?cr-at-eol\s*(,|$)/i` -/
def namesCrAtEol (existing : Text) : Bool :=
  (existing.splitOn ',').any fun part =>
    (trim part).map Char.toLower = "cr-at-eol".toList ||
      (trim part).map Char.toLower = "-cr-at-eol".toList

def whitespaceConfig (coreWhitespace : Option Text) : List Text :=
  let existing := coreWhitespace.getD []
  if namesCrAtEol existing then []
  else ["-c".toList, "core.whitespace=".toList ++
    (if existing = [] then [] else existing ++ [',']) ++ "cr-at-eol".toList]

/-- A validation process: `-c` options, then the arguments. -/
structure GateRun where
  config : List Text
  args : List Text

/-- The validation processes that `runValidationGateUntimed` starts, in order. -/
def runValidationGateUntimed (platform : Platform) (answers : GateAnswers)
    (prepared : PreparedCommand) : List GateRun :=
  let isGitDiff := executableName platform prepared.executablePath = git ∧
    prepared.args.headD [] = diff
  let config := if isGitDiff ∧ check ∈ prepared.args then
    whitespaceConfig answers.coreWhitespace else []
  let isUnstagedDiffCheck := isGitDiff ∧ check ∈ prepared.args.tail ∧
    ¬ (cached ∈ prepared.args.tail ∨ staged ∈ prepared.args.tail)
  if answers.passes (config ++ prepared.args) ∧ isUnstagedDiffCheck then
    [⟨config, prepared.args⟩, ⟨config, diff :: cached :: prepared.args.tail⟩]
  else [⟨config, prepared.args⟩]

end AgentBridge.Validation
