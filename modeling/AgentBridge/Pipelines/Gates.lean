import AgentBridge.Pipelines.Lifecycle

/-!
# The gates of a finalization

A gate agent reads the integrated checkout and ends its report with a verdict line. What
counts as a verdict is decided here; the run of the agent is the host's.
-/

namespace AgentBridge.Pipelines

open Paths

/-! ### The verdict of a report -/

/-- What `parsePipelineGateVerdict` returns, and `notRead` for a gate whose run failed. -/
inductive GateVerdict where
  | pass | fail | missing | misplaced | ambiguous | notRead
deriving DecidableEq

namespace GateVerdict

def text : GateVerdict → String
  | pass => "pass"
  | fail => "fail"
  | missing => "missing"
  | misplaced => "misplaced"
  | ambiguous => "ambiguous"
  | notRead => "not_read"

/-- `PIPELINE_GATE_VERDICT_ERROR_TYPES`, where a pass has none -/
def errorType : GateVerdict → String
  | fail => "pipeline_gate_verdict_fail"
  | missing => "pipeline_gate_verdict_missing"
  | misplaced => "pipeline_gate_verdict_misplaced"
  | ambiguous => "pipeline_gate_verdict_ambiguous"
  | pass | notRead => ""

end GateVerdict

/-- The class of the characters that may wrap a verdict: emphasis and code. -/
def isEmphasis (c : Char) : Bool := "*_`".toList.contains c

/-- The text behind a word, in upper or lower case. -/
def afterWord (word : String) (text : PathText) : Option PathText :=
  if (text.take word.length).map Char.toUpper = word.toList then some (text.drop word.length)
  else none

/-- `PIPELINE_GATE_VERDICT_LINE`: whether a verdict line says pass. No part of the expression
can match what the next one needs, so each repetition takes all it can. -/
def gateVerdictLine (line : PathText) : Option Bool := do
  let colon ← afterWord "GATE_VERDICT" (line.dropWhile isEmphasis)
  let value ← afterWord ":" (colon.dropWhile isEmphasis)
  let value := value.dropWhile isEmphasis
  let value := (if value.head? = some ' ' then value.tail else value).dropWhile isEmphasis
  match afterWord "PASS" value, afterWord "FAIL" value with
  | some rest, _ => if rest.all isEmphasis then some true else none
  | none, some rest => if rest.all isEmphasis then some false else none
  | none, none => none

/-- The lines of a report that are not blank; a carriage return before the end of a line is
trimmed with the rest. -/
def reportLines (report : PathText) : List PathText :=
  ((report.splitOn '\n').map trim).filter fun line => !line.isEmpty

def mentionsVerdict (line : PathText) : Bool :=
  decide ("GATE_VERDICT".toList <:+: line.map Char.toUpper)

def parsePipelineGateVerdict (report : PathText) : GateVerdict :=
  let lines := reportLines report
  let mentions := lines.filter mentionsVerdict
  if mentions.length > 1 then .ambiguous
  else
    match lines.getLast?.bind gateVerdictLine with
    | some true => .pass
    | some false => .fail
    | none => if mentions.isEmpty then .missing else .misplaced

example : parsePipelineGateVerdict "No issue found.\n\n **GATE_VERDICT: Pass**\r\n".toList
    = .pass := by decide +kernel

example : parsePipelineGateVerdict "GATE_VERDICT: fail\nGATE_VERDICT: pass".toList
    = .ambiguous := by decide +kernel

/-! ### A gate -/

/-- What the run of a gate agent returns: the error of the run, the error type of the files
it changed, if any, and its report. -/
structure GateExecution where
  errorType : String
  changedFilesErrorType : Option String
  stdout : PathText

/-- `runPipelineReadOnlyGate` -/
def runPipelineReadOnlyGate (isManagedReadOnlyAgent : String → Bool) (gateName : String)
    (gateJob : Option String) (execution : GateExecution) (checkedTargetStateSha256 : String) :
    Option GateResult :=
  gateJob.map fun agent =>
    if isManagedReadOnlyAgent agent then
      let runErrorType := orText execution.errorType (execution.changedFilesErrorType.getD "")
      let verdict := if runErrorType ≠ "" then .notRead
        else parsePipelineGateVerdict execution.stdout
      let errorType := orText runErrorType verdict.errorType
      { gate := gateName
        passed := errorType = ""
        errorType := errorType
        verdict := verdict.text
        checkedTargetStateSha256 := checkedTargetStateSha256 }
    else
      { gate := gateName
        passed := false
        errorType := "pipeline_gate_agent_not_read_only"
        verdict := ""
        checkedTargetStateSha256 := "" }

def terminalGateErrorTypes : List String :=
  ["pipeline_gate_verdict_fail", "pipeline_gate_agent_not_read_only"] ++ sourceScopeViolationTypes

theorem orText_eq_empty {text fallback : String} :
    orText text fallback = "" ↔ text = "" ∧ fallback = "" := by
  unfold orText
  constructor
  · intro hempty
    by_cases htext : text = ""
    · rw [if_pos htext] at hempty
      exact ⟨htext, hempty⟩
    · rw [if_neg htext] at hempty
      exact absurd hempty htext
  · rintro ⟨rfl, rfl⟩
    rfl

theorem parsePipelineGateVerdict_read (report : PathText) :
    parsePipelineGateVerdict report ≠ .notRead := by
  simp only [parsePipelineGateVerdict]
  split
  · simp
  · split
    · simp
    · simp
    · split <;> simp

/-- A report that was read has no error only if it says pass. -/
theorem verdict_of_noError {report : PathText}
    (noError : (parsePipelineGateVerdict report).errorType = "") :
    parsePipelineGateVerdict report = .pass := by
  have hread := parsePipelineGateVerdict_read report
  cases hverdict : parsePipelineGateVerdict report with
  | pass => rfl
  | notRead => exact absurd hverdict hread
  | _ =>
    rw [hverdict] at noError
    simp [GateVerdict.errorType] at noError

theorem runPipelineReadOnlyGate_passed {isManagedReadOnlyAgent : String → Bool}
    {gateName : String} {gateJob : Option String} {execution : GateExecution}
    {checked : String} {result : GateResult}
    (ran : runPipelineReadOnlyGate isManagedReadOnlyAgent gateName gateJob execution checked
      = some result) (passed : result.passed = true) :
    gateJob.any isManagedReadOnlyAgent = true ∧ execution.errorType = "" ∧
      parsePipelineGateVerdict execution.stdout = .pass := by
  obtain ⟨agent, rfl, hresult⟩ := Option.map_eq_some_iff.mp ran
  split at hresult
  next hmanaged =>
    subst hresult
    simp only [decide_eq_true_eq] at passed
    obtain ⟨hrun, hverdict⟩ := orText_eq_empty.mp passed
    obtain ⟨herror, -⟩ := orText_eq_empty.mp hrun
    refine ⟨hmanaged, herror, ?_⟩
    simp only [hrun, ne_eq, not_true_eq_false, if_false] at hverdict
    exact verdict_of_noError hverdict
  · subst hresult
    cases passed

end AgentBridge.Pipelines
