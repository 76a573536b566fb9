import Mathlib

/-!
# Result texts within a limit

`lib/result-text.js`: the truncators of result texts. A text is the list of its code units, and
the products with `0.3` and `0.6` are taken exactly, as floating point does below `2 ^ 50`.

A result has a head and a tail of diagnostics around the agent's report, and all three share one
limit. Whatever is cut, the result consists of a shortened head, a prefix of the report with a
note that says how much of it is missing, and a shortened tail.
-/

namespace AgentBridge.Results

open List

/-- `${value}` of a number -/
def decimal (value : Nat) : List Char := (Nat.repr value).toList

def truncateText (text : List Char) (limit : Nat) : List Char :=
  if text.length ≤ limit then text
  else
    let marker := "\n... [truncated]".toList
    (text.take (limit - marker.length) ++ marker).take limit

def middleMarker (length : Nat) : List Char :=
  "\n... [".toList ++ decimal length ++
    " characters in total; the middle was truncated] ...\n".toList

def truncateResultText (text : List Char) (limit : Nat) : List Char :=
  if text.length ≤ limit then text
  else
    let marker := middleMarker text.length
    let room := limit - marker.length
    let head := room * 3 / 10
    let tail := room - head
    (text.take head ++ marker ++ (if tail = 0 then [] else text.drop (text.length - tail))).take
      limit

/-- `parts.filter(Boolean).join("\n")` -/
def join (parts : List (List Char)) : List Char :=
  ['\n'].intercalate (parts.filter (· ≠ []))

structure ResultParts where
  head : List Char
  report : List Char
  tail : List Char

structure FittedResult where
  text : List Char
  chars : Nat
  reportTruncated : Bool

/-- What the limit keeps free beside a report that is not cut. -/
def reserve : Nat := 200

/-- The line break between a part and the report. -/
def separator (part : List Char) : Nat := if part = [] then 0 else 1

namespace ResultParts

def whole (p : ResultParts) : List Char := join [p.head, p.report, p.tail]

def marker (p : ResultParts) (limit omitted : Nat) : List Char :=
  "\n... [the agent's report was cut here: ".toList ++ decimal omitted ++ " of ".toList ++
    decimal p.report.length ++
    " characters omitted at its end; the result is limited to ".toList ++ decimal limit ++
    " characters (CODEX_OPENCODE_QUEUE_RESULT_MAX_CHARS)] ...".toList

def diagnosticBudget (p : ResultParts) (limit : Nat) : Nat :=
  if p.report.length + reserve ≤ limit then limit - p.report.length - 2
  else min (p.head.length + p.tail.length) (limit * 3 / 5)

def tailBudget (p : ResultParts) (limit : Nat) : Nat :=
  let budget := p.diagnosticBudget limit
  min p.tail.length (max (budget / 2) (budget - p.head.length))

def usedTail (p : ResultParts) (limit : Nat) : List Char :=
  truncateResultText p.tail (p.tailBudget limit)

def usedHead (p : ResultParts) (limit : Nat) : List Char :=
  truncateResultText p.head (p.diagnosticBudget limit - (p.usedTail limit).length)

def room (p : ResultParts) (limit : Nat) : Nat :=
  limit - (p.usedHead limit).length - (p.usedTail limit).length - separator (p.usedHead limit) -
    separator (p.usedTail limit)

/-- How much of a report that does not fit is kept. -/
def keep (p : ResultParts) (limit : Nat) : Nat :=
  p.room limit - (p.marker limit p.report.length).length

def cutReport (p : ResultParts) (limit : Nat) : List Char :=
  (p.report.take (p.keep limit) ++ p.marker limit (p.report.length - p.keep limit)).take
    (p.room limit)

end ResultParts

def fitResultParts (p : ResultParts) (limit : Nat) : FittedResult :=
  if p.whole.length ≤ limit then ⟨p.whole, p.whole.length, false⟩
  else if p.report.length ≤ p.room limit then
    ⟨join [p.usedHead limit, p.report, p.usedTail limit], p.whole.length, false⟩
  else
    ⟨join [p.usedHead limit, p.cutReport limit, p.usedTail limit], p.whole.length,
      p.keep limit < p.report.length⟩

/-! ### The truncators -/

theorem length_truncateResultText_le (text : List Char) (limit : Nat) :
    (truncateResultText text limit).length ≤ limit := by
  rw [truncateResultText]
  split
  · assumption
  · exact length_take_le _ _

theorem truncateResultText_of_le {text : List Char} {limit : Nat} (h : text.length ≤ limit) :
    truncateResultText text limit = text := if_pos h

/-- What stands for a part that is too long. -/
def Shortened (part used : List Char) : Prop := ∃ limit, used = truncateResultText part limit

theorem Shortened.refl (part : List Char) : Shortened part part :=
  ⟨part.length, (truncateResultText_of_le (Nat.le_refl _)).symm⟩

/-! ### Joined parts -/

theorem length_join_le (head report tail : List Char) :
    (join [head, report, tail]).length ≤
      head.length + report.length + tail.length + separator head + separator tail := by
  cases head <;> cases report <;> cases tail <;>
    simp [join, separator, List.intercalate] <;> omega

theorem report_infix_join (head report tail : List Char) :
    report <:+: join [head, report, tail] := by
  cases report with
  | nil => exact nil_infix
  | cons c rest =>
    cases head with
    | nil =>
      cases tail with
      | nil => exact ⟨[], [], by simp [join, List.intercalate]⟩
      | cons d last => exact ⟨[], '\n' :: d :: last, by simp [join, List.intercalate]⟩
    | cons b first =>
      cases tail with
      | nil => exact ⟨b :: first ++ ['\n'], [], by simp [join, List.intercalate]⟩
      | cons d last =>
        exact ⟨b :: first ++ ['\n'], '\n' :: d :: last, by simp [join, List.intercalate]⟩

theorem separator_le_one (part : List Char) : separator part ≤ 1 := by
  rw [separator]; split <;> omega

theorem separator_le_length (part : List Char) : separator part ≤ part.length := by
  cases part <;> simp [separator]

/-! ### The budgets -/

namespace ResultParts

variable (p : ResultParts) (limit : Nat)

theorem diagnostics_le_budget :
    (p.usedHead limit).length + (p.usedTail limit).length ≤ p.diagnosticBudget limit := by
  have htail : (p.usedTail limit).length ≤ p.tailBudget limit :=
    length_truncateResultText_le _ _
  have hhead : (p.usedHead limit).length ≤
      p.diagnosticBudget limit - (p.usedTail limit).length := length_truncateResultText_le _ _
  have hbudget : p.tailBudget limit ≤ p.diagnosticBudget limit := by
    rw [tailBudget]
    omega
  omega

theorem diagnostics_fit :
    (p.usedHead limit).length + (p.usedTail limit).length + separator (p.usedHead limit) +
        separator (p.usedTail limit) ≤ limit ∧
      (p.report.length + reserve ≤ limit → p.report.length ≤ p.room limit) := by
  have hbudget := p.diagnostics_le_budget limit
  have hheadOne := separator_le_one (p.usedHead limit)
  have htailOne := separator_le_one (p.usedTail limit)
  have hheadLength := separator_le_length (p.usedHead limit)
  have htailLength := separator_le_length (p.usedTail limit)
  rw [diagnosticBudget] at hbudget
  rw [room]
  by_cases hshort : p.report.length + reserve ≤ limit
  · rw [if_pos hshort] at hbudget
    rw [reserve] at hshort
    constructor <;> omega
  · -- Below a limit of five there is room for one of the two line breaks only.
    rw [if_neg hshort] at hbudget
    exact ⟨by omega, fun h => absurd h hshort⟩

theorem length_join_used_le {report : List Char} (h : report.length ≤ p.room limit) :
    (join [p.usedHead limit, report, p.usedTail limit]).length ≤ limit := by
  have hjoin := length_join_le (p.usedHead limit) report (p.usedTail limit)
  have hfit := (p.diagnostics_fit limit).1
  rw [room] at h
  omega

theorem shortened_usedHead : Shortened p.head (p.usedHead limit) := ⟨_, rfl⟩

theorem shortened_usedTail : Shortened p.tail (p.usedTail limit) := ⟨_, rfl⟩

theorem cutReport_eq (h : ¬ p.report.length ≤ p.room limit) :
    ∃ kept omitted note, kept ++ omitted = p.report ∧ omitted ≠ [] ∧
      note <+: p.marker limit omitted.length ∧ p.cutReport limit = kept ++ note ∧
      p.keep limit < p.report.length := by
  have hkeep : p.keep limit ≤ p.room limit := Nat.sub_le _ _
  have hlength : (p.report.drop (p.keep limit)).length = p.report.length - p.keep limit :=
    length_drop
  have hkept : (p.report.take (p.keep limit)).length = p.keep limit := by
    rw [length_take]
    omega
  refine ⟨p.report.take (p.keep limit), p.report.drop (p.keep limit),
    (p.marker limit (p.report.length - p.keep limit)).take (p.room limit - p.keep limit),
    take_append_drop _ _, ?_, ?_, ?_, by omega⟩
  · intro hnone
    rw [hnone, length_nil] at hlength
    omega
  · rw [hlength]
    exact take_prefix _ _
  · rw [cutReport, take_append, hkept, take_of_length_le (by omega)]

end ResultParts

/-! ### The fitted result -/

/-- The text is a shortened head, a prefix of the report and a shortened tail. A note follows the
prefix where something was left out, and the flag says that something was. -/
structure KeepsReport (p : ResultParts) (limit : Nat) (fit : FittedResult)
    (head kept omitted note tail : List Char) : Prop where
  shortHead : Shortened p.head head
  report : kept ++ omitted = p.report
  noted : if omitted = [] then note = [] else note <+: p.marker limit omitted.length
  shortTail : Shortened p.tail tail
  text : fit.text = join [head, kept ++ note, tail]
  flag : fit.reportTruncated = true ↔ omitted ≠ []

theorem fitResultParts_keeps_report (p : ResultParts) (limit : Nat) :
    (fitResultParts p limit).text.length ≤ limit ∧
      (p.report.length + reserve ≤ limit → p.report <:+: (fitResultParts p limit).text ∧
        (fitResultParts p limit).reportTruncated = false) ∧
      ∃ head kept omitted note tail,
        KeepsReport p limit (fitResultParts p limit) head kept omitted note tail := by
  rw [fitResultParts]
  split
  · next hwhole =>
    refine ⟨hwhole, fun _ => ⟨report_infix_join _ _ _, rfl⟩, p.head, p.report, [], [], p.tail, ?_⟩
    exact
      { shortHead := Shortened.refl p.head
        report := append_nil _
        noted := rfl
        shortTail := Shortened.refl p.tail
        text := by rw [append_nil]; rfl
        flag := by simp }
  · split
    · next hroom =>
      refine ⟨p.length_join_used_le limit hroom, fun _ => ⟨report_infix_join _ _ _, rfl⟩,
        p.usedHead limit, p.report, [], [], p.usedTail limit, ?_⟩
      exact
        { shortHead := p.shortened_usedHead limit
          report := append_nil _
          noted := rfl
          shortTail := p.shortened_usedTail limit
          text := by rw [append_nil]
          flag := by simp }
    · next hroom =>
      obtain ⟨kept, omitted, note, hreport, homitted, hnote, hcut, hkeep⟩ :=
        p.cutReport_eq limit hroom
      have hlength : (p.cutReport limit).length ≤ p.room limit := length_take_le _ _
      refine ⟨p.length_join_used_le limit hlength,
        fun hshort => absurd ((p.diagnostics_fit limit).2 hshort) hroom,
        p.usedHead limit, kept, omitted, note, p.usedTail limit, ?_⟩
      exact
        { shortHead := p.shortened_usedHead limit
          report := hreport
          noted := by rw [if_neg homitted]; exact hnote
          shortTail := p.shortened_usedTail limit
          text := by rw [hcut]
          flag := by simp [hkeep, homitted] }

end AgentBridge.Results
