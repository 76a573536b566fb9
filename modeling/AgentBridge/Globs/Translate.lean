import AgentBridge.Paths
import AgentBridge.Systems.Regex

/-!
# The translation of glob patterns

`globSourceToRegex` and `globToRegex` of `lib/paths.js`. The translator is a loop that
appends complete pieces of regular-expression text, so `Source` is that text in its own
grammar; `compile` is what the `RegExp` constructor makes of it, which refuses a character
class with a range out of order. The two wildcards and the classes are marked in the
compiled pattern, so that the part of a path each of them takes can be named.

The characters of a path or a pattern are the UTF-16 units of the source's strings. A
surrogate unit, which no `Char` is, is represented by the character of plane 15 that has
its value, and `codeUnit` gives the value back for the endpoints of a range.
-/

namespace AgentBridge.Globs

open AgentBridge.Paths AgentBridge.Systems

/-- The value of the UTF-16 unit that a character stands for. -/
def codeUnit (c : Char) : Nat :=
  if 0xFD800 ≤ c.toNat ∧ c.toNat ≤ 0xFDFFF then c.toNat - 0xF0000 else c.toNat

theorem codeUnit_injective {c d : Char} (h : codeUnit c = codeUnit d) : c = d := by
  have hc : c.toNat < 0xD800 ∨ 0xDFFF < c.toNat ∧ c.toNat < 0x110000 := c.valid
  have hd : d.toNat < 0xD800 ∨ 0xDFFF < d.toNat ∧ d.toNat < 0x110000 := d.valid
  have hnat : c.toNat = d.toNat := by
    unfold codeUnit at h
    split at h <;> split at h <;> omega
  exact Char.toNat_inj.mp hnat

/-- A step that can throw returns what its parts return. -/
theorem bind_ok {α β : Type} {action : Except String α} {next : α → Except String β}
    {result : β} : action >>= next = .ok result ↔ ∃ a, action = .ok a ∧ next a = .ok result := by
  cases action with
  | error message => simp [bind, Except.bind]
  | ok a => simp [bind, Except.bind]

/-- The effect of a regular expression's flags: the characters that are compared as one.
With the flag "i" no other character is compared as a slash. -/
structure CaseFolding where
  variants : Char → List Char
  self_mem : ∀ c, c ∈ variants c
  slash : ∀ c, '/' ∈ variants c → c = '/'
  variants_slash : ∀ c ∈ variants '/', c = '/'

/-- No flag: every character is compared as itself. -/
def CaseFolding.exact : CaseFolding where
  variants := fun c => [c]
  self_mem := fun _ => List.mem_cons_self
  slash := fun _ h => (List.mem_singleton.mp h).symm
  variants_slash := fun _ h => List.mem_singleton.mp h

/-- `process.platform === "win32" ? "i" : ""` -/
def flags (platform : Platform) (ignoreCase : CaseFolding) : CaseFolding :=
  if platform.windows then ignoreCase else .exact

/-- The text that the translator emits. -/
inductive Source where
  | empty
  | append (left right : Source)
  /-- `(?:.*/)?` -/
  | directories
  /-- `.*` -/
  | anything
  /-- `[^/]*` -/
  | star
  /-- `[^/]` -/
  | question
  /-- A class copied from the text between the brackets. -/
  | characterClass (text : PathText)
  /-- `escapeRegex(char)` -/
  | literal (c : Char)
  /-- `(?:left|right)` -/
  | either (left right : Source)

/-- The class that begins after a "[": `glob.indexOf("]", index + 2)` is its end. -/
def classText : PathText → Option (PathText × PathText)
  | [] => none
  | first :: rest =>
    match rest.dropWhile (· ≠ ']') with
    | [] => none
    | _ :: after => some (first :: rest.takeWhile (· ≠ ']'), after)

/-- The alternatives that begin after a "{", and the text after its "}". -/
def braceAlternatives (depth : Nat) (current : PathText) (alternatives : List PathText) :
    PathText → Option (List PathText × PathText)
  | [] => none
  | c :: rest =>
    if c = '{' then braceAlternatives (depth + 1) (current ++ [c]) alternatives rest
    else if c = '}' then
      if depth - 1 = 0 then
        if alternatives = [] then none else some (alternatives ++ [current], rest)
      else braceAlternatives (depth - 1) (current ++ [c]) alternatives rest
    else if c = ',' ∧ depth = 1 then
      braceAlternatives depth [] (alternatives ++ [current]) rest
    else braceAlternatives depth (current ++ [c]) alternatives rest

/-- `alternatives.join("|")` -/
def eitherOf : List Source → Source
  | [] => .empty
  | [last] => last
  | first :: rest => .either first (eitherOf rest)

/-- The loop of `globSourceToRegex`, with the character before the text it still has to
read. The fuel bounds the steps; the length of the glob is enough. -/
def translate : Nat → Option Char → PathText → Source
  | 0, _, _ => .empty
  | _, _, [] => .empty
  | fuel + 1, previous, c :: rest =>
    if c = '*' then
      if rest.head? = some '*' then
        let atSegmentStart := previous = none ∨ previous = some '/'
        if atSegmentStart ∧ (rest.drop 1).head? = some '/' then
          .append .directories (translate fuel (some '/') (rest.drop 2))
        else .append .anything (translate fuel (some '*') (rest.drop 1))
      else .append .star (translate fuel (some '*') rest)
    else if c = '?' then .append .question (translate fuel (some '?') rest)
    else if c = '[' then
      match classText rest with
      | none => .append (.literal '[') (translate fuel (some '[') rest)
      | some (text, after) => .append (.characterClass text) (translate fuel (some ']') after)
    else if c = '{' then
      match braceAlternatives 1 [] [] rest with
      | none => .append (.literal '{') (translate fuel (some '{') rest)
      | some (alternatives, after) =>
        .append (eitherOf (alternatives.map (translate fuel none)))
          (translate fuel (some '}') after)
    else .append (.literal c) (translate fuel (some c) rest)

def globSourceToRegex (glob : PathText) : Source := translate glob.length none glob

/-! ### Character classes -/

def isNegated (text : PathText) : Bool := text.head? == some '!' || text.head? == some '^'

/-- The members as the class spells them. -/
def memberText (text : PathText) : PathText := if isNegated text then text.tail else text

/-- The members as they are copied: a slash is dropped, and `\`, `]` and `^` are escaped, which
the regular expression reads as themselves. -/
def classBody (text : PathText) : PathText := (memberText text).filter (· ≠ '/')

def classRanges : PathText → List (Char × Char)
  | low :: '-' :: high :: rest => (low, high) :: classRanges rest
  | c :: rest => (c, c) :: classRanges rest
  | [] => []

/-- The ranges of the class that is emitted: `[^/body]` or `[body]`. -/
def emittedRanges (text : PathText) : List (Char × Char) :=
  classRanges (if isNegated text then '/' :: classBody text else classBody text)

def inRange (c : Char) (range : Char × Char) : Bool :=
  codeUnit range.1 ≤ codeUnit c && codeUnit c ≤ codeUnit range.2

/-- Some character compared as `c` lies in one of the ranges. -/
def covers (folding : CaseFolding) (ranges : List (Char × Char)) (c : Char) : Bool :=
  (folding.variants c).any fun d => ranges.any (inRange d)

def outOfOrder (range : Char × Char) : Bool := codeUnit range.2 < codeUnit range.1

/-! ### The regular expression -/

/-- What may take a part of a path. -/
inductive Wildcard where
  | star
  | question
  | characterClass (text : PathText)

abbrev PathRegex := Regex Char Wildcard

/-- `.` -/
def dot : PathRegex :=
  .char fun c => c ≠ '\n' && c ≠ '\r' && c.toNat ≠ 0x2028 && c.toNat ≠ 0x2029

/-- `[^/]` -/
def notSlash (folding : CaseFolding) : PathRegex :=
  .char fun c => !(folding.variants c).contains '/'

/-- The character `c` of a regular expression. -/
def exactly (folding : CaseFolding) (c : Char) : PathRegex :=
  .char fun d => (folding.variants d).contains c

/-- `[^/body]`, `[body]` or, for an empty body, `(?!)`. -/
def classRegex (folding : CaseFolding) (text : PathText) : PathRegex :=
  if isNegated text then .char fun c => !covers folding (emittedRanges text) c
  else if classBody text = [] then .never
  else .char (covers folding (emittedRanges text))

def rangeError : String := "Range out of order in character class"

def compile (folding : CaseFolding) : Source → Except String PathRegex
  | .empty => .ok .empty
  | .append left right => do
    let first ← compile folding left
    let second ← compile folding right
    return .seq first second
  | .directories => .ok (.alt (.seq (.star dot) (exactly folding '/')) .empty)
  | .anything => .ok (.star dot)
  | .star => .ok (.mark .star (.star (notSlash folding)))
  | .question => .ok (.mark .question (notSlash folding))
  | .characterClass text =>
    if (emittedRanges text).any outOfOrder then .error rangeError
    else .ok (.mark (.characterClass text) (classRegex folding text))
  | .literal c => .ok (exactly folding c)
  | .either left right => do
    let first ← compile folding left
    let second ← compile folding right
    return .alt first second

/-- The glob that is translated and whether it takes whole subtrees. -/
def globOf (pattern : PathText) (matchDescendants : Bool) : PathText × Bool :=
  let normalized := normalizeLockPath pattern
  if ['/', '*', '*'] <:+ normalized then (normalized.rdrop 3, true)
  else (normalized, matchDescendants)

def globToRegex (folding : CaseFolding) (pattern : PathText) (matchDescendants : Bool) :
    Except String PathRegex := do
  let (glob, descendants) := globOf pattern matchDescendants
  let regex ← compile folding (globSourceToRegex glob)
  return if descendants then
    .seq regex (.alt (.seq (exactly folding '/') (.star dot)) .empty)
  else regex

end AgentBridge.Globs
