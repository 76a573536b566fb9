import Mathlib

/-!
# Backtracking patterns

Regular expressions as ECMAScript matches them: alternatives from the left, greedy
repetitions from the most turns, captures, a look ahead and a look at the character
before. A matcher takes what has to match after it, so a later failure goes back to an
earlier choice. `replaceAll` is `String.prototype.replace` with the flag "g".
-/

namespace AgentBridge.Systems

/-- A position in a text: what is before it, last character first, what follows, and
the groups captured so far. -/
structure Cursor where
  before : List Char
  rest : List Char
  groups : List (Nat × List Char)

def Cursor.start (text : List Char) : Cursor := ⟨[], text, []⟩

/-- The text between two positions. -/
def Cursor.until (start finish : Cursor) : List Char :=
  (finish.before.take (finish.before.length - start.before.length)).reverse

inductive Pattern where
  | empty
  | char (accepts : Char → Bool)
  | seq (left right : Pattern)
  | alt (left right : Pattern)
  /-- At least `least` turns and at most `more` further ones. -/
  | times (least more : Nat) (body : Pattern)
  /-- At least `least` turns. -/
  | atLeast (least : Nat) (body : Pattern)
  | group (index : Nat) (body : Pattern)
  | reference (index : Nat)
  /-- `(?=body)` -/
  | ahead (body : Pattern)
  /-- `(?!body)` -/
  | notAhead (body : Pattern)
  /-- `(?<!c)` for a class of characters -/
  | notBehind (accepts : Char → Bool)
  /-- `\b` -/
  | wordBoundary
  /-- `^` with the flag "m" -/
  | lineStart
  /-- `$` with the flag "m" -/
  | lineEnd

abbrev Matcher := (Cursor → Option Cursor) → Cursor → Option Cursor

/-- `count` turns. -/
def repeatExactly (body : Matcher) : Nat → Matcher
  | 0, next, cursor => next cursor
  | count + 1, next, cursor => body (repeatExactly body count next) cursor

/-- Up to `count` turns, as many as match. A turn that takes nothing is none. -/
def repeatUpTo (body : Matcher) : Nat → Matcher
  | 0, next, cursor => next cursor
  | count + 1, next, cursor =>
    (body (fun after =>
      if after.rest.length = cursor.rest.length then none
      else repeatUpTo body count next after) cursor).or (next cursor)

def isWordCharacter (c : Char) : Bool := c.isAlphanum || c == '_'

def isLineTerminator (c : Char) : Bool :=
  c == '\n' || c == '\r' || c.val == 0x2028 || c.val == 0x2029

def Cursor.atWordBoundary (cursor : Cursor) : Bool :=
  cursor.before.head?.any isWordCharacter != cursor.rest.head?.any isWordCharacter

/-- Past a character of the class. -/
def Cursor.step (cursor : Cursor) (accepts : Char → Bool) : Option Cursor :=
  match cursor.rest with
  | c :: rest => if accepts c then some ⟨c :: cursor.before, rest, cursor.groups⟩ else none
  | [] => none

/-- Past the given text. -/
def Cursor.skip (cursor : Cursor) (text : List Char) : Option Cursor :=
  if text.isPrefixOf cursor.rest then
    some ⟨text.reverse ++ cursor.before, cursor.rest.drop text.length, cursor.groups⟩
  else none

def Pattern.run : Pattern → Matcher
  | .empty, next, cursor => next cursor
  | .char accepts, next, cursor => (cursor.step accepts).bind next
  | .seq left right, next, cursor => left.run (right.run next) cursor
  | .alt left right, next, cursor => (left.run next cursor).or (right.run next cursor)
  | .times least more body, next, cursor =>
    repeatExactly body.run least (repeatUpTo body.run more next) cursor
  | .atLeast least body, next, cursor =>
    repeatExactly body.run least
      (fun after => repeatUpTo body.run after.rest.length next after) cursor
  | .group index body, next, cursor =>
    body.run (fun after =>
      next { after with groups := (index, cursor.until after) :: after.groups }) cursor
  | .reference index, next, cursor =>
    (cursor.skip ((cursor.groups.lookup index).getD [])).bind next
  | .ahead body, next, cursor =>
    (body.run some cursor).bind fun found => next { cursor with groups := found.groups }
  | .notAhead body, next, cursor => if (body.run some cursor).isSome then none else next cursor
  | .notBehind accepts, next, cursor =>
    if cursor.before.head?.any accepts then none else next cursor
  | .wordBoundary, next, cursor => if cursor.atWordBoundary then next cursor else none
  | .lineStart, next, cursor =>
    if cursor.before.head?.all isLineTerminator then next cursor else none
  | .lineEnd, next, cursor =>
    if cursor.rest.head?.all isLineTerminator then next cursor else none

/-- The end of the match at a position. -/
def Pattern.matchAt (pattern : Pattern) (cursor : Cursor) : Option Cursor :=
  pattern.run some { cursor with groups := [] }

/-- `exec` from a position on: where the first match starts and ends. -/
def Pattern.search (pattern : Pattern) (before : List Char) :
    List Char → Option (Cursor × Cursor)
  | [] => (pattern.matchAt ⟨before, [], []⟩).map fun finish => (⟨before, [], []⟩, finish)
  | c :: rest =>
    match pattern.matchAt ⟨before, c :: rest, []⟩ with
    | some finish => some (⟨before, c :: rest, []⟩, finish)
    | none => pattern.search (c :: before) rest

/-- A part of a replacement text: a captured group or literal text. -/
inductive Replacement where
  | group (index : Nat)
  | verbatim (text : List Char)

def Replacement.expand (finish : Cursor) : Replacement → List Char
  | .group index => (finish.groups.lookup index).getD []
  | .verbatim text => text

/-- The loop of `replace` from a position on, for at most `fuel` matches. -/
def Pattern.replaceFrom (pattern : Pattern) (replacement : List Replacement) :
    Nat → List Char → List Char → List Char
  | 0, _, rest => rest
  | fuel + 1, before, rest =>
    match pattern.search before rest with
    | none => rest
    | some (start, finish) =>
      rest.take (rest.length - start.rest.length)
        ++ replacement.flatMap (Replacement.expand finish)
        ++ pattern.replaceFrom replacement fuel finish.before finish.rest

/-- `text.replace(pattern, replacement)` for a pattern that matches no empty text. -/
def Pattern.replaceAll (pattern : Pattern) (replacement : List Replacement)
    (text : List Char) : List Char :=
  pattern.replaceFrom replacement (text.length + 1) [] text

/-! ## Building patterns -/

namespace Pattern

/-- The text, character by character. -/
def literal : List Char → Pattern
  | [] => .empty
  | c :: rest => .seq (.char (· == c)) (literal rest)

/-- The text without regard to the case of ASCII letters; the text is in lower case. -/
def literalIgnoringCase : List Char → Pattern
  | [] => .empty
  | c :: rest => .seq (.char fun other => other.toLower == c) (literalIgnoringCase rest)

def sequence : List Pattern → Pattern
  | [] => .empty
  | [pattern] => pattern
  | pattern :: rest => .seq pattern (sequence rest)

def choice : List Pattern → Pattern
  | [] => .empty
  | [pattern] => pattern
  | pattern :: rest => .alt pattern (choice rest)

def optional (pattern : Pattern) : Pattern := .times 0 1 pattern

def many (pattern : Pattern) : Pattern := .atLeast 0 pattern

def some1 (pattern : Pattern) : Pattern := .atLeast 1 pattern

/-- `{least,most}` -/
def between (least most : Nat) (pattern : Pattern) : Pattern :=
  .times least (most - least) pattern

/-- `{count}` -/
def exactly (count : Nat) (pattern : Pattern) : Pattern := .times count 0 pattern

end Pattern

end AgentBridge.Systems
