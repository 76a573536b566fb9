import AgentBridge.Systems.Run

/-!
# Captured output

`consumeStdout` and `consumeStderr` of `lib/run-command.js`, on the texts that the decoders
hand on, as UTF-16 units; the watchers of the lines and the text of the result are left
out. However a stream is cut, the same is captured, and within the limits the same lines
are delivered.
-/

namespace AgentBridge.Supervision

open Systems List

abbrev Units := List UInt16

/-- `text.slice(-n)`; with `-0` it is the whole text. -/
def sliceLast (n : Nat) (text : Units) : Units := if n = 0 then text else text.rtake n

structure Capture where
  text : Units
  tail : Units
  chars : Nat
  truncated : Bool

def Capture.add (maxChars : Nat) (c : Capture) (text : Units) : Capture where
  text := c.text ++ text.take (maxChars - c.text.length)
  tail := sliceLast (maxChars / 2) (c.tail ++ text)
  chars := c.chars + text.length
  truncated := c.truncated || decide (maxChars - c.text.length < text.length)

/-- The complete lines and the rest after them. -/
structure Lines where
  complete : List Units
  rest : Units

/-- `split(/\r?\n/)`, unit by unit. -/
def pushUnit (lines : Lines) (unit : UInt16) : Lines :=
  if unit = 10 then
    ⟨lines.complete ++
      [if lines.rest.getLast? = some 13 then lines.rest.dropLast else lines.rest], []⟩
  else ⟨lines.complete, lines.rest ++ [unit]⟩

def splitLines (text : Units) : Lines := text.foldl pushUnit ⟨[], []⟩

/-- The capture of a stream, the lines delivered so far and the line buffer. -/
structure Stream where
  capture : Capture
  lines : Lines

def Stream.start : Stream := ⟨⟨[], [], 0, false⟩, ⟨[], []⟩⟩

/-- The line buffer is cut to `before` units before it is split and to `after` units
behind the last line break; `0` does not cut. -/
def consume (maxChars before after : Nat) (s : Stream) (text : Units) : Stream :=
  if text = [] then s
  else
    let buffer := s.lines.rest ++ text
    let capture := s.capture.add maxChars text
    let split := splitLines (sliceLast before buffer)
    { capture :=
        { capture with
          truncated := capture.truncated || decide (0 < before ∧ before < buffer.length) }
      lines := ⟨s.lines.complete ++ split.complete, sliceLast after split.rest⟩ }

def consumeStdout (maxChars : Nat) : Stream → Units → Stream := consume maxChars maxChars 0

def consumeStderr (maxChars : Nat) : Stream → Units → Stream := consume maxChars 0 (64 * 1024)

/-! ### What a whole stream leaves -/

def captured (maxChars : Nat) (total : Units) : Capture where
  text := total.take maxChars
  tail := sliceLast (maxChars / 2) total
  chars := total.length
  truncated := decide (maxChars < total.length)

/-- The capture of the whole stream, and its lines if it is no longer than `limit`. -/
structure Consumed (maxChars limit : Nat) (total : Units) (s : Stream) : Prop where
  capture : s.capture = captured maxChars total
  lines : total.length ≤ limit → s.lines = splitLines total
  buffer : s.lines.rest.length ≤ total.length

theorem length_sliceLast_le (n : Nat) (text : Units) : (sliceLast n text).length ≤ text.length := by
  rw [sliceLast]
  split
  · rfl
  · simp [rtake]

theorem sliceLast_of_le {n : Nat} {text : Units} (h : n = 0 ∨ text.length ≤ n) :
    sliceLast n text = text := by
  rw [sliceLast]
  split
  · rfl
  next hn => rw [rtake, Nat.sub_eq_zero_of_le (h.resolve_left hn), drop_zero]

theorem sliceLast_append (n : Nat) (text more : Units) :
    sliceLast n (sliceLast n text ++ more) = sliceLast n (text ++ more) := by
  simp only [sliceLast]
  split
  · rfl
  · simp [rtake_eq_reverse_take_reverse, take_append, take_take]

theorem captured_add (maxChars : Nat) (total text : Units) :
    (captured maxChars total).add maxChars text = captured maxChars (total ++ text) := by
  have hroom : maxChars - min maxChars total.length = maxChars - total.length := by omega
  simp only [Capture.add, captured, sliceLast_append, take_append, length_append, length_take,
    hroom, Capture.mk.injEq, true_and, ← Bool.decide_or, decide_eq_decide]
  omega

theorem foldl_pushUnit (done lines : List Units) (rest text : Units) :
    text.foldl pushUnit ⟨done ++ lines, rest⟩ =
      ⟨done ++ (text.foldl pushUnit ⟨lines, rest⟩).complete,
        (text.foldl pushUnit ⟨lines, rest⟩).rest⟩ := by
  induction text generalizing lines rest with
  | nil => rfl
  | cons unit text ih =>
    simp only [foldl_cons, pushUnit]
    split
    · rw [append_assoc, ih]
    · rw [ih]

/-- The rest is no line yet, and no longer than the text. -/
theorem rest_splitLines (text : Units) :
    splitLines (splitLines text).rest = ⟨[], (splitLines text).rest⟩ ∧
      (splitLines text).rest.length ≤ text.length := by
  induction text using reverseRecOn with
  | nil => exact ⟨rfl, le_rfl⟩
  | append_singleton text unit ih =>
    simp only [splitLines, foldl_append, foldl_cons, foldl_nil, pushUnit] at ih ⊢
    split
    · exact ⟨rfl, Nat.zero_le _⟩
    next hunit => simp [foldl_append, ih.1, pushUnit, hunit, ih.2]

theorem splitLines_append (total text : Units) :
    splitLines (total ++ text) =
      ⟨(splitLines total).complete ++ (splitLines ((splitLines total).rest ++ text)).complete,
        (splitLines ((splitLines total).rest ++ text)).rest⟩ := by
  have hsplit : ∀ first, splitLines (first ++ text) = text.foldl pushUnit (splitLines first) :=
    fun first => foldl_append
  rw [hsplit, hsplit, (rest_splitLines total).1, ← foldl_pushUnit, append_nil]

variable {maxChars limit before after : Nat} {total : Units} {s : Stream}

theorem Consumed.consume (h : Consumed maxChars limit total s)
    (hcapture : before = 0 ∨ maxChars ≤ before) (hbefore : before = 0 ∨ limit ≤ before)
    (hafter : after = 0 ∨ limit ≤ after) (text : Units) :
    Consumed maxChars limit (total ++ text) (consume maxChars before after s text) := by
  rw [Supervision.consume]
  split
  next hempty => rwa [hempty, append_nil]
  · have hbuffer : (s.lines.rest ++ text).length ≤ (total ++ text).length := by
      simpa using h.buffer
    have hsplit := (rest_splitLines (sliceLast before (s.lines.rest ++ text))).2.trans
      (length_sliceLast_le before _)
    refine ⟨?_, fun hlimit => ?_, ?_⟩
    · rw [h.capture, captured_add]
      simp only [captured, Capture.mk.injEq, true_and, ← Bool.decide_or, decide_eq_decide]
      omega
    · have hlines := h.lines (by rw [length_append] at hlimit; omega)
      dsimp only
      rw [sliceLast_of_le (by omega : before = 0 ∨ _)] at hsplit ⊢
      rw [sliceLast_of_le (by omega), hlines]
      exact (splitLines_append total text).symm
    · exact (length_sliceLast_le after _).trans (hsplit.trans hbuffer)

theorem consumed_start (maxChars limit : Nat) : Consumed maxChars limit [] .start := by
  refine ⟨?_, fun _ => rfl, le_rfl⟩
  simp [Stream.start, captured, sliceLast]

/-- Either stream leaves what its whole text leaves, whatever pieces it came in. -/
theorem output_independent_of_cuts (maxChars : Nat) (texts : List Units) :
    Consumed maxChars maxChars texts.flatten (run (consumeStdout maxChars) .start texts) ∧
      Consumed maxChars (64 * 1024) texts.flatten (run (consumeStderr maxChars) .start texts) := by
  induction texts using reverseRecOn with
  | nil => exact ⟨consumed_start _ _, consumed_start _ _⟩
  | append_singleton texts text ih =>
    rw [flatten_concat, run_append, run_append]
    exact ⟨ih.1.consume (.inr le_rfl) (.inr le_rfl) (.inl rfl) text,
      ih.2.consume (.inl rfl) (.inl rfl) (.inr le_rfl) text⟩

end AgentBridge.Supervision
