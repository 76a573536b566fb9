import Mathlib

/-!
# Lines

The lines of a text over any alphabet: the pieces between separators, without the empty piece
after a final separator. A text that ends with a separator is the concatenation of its lines
with those of what follows, and the line of a concatenation is found by counting the lines of
the texts before.
-/

namespace AgentBridge.Systems

open List

variable {α : Type} [DecidableEq α] {sep : α}

def linesOf (sep : α) (text : List α) : List (List α) :=
  if (text.splitOn sep).getLast? = some [] then (text.splitOn sep).dropLast
  else text.splitOn sep

/-- Adds the separator that a text lacks at its end. -/
def terminate (sep : α) (text : List α) : List α :=
  if text ≠ [] ∧ text.getLast? ≠ some sep then text ++ [sep] else text

/-- The text is empty or ends with a separator. -/
def Terminated (sep : α) (text : List α) : Prop := text = [] ∨ ∃ body, text = body ++ [sep]

theorem terminated_terminate (text : List α) : Terminated sep (terminate sep text) := by
  rw [terminate]
  split
  · exact .inr ⟨text, rfl⟩
  · next h =>
    by_cases hempty : text = []
    · exact .inl hempty
    · have hlast : text.getLast? = some sep :=
        Decidable.not_not.mp fun hlast => h ⟨hempty, hlast⟩
      obtain ⟨body, hbody⟩ := List.getLast?_eq_some_iff.mp hlast
      exact .inr ⟨body, hbody⟩

@[simp] theorem linesOf_nil : linesOf sep [] = [] := by
  simp [linesOf]

theorem linesOf_append_cons (body rest : List α) :
    linesOf sep (body ++ sep :: rest) = body.splitOn sep ++ linesOf sep rest := by
  have hne : rest.splitOn sep ≠ [] := splitOn_ne_nil sep rest
  rw [linesOf, linesOf, splitOn_append_cons_self, List.getLast?_append_of_ne_nil _ hne]
  split
  · rw [dropLast_append_of_ne_nil hne]
  · rfl

theorem linesOf_append_separator (body : List α) :
    linesOf sep (body ++ [sep]) = body.splitOn sep := by
  rw [linesOf_append_cons, linesOf_nil, append_nil]

theorem linesOf_append {text : List α} (h : Terminated sep text) (rest : List α) :
    linesOf sep (text ++ rest) = linesOf sep text ++ linesOf sep rest := by
  cases h with
  | inl hempty => rw [hempty, nil_append, linesOf_nil, nil_append]
  | inr hbody =>
    obtain ⟨body, rfl⟩ := hbody
    rw [append_assoc, singleton_append, linesOf_append_cons,
      linesOf_append_separator]

theorem linesOf_flatten {texts : List (List α)} (h : ∀ text ∈ texts, Terminated sep text) :
    linesOf sep texts.flatten = (texts.map (linesOf sep)).flatten := by
  induction texts with
  | nil => exact linesOf_nil
  | cons text texts ih =>
    rw [flatten_cons, linesOf_append (h text mem_cons_self),
      ih fun other hother => h other (mem_cons_of_mem _ hother)]
    rfl

omit [DecidableEq α] in
theorem getLast?_modifyHead_cons_ne {c : α} {pieces : List (List α)}
    (h : pieces.getLast? ≠ some []) : (pieces.modifyHead (List.cons c)).getLast? ≠ some [] := by
  cases pieces with
  | nil => exact h
  | cons piece pieces =>
    rw [modifyHead_cons]
    cases pieces with
    | nil => simp
    | cons next pieces =>
      exact h

/-- A text that does not end with a separator has a last line. -/
theorem getLast?_splitOn_append_ne (body : List α) {last : α} (h : last ≠ sep) :
    ((body ++ [last]).splitOn sep).getLast? ≠ some [] := by
  induction body with
  | nil =>
    rw [nil_append, splitOn_eq_singleton (by simpa using h.symm)]
    simp
  | cons c body ih =>
    rw [cons_append, splitOn_cons_eq_if_modifyHead]
    split
    · rw [List.getLast?_cons_of_ne_nil (splitOn_ne_nil sep _)]
      exact ih
    · exact getLast?_modifyHead_cons_ne ih

theorem linesOf_terminate (text : List α) :
    linesOf sep (terminate sep text) = linesOf sep text := by
  rw [terminate]
  split
  · next h =>
    obtain ⟨hne, hlast⟩ := h
    obtain ⟨body, last, rfl⟩ := (eq_nil_or_concat text).resolve_left hne
    rw [concat_eq_append] at hlast ⊢
    rw [List.getLast?_concat] at hlast
    rw [linesOf_append_separator, linesOf, if_neg]
    exact getLast?_splitOn_append_ne body fun heq => hlast (by rw [heq])
  · rfl

theorem length_linesOf {text : List α} (h : Terminated sep text) :
    (linesOf sep text).length = (text.splitOn sep).length - 1 := by
  cases h with
  | inl hempty => rw [hempty, linesOf_nil, splitOn_nil]; rfl
  | inr hbody =>
    obtain ⟨body, rfl⟩ := hbody
    rw [linesOf_append_separator, splitOn_append_cons_self, length_append,
      splitOn_nil]
    rfl

/-- Lines that were each ended by a separator. -/
theorem splitOn_flatMap_concat {lines : List (List α)} (h : ∀ line ∈ lines, sep ∉ line) :
    (lines.flatMap fun line => line ++ [sep]).splitOn sep = lines ++ [[]] := by
  induction lines with
  | nil => exact splitOn_nil sep
  | cons line lines ih =>
    rw [flatMap_cons, append_assoc, singleton_append,
      splitOn_append_cons_self, splitOn_eq_singleton (h line mem_cons_self),
      ih fun other hother => h other (mem_cons_of_mem _ hother)]
    rfl

/-- A text that ends with a separator consists of lines that were each ended by one. -/
theorem exists_lines (body : List α) (sep : α) :
    ∃ lines : List (List α), (∀ line ∈ lines, sep ∉ line) ∧
      body ++ [sep] = lines.flatMap fun line => line ++ [sep] := by
  induction body with
  | nil => exact ⟨[[]], by simp, rfl⟩
  | cons c body ih =>
    obtain ⟨lines, hlines, hbody⟩ := ih
    by_cases hc : c = sep
    · refine ⟨[] :: lines, ?_, ?_⟩
      · intro line hline
        obtain rfl | hold := mem_cons.mp hline
        · exact not_mem_nil
        · exact hlines line hold
      · rw [flatMap_cons, ← hbody, hc]
        rfl
    · cases lines with
      | nil => exact absurd hbody (by simp)
      | cons line lines =>
        refine ⟨(c :: line) :: lines, ?_, ?_⟩
        · intro other hother
          obtain rfl | hold := mem_cons.mp hother
          · rw [mem_cons, not_or]
            exact ⟨fun heq => hc heq.symm, hlines line mem_cons_self⟩
          · exact hlines other (mem_cons_of_mem _ hold)
        · rw [flatMap_cons] at hbody ⊢
          rw [cons_append, hbody]
          rfl

/-- The position of a line among the lines of several texts. -/
theorem getElem?_flatten_of_getElem? {β : Type} {groups : List (List β)} {i : Nat}
    {group : List β} (h : groups[i]? = some group) {l : Nat} (hl : l < group.length) :
    groups.flatten[((groups.take i).map List.length).sum + l]? = group[l]? := by
  induction groups generalizing i with
  | nil => cases h
  | cons first groups ih =>
    cases i with
    | zero =>
      cases h
      rw [flatten_cons, take_zero, map_nil, sum_nil, Nat.zero_add,
        List.getElem?_append_left hl]
    | succ i =>
      rw [flatten_cons, take_succ_cons, map_cons, sum_cons,
        List.getElem?_append_right (by omega), ← ih h]
      congr 1
      omega

end AgentBridge.Systems
