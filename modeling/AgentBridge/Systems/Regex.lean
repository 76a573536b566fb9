import Mathlib

/-!
# Patterns with marked parts

Regular expressions whose letters are sets of characters and whose subexpressions may carry
a mark. `language` is the set of texts a pattern accepts, `test` decides it one character
after the other, and `Consumes` is one way to match a text, with the parts the marked
subexpressions took, in order. A pattern accepts a text when there is such a way, and what
the body of every mark guarantees of its texts holds of every part.
-/

namespace AgentBridge.Systems

open Computability List

universe u v

inductive Regex (α : Type u) (ι : Type v) where
  | never
  | empty
  | char (accepts : α → Bool)
  | seq (left right : Regex α ι)
  | alt (left right : Regex α ι)
  | star (body : Regex α ι)
  | mark (label : ι) (body : Regex α ι)

namespace Regex

variable {α : Type u} {ι : Type v}

def language : Regex α ι → Language α
  | never => 0
  | empty => 1
  | char accepts => {text | ∃ c, accepts c = true ∧ text = [c]}
  | seq left right => left.language * right.language
  | alt left right => left.language + right.language
  | star body => body.language∗
  | mark _ body => body.language

section Membership

variable {left right body : Regex α ι} {accepts : α → Bool} {label : ι} {text : List α}

@[simp] theorem not_mem_never : text ∉ (never : Regex α ι).language :=
  Language.notMem_zero text

@[simp] theorem mem_empty : text ∈ (empty : Regex α ι).language ↔ text = [] :=
  Language.mem_one text

@[simp] theorem mem_char :
    text ∈ (char accepts : Regex α ι).language ↔ ∃ c, accepts c = true ∧ text = [c] := Iff.rfl

theorem mem_seq : text ∈ (seq left right).language ↔
    ∃ first ∈ left.language, ∃ second ∈ right.language, first ++ second = text :=
  Language.mem_mul

@[simp] theorem mem_alt :
    text ∈ (alt left right).language ↔ text ∈ left.language ∨ text ∈ right.language :=
  Language.mem_add _ _ text

@[simp] theorem mem_mark : text ∈ (mark label body).language ↔ text ∈ body.language := Iff.rfl

@[simp] theorem nil_mem_star : [] ∈ (star body).language :=
  Language.nil_mem_kstar body.language

theorem append_mem_star {first : List α} (h : first ∈ body.language)
    (hrest : text ∈ (star body).language) : first ++ text ∈ (star body).language := by
  have hmul : first ++ text ∈ body.language * body.language∗ :=
    Language.append_mem_mul h hrest
  show first ++ text ∈ body.language∗
  rw [← Language.one_add_self_mul_kstar_eq_kstar]
  exact (Language.mem_add _ _ _).mpr (Or.inr hmul)

/-- A nonempty repetition begins with a nonempty turn. -/
theorem cons_mem_star {c : α} :
    c :: text ∈ (star body).language ↔
      ∃ first second, c :: first ∈ body.language ∧ second ∈ (star body).language ∧
        first ++ second = text := by
  constructor
  · intro h
    obtain ⟨turns, hturns, hmem⟩ := Language.mem_kstar_iff_exists_nonempty.mp h
    cases turns with
    | nil => simp at hturns
    | cons turn rest =>
      have hturn := hmem turn mem_cons_self
      cases turn with
      | nil => exact absurd rfl hturn.2
      | cons d first =>
        simp only [flatten_cons, cons_append, List.cons.injEq] at hturns
        obtain ⟨rfl, htext⟩ := hturns
        have hrest : rest.flatten ∈ (star body).language :=
          Language.join_mem_kstar fun part hpart =>
            (hmem part (mem_cons_of_mem _ hpart)).1
        exact ⟨first, rest.flatten, hturn.1, hrest, htext.symm⟩
  · intro ⟨first, second, hfirst, hsecond, htext⟩
    have happend := append_mem_star hfirst hsecond
    rwa [cons_append, htext] at happend

/-- A repeated set of characters takes exactly the texts over that set. -/
theorem mem_star_char :
    text ∈ (star (char accepts) : Regex α ι).language ↔ ∀ c ∈ text, accepts c = true := by
  induction text with
  | nil => simp
  | cons c rest ih =>
    rw [cons_mem_star, forall_mem_cons, ← ih]
    constructor
    · intro ⟨first, second, hfirst, hsecond, happend⟩
      obtain ⟨d, hd, heq⟩ := hfirst
      obtain ⟨rfl, rfl⟩ := List.cons.inj heq
      exact ⟨hd, happend ▸ hsecond⟩
    · intro ⟨hc, hrest⟩
      exact ⟨[], rest, ⟨c, hc, rfl⟩, hrest, rfl⟩

end Membership

/-! ### The decision -/

def nullable : Regex α ι → Bool
  | never => false
  | empty => true
  | char _ => false
  | seq left right => left.nullable && right.nullable
  | alt left right => left.nullable || right.nullable
  | star _ => true
  | mark _ body => body.nullable

/-- What is left of a pattern after the character `c`. -/
def derivative (c : α) : Regex α ι → Regex α ι
  | never => never
  | empty => never
  | char accepts => if accepts c then empty else never
  | seq left right =>
    if left.nullable then alt (seq (left.derivative c) right) (right.derivative c)
    else seq (left.derivative c) right
  | alt left right => alt (left.derivative c) (right.derivative c)
  | star body => seq (body.derivative c) (star body)
  | mark _ body => body.derivative c

def test (pattern : Regex α ι) (text : List α) : Bool :=
  (text.foldl (fun rest c => rest.derivative c) pattern).nullable

theorem nullable_iff {pattern : Regex α ι} : pattern.nullable = true ↔ [] ∈ pattern.language := by
  induction pattern with
  | never => simp [nullable]
  | empty => simp [nullable]
  | char accepts => simp [nullable]
  | seq left right hleft hright => simp [nullable, mem_seq, hleft, hright]
  | alt left right hleft hright => simp [nullable, hleft, hright]
  | star body _ => simp [nullable]
  | mark label body ih => simpa [nullable] using ih

theorem mem_derivative {pattern : Regex α ι} {c : α} {text : List α} :
    text ∈ (pattern.derivative c).language ↔ c :: text ∈ pattern.language := by
  induction pattern generalizing text with
  | never => simp [derivative]
  | empty => simp [derivative]
  | char accepts =>
    cases haccepts : accepts c <;> simp [derivative, haccepts]
  | alt left right hleft hright => simp [derivative, hleft, hright]
  | mark label body ih => simpa [derivative] using ih
  | star body ih =>
    rw [cons_mem_star, derivative, mem_seq]
    constructor
    · intro ⟨first, hfirst, second, hsecond, happend⟩
      exact ⟨first, second, ih.mp hfirst, hsecond, happend⟩
    · intro ⟨first, second, hfirst, hsecond, happend⟩
      exact ⟨first, ih.mpr hfirst, second, hsecond, happend⟩
  | seq left right hleft hright =>
    -- the character falls to the left part, or the left part is empty
    have hsplit : c :: text ∈ (seq left right).language ↔
        (∃ first, c :: first ∈ left.language ∧ ∃ second ∈ right.language,
          first ++ second = text) ∨ ([] ∈ left.language ∧ c :: text ∈ right.language) := by
      constructor
      · intro ⟨first, hfirst, second, hsecond, happend⟩
        cases first with
        | nil => exact Or.inr ⟨hfirst, (nil_append second ▸ happend) ▸ hsecond⟩
        | cons d first =>
          obtain ⟨rfl, rfl⟩ := List.cons.inj happend
          exact Or.inl ⟨first, hfirst, second, hsecond, rfl⟩
      · intro h
        cases h with
        | inl h =>
          obtain ⟨first, hfirst, second, hsecond, rfl⟩ := h
          exact ⟨c :: first, hfirst, second, hsecond, rfl⟩
        | inr h => exact ⟨[], h.1, c :: text, h.2, rfl⟩
    have hcut : text ∈ (seq (left.derivative c) right).language ↔
        ∃ first, c :: first ∈ left.language ∧ ∃ second ∈ right.language,
          first ++ second = text := by
      exact exists_congr fun first => and_congr_left' hleft
    rw [hsplit, ← nullable_iff, ← hcut]
    cases hnull : left.nullable
    · simp [derivative, hnull]
    · simp [derivative, hnull, hright]

/-- The decision and the language agree. -/
theorem test_iff {pattern : Regex α ι} {text : List α} :
    pattern.test text = true ↔ text ∈ pattern.language := by
  induction text generalizing pattern with
  | nil => exact nullable_iff
  | cons c rest ih =>
    rw [← mem_derivative]
    exact ih

/-! ### The parts of a match -/

/-- One way to match a text, with the parts that the marked subexpressions took. -/
inductive Consumes : Regex α ι → List α → List (ι × List α) → Prop where
  | empty : Consumes empty [] []
  | char {accepts : α → Bool} {c : α} (h : accepts c = true) : Consumes (char accepts) [c] []
  | seq {left right : Regex α ι} {first second : List α} {parts others : List (ι × List α)}
      (hfirst : Consumes left first parts) (hsecond : Consumes right second others) :
      Consumes (seq left right) (first ++ second) (parts ++ others)
  | left {left right : Regex α ι} {text : List α} {parts : List (ι × List α)}
      (h : Consumes left text parts) : Consumes (alt left right) text parts
  | right {left right : Regex α ι} {text : List α} {parts : List (ι × List α)}
      (h : Consumes right text parts) : Consumes (alt left right) text parts
  | stop {body : Regex α ι} : Consumes (star body) [] []
  | turn {body : Regex α ι} {first second : List α} {parts others : List (ι × List α)}
      (hfirst : Consumes body first parts) (hsecond : Consumes (star body) second others) :
      Consumes (star body) (first ++ second) (parts ++ others)
  | mark {label : ι} {body : Regex α ι} {text : List α} {parts : List (ι × List α)}
      (h : Consumes body text parts) : Consumes (mark label body) text ((label, text) :: parts)

/-- `body` stands under the mark `label` somewhere in the pattern. -/
inductive Marks : Regex α ι → ι → Regex α ι → Prop where
  | here {label : ι} {body : Regex α ι} : Marks (mark label body) label body
  | inside {label other : ι} {outer body : Regex α ι} (h : Marks outer label body) :
      Marks (mark other outer) label body
  | seqLeft {label : ι} {left right body : Regex α ι} (h : Marks left label body) :
      Marks (seq left right) label body
  | seqRight {label : ι} {left right body : Regex α ι} (h : Marks right label body) :
      Marks (seq left right) label body
  | altLeft {label : ι} {left right body : Regex α ι} (h : Marks left label body) :
      Marks (alt left right) label body
  | altRight {label : ι} {left right body : Regex α ι} (h : Marks right label body) :
      Marks (alt left right) label body
  | star {label : ι} {outer body : Regex α ι} (h : Marks outer label body) :
      Marks (star outer) label body

variable {pattern : Regex α ι} {text : List α} {parts : List (ι × List α)}

theorem Consumes.mem_language (h : Consumes pattern text parts) : text ∈ pattern.language := by
  induction h with
  | empty => simp
  | char h => exact ⟨_, h, rfl⟩
  | seq _ _ hfirst hsecond => exact mem_seq.mpr ⟨_, hfirst, _, hsecond, rfl⟩
  | left _ ih => exact mem_alt.mpr (Or.inl ih)
  | right _ ih => exact mem_alt.mpr (Or.inr ih)
  | stop => exact nil_mem_star
  | turn _ _ hfirst hsecond => exact append_mem_star hfirst hsecond
  | mark _ ih => exact ih

theorem Consumes.part {label : ι} {part : List α} (h : Consumes pattern text parts)
    (hpart : (label, part) ∈ parts) : ∃ body, Marks pattern label body ∧ part ∈ body.language := by
  induction h with
  | empty => exact absurd hpart not_mem_nil
  | char => exact absurd hpart not_mem_nil
  | stop => exact absurd hpart not_mem_nil
  | seq _ _ hfirst hsecond =>
    cases mem_append.mp hpart with
    | inl hmem => exact (hfirst hmem).imp fun _ h => ⟨.seqLeft h.1, h.2⟩
    | inr hmem => exact (hsecond hmem).imp fun _ h => ⟨.seqRight h.1, h.2⟩
  | turn _ _ hfirst hsecond =>
    cases mem_append.mp hpart with
    | inl hmem => exact (hfirst hmem).imp fun _ h => ⟨.star h.1, h.2⟩
    | inr hmem => exact hsecond hmem
  | left _ ih => exact (ih hpart).imp fun _ h => ⟨.altLeft h.1, h.2⟩
  | right _ ih => exact (ih hpart).imp fun _ h => ⟨.altRight h.1, h.2⟩
  | mark hbody ih =>
    cases mem_cons.mp hpart with
    | inl heq =>
      obtain ⟨rfl, rfl⟩ := Prod.mk.inj heq
      exact ⟨_, .here, hbody.mem_language⟩
    | inr hmem => exact (ih hmem).imp fun _ h => ⟨.inside h.1, h.2⟩

end Regex

end AgentBridge.Systems
