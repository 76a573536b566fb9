import Mathlib

/-!
# JSON values

The values that `JSON.stringify` writes and `JSON.parse` reads back. A text is the list of
its characters. An object is the list of its fields; a name given twice has its first value.
-/

namespace AgentBridge.Systems

open List

inductive Json where
  | null
  | bool (value : Bool)
  /-- A number, as it is written. -/
  | number (literal : String)
  | text (value : List Char)
  | array (items : List Json)
  | object (fields : List (String × Json))

abbrev Fields := List (String × Json)

namespace Json

def ofString (value : String) : Json := .text value.toList

/-- The field of a value; `none` stands for `undefined`. -/
def field (value : Json) (name : String) : Option Json :=
  match value with
  | .object fields => fields.lookup name
  | _ => none

/-- What an `if` takes for true. -/
def truthy : Json → Bool
  | .null => false
  | .bool value => value
  | .number literal => literal != "0"
  | .text value => !value.isEmpty
  | .array _ | .object _ => true

/-- `value || other` -/
def orElse (value : Option Json) (other : Json) : Json :=
  match value with
  | some value => if value.truthy then value else other
  | none => other

end Json

/-- `Object.assign({}, fields, later)` -/
def Fields.assign (fields later : Fields) : Fields :=
  later ++ fields.filter fun entry => !later.any fun other => other.1 == entry.1

theorem Fields.lookup_filter {fields : Fields} {keep : String × Json → Bool} {name : String}
    (h : ∀ value, keep (name, value) = true) :
    List.lookup name (fields.filter keep) = List.lookup name fields := by
  induction fields with
  | nil => rfl
  | cons entry fields ih =>
    obtain ⟨key, value⟩ := entry
    by_cases hname : name = key
    · subst hname
      rw [filter_cons_of_pos (h value), lookup_cons_self, lookup_cons_self]
    · have hbeq : (name == key) = false := by simpa using hname
      rw [lookup_cons, hbeq]
      by_cases hkeep : keep (key, value) = true
      · rw [filter_cons_of_pos hkeep, lookup_cons, hbeq]
        exact ih
      · rw [filter_cons_of_neg hkeep]
        exact ih

theorem Fields.lookup_assign (fields later : Fields) (name : String) :
    List.lookup name (fields.assign later) =
      (List.lookup name later).or (List.lookup name fields) := by
  unfold assign
  rw [lookup_append]
  cases hlater : List.lookup name later with
  | some value => rfl
  | none =>
    refine lookup_filter fun value => ?_
    have hne := lookup_eq_none_iff.mp hlater
    simp only [Bool.not_eq_true', any_eq_false]
    intro other hother hsame
    have hname : other.1 = name := by simpa using hsame
    have hother := hne other hother
    simp [hname] at hother

theorem Fields.lookup_assign_of_notMem {fields later : Fields} {name : String}
    (h : name ∉ later.map Prod.fst) : (fields.assign later).lookup name = fields.lookup name := by
  have hnone : later.lookup name = none := by
    refine lookup_eq_none_iff.mpr fun entry hentry => ?_
    simpa using fun heq : name = entry.1 => h (heq ▸ mem_map_of_mem hentry)
  rw [Fields.lookup_assign, hnone, Option.none_or]

end AgentBridge.Systems
