import Mathlib

/-!
# Keyed tables and how they evolve

A table is a list of rows with a key. An update rewrites the rows that satisfy its
guard, an insert appends a row under a new key. `Evolves` says that a later table
consists of the earlier rows, each rewritten within a relation and under the same
key, followed by added rows, and that keys stay unique. The rules compose updates and
inserts, so a relation that every single update respects holds between a row and what
is found under its key after any transaction and after any run.
-/

namespace AgentBridge.Systems

open List

universe u v

variable {Row : Type u} {Key : Type v}

structure RowUpdate (Row : Type u) where
  guard : Row → Bool
  set : Row → Row

namespace RowUpdate

def exec (update : RowUpdate Row) (rows : List Row) : List Row :=
  rows.map fun row => if update.guard row then update.set row else row

/-- The number of rows the update rewrites. -/
def changes (update : RowUpdate Row) (rows : List Row) : Nat :=
  rows.countP update.guard

theorem exec_eq_self {update : RowUpdate Row} {rows : List Row}
    (h : ∀ row ∈ rows, update.guard row = false) : update.exec rows = rows := by
  have hmap : rows.map (fun row => if update.guard row then update.set row else row)
      = rows.map id := by
    apply map_congr_left
    intro row hrow
    simp [h row hrow]
  rw [exec, hmap, map_id]

end RowUpdate

/-- The row found under a key. -/
def lookup [DecidableEq Key] (key : Row → Key) (k : Key) (rows : List Row) : Option Row :=
  rows.find? fun row => key row = k

/-- A row found under a key is in the table and has the key. -/
theorem lookup_some [DecidableEq Key] {key : Row → Key} {k : Key} {rows : List Row} {row : Row}
    (h : lookup key k rows = some row) : row ∈ rows ∧ key row = k :=
  ⟨mem_of_find?_eq_some h, by simpa using List.find?_some h⟩

theorem lookup_of_mem [DecidableEq Key] {key : Row → Key} {rows : List Row}
    (hnodup : (rows.map key).Nodup) {row : Row} (hrow : row ∈ rows) :
    lookup key (key row) rows = some row := by
  induction rows with
  | nil => simp at hrow
  | cons head tail ih =>
    rw [map_cons, nodup_cons] at hnodup
    rcases mem_cons.mp hrow with rfl | htail
    · simp [lookup]
    · have hne : key head ≠ key row := by
        intro heq
        exact hnodup.1 (heq ▸ mem_map_of_mem htail)
      simpa [lookup, List.find?_cons, hne] using ih hnodup.2 htail

/-- What an update leaves under a key that it keeps. -/
theorem lookup_exec [DecidableEq Key] {key : Row → Key} {update : RowUpdate Row}
    (hkey : ∀ row, key (update.set row) = key row) (k : Key) (rows : List Row) :
    lookup key k (update.exec rows)
      = (lookup key k rows).map fun row => if update.guard row then update.set row else row := by
  induction rows with
  | nil => rfl
  | cons row rows ih =>
    have hsame : key (if update.guard row then update.set row else row) = key row := by
      split_ifs
      · exact hkey row
      · rfl
    by_cases hrow : key row = k
    · simp [RowUpdate.exec, lookup, hsame, hrow]
    · simpa [RowUpdate.exec, lookup, List.find?_cons, hsame, hrow] using ih

/-- The earlier rows, rewritten within `R` under their keys, and added rows, each of
them a new row rewritten within `R`. -/
def Evolves (key : Row → Key) (R : Row → Row → Prop) (New : Row → Prop) (rows rows' : List Row) :
    Prop :=
  (∃ f added, rows' = rows.map f ++ added ∧
    (∀ row ∈ rows, key (f row) = key row ∧ R row (f row)) ∧
    ∀ row ∈ added, ∃ new, New new ∧ R new row) ∧
  ((rows.map key).Nodup → (rows'.map key).Nodup)

namespace Evolves

variable {key : Row → Key} {R : Row → Row → Prop} {New : Row → Prop}
variable {rows rows' rows'' : List Row}

theorem refl (hrefl : ∀ row, R row row) : Evolves key R New rows rows :=
  ⟨⟨id, [], by simp, fun row _ => ⟨rfl, hrefl row⟩, by simp⟩, id⟩

theorem trans (first : Evolves key R New rows rows') (htrans : ∀ a b c, R a b → R b c → R a c)
    (second : Evolves key R New rows' rows'') : Evolves key R New rows rows'' := by
  obtain ⟨⟨f, added, rfl, hf, hadded⟩, hnodup⟩ := first
  obtain ⟨⟨g, added', rfl, hg, hadded'⟩, hnodup'⟩ := second
  refine ⟨⟨g ∘ f, added.map g ++ added', by simp, ?_, ?_⟩, fun h => hnodup' (hnodup h)⟩
  · intro row hrow
    obtain ⟨hkey, hR⟩ := hf row hrow
    obtain ⟨hkey', hR'⟩ := hg (f row) (by simp [mem_map_of_mem hrow])
    exact ⟨hkey'.trans hkey, htrans _ _ _ hR hR'⟩
  · intro row hrow
    rcases mem_append.mp hrow with hrow | hrow
    · obtain ⟨a, ha, rfl⟩ := mem_map.mp hrow
      obtain ⟨new, hnew, hR⟩ := hadded a ha
      exact ⟨new, hnew, htrans _ _ _ hR (hg a (by simp [ha])).2⟩
    · exact hadded' row hrow

theorem mono {S : Row → Row → Prop} (h : Evolves key R New rows rows')
    (hsub : ∀ row row', R row row' → S row row') : Evolves key S New rows rows' := by
  obtain ⟨⟨f, added, heq, hf, hadded⟩, hnodup⟩ := h
  refine ⟨⟨f, added, heq, fun row hrow => ?_, fun row hrow => ?_⟩, hnodup⟩
  · exact ⟨(hf row hrow).1, hsub _ _ (hf row hrow).2⟩
  · obtain ⟨new, hnew, hR⟩ := hadded row hrow
    exact ⟨new, hnew, hsub _ _ hR⟩

theorem exec {update : RowUpdate Row} (hrefl : ∀ row, R row row)
    (hkey : ∀ row, key (update.set row) = key row)
    (h : ∀ row ∈ rows, update.guard row = true → R row (update.set row)) :
    Evolves key R New rows (update.exec rows) := by
  have hkeys : (update.exec rows).map key = rows.map key := by
    rw [RowUpdate.exec, map_map]
    apply map_congr_left
    intro row _
    by_cases hguard : update.guard row = true <;> simp [hguard, hkey row]
  refine ⟨⟨fun row => if update.guard row then update.set row else row, [],
    by simp [RowUpdate.exec], ?_, by simp⟩, fun hnodup => hkeys ▸ hnodup⟩
  intro row hrow
  by_cases hguard : update.guard row = true
  · simpa [hguard, hkey row] using h row hrow hguard
  · simp [hguard, hrefl row]

theorem insert (hrefl : ∀ row, R row row) {new : Row} (hnew : New new)
    (hfresh : ∀ row ∈ rows, key row ≠ key new) : Evolves key R New rows (rows ++ [new]) := by
  refine ⟨⟨id, [new], by simp, fun row _ => ⟨rfl, hrefl row⟩, ?_⟩, fun hnodup => ?_⟩
  · intro row hrow
    obtain rfl := mem_singleton.mp hrow
    exact ⟨row, hnew, hrefl row⟩
  · rw [map_append, nodup_append]
    refine ⟨hnodup, by simp, ?_⟩
    simpa using hfresh

/-- An update that keeps every row within what its origin allows. -/
theorem exec_after {update : RowUpdate Row} (h : Evolves key R New rows rows')
    (hkey : ∀ row, key (update.set row) = key row)
    (hset : ∀ row row', row ∈ rows ∨ New row → key row' = key row ∨ New row → R row row' →
      update.guard row' = true → R row (update.set row')) :
    Evolves key R New rows (update.exec rows') := by
  obtain ⟨⟨f, added, rfl, hf, hadded⟩, hnodup⟩ := h
  have hkeys : (update.exec (rows.map f ++ added)).map key = (rows.map f ++ added).map key := by
    rw [RowUpdate.exec, map_map]
    apply map_congr_left
    intro row _
    by_cases hguard : update.guard row = true <;> simp [hguard, hkey row]
  refine ⟨⟨fun row => if update.guard (f row) then update.set (f row) else f row,
    added.map fun row => if update.guard row then update.set row else row, ?_, ?_, ?_⟩, ?_⟩
  · simp [RowUpdate.exec]
  · intro row hrow
    obtain ⟨hsame, hR⟩ := hf row hrow
    by_cases hguard : update.guard (f row) = true
    · simp only [hguard, if_true]
      exact ⟨(hkey _).trans hsame, hset row (f row) (.inl hrow) (.inl hsame) hR hguard⟩
    · simpa [hguard] using ⟨hsame, hR⟩
  · intro row hrow
    obtain ⟨row', hrow', rfl⟩ := mem_map.mp hrow
    obtain ⟨new, hnew, hR⟩ := hadded row' hrow'
    refine ⟨new, hnew, ?_⟩
    by_cases hguard : update.guard row' = true
    · simpa [hguard] using hset new row' (.inr hnew) (.inr hnew) hR hguard
    · simpa [hguard] using hR
  · intro h
    rw [hkeys]
    exact hnodup h

/-- What is found under a key stays there, rewritten within the relation. -/
theorem lookup [DecidableEq Key] (h : Evolves key R New rows rows') {k : Key} {row : Row}
    (hrow : Systems.lookup key k rows = some row) :
    ∃ row', Systems.lookup key k rows' = some row' ∧ R row row' := by
  obtain ⟨⟨f, added, rfl, hf, -⟩, -⟩ := h
  induction rows with
  | nil => simp [Systems.lookup] at hrow
  | cons head tail ih =>
    have hhead := hf head (by simp)
    by_cases hk : key head = k
    · simp only [Systems.lookup, List.find?_cons, hk, decide_true, Option.some.injEq] at hrow
      subst hrow
      exact ⟨f head, by simp [Systems.lookup, hhead.1, hk], hhead.2⟩
    · have htail : Systems.lookup key k tail = some row := by
        simpa [Systems.lookup, List.find?_cons, hk] using hrow
      obtain ⟨row', hrow', hR⟩ := ih htail (fun r hr => hf r (by simp [hr]))
      refine ⟨row', ?_, hR⟩
      simpa [Systems.lookup, List.find?_cons, hhead.1, hk] using hrow'

/-- Every later row comes from an earlier row or from a new one. -/
theorem origin (h : Evolves key R New rows rows') {row' : Row} (hrow' : row' ∈ rows') :
    (∃ row ∈ rows, R row row') ∨ ∃ new, New new ∧ R new row' := by
  obtain ⟨⟨f, added, rfl, hf, hadded⟩, -⟩ := h
  rcases mem_append.mp hrow' with hrow' | hrow'
  · obtain ⟨row, hrow, rfl⟩ := mem_map.mp hrow'
    exact .inl ⟨row, hrow, (hf row hrow).2⟩
  · exact .inr (hadded row' hrow')

end Evolves

/-- What is in a list after the entry at one index has been rewritten. -/
theorem mem_of_mem_modify {rows : List Row} {index : Nat} {f : Row → Row} {row' : Row}
    (h : row' ∈ rows.modify index f) :
    row' ∈ rows ∨ ∃ row, rows[index]? = some row ∧ row' = f row := by
  obtain ⟨position, hposition⟩ := mem_iff_getElem?.mp h
  rw [List.getElem?_modify] at hposition
  split at hposition
  next hindex =>
    obtain ⟨row, hrow, rfl⟩ := Option.map_eq_some_iff.mp hposition
    exact .inr ⟨row, hindex ▸ hrow, rfl⟩
  · obtain ⟨row, hrow, rfl⟩ := Option.map_eq_some_iff.mp hposition
    exact .inl (mem_of_getElem? hrow)

/-- One entry of a table with distinct keys satisfies the condition, and what satisfies it has
its key. -/
theorem filter_eq_singleton {key : Row → Key} {rows : List Row} (distinct : (rows.map key).Nodup)
    {row : Row} (mem : row ∈ rows) {p : Row → Bool} (holds : p row = true)
    (only : ∀ other ∈ rows, p other = true → key other = key row) : rows.filter p = [row] := by
  induction rows with
  | nil => cases mem
  | cons first rest ih =>
    obtain ⟨hfirst, hrest⟩ := nodup_cons.mp distinct
    rcases mem_cons.mp mem with rfl | hmem
    · have hnone : rest.filter p = [] := by
        rw [filter_eq_nil_iff]
        intro other hother hp
        have hkey := only other (mem_cons_of_mem _ hother) hp
        exact hfirst (hkey ▸ mem_map_of_mem hother)
      rw [filter_cons_of_pos holds, hnone]
    · have hp : ¬p first = true := by
        intro hp
        have hkey := only first mem_cons_self hp
        exact hfirst (hkey ▸ mem_map_of_mem hmem)
      rw [filter_cons_of_neg hp]
      exact ih hrest hmem fun other hother => only other (mem_cons_of_mem _ hother)

/-- What is done, followed by what has no key of something done, is everything. -/
theorem perm_append_remaining [DecidableEq Key] {key : Row → Key} {all done : List Row}
    (distinct : (all.map key).Nodup) (finished : done.Subperm all) :
    (done ++ all.filter fun row => !(done.map key).contains (key row)).Perm all := by
  have hall : all.Nodup := distinct.of_map
  have hdone : done.Nodup := by
    obtain ⟨middle, hperm, hsublist⟩ := finished
    exact hperm.nodup_iff.mp (hsublist.nodup hall)
  have hsame : done.Perm (all.filter fun row => (done.map key).contains (key row)) := by
    rw [perm_ext_iff_of_nodup hdone (hall.filter _)]
    intro row
    simp only [mem_filter, contains_iff_mem]
    constructor
    · exact fun hrow => ⟨finished.subset hrow, mem_map_of_mem hrow⟩
    · rintro ⟨hrow, hkey⟩
      obtain ⟨other, hother, hsame⟩ := mem_map.mp hkey
      rwa [← inj_on_of_nodup_map distinct (finished.subset hother) hrow hsame]
  exact (hsame.append_right _).trans (filter_append_perm _ _)

/-! ### Insert or update -/

section

variable [DecidableEq Key] {key : Row → Key} {new : Row} {update : Row → Row} {rows : List Row}

/-- `INSERT … ON CONFLICT(key) DO UPDATE`: the new row, or the conflicting one rewritten. -/
def upsert (key : Row → Key) (new : Row) (update : Row → Row) (rows : List Row) : List Row :=
  if rows.any fun row => key row = key new then
    rows.map fun row => if key row = key new then update row else row
  else rows ++ [new]

theorem lookup_map_of_key {f : Row → Row} (hkey : ∀ row, key (f row) = key row) (k : Key)
    (rows : List Row) : lookup key k (rows.map f) = (lookup key k rows).map f := by
  rw [lookup, lookup, List.find?_map]
  congr 2
  funext row
  rw [Function.comp_apply, hkey]

theorem key_rewritten (hkey : ∀ row, key row = key new → key (update row) = key new) (row : Row) :
    key (if key row = key new then update row else row) = key row := by
  split_ifs with hsame
  · rw [hkey row hsame, hsame]
  · rfl

/-- Under its key, an upsert leaves the rewritten row, or the new one where there was none. -/
theorem lookup_upsert_self (hkey : ∀ row, key row = key new → key (update row) = key new) :
    lookup key (key new) (upsert key new update rows) =
      some (((lookup key (key new) rows).map update).getD new) := by
  unfold upsert
  split_ifs with hany
  · rw [lookup_map_of_key (key_rewritten hkey)]
    cases hfound : lookup key (key new) rows with
    | none =>
      obtain ⟨row, hrow, hsame⟩ := any_eq_true.mp hany
      exact absurd hsame (List.find?_eq_none.mp hfound row hrow)
    | some row => simp [(lookup_some hfound).2]
  · have hnone : lookup key (key new) rows = none := by
      rw [lookup, List.find?_eq_none]
      intro row hrow hsame
      exact hany (any_eq_true.mpr ⟨row, hrow, hsame⟩)
    rw [hnone, Option.map_none, Option.getD_none, lookup, List.find?_append]
    rw [lookup] at hnone
    simp [hnone]

theorem nodup_upsert (hkey : ∀ row, key row = key new → key (update row) = key new)
    (h : (rows.map key).Nodup) : ((upsert key new update rows).map key).Nodup := by
  unfold upsert
  split_ifs with hany
  · have hkeys := map_congr_left fun row (_ : row ∈ rows) => key_rewritten hkey row
    rw [map_map]
    exact hkeys ▸ h
  · rw [map_append, nodup_append_comm, map_singleton, singleton_append,
      nodup_cons]
    exact ⟨fun hmem => hany (by simpa using hmem), h⟩

theorem lookup_upsert_other (hkey : ∀ row, key row = key new → key (update row) = key new) {k : Key}
    (hk : k ≠ key new) : lookup key k (upsert key new update rows) = lookup key k rows := by
  unfold upsert
  split_ifs with hany
  · rw [lookup_map_of_key (key_rewritten hkey)]
    cases hfound : lookup key k rows with
    | none => rfl
    | some row =>
      have hrow := (lookup_some hfound).2
      rw [Option.map_some, if_neg (hrow ▸ hk)]
  · rw [lookup, List.find?_append, ← lookup]
    simp [lookup, Ne.symm hk]

end

end AgentBridge.Systems
