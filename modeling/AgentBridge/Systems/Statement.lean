import AgentBridge.Systems.Table

/-!
# SQL statements on a keyed table

An update rewrites the rows its guard selects, an upsert adds a row under a new key or
else rewrites the row that has the key, a delete drops rows. A transaction is a list of
statements.

`Keeps` says that a statement leaves every row with a property its property. It is
checked on one row at a time, and the rules below turn it into what a whole transaction
does to a table: a row with the property stays, whatever else the transaction changes.
-/

namespace AgentBridge.Systems

open List

universe u v

variable {Row : Type u} {Key : Type v}

inductive Statement (Row : Type u) where
  | update (change : RowUpdate Row)
  /-- `INSERT … ON CONFLICT DO UPDATE SET … WHERE …` -/
  | upsert (new : Row) (conflict : RowUpdate Row)
  | delete (guard : Row → Bool)

namespace Statement

variable [DecidableEq Key] (key : Row → Key)

/-- The update an upsert makes when its key is taken. -/
def onConflict (new : Row) (conflict : RowUpdate Row) : RowUpdate Row where
  guard row := key row = key new && conflict.guard row
  set := conflict.set

def exec : Statement Row → List Row → List Row
  | .update change, rows => change.exec rows
  | .upsert new conflict, rows =>
    if rows.any fun row => key row = key new then (onConflict key new conflict).exec rows
    else rows ++ [new]
  | .delete guard, rows => rows.filter fun row => !guard row

/-- The number of rows a statement inserts, rewrites or deletes. -/
def changes : Statement Row → List Row → Nat
  | .update change, rows => change.changes rows
  | .upsert new conflict, rows =>
    if rows.any fun row => key row = key new then (onConflict key new conflict).changes rows
    else 1
  | .delete guard, rows => rows.countP guard

def execAll (statements : List (Statement Row)) (rows : List Row) : List Row :=
  statements.foldl (fun rows statement => statement.exec key rows) rows

/-- The statement leaves every row with the property its property. -/
def Keeps (Q : Row → Prop) : Statement Row → Prop
  | .update change => ∀ row, Q row → change.guard row = true → Q (change.set row)
  | .upsert new conflict =>
    ∀ row, Q row → key row = key new → conflict.guard row = true → Q (conflict.set row)
  | .delete guard => ∀ row, Q row → guard row = false

/-- The statement never changes the key of a row. -/
def KeepsKey : Statement Row → Prop
  | .update change => ∀ row, key (change.set row) = key row
  | .upsert _ conflict => ∀ row, key (conflict.set row) = key row
  | .delete _ => True

/-- What the statement writes has the property when what was there has it. -/
def Respects (Q : Row → Prop) : Statement Row → Prop
  | .update change => ∀ row, Q row → Q (change.set row)
  | .upsert new conflict => Q new ∧ ∀ row, Q row → Q (conflict.set row)
  | .delete _ => True

variable {key} {Q : Row → Prop} {rows : List Row}

variable {change : RowUpdate Row}

omit [DecidableEq Key] in
/-- What an update leaves of a row, selected or not. -/
theorem exists_exec_of_mem {row : Row} (hrow : row ∈ rows)
    (hset : change.guard row = true → Q (change.set row))
    (hkept : change.guard row = false → Q row) :
    ∃ row ∈ change.exec rows, Q row := by
  refine ⟨_, mem_map_of_mem hrow, ?_⟩
  split
  · next hguard => exact hset hguard
  · next hguard => exact hkept (by simpa using hguard)

omit [DecidableEq Key] in
theorem exists_exec_update (keeps : ∀ row, Q row → change.guard row = true → Q (change.set row))
    (h : ∃ row ∈ rows, Q row) : ∃ row ∈ change.exec rows, Q row := by
  obtain ⟨row, hrow, hQ⟩ := h
  exact exists_exec_of_mem hrow (keeps row hQ) (fun _ => hQ)

variable {statement : Statement Row}

theorem exists_exec (keeps : Keeps key Q statement) (h : ∃ row ∈ rows, Q row) :
    ∃ row ∈ statement.exec key rows, Q row := by
  cases statement with
  | update change => exact exists_exec_update keeps h
  | upsert new conflict =>
    rw [exec]
    split
    · refine exists_exec_update ?_ h
      intro row hQ hguard
      simp only [onConflict, Bool.and_eq_true, decide_eq_true_eq] at hguard
      exact keeps row hQ hguard.1 hguard.2
    · obtain ⟨row, hrow, hQ⟩ := h
      exact ⟨row, mem_append_left _ hrow, hQ⟩
  | delete guard =>
    obtain ⟨row, hrow, hQ⟩ := h
    exact ⟨row, mem_filter.mpr ⟨hrow, by simp [keeps row hQ]⟩, hQ⟩

variable {statements : List (Statement Row)}

/-- A transaction each of whose statements keeps the property. -/
theorem exists_execAll (keeps : ∀ statement ∈ statements, Keeps key Q statement)
    (h : ∃ row ∈ rows, Q row) : ∃ row ∈ execAll key statements rows, Q row := by
  induction statements generalizing rows with
  | nil => exact h
  | cons statement statements ih =>
    have hhead := exists_exec (keeps statement mem_cons_self) h
    exact ih (fun later hlater => keeps later (mem_cons_of_mem _ hlater)) hhead

/-- An upsert leaves a row with its key, with a property that the new row has and that the
rewriting of the row under the key gives or keeps. -/
theorem exists_exec_upsert {new : Row} {conflict : RowUpdate Row} (hnew : Q new)
    (hset : ∀ row ∈ rows, key row = key new → conflict.guard row = true → Q (conflict.set row))
    (hkept : ∀ row ∈ rows, key row = key new → conflict.guard row = false → Q row) :
    ∃ row ∈ (Statement.upsert new conflict).exec key rows, Q row := by
  rw [exec]
  split
  · next htaken =>
    obtain ⟨row, hrow, hkey⟩ := any_eq_true.mp htaken
    have hkey : key row = key new := by simpa using hkey
    refine ⟨_, mem_map_of_mem hrow, ?_⟩
    by_cases hguard : conflict.guard row = true
    · simpa [onConflict, hkey, hguard] using hset row hrow hkey hguard
    · simpa [onConflict, hguard] using hkept row hrow hkey (by simpa using hguard)
  · exact ⟨new, by simp, hnew⟩

omit [DecidableEq Key] in
theorem exists_exec_of_changes (h : change.changes rows ≠ 0)
    (hset : ∀ row ∈ rows, change.guard row = true → Q (change.set row)) :
    ∃ row ∈ change.exec rows, Q row := by
  obtain ⟨row, hrow, hguard⟩ := countP_pos_iff.mp (Nat.pos_of_ne_zero h)
  refine exists_exec_of_mem hrow (hset row hrow) ?_
  intro hnot
  rw [hguard] at hnot
  cases hnot

theorem exists_exec_upsert_of_changes {new : Row} {conflict : RowUpdate Row}
    (h : (Statement.upsert new conflict).changes key rows ≠ 0) (hnew : Q new)
    (hset : ∀ row ∈ rows, key row = key new → Q (conflict.set row)) :
    ∃ row ∈ (Statement.upsert new conflict).exec key rows, Q row := by
  rw [changes] at h
  rw [exec]
  split at h
  · next htaken =>
    rw [if_pos htaken]
    refine exists_exec_of_changes h ?_
    intro row hrow hguard
    simp only [onConflict, Bool.and_eq_true, decide_eq_true_eq] at hguard
    exact hset row hrow hguard.1
  · next hfree =>
    rw [if_neg hfree]
    exact ⟨new, by simp, hnew⟩

omit [DecidableEq Key] in
theorem forall_exec_update (hset : ∀ row, Q row → Q (change.set row)) (h : ∀ row ∈ rows, Q row) :
    ∀ row ∈ change.exec rows, Q row := by
  intro row' hrow'
  obtain ⟨row, hrow, rfl⟩ := mem_map.mp hrow'
  split
  · exact hset row (h row hrow)
  · exact h row hrow

theorem forall_exec (respects : Respects Q statement) (h : ∀ row ∈ rows, Q row) :
    ∀ row ∈ statement.exec key rows, Q row := by
  cases statement with
  | update change => exact forall_exec_update respects h
  | upsert new conflict =>
    rw [exec]
    split
    · exact forall_exec_update respects.2 h
    · intro row hrow
      rcases mem_append.mp hrow with hrow | hrow
      · exact h row hrow
      · exact mem_singleton.mp hrow ▸ respects.1
  | delete guard => exact fun row hrow => h row (mem_of_mem_filter hrow)

/-- A transaction whose statements all respect a property of every row. -/
theorem forall_execAll (respects : ∀ statement ∈ statements, Respects Q statement)
    (h : ∀ row ∈ rows, Q row) : ∀ row ∈ execAll key statements rows, Q row := by
  induction statements generalizing rows with
  | nil => exact h
  | cons statement statements ih =>
    have hhead : ∀ row ∈ statement.exec key rows, Q row :=
      forall_exec (respects statement mem_cons_self) h
    exact ih (fun later hlater => respects later (mem_cons_of_mem _ hlater)) hhead

omit [DecidableEq Key] in
theorem map_key_exec (hkey : ∀ row, key (change.set row) = key row) :
    (change.exec rows).map key = rows.map key := by
  rw [RowUpdate.exec, map_map]
  apply map_congr_left
  intro row _
  show key (if change.guard row then change.set row else row) = key row
  split
  · exact hkey row
  · rfl

theorem nodup_exec (keeps : KeepsKey key statement) (h : (rows.map key).Nodup) :
    ((statement.exec key rows).map key).Nodup := by
  cases statement with
  | update change =>
    show ((change.exec rows).map key).Nodup
    rw [map_key_exec keeps]
    exact h
  | upsert new conflict =>
    rw [exec]
    split
    · have hkey : ∀ row, key ((onConflict key new conflict).set row) = key row := keeps
      rw [map_key_exec hkey]
      exact h
    · next hfree =>
      rw [map_append, nodup_append]
      refine ⟨h, by simp, ?_⟩
      intro k hk k' hk' heq
      obtain ⟨row, hrow, rfl⟩ := mem_map.mp hk
      rw [map_singleton, mem_singleton] at hk'
      exact hfree (any_eq_true.mpr ⟨row, hrow, by simp [heq, hk']⟩)
  | delete guard => exact (filter_sublist.map key).nodup h

theorem nodup_execAll (keeps : ∀ statement ∈ statements, KeepsKey key statement)
    (h : (rows.map key).Nodup) : ((execAll key statements rows).map key).Nodup := by
  induction statements generalizing rows with
  | nil => exact h
  | cons statement statements ih =>
    have hhead := nodup_exec (keeps statement mem_cons_self) h
    exact ih (fun later hlater => keeps later (mem_cons_of_mem _ hlater)) hhead

@[simp] theorem execAll_append (first second : List (Statement Row)) :
    execAll key (first ++ second) rows = execAll key second (execAll key first rows) :=
  foldl_append

end Statement

end AgentBridge.Systems
