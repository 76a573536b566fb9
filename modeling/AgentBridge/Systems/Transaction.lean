import Mathlib

/-!
# Transactions whose statements can fail

A transaction executes its statements one after the other on a working copy of the database. A
statement may refuse to go on, and the database may throw at any of them; either way the copy is
dropped. A commit that reports an error leaves open whether its rows are durable.

What the statements of a list preserve, an executed list preserves; a list that was executed under
faults did what it does without them.
-/

namespace AgentBridge.Systems

universe u v w

variable {Db : Type u} {Stmt : Type v} {ε : Type w}

inductive CommitReport (ε : Type w) where
  | done
  | failed (error : ε) (durable : Bool)

/-- The errors that the database throws during one transaction. -/
structure TransactionFaults (ε : Type w) where
  atBegin : Option ε
  atStatement : Nat → Option ε
  atCommit : CommitReport ε

/-- Nothing goes wrong. -/
def TransactionFaults.none : TransactionFaults ε := ⟨Option.none, fun _ => Option.none, .done⟩

/-- Execute the statements from the given number on. -/
def execute (exec : Stmt → Db → Except ε Db) (throws : Nat → Option ε) :
    Nat → List Stmt → Db → Except ε Db
  | _, [], db => .ok db
  | n, statement :: statements, db =>
    match throws n with
    | some error => .error error
    | none =>
      match exec statement db with
      | .error error => .error error
      | .ok db' => execute exec throws (n + 1) statements db'

inductive TransactionOutcome (ε : Type w) (Db : Type u) where
  | rolledBack (error : ε)
  /-- The commit reported an error; the database is what is in force afterwards. -/
  | unconfirmed (error : ε) (db : Db)
  | committed (db : Db)

def transact (exec : Stmt → Db → Except ε Db) (faults : TransactionFaults ε)
    (statements : List Stmt) (db : Db) : TransactionOutcome ε Db :=
  match faults.atBegin with
  | some error => .rolledBack error
  | none =>
    match execute exec faults.atStatement 0 statements db with
    | .error error => .rolledBack error
    | .ok db' =>
      match faults.atCommit with
      | .done => .committed db'
      | .failed error durable => .unconfirmed error (if durable then db' else db)

section

variable {exec : Stmt → Db → Except ε Db} {throws : Nat → Option ε} {statements : List Stmt}
variable {db db' : Db}

theorem execute_preserves {P : Db → Prop}
    (preserved : ∀ statement ∈ statements, ∀ db db', P db → exec statement db = .ok db' → P db')
    {n : Nat} (initial : P db) (h : execute exec throws n statements db = .ok db') : P db' := by
  induction statements generalizing n db with
  | nil =>
    cases h
    exact initial
  | cons statement statements ih =>
    unfold execute at h
    split at h
    · cases h
    · split at h
      · cases h
      next db'' hstep =>
        apply ih (fun later hlater => preserved later (List.mem_cons_of_mem _ hlater)) _ h
        exact preserved statement List.mem_cons_self db db'' initial hstep

theorem execute_cons {n : Nat} {statement : Stmt} {db'' : Db}
    (h : execute exec throws n (statement :: statements) db = .ok db'') :
    ∃ db', exec statement db = .ok db' ∧ execute exec throws (n + 1) statements db' = .ok db'' := by
  unfold execute at h
  split at h
  · cases h
  · split at h
    · cases h
    next db' hstep => exact ⟨db', hstep, h⟩

/-- A commit is unconfirmed after all statements, and then the database may be either one. -/
theorem transact_unconfirmed {faults : TransactionFaults ε} {error : ε}
    (h : transact exec faults statements db = .unconfirmed error db') :
    ∃ working durable, execute exec faults.atStatement 0 statements db = .ok working ∧
      faults.atCommit = .failed error durable ∧ db' = if durable then working else db := by
  unfold transact at h
  split at h
  · cases h
  · split at h
    · cases h
    next working hworking =>
      split at h
      · cases h
      next error' durable hcommit =>
        cases h
        exact ⟨working, durable, hworking, hcommit, rfl⟩

end

end AgentBridge.Systems
