import Mathlib

/-!
# Interruptible procedures over atomic commands

A program issues atomic commands one after the other and continues with their
answers. What the outside world does around a command (its writes, its
failures, the answers it chooses) is one environment value consumed with the
command; a run whose environment ends before the program does was interrupted
between two commands.

`Program.wp` is the weakest precondition of a program for an assertion on the
values it returns and an assertion on every state in which it can be
interrupted. Procedures add local variables and errors; their rules below
follow the syntax.
-/

namespace AgentBridge.Systems

/-- A program over commands that answer with a value of their own type. -/
inductive Program (Command : Type) (Answer : Command → Type) (α : Type) : Type where
  | done (value : α)
  | call (command : Command) (next : Answer command → Program Command Answer α)

namespace Program

variable {Command : Type} {Answer : Command → Type} {State Env α β : Type}

def bind : Program Command Answer α → (α → Program Command Answer β) → Program Command Answer β
  | .done value, f => f value
  | .call command next, f => .call command fun answer => (next answer).bind f

variable (exec : Env → State → (command : Command) → State × Answer command)

/-- Execute a program. The value is `none` when the environment ended first. -/
def run : Program Command Answer α → State → List Env → State × Option α
  | .done value, s, _ => (s, some value)
  | .call _ _, s, [] => (s, none)
  | .call command next, s, env :: envs =>
    let reply := exec env s command
    (next reply.2).run reply.1 envs

/-- `interrupted` holds before each command and `returned` when the program ends. -/
def wp (interrupted : State → Prop) :
    Program Command Answer α → (α → State → Prop) → State → Prop
  | .done value, returned, s => returned value s
  | .call command next, returned, s =>
    interrupted s ∧
      ∀ env, (next (exec env s command).2).wp interrupted returned (exec env s command).1

variable {exec}

theorem wp_mono {interrupted interrupted' : State → Prop} {returned returned' : α → State → Prop}
    (hreturned : ∀ value s, returned value s → returned' value s)
    (hinterrupted : ∀ s, interrupted s → interrupted' s) (p : Program Command Answer α) :
    ∀ {s}, p.wp exec interrupted returned s → p.wp exec interrupted' returned' s := by
  induction p with
  | done value => exact fun h => hreturned value _ h
  | call command next ih => exact fun h => ⟨hinterrupted _ h.1, fun env => ih _ (h.2 env)⟩

theorem wp_bind {interrupted : State → Prop} {returned : β → State → Prop}
    (p : Program Command Answer α) (f : α → Program Command Answer β) :
    ∀ {s}, (p.bind f).wp exec interrupted returned s ↔
      p.wp exec interrupted (fun value s => (f value).wp exec interrupted returned s) s := by
  induction p with
  | done value => exact Iff.rfl
  | call command next ih =>
    intro s
    constructor
    · exact fun h => ⟨h.1, fun env => (ih _).mp (h.2 env)⟩
    · exact fun h => ⟨h.1, fun env => (ih _).mpr (h.2 env)⟩

/-- Two assertions about every run hold together. -/
theorem wp_and {interrupted interrupted' : State → Prop} {returned returned' : α → State → Prop}
    (p : Program Command Answer α) :
    ∀ {s}, p.wp exec interrupted returned s → p.wp exec interrupted' returned' s →
      p.wp exec (fun s => interrupted s ∧ interrupted' s)
        (fun value s => returned value s ∧ returned' value s) s := by
  induction p with
  | done value => exact fun h h' => ⟨h, h'⟩
  | call command next ih => exact fun h h' => ⟨⟨h.1, h'.1⟩, fun env => ih _ (h.2 env) (h'.2 env)⟩

theorem wp_returned {interrupted : State → Prop} {returned : α → State → Prop}
    (p : Program Command Answer α) :
    ∀ {s s' envs value}, p.wp exec interrupted returned s →
      p.run exec s envs = (s', some value) → returned value s' := by
  induction p with
  | done value =>
    intro s s' envs v hwp hrun
    simp only [run, Prod.mk.injEq, Option.some.injEq] at hrun
    rw [← hrun.1, ← hrun.2]
    exact hwp
  | call command next ih =>
    intro s s' envs v hwp hrun
    cases envs with
    | nil => simp [run] at hrun
    | cons env envs => exact ih _ (hwp.2 env) hrun

theorem wp_interrupted {interrupted : State → Prop} {returned : α → State → Prop}
    (p : Program Command Answer α) :
    ∀ {s s' envs}, p.wp exec interrupted returned s →
      p.run exec s envs = (s', none) → interrupted s' := by
  induction p with
  | done value =>
    intro s s' envs hwp hrun
    simp [run] at hrun
  | call command next ih =>
    intro s s' envs hwp hrun
    cases envs with
    | nil =>
      simp only [run, Prod.mk.injEq, and_true] at hrun
      rw [← hrun]
      exact hwp.1
    | cons env envs => exact ih _ (hwp.2 env) hrun

theorem wp_invariant {Inv : State → Prop}
    (hexec : ∀ env s command, Inv s → Inv (exec env s command).1)
    (p : Program Command Answer α) :
    ∀ {s}, Inv s → p.wp exec Inv (fun _ s => Inv s) s := by
  induction p with
  | done value => exact fun h => h
  | call command next ih => exact fun h => ⟨h, fun env => ih _ (hexec env _ command h)⟩

/-- Programs are finite: along any stream of environments they return. -/
theorem exists_run_returned (p : Program Command Answer α) (stream : Nat → Env) :
    ∀ s, ∃ n s' value, p.run exec s ((List.range n).map stream) = (s', some value) := by
  induction p generalizing stream with
  | done value => exact fun s => ⟨0, s, value, rfl⟩
  | call command next ih =>
    intro s
    have ⟨n, s', value, hrun⟩ :=
      ih (exec (stream 0) s command).2 (fun k => stream (k + 1)) (exec (stream 0) s command).1
    refine ⟨n + 1, s', value, ?_⟩
    rw [List.range_succ_eq_map, List.map_cons, List.map_map]
    exact hrun

/-- A run that was interrupted goes on as the run of what was left of the program. -/
theorem exists_rest_of_interrupted (p : Program Command Answer α) :
    ∀ {s s' envs}, p.run exec s envs = (s', none) →
      ∃ rest : Program Command Answer α, ∀ more,
        p.run exec s (envs ++ more) = rest.run exec s' more := by
  induction p with
  | done value => exact fun h => by simp [run] at h
  | call command next ih =>
    intro s s' envs h
    cases envs with
    | nil =>
      simp only [run, Prod.mk.injEq, and_true] at h
      exact ⟨.call command next, fun more => by rw [List.nil_append, h]⟩
    | cons env envs => exact ih _ h

theorem run_invariant {Inv : State → Prop} (p : Program Command Answer α) :
    ∀ {s envs}, (∀ env ∈ envs, ∀ s command, Inv s → Inv (exec env s command).1) → Inv s →
      Inv (p.run exec s envs).1 := by
  induction p with
  | done value => exact fun _ h => h
  | call command next ih =>
    intro s envs hexec h
    cases envs with
    | nil => exact h
    | cons env envs =>
      have hstep := hexec env List.mem_cons_self s command h
      exact ih _ (fun later hlater => hexec later (List.mem_cons_of_mem _ hlater)) hstep

/-! ### Runs under one environment -/

/-- The whole run of a program under one environment. -/
def finish (exec : Env → State → (command : Command) → State × Answer command) (env : Env) :
    Program Command Answer α → State → State × α
  | .done value, s => (s, value)
  | .call command next, s =>
    (next (exec env s command).2).finish exec env (exec env s command).1

/-- What the weakest precondition under the one environment says of the whole run. -/
theorem wp_finish {env : Env} {interrupted : State → Prop} {returned : α → State → Prop}
    (p : Program Command Answer α) :
    ∀ {s}, p.wp (fun (_ : Unit) => exec env) interrupted returned s →
      returned (p.finish exec env s).2 (p.finish exec env s).1 := by
  induction p with
  | done value => exact fun h => h
  | call command next ih => exact fun h => ih _ (h.2 ())

/-- And of a run that may end early. -/
theorem wp_replicate {env : Env} {interrupted : State → Prop} {returned : α → State → Prop}
    (p : Program Command Answer α) :
    ∀ {s} (n : Nat), p.wp (fun (_ : Unit) => exec env) interrupted returned s →
      interrupted (p.run exec s (List.replicate n env)).1 ∨
        ∃ value, returned value (p.run exec s (List.replicate n env)).1 := by
  induction p with
  | done value => exact fun _ h => .inr ⟨value, h⟩
  | call command next ih =>
    intro s n h
    cases n with
    | zero => exact .inl h.1
    | succ n => exact ih _ n (h.2 ())

/-! ### What a program can issue -/

/-- Every command the program can come to is allowed, whatever the answers, and what it
returns has the property. -/
def Only (allowed : Command → Prop) (returns : α → Prop) : Program Command Answer α → Prop
  | .done value => returns value
  | .call command next => allowed command ∧ ∀ answer, (next answer).Only allowed returns

variable {p : Program Command Answer α}

theorem only_mono {allowed allowed' : Command → Prop} {returns returns' : α → Prop}
    (hallowed : ∀ command, allowed command → allowed' command)
    (hreturns : ∀ value, returns value → returns' value) (h : p.Only allowed returns) :
    p.Only allowed' returns' := by
  induction p with
  | done value => exact hreturns value h
  | call command next ih => exact ⟨hallowed command h.1, fun answer => ih answer (h.2 answer)⟩

theorem only_bind {allowed : Command → Prop} {returns : α → Prop} {returns' : β → Prop}
    {f : α → Program Command Answer β} (hp : p.Only allowed returns)
    (hf : ∀ value, returns value → (f value).Only allowed returns') :
    (p.bind f).Only allowed returns' := by
  induction p with
  | done value => exact hf value hp
  | call command next ih => exact ⟨hp.1, fun answer => ih answer (hp.2 answer)⟩

/-- A program whose commands all stay within a relation is within it at every moment. -/
theorem wp_of_only {allowed : Command → Prop} {returns : α → Prop} {related : State → State → Prop}
    (refl : ∀ s, related s s) (trans : ∀ {s s' s''}, related s s' → related s' s'' → related s s'')
    (hexec : ∀ env s command, allowed command → related s (exec env s command).1)
    (hp : p.Only allowed returns) :
    ∀ s, p.wp exec (related s) (fun value s' => returns value ∧ related s s') s := by
  induction p with
  | done value => exact fun s => ⟨hp, refl s⟩
  | call command next ih =>
    refine fun s => ⟨refl s, fun env => ?_⟩
    have hstep := hexec env s command hp.1
    exact wp_mono (fun value s' h => ⟨h.1, trans hstep h.2⟩) (fun s' h => trans hstep h) _
      (ih (exec env s command).2 (hp.2 _) (exec env s command).1)

end Program

/-- A program with local variables that may end in an error. Each command may
fail in place of its reply. -/
def Procedure (Command : Type) (Reply : Command → Type) (Local Error α : Type) : Type :=
  Local → Program Command (fun command => Except Error (Reply command)) (Except Error α × Local)

namespace Procedure

variable {Command : Type} {Reply : Command → Type} {Local Error State Env α β : Type}

def pure (value : α) : Procedure Command Reply Local Error α :=
  fun locals => .done (.ok value, locals)

def bind (m : Procedure Command Reply Local Error α)
    (f : α → Procedure Command Reply Local Error β) : Procedure Command Reply Local Error β :=
  fun locals => (m locals).bind fun
    | (.ok value, locals) => f value locals
    | (.error error, locals) => .done (.error error, locals)

instance : Monad (Procedure Command Reply Local Error) where
  pure := pure
  bind := bind

def raise (error : Error) : Procedure Command Reply Local Error α :=
  fun locals => .done (.error error, locals)

/-- `try m catch handler`: the local variables keep what `m` assigned. -/
def recover (m : Procedure Command Reply Local Error α)
    (handler : Error → Procedure Command Reply Local Error α) :
    Procedure Command Reply Local Error α :=
  fun locals => (m locals).bind fun
    | (.ok value, locals) => .done (.ok value, locals)
    | (.error error, locals) => handler error locals

def call (command : Command) : Procedure Command Reply Local Error (Reply command) :=
  fun locals => .call command fun reply => .done (reply, locals)

def locals : Procedure Command Reply Local Error Local :=
  fun locals => .done (.ok locals, locals)

def assign (f : Local → Local) : Procedure Command Reply Local Error Unit :=
  fun locals => .done (.ok (), f locals)

variable (exec : Env → State → (command : Command) → State × Except Error (Reply command))

/-- The weakest precondition of a procedure for its values, its errors and its
interruptions. -/
def wp (interrupted : State → Prop) (m : Procedure Command Reply Local Error α)
    (returned : α → Local → State → Prop) (failed : Error → Local → State → Prop)
    (locals : Local) (s : State) : Prop :=
  (m locals).wp exec interrupted
    (fun
      | (.ok value, locals) => returned value locals
      | (.error error, locals) => failed error locals) s

variable {exec} {interrupted : State → Prop} {returned : α → Local → State → Prop}
  {failed : Error → Local → State → Prop} {locals : Local} {s : State}

variable {failed' : Error → Local → State → Prop} {m : Procedure Command Reply Local Error α}
  {returned' : α → Local → State → Prop}

variable {interrupted' : State → Prop}

theorem wp_of_outcome {outcome : Except Error α × Local → State → Prop}
    (h : (m locals).wp exec interrupted outcome s)
    (hinterrupted : ∀ s, interrupted s → interrupted' s)
    (hreturned : ∀ value locals s, outcome (.ok value, locals) s → returned value locals s)
    (hfailed : ∀ error locals s, outcome (.error error, locals) s → failed error locals s) :
    m.wp exec interrupted' returned failed locals s := by
  refine Program.wp_mono (fun value s hvalue => ?_) hinterrupted _ h
  match value with
  | (.ok value, locals) => exact hreturned value locals s hvalue
  | (.error error, locals) => exact hfailed error locals s hvalue

theorem wp_consequence (h : m.wp exec interrupted returned failed locals s)
    (hinterrupted : ∀ s, interrupted s → interrupted' s)
    (hreturned : ∀ value locals s, returned value locals s → returned' value locals s)
    (hfailed : ∀ error locals s, failed error locals s → failed' error locals s) :
    m.wp exec interrupted' returned' failed' locals s :=
  wp_of_outcome h hinterrupted hreturned hfailed

theorem wp.mono (h : m.wp exec interrupted returned failed locals s)
    (hreturned : ∀ value locals s, returned value locals s → returned' value locals s)
    (hfailed : ∀ error locals s, failed error locals s → failed' error locals s) :
    m.wp exec interrupted returned' failed' locals s :=
  wp_consequence h (fun _ h => h) hreturned hfailed

/-- Two assertions about every run of a procedure hold together. -/
theorem wp_and (h : m.wp exec interrupted returned failed locals s)
    (h' : m.wp exec interrupted' returned' failed' locals s) :
    m.wp exec (fun s => interrupted s ∧ interrupted' s)
      (fun value locals s => returned value locals s ∧ returned' value locals s)
      (fun error locals s => failed error locals s ∧ failed' error locals s) locals s :=
  wp_of_outcome (Program.wp_and _ h h') (fun _ h => h) (fun _ _ _ h => h) fun _ _ _ h => h

@[simp] theorem wp_locals {returned : Local → Local → State → Prop} :
    wp exec interrupted (Procedure.locals : Procedure Command Reply Local Error Local) returned
      failed locals s ↔ returned locals locals s :=
  Iff.rfl

/-- The rule of a command: it may be interrupted before it, and every
environment answers it. -/
theorem wp_call (command : Command) {returned : Reply command → Local → State → Prop} :
    wp exec interrupted (call command : Procedure Command Reply Local Error _) returned failed
      locals s ↔
      interrupted s ∧ ∀ env, match (exec env s command).2 with
        | .ok reply => returned reply locals (exec env s command).1
        | .error error => failed error locals (exec env s command).1 := by
  refine and_congr_right fun _ => forall_congr' fun env => ?_
  show Program.wp exec interrupted (.done _) _ _ ↔ _
  cases (exec env s command).2 <;> exact Iff.rfl

theorem wp_bind {returned : β → Local → State → Prop} (m : Procedure Command Reply Local Error α)
    (f : α → Procedure Command Reply Local Error β) :
    wp exec interrupted (m >>= f) returned failed locals s ↔
      m.wp exec interrupted
        (fun value locals s => (f value).wp exec interrupted returned failed locals s)
        failed locals s := by
  refine (Program.wp_bind (m locals) _).trans
    ⟨fun h => wp_of_outcome h (fun _ h => h) (fun _ _ _ h => h) fun _ _ _ h => h, ?_⟩
  refine Program.wp_mono (fun value s h => ?_) (fun _ h => h) _
  match value with
  | (.ok value, locals) => exact h
  | (.error error, locals) => exact h

theorem wp_recover (m : Procedure Command Reply Local Error α)
    (handler : Error → Procedure Command Reply Local Error α) :
    wp exec interrupted (m.recover handler) returned failed locals s ↔
      m.wp exec interrupted returned
        (fun error locals s => (handler error).wp exec interrupted returned failed locals s)
        locals s := by
  refine (Program.wp_bind (m locals) _).trans
    ⟨fun h => wp_of_outcome h (fun _ h => h) (fun _ _ _ h => h) fun _ _ _ h => h, ?_⟩
  refine Program.wp_mono (fun value s h => ?_) (fun _ h => h) _
  match value with
  | (.ok value, locals) => exact h
  | (.error error, locals) => exact h

theorem wp.bind {returned : β → Local → State → Prop}
    {f : α → Procedure Command Reply Local Error β}
    (h : m.wp exec interrupted
      (fun value locals s => (f value).wp exec interrupted returned failed locals s)
      failed locals s) : wp exec interrupted (m >>= f) returned failed locals s :=
  (wp_bind m f).mpr h

theorem wp.recover {handler : Error → Procedure Command Reply Local Error α}
    (h : m.wp exec interrupted returned
      (fun error locals s => (handler error).wp exec interrupted returned failed locals s)
      locals s) : wp exec interrupted (m.recover handler) returned failed locals s :=
  (wp_recover m handler).mpr h

theorem wp_invariant {Inv : State → Prop}
    (hexec : ∀ env s command, Inv s → Inv (exec env s command).1)
    (m : Procedure Command Reply Local Error α) (h : Inv s) :
    m.wp exec Inv (fun _ _ s => Inv s) (fun _ _ s => Inv s) locals s :=
  wp_of_outcome (Program.wp_invariant hexec (m locals) h) (fun _ h => h) (fun _ _ _ h => h)
    fun _ _ _ h => h

/-- Along any stream of environments a procedure ends, with a value or an error. -/
theorem exists_run_ended (h : m.wp exec interrupted returned failed locals s) (stream : Nat → Env) :
    ∃ n s' result locals',
      (m locals).run exec s ((List.range n).map stream) = (s', some (result, locals')) ∧
        match result with
        | .ok value => returned value locals' s'
        | .error error => failed error locals' s' := by
  obtain ⟨n, s', ⟨result, locals'⟩, hrun⟩ := Program.exists_run_returned (m locals) stream s
  refine ⟨n, s', result, locals', hrun, ?_⟩
  have hended := Program.wp_returned _ h hrun
  cases result with
  | ok value => exact hended
  | error error => exact hended

/-- A branch of the source. -/
theorem wp.ite {condition : Prop} [Decidable condition] {m' : Procedure Command Reply Local Error α}
    (hthen : condition → m.wp exec interrupted returned failed locals s)
    (helse : ¬condition → m'.wp exec interrupted returned failed locals s) :
    wp exec interrupted (if condition then m else m') returned failed locals s := by
  by_cases h : condition
  · rw [if_pos h]
    exact hthen h
  · rw [if_neg h]
    exact helse h

/-! ## Procedures that stay within a relation -/

section

variable (exec) (related : State → State → Prop)

/-- Wherever the procedure ends, its state is related to the one it started in,
and its local variables are as they were. -/
def Within (m : Procedure Command Reply Local Error α) : Prop :=
  ∀ locals s, m.wp exec (fun _ => True) (fun _ locals' s' => locals' = locals ∧ related s s')
    (fun _ locals' s' => locals' = locals ∧ related s s') locals s

variable {exec related}

theorem Within.pure (refl : ∀ s, related s s) (value : α) :
    Within exec related (Pure.pure value : Procedure Command Reply Local Error α) :=
  fun _ s => ⟨rfl, refl s⟩

theorem Within.raise (refl : ∀ s, related s s) (error : Error) :
    Within exec related (raise error : Procedure Command Reply Local Error α) :=
  fun _ s => ⟨rfl, refl s⟩

theorem Within.call {command : Command}
    (h : ∀ env s, related s (exec env s command).1) :
    Within exec related (call command : Procedure Command Reply Local Error _) := by
  intro locals s
  rw [wp_call]
  refine ⟨trivial, fun env => ?_⟩
  split
  · exact ⟨rfl, h env s⟩
  · exact ⟨rfl, h env s⟩

variable {m : Procedure Command Reply Local Error α}

theorem Within.after (trans : ∀ {s s' s''}, related s s' → related s' s'' → related s s'')
    {s s' : State} (hm : Within exec related m) (h : related s s') (locals : Local) :
    m.wp exec (fun _ => True) (fun _ locals' s'' => locals' = locals ∧ related s s'')
      (fun _ locals' s'' => locals' = locals ∧ related s s'') locals s' :=
  .mono (hm locals s') (fun _ _ _ h' => ⟨h'.1, trans h h'.2⟩) fun _ _ _ h' =>
    ⟨h'.1, trans h h'.2⟩

theorem Within.bind (trans : ∀ {s s' s''}, related s s' → related s' s'' → related s s'')
    {f : α → Procedure Command Reply Local Error β} (hm : Within exec related m)
    (hf : ∀ value, Within exec related (f value)) : Within exec related (m >>= f) := by
  intro locals s
  rw [wp_bind]
  refine .mono (hm locals s) ?_ (fun _ _ _ h => h)
  rintro value locals' s' ⟨rfl, hs'⟩
  have hafter := Within.after @trans (hf value) hs' locals'
  exact hafter

/-- Sequence after a procedure of which only the relation is known. -/
theorem Within.then {f : α → Procedure Command Reply Local Error β}
    {returned : β → Local → State → Prop} {failed : Error → Local → State → Prop} {locals : Local}
    {s : State} (hm : Within exec related m) (hnext : ∀ value s', related s s' →
      (f value).wp exec (fun _ => True) returned failed locals s')
    (hfailed : ∀ error s', related s s' → failed error locals s') :
    (m >>= f).wp exec (fun _ => True) returned failed locals s := by
  rw [wp_bind]
  refine .mono (hm locals s) ?_ ?_
  · rintro value _ s' ⟨rfl, hs'⟩
    exact hnext value s' hs'
  · rintro error _ s' ⟨rfl, hs'⟩
    exact hfailed error s' hs'

theorem Within.recover (trans : ∀ {s s' s''}, related s s' → related s' s'' → related s s'')
    {handler : Error → Procedure Command Reply Local Error α} (hm : Within exec related m)
    (hhandler : ∀ error, Within exec related (handler error)) :
    Within exec related (m.recover handler) := by
  intro locals s
  rw [wp_recover]
  refine .mono (hm locals s) (fun _ _ _ h => h) ?_
  rintro error locals' s' ⟨rfl, hs'⟩
  have hafter := Within.after @trans (hhandler error) hs' locals'
  exact hafter

theorem Within.ite {condition : Prop} [Decidable condition]
    {m' : Procedure Command Reply Local Error α} (hm : Within exec related m)
    (hm' : Within exec related m') : Within exec related (if condition then m else m') :=
  fun locals s => .ite (fun _ => hm locals s) (fun _ => hm' locals s)

end

/-! ## Procedures that issue some commands only -/

section

variable {allowed allowed' : Command → Prop} {returns : α → Prop} {returns' : β → Prop}

/-- Whatever the answers, the procedure issues allowed commands only, keeps its local
variables, and what it returns has the property. -/
def Only (allowed : Command → Prop) (returns : α → Prop)
    (m : Procedure Command Reply Local Error α) : Prop :=
  ∀ locals, (m locals).Only allowed fun result =>
    result.2 = locals ∧ ∀ value, result.1 = .ok value → returns value

theorem Only.pure {value : α} (h : returns value) :
    Only allowed returns (Pure.pure value : Procedure Command Reply Local Error α) := by
  refine fun locals => ⟨rfl, fun result hresult => ?_⟩
  cases hresult
  exact h

theorem Only.raise (error : Error) :
    Only allowed returns (raise error : Procedure Command Reply Local Error α) :=
  fun _ => ⟨rfl, nofun⟩

theorem Only.call {command : Command} (h : allowed command) :
    Only allowed (fun _ => True) (call command : Procedure Command Reply Local Error _) :=
  fun _ => ⟨h, fun _ => ⟨rfl, fun _ _ => trivial⟩⟩

variable {m : Procedure Command Reply Local Error α}

theorem Only.bind {f : α → Procedure Command Reply Local Error β} (hm : Only allowed returns m)
    (hf : ∀ value, returns value → Only allowed returns' (f value)) :
    Only allowed returns' (m >>= f) := by
  refine fun locals => Program.only_bind (hm locals) ?_
  rintro ⟨result, locals'⟩ ⟨rfl, hresult⟩
  match result with
  | .ok value => exact hf value (hresult value rfl) locals'
  | .error error => exact ⟨rfl, nofun⟩

theorem Only.recover {handler : Error → Procedure Command Reply Local Error α}
    (hm : Only allowed returns m) (hhandler : ∀ error, Only allowed returns (handler error)) :
    Only allowed returns (m.recover handler) := by
  refine fun locals => Program.only_bind (hm locals) ?_
  rintro ⟨result, locals'⟩ ⟨rfl, hresult⟩
  match result with
  | .ok value => exact ⟨rfl, hresult⟩
  | .error error => exact hhandler error locals'

theorem Only.ite {condition : Prop} [Decidable condition]
    {m' : Procedure Command Reply Local Error α} (hm : Only allowed returns m)
    (hm' : Only allowed returns m') : Only allowed returns (if condition then m else m') := by
  split
  · exact hm
  · exact hm'

theorem Only.mono {returns' : α → Prop} (h : Only allowed returns m)
    (hallowed : ∀ command, allowed command → allowed' command)
    (hreturns : ∀ value, returns value → returns' value) : Only allowed' returns' m :=
  fun locals => Program.only_mono hallowed
    (fun _ hresult => ⟨hresult.1, fun value heq => hreturns value (hresult.2 value heq)⟩)
    (h locals)

section

variable {exec : Env → State → (command : Command) → State × Except Error (Reply command)}
  {related : State → State → Prop} (refl : ∀ s, related s s)
  (trans : ∀ {s s' s''}, related s s' → related s' s'' → related s s'')
  (hexec : ∀ env s command, allowed command → related s (exec env s command).1)
  (hm : Only allowed returns m)

include refl trans hexec hm

/-- Commands that stay within a relation keep a procedure within it at every moment. -/
theorem wp_throughout_of_only (locals : Local) (s : State) :
    m.wp exec (related s) (fun value locals' s' => returns value ∧ locals' = locals ∧ related s s')
      (fun _ locals' s' => locals' = locals ∧ related s s') locals s :=
  wp_of_outcome (Program.wp_of_only refl trans hexec (hm locals) s) (fun _ h => h)
    (fun value _ _ h => ⟨h.1.2 value rfl, h.1.1, h.2⟩) fun _ _ _ h => ⟨h.1.1, h.2⟩

theorem Within.of_only : Within exec related m :=
  fun locals s => wp_consequence (wp_throughout_of_only refl trans hexec hm locals s)
    (fun _ _ => trivial) (fun _ _ _ h => h.2) fun _ _ _ h => h

end

end

end Procedure

end AgentBridge.Systems
