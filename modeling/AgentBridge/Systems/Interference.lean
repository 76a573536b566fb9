import AgentBridge.Systems.Program

/-!
# Procedures beside other parties

A procedure whose state others change between its commands. What the others may do is a
relation, the rely; what each command of the procedure itself does to the state is within
another, the guarantee. `Secures` says that every command keeps the guarantee and that the
procedure ends as claimed, whatever the others do within the rely, when its environment is as
usual. It is kept by a step of the others and passed on by a step of its own, so that parties
whose guarantees are within the relies of the others can be run in any order.
-/

namespace AgentBridge.Systems

namespace Program

variable {Command : Type} {Answer : Command → Type} {State Env α β : Type}

section

variable (exec : Env → State → (command : Command) → State × Answer command)
  (usual : Env → State → Command → Prop) (rely guarantee : State → State → Prop)

/-- Whatever the others do, each command keeps the guarantee, and the value is returned as
claimed. -/
def Secures : Program Command Answer α → (α → State → Prop) → State → Prop
  | .done value, returned, s => ∀ s', rely s s' → returned value s'
  | .call command next, returned, s =>
    ∀ s', rely s s' → ∀ env, usual env s' command →
      guarantee s' (exec env s' command).1 ∧
        (next (exec env s' command).2).Secures returned (exec env s' command).1

end

variable {exec : Env → State → (command : Command) → State × Answer command}
  {usual : Env → State → Command → Prop} {rely guarantee : State → State → Prop}

variable {p : Program Command Answer α}

/-- Steps of the others. -/
theorem Secures.stable (trans : ∀ s s' s'', rely s s' → rely s' s'' → rely s s'')
    {returned : α → State → Prop} {s s' : State}
    (h : p.Secures exec usual rely guarantee returned s) (hrely : rely s s') :
    p.Secures exec usual rely guarantee returned s' := by
  cases p with
  | done value => exact fun s'' h' => h s'' (trans _ _ _ hrely h')
  | call command next => exact fun s'' h' env henv => h s'' (trans _ _ _ hrely h') env henv

theorem Secures.step (refl : ∀ s, rely s s) {command : Command}
    {next : Answer command → Program Command Answer α} {returned : α → State → Prop} {s : State}
    (h : (Program.call command next).Secures exec usual rely guarantee returned s) {env : Env}
    (henv : usual env s command) :
    guarantee s (exec env s command).1 ∧
      (next (exec env s command).2).Secures exec usual rely guarantee returned
        (exec env s command).1 :=
  h s (refl s) env henv

theorem Secures.returned (refl : ∀ s, rely s s) {value : α} {returned : α → State → Prop}
    {s : State}
    (h : (Program.done value : Program Command Answer α).Secures exec usual rely guarantee
      returned s) : returned value s :=
  h s (refl s)

theorem Secures.mono {returned returned' : α → State → Prop}
    (hreturned : ∀ value s, returned value s → returned' value s) :
    ∀ {s}, p.Secures exec usual rely guarantee returned s →
      p.Secures exec usual rely guarantee returned' s := by
  induction p with
  | done value => exact fun h s' hrely => hreturned value s' (h s' hrely)
  | call command next ih =>
    intro s h s' hrely env henv
    have ⟨hguarantee, hnext⟩ := h s' hrely env henv
    exact ⟨hguarantee, ih _ hnext⟩

/-- What holds of the value goes on to hold. -/
theorem Secures.settled (trans : ∀ s s' s'', rely s s' → rely s' s'' → rely s s'')
    {returned : α → State → Prop} :
    ∀ {s}, p.Secures exec usual rely guarantee returned s →
      p.Secures exec usual rely guarantee
        (fun value s' => ∀ s'', rely s' s'' → returned value s'') s := by
  induction p with
  | done value => exact fun h s' hrely s'' hrely' => h s'' (trans _ _ _ hrely hrely')
  | call command next ih =>
    intro s h s' hrely env henv
    have ⟨hguarantee, hnext⟩ := h s' hrely env henv
    exact ⟨hguarantee, ih _ hnext⟩

theorem Secures.bind (refl : ∀ s, rely s s) {f : α → Program Command Answer β}
    {returned : β → State → Prop} :
    ∀ {s}, p.Secures exec usual rely guarantee
        (fun value s' => (f value).Secures exec usual rely guarantee returned s') s →
      (p.bind f).Secures exec usual rely guarantee returned s := by
  induction p with
  | done value => exact fun {s} h => h s (refl s)
  | call command next ih =>
    intro s h s' hrely env henv
    have ⟨hguarantee, hnext⟩ := h s' hrely env henv
    exact ⟨hguarantee, ih _ hnext⟩

end Program

namespace Procedure

variable {Command : Type} {Reply : Command → Type} {Local Error State Env α β : Type}

/-- `try m finally f`: an error of `f` takes the place of what `m` ended with. -/
def lastly (m : Procedure Command Reply Local Error α)
    (f : Procedure Command Reply Local Error Unit) : Procedure Command Reply Local Error α :=
  fun locals => (m locals).bind fun ended => (f ended.2).bind fun
    | (.ok (), locals) => .done (ended.1, locals)
    | (.error error, locals) => .done (.error error, locals)

section

variable (exec : Env → State → (command : Command) → State × Except Error (Reply command))
  (usual : Env → State → Command → Prop) (rely guarantee : State → State → Prop)

/-- How a procedure ends, for its values and its errors. -/
def ending (returned : α → Local → State → Prop) (failed : Error → Local → State → Prop) :
    Except Error α × Local → State → Prop
  | (.ok value, locals) => returned value locals
  | (.error error, locals) => failed error locals

def Secures (m : Procedure Command Reply Local Error α) (returned : α → Local → State → Prop)
    (failed : Error → Local → State → Prop) (locals : Local) (s : State) : Prop :=
  (m locals).Secures exec usual rely guarantee (ending returned failed) s

end

variable {exec : Env → State → (command : Command) → State × Except Error (Reply command)}
  {usual : Env → State → Command → Prop} {rely guarantee : State → State → Prop}
  {returned : α → Local → State → Prop} {failed : Error → Local → State → Prop}
  {locals : Local} {s : State}

theorem Secures.pure {value : α} (h : ∀ s', rely s s' → returned value locals s') :
    Secures exec usual rely guarantee (Pure.pure value : Procedure Command Reply Local Error α)
      returned failed locals s :=
  h

theorem Secures.raise {error : Error} (h : ∀ s', rely s s' → failed error locals s') :
    Secures exec usual rely guarantee (raise error : Procedure Command Reply Local Error α)
      returned failed locals s :=
  h

theorem Secures.assign {returned : Unit → Local → State → Prop} {f : Local → Local}
    (h : ∀ s', rely s s' → returned () (f locals) s') :
    Secures exec usual rely guarantee
      (Procedure.assign f : Procedure Command Reply Local Error Unit) returned failed locals s :=
  h

/-- The rule of a command, in every state that the others may have left. -/
theorem Secures.call {command : Command} {returned : Reply command → Local → State → Prop}
    (h : ∀ s', rely s s' → ∀ env, usual env s' command →
      guarantee s' (exec env s' command).1 ∧
        ∀ s'', rely (exec env s' command).1 s'' →
          match (exec env s' command).2 with
          | .ok reply => returned reply locals s''
          | .error error => failed error locals s'') :
    Secures exec usual rely guarantee (Procedure.call command) returned failed locals s := by
  intro s' hrely env henv
  have ⟨hguarantee, hends⟩ := h s' hrely env henv
  refine ⟨hguarantee, fun s'' hrely' => ?_⟩
  have hend := hends s'' hrely'
  revert hend
  cases (exec env s' command).2 <;> exact id

variable {m : Procedure Command Reply Local Error α}

theorem Secures.mono {returned' : α → Local → State → Prop} {failed' : Error → Local → State → Prop}
    (h : Secures exec usual rely guarantee m returned failed locals s)
    (hreturned : ∀ value locals s, returned value locals s → returned' value locals s)
    (hfailed : ∀ error locals s, failed error locals s → failed' error locals s) :
    Secures exec usual rely guarantee m returned' failed' locals s := by
  refine Program.Secures.mono (fun ended s hended => ?_) h
  match ended with
  | (.ok value, locals) => exact hreturned value locals s hended
  | (.error error, locals) => exact hfailed error locals s hended

/-- The local variables are at hand. -/
theorem Secures.read {returned : Local → Local → State → Prop}
    (h : ∀ s', rely s s' → returned locals locals s') :
    Secures exec usual rely guarantee
      (Procedure.locals : Procedure Command Reply Local Error Local) returned failed locals s :=
  h

theorem Secures.ite {condition : Prop} [Decidable condition]
    {m' : Procedure Command Reply Local Error α}
    (hthen : condition → Secures exec usual rely guarantee m returned failed locals s)
    (helse : ¬condition → Secures exec usual rely guarantee m' returned failed locals s) :
    Secures exec usual rely guarantee (if condition then m else m') returned failed locals s := by
  by_cases h : condition
  · rw [if_pos h]
    exact hthen h
  · rw [if_neg h]
    exact helse h

section

variable (refl : ∀ s, rely s s) (trans : ∀ s s' s'', rely s s' → rely s' s'' → rely s s'')

include refl trans

theorem Secures.bind {f : α → Procedure Command Reply Local Error β}
    {returned : β → Local → State → Prop} (h : Secures exec usual rely guarantee m
      (fun value locals s => Secures exec usual rely guarantee (f value) returned failed locals s)
      failed locals s) : Secures exec usual rely guarantee (m >>= f) returned failed locals s := by
  refine Program.Secures.bind refl (Program.Secures.mono (fun ended s hended => ?_)
    (Program.Secures.settled trans h))
  match ended with
  | (.ok value, locals) => exact hended s (refl s)
  | (.error error, locals) => exact hended

theorem Secures.recover {handler : Error → Procedure Command Reply Local Error α}
    (h : Secures exec usual rely guarantee m returned
      (fun error locals s =>
        Secures exec usual rely guarantee (handler error) returned failed locals s) locals s) :
    Secures exec usual rely guarantee (m.recover handler) returned failed locals s := by
  refine Program.Secures.bind refl (Program.Secures.mono (fun ended s hended => ?_)
    (.settled trans h))
  match ended with
  | (.ok value, locals) => exact hended
  | (.error error, locals) => exact hended s (refl s)

/-- The rule of `finally`: what the procedure ended with still holds after it. -/
theorem Secures.lastly {f : Procedure Command Reply Local Error Unit}
    (h : Secures exec usual rely guarantee m
      (fun value locals s => Secures exec usual rely guarantee f
        (fun _ locals s => returned value locals s) failed locals s)
      (fun error locals s => Secures exec usual rely guarantee f
        (fun _ locals s => failed error locals s) failed locals s) locals s) :
    Secures exec usual rely guarantee (m.lastly f) returned failed locals s := by
  have hfinish : ∀ (ended : Except Error α × Local) s,
      Secures exec usual rely guarantee f (fun _ locals s => ending returned failed
        (ended.1, locals) s) failed ended.2 s →
      ((f ended.2).bind fun
        | (.ok (), locals) => .done (ended.1, locals)
        | (.error error, locals) => .done (.error error, locals)).Secures exec usual rely guarantee
          (ending returned failed) s := by
    intro ended s hlast
    refine .bind refl (.mono (fun last s hended => ?_)
      (.settled trans hlast))
    match last with
    | (.ok (), locals) => exact hended
    | (.error error, locals) => exact hended
  refine Program.Secures.bind refl (Program.Secures.mono (fun ended s hended => ?_) h)
  match ended with
  | (.ok value, locals) => exact hfinish (.ok value, locals) s hended
  | (.error error, locals) => exact hfinish (.error error, locals) s hended

end

end Procedure

end AgentBridge.Systems
