import AgentBridge.Paths.NormalForm
import AgentBridge.Validation.Vectors

/-!
# The display form of a validation command

A vector is displayed with blanks between its arguments and parsed again by the gate. Quotes and
escaping backslashes are not part of any argument, so the arguments of a parsed text are shorter
than the text, except where every character of it stands for itself.
-/

namespace AgentBridge.Validation

open Paths List Option

/-! ## Parsing -/

def isQuote (c : Char) : Bool := c == '\'' || c == '"'

/-- `canEscape`: a backslash escapes the character, inside `quote` or outside of quotes. -/
def canEscape (quote : Option Char) (next : Char) : Bool :=
  match quote with
  | some quote => next == quote || next == '\\'
  | none => isWhitespace next || isQuote next || next == '\\'

/-- `current += char`, which starts a token. -/
def push (current : Option Text) (c : Char) : Option Text := some (current.getD [] ++ [c])

/-- The loop of `parseCommandLine`; `current` is `none` until a token has started, and an
unterminated quotation is an error. -/
def parseFrom (quote : Option Char) (current : Option Text) : Text → Option (List Text)
  | [] => if quote.isSome then none else some current.toList
  | '\\' :: next :: rest =>
    if canEscape quote next then parseFrom quote (push current next) rest
    else parseFrom quote (push current '\\') (next :: rest)
  | c :: rest =>
    match quote with
    | some opening =>
      if c = opening then parseFrom none current rest
      else parseFrom quote (push current c) rest
    | none =>
      if isQuote c then parseFrom (some c) (some (current.getD [])) rest
      else if isWhitespace c then (parseFrom none none rest).map (current.toList ++ ·)
      else parseFrom none (push current c) rest

def parseCommandLine (commandLine : Text) : Option (List Text) :=
  parseFrom none none (trim commandLine)

/-- A string or an array of arguments. -/
inductive ValidationInput where
  | text (command : Text)
  | vector (args : List Text)

def ValidationInput.parsed : ValidationInput → Option (List Text)
  | .text command => parseCommandLine command
  | .vector args => some args

/-- `parsed.join(" ")` or the trimmed string -/
def ValidationInput.displayCommand : ValidationInput → Text
  | .text command => trim command
  | .vector args => [' '].intercalate args

/-- What `prepareValidationCommand` returns; an unchanged executable keeps its digests. -/
structure ValidationSpec where
  displayCommand : Text
  prepared : PreparedCommand
deriving DecidableEq

def ValidationInput.prepare (host : ValidationHost) (requirePinnedExecutable : Bool)
    (input : ValidationInput) : Except (String × String) ValidationSpec :=
  match input.parsed with
  | none => .error ("validation_command_parse_error",
      "Validation command has an unterminated quoted string.")
  | some parsed => (prepareValidationCommand host requirePinnedExecutable parsed).map
      (⟨input.displayCommand, ·⟩)

/-- `runValidationGateUntimed` with a trusted spec: the processes that it starts. -/
def runTrustedValidation (host : ValidationHost) (answers : GateAnswers) (command : Text)
    (trustedSpec : ValidationSpec) : List GateRun :=
  if trim command = [] then []
  else
    match (ValidationInput.text (trim command)).prepare host true with
    | .error _ => []
    | .ok spec =>
      if spec = trustedSpec then runValidationGateUntimed host.platform answers spec.prepared
      else []

/-! ## Characters that stand for themselves -/

/-- No backslash of the text escapes what follows it. -/
def escapeFree : Text → Bool
  | '\\' :: next :: rest => !canEscape none next && escapeFree (next :: rest)
  | _ :: rest => escapeFree rest
  | [] => true

def PlainArgument (arg : Text) : Prop :=
  arg ≠ [] ∧ ∀ c ∈ arg, isWhitespace c = false ∧ isQuote c = false

/-- Every argument is plain, and no backslash comes before another one or before the end of an
argument that is not the last. -/
def PlainVector (args : List Text) : Prop :=
  (∀ arg ∈ args, PlainArgument arg) ∧ escapeFree ([' '].intercalate args) = true

instance (arg : Text) : Decidable (PlainArgument arg) :=
  @instDecidableAnd _ _ _ (List.decidableBAll _ arg)

instance (args : List Text) : Decidable (PlainVector args) :=
  inferInstanceAs (Decidable (_ ∧ _))

/-- The characters of the arguments and one more for each. -/
def weight (args : List Text) : Nat := (args.map (·.length + 1)).sum

@[simp] theorem weight_nil : weight [] = 0 := rfl

@[simp] theorem weight_cons (arg : Text) (args : List Text) :
    weight (arg :: args) = arg.length + 1 + weight args := by
  simp [weight]

/-- What the token that has started weighs, or a token that may still start. -/
def room (current : Option Text) : Nat := (current.getD []).length + 1

@[simp] theorem room_push (current : Option Text) (c : Char) :
    room (push current c) = room current + 1 := by
  simp [room, push]

variable {quote : Option Char} {current : Option Text} {input : Text} {tokens args : List Text}

theorem weight_toList_append :
    weight (current.toList ++ tokens) ≤ room current + weight tokens := by
  cases current with
  | none => exact Nat.le_add_left _ _
  | some text => simp [room]

/-- A token never outweighs the text that it is read from. -/
theorem weight_parseFrom (h : parseFrom quote current input = some tokens) :
    weight tokens ≤ input.length + room current := by
  fun_induction parseFrom quote current input generalizing tokens with
  | case1 => cases h
  | case2 quote current =>
    cases h
    have hcurrent := @weight_toList_append current []
    simpa using hcurrent
  | case3 quote current next rest _ ih | case4 quote current next rest _ ih =>
    have hrest := ih h
    simp only [room_push, length_cons] at hrest ⊢
    omega
  | case5 current rest quote _ ih =>
    have hrest := ih h
    simp only [length_cons]
    omega
  | case6 current c rest _ quote _ ih | case9 current c rest _ _ _ ih =>
    have hrest := ih h
    simp only [room_push, length_cons] at hrest ⊢
    omega
  | case7 current c rest _ _ ih =>
    have hrest := ih h
    simp only [room, getD_some, length_cons] at hrest ⊢
    omega
  | case8 current c rest _ _ _ ih =>
    obtain ⟨tokens, hparsed, rfl⟩ := map_eq_some_iff.mp h
    have hrest := ih hparsed
    have hcurrent := @weight_toList_append current tokens
    simp only [room, getD_none, length_nil, length_cons] at hrest hcurrent ⊢
    omega

theorem plainArgument_push {c : Char} (hcurrent : ∀ text ∈ current, PlainArgument text)
    (hblank : isWhitespace c = false) (hquote : isQuote c = false) :
    ∀ text ∈ push current c, PlainArgument text := by
  rintro text ⟨⟩
  refine ⟨append_ne_nil_of_right_ne_nil _ (cons_ne_nil _ _), fun d hd => ?_⟩
  cases mem_append.mp hd with
  | inr hlast =>
    rw [mem_singleton.mp hlast]
    exact ⟨hblank, hquote⟩
  | inl hbefore =>
    cases current with
    | none => cases hbefore
    | some before => exact (hcurrent before rfl).2 d hbefore

/-- Where the tokens weigh as much as the text, every character stands for itself: a quote, an
escape or a second blank would be lost. -/
theorem plain_of_weight (h : parseFrom none current input = some tokens)
    (hweight : weight tokens = input.length + room current)
    (hcurrent : ∀ text ∈ current, PlainArgument text) :
    (∀ token ∈ tokens, PlainArgument token) ∧ escapeFree input = true := by
  generalize hunquoted : (none : Option Char) = quote at h
  fun_induction parseFrom quote current input generalizing tokens with
  | case1 => cases h
  | case2 quote current =>
    cases h
    exact ⟨fun token htoken => hcurrent token (mem_toList.mp htoken), rfl⟩
  | case3 quote current next rest _ ih =>
    have hle := weight_parseFrom h
    simp only [room_push, length_cons] at hle hweight
    omega
  | case4 quote current next rest hescape ih =>
    subst hunquoted
    simp only [room_push, length_cons] at ih hweight
    obtain ⟨htokens, hrest⟩ := ih (by omega)
      (plainArgument_push hcurrent (by decide) (by decide)) trivial h
    exact ⟨htokens, by simp [escapeFree, hescape, hrest]⟩
  | case5 current rest quote _ ih => cases hunquoted
  | case6 current c rest _ quote _ ih => cases hunquoted
  | case7 current c rest _ _ ih =>
    have hle := weight_parseFrom h
    simp only [room, getD_some, length_cons] at hle hweight
    omega
  | case8 current c rest _ _ _ ih =>
    obtain ⟨tokens, hparsed, rfl⟩ := map_eq_some_iff.mp h
    have hle := weight_parseFrom hparsed
    cases current with
    | none =>
      simp only [room, getD_none, length_cons, toList_none,
        nil_append] at hle hweight
      omega
    | some text =>
      simp only [room, toList_some, singleton_append, weight_cons, getD_some,
        getD_none, length_nil, length_cons] at hle hweight ih
      obtain ⟨htokens, hrest⟩ := ih (by omega) nofun trivial hparsed
      refine ⟨?_, (escapeFree.eq_2 _ _ ‹_›).trans hrest⟩
      exact forall_mem_cons.mpr ⟨hcurrent text rfl, htokens⟩
  | case9 current c rest hlast hquote hblank ih =>
    simp only [room_push, length_cons] at ih hweight
    obtain ⟨htokens, hrest⟩ := ih (by omega) (plainArgument_push hcurrent
      (Bool.not_eq_true _ ▸ hblank) (Bool.not_eq_true _ ▸ hquote)) trivial h
    exact ⟨htokens, (escapeFree.eq_2 _ _ hlast).trans hrest⟩

/-! ## Plain vectors -/

variable {arg rest : Text}

theorem escapeFree_tail {c : Char} (h : escapeFree (c :: rest) = true) : escapeFree rest = true := by
  unfold escapeFree at h
  split at h
  · next heq =>
    cases heq
    exact (Bool.and_eq_true_iff.mp h).2
  · next _ heq =>
    cases heq
    exact h
  · next heq => cases heq

theorem parseFrom_push {c : Char} (current : Option Text) (hblank : isWhitespace c = false)
    (hquote : isQuote c = false) (hfree : escapeFree (c :: rest) = true) :
    parseFrom none current (c :: rest) = parseFrom none (push current c) rest := by
  rw [parseFrom.eq_def]
  split
  · next heq => cases heq
  · next next more heq =>
    cases heq
    rw [escapeFree, Bool.and_eq_true, Bool.not_eq_true'] at hfree
    exact if_neg (Bool.eq_false_iff.mp hfree.1)
  · next heq =>
    cases heq
    simp [hblank, hquote]

theorem parseFrom_argument (current : Option Text)
    (harg : ∀ c ∈ arg, isWhitespace c = false ∧ isQuote c = false)
    (hfree : escapeFree (arg ++ rest) = true) :
    parseFrom none current (arg ++ rest) = parseFrom none (arg.foldl push current) rest ∧
      escapeFree rest = true := by
  induction arg generalizing current with
  | nil => exact ⟨rfl, hfree⟩
  | cons c arg ih =>
    obtain ⟨⟨hblank, hquote⟩, hrest⟩ := forall_mem_cons.mp harg
    rw [cons_append] at hfree ⊢
    rw [parseFrom_push current hblank hquote hfree]
    exact ih (push current c) hrest (escapeFree_tail hfree)

theorem foldl_push (text : Text) : arg.foldl push (some text) = some (text ++ arg) := by
  induction arg generalizing text with
  | nil => rw [foldl_nil, append_nil]
  | cons c arg ih =>
    rw [foldl_cons, push, ih]
    simp

theorem PlainArgument.foldl_push (h : PlainArgument arg) : arg.foldl push none = some arg := by
  cases arg with
  | nil => exact absurd rfl h.1
  | cons c arg => exact Validation.foldl_push [c]

theorem parseFrom_plain (hplain : ∀ arg ∈ args, PlainArgument arg)
    (hfree : escapeFree ([' '].intercalate args) = true) (hne : args ≠ []) :
    parseFrom none none ([' '].intercalate args) = some args := by
  induction args with
  | nil => exact absurd rfl hne
  | cons arg args ih =>
    obtain ⟨harg, hargs⟩ := forall_mem_cons.mp hplain
    cases args with
    | nil =>
      rw [intercalate_singleton] at hfree ⊢
      rw [← arg.append_nil] at hfree
      have hparsed := (parseFrom_argument none harg.2 hfree).1
      rw [append_nil, harg.foldl_push] at hparsed
      exact hparsed
    | cons arg' args =>
      rw [intercalate_cons_cons, append_assoc] at hfree ⊢
      obtain ⟨hparsed, hrest⟩ := parseFrom_argument none harg.2 hfree
      rw [hparsed, harg.foldl_push, singleton_append, parseFrom,
        ih hargs (escapeFree_tail hrest) (cons_ne_nil _ _)]
      · rfl
      · exact nofun

theorem length_intercalate (hne : args ≠ []) :
    ([' '].intercalate args).length + 1 = weight args := by
  induction args with
  | nil => exact absurd rfl hne
  | cons arg args ih =>
    cases args with
    | nil => simp
    | cons arg' args =>
      have hrest := ih (cons_ne_nil _ _)
      rw [intercalate_cons_cons, weight_cons, ← hrest]
      simp only [length_append, length_singleton]
      omega

theorem trim_intercalate (hplain : ∀ arg ∈ args, PlainArgument arg) (hne : args ≠ []) :
    trim ([' '].intercalate args) = [' '].intercalate args := by
  have hends : endsBlank ([' '].intercalate args) = false ∧ [' '].intercalate args ≠ [] := by
    induction args with
    | nil => exact absurd rfl hne
    | cons arg args ih =>
      obtain ⟨⟨hsome, harg⟩, hargs⟩ := forall_mem_cons.mp hplain
      cases args with
      | nil =>
        rw [intercalate_singleton]
        refine ⟨?_, hsome⟩
        rw [endsBlank, List.getLast?_eq_some_getLast hsome]
        exact (harg _ (getLast_mem hsome)).1
      | cons arg' args =>
        obtain ⟨hlast, hrest⟩ := ih hargs (cons_ne_nil _ _)
        rw [intercalate_cons_cons, endsBlank,
          List.getLast?_append_of_ne_nil _ hrest]
        exact ⟨hlast, append_ne_nil_of_right_ne_nil _ hrest⟩
  refine trim_eq_self_iff.mpr ⟨?_, hends.1⟩
  cases args with
  | nil => exact absurd rfl hne
  | cons arg args =>
    obtain ⟨hsome, harg⟩ := hplain arg mem_cons_self
    cases arg with
    | nil => exact absurd rfl hsome
    | cons c arg => cases args <;> simpa [startsBlank] using (harg c mem_cons_self).1

theorem trim_sublist (text : Text) : (trim text).Sublist text :=
  (dropWhile_suffix _).sublist.trans (List.rdropWhile_prefix _ _).sublist

/-- The display form of a vector gives the vector back exactly when the vector is plain. -/
theorem parseCommandLine_intercalate (hne : args ≠ []) :
    parseCommandLine ([' '].intercalate args) = some args ↔ PlainVector args := by
  have hweight := length_intercalate hne
  constructor
  · intro h
    have hle := weight_parseFrom h
    have htrim := (trim_sublist ([' '].intercalate args)).length_le
    simp only [room, getD_none, length_nil] at hle
    have hsame : trim ([' '].intercalate args) = [' '].intercalate args :=
      (trim_sublist _).eq_of_length (by omega)
    rw [parseCommandLine, hsame] at h
    exact plain_of_weight h (by simp [room, hweight]) nofun
  · intro h
    rw [parseCommandLine, trim_intercalate h.1 hne]
    exact parseFrom_plain h.1 h.2 hne

/-! ## The round trip through the gate -/

variable {host : ValidationHost} {strict : Bool} {input : ValidationInput} {spec : ValidationSpec}

theorem ValidationInput.prepare_eq_ok :
    input.prepare host strict = .ok spec ↔ ∃ parsed, input.parsed = some parsed ∧
      prepareValidationCommand host strict parsed = .ok spec.prepared ∧
      spec.displayCommand = input.displayCommand := by
  obtain ⟨display, prepared⟩ := spec
  rw [ValidationInput.prepare]
  cases input.parsed with
  | none => simp
  | some parsed =>
    cases hprepared : prepareValidationCommand host strict parsed <;>
      simp [Except.map, hprepared, and_comm, eq_comm]

/-- Requiring a pinned executable only refuses. -/
theorem prepared_unique {prepared prepared' : PreparedCommand}
    (h : prepareValidationCommand host strict args = .ok prepared)
    (h' : prepareValidationCommand host true args = .ok prepared') : prepared = prepared' := by
  cases args with
  | nil => cases h
  | cons command args =>
    rw [prepareValidationCommand] at h h'
    split at h
    · cases h
    split at h'
    · cases h'
    cases hresolve : host.resolve command with
    | none =>
      rw [hresolve] at h
      cases h
    | some executable =>
      simp only [hresolve] at h h'
      split_ifs at h h'
      exact Except.ok.inj (h.symm.trans h')

theorem parsed_ne_nil {prepared : PreparedCommand}
    (h : prepareValidationCommand host strict args = .ok prepared) : args ≠ [] := by
  rintro rfl
  cases h

theorem runs_ne_nil (platform : Platform) (answers : GateAnswers) (prepared : PreparedCommand) :
    runValidationGateUntimed platform answers prepared ≠ [] := by
  simp only [runValidationGateUntimed]
  split_ifs <;> exact cons_ne_nil _ _

/-- The display form gives the vector back, and with the spec the gate runs what was prepared. -/
def RoundTrip (host : ValidationHost) (input : ValidationInput) (spec : ValidationSpec) : Prop :=
  parseCommandLine spec.displayCommand = input.parsed ∧
    ∀ answers, runTrustedValidation host answers spec.displayCommand spec =
      runValidationGateUntimed host.platform answers spec.prepared

/-- A string, or a plain vector. -/
def ValidationInput.plain : ValidationInput → Prop
  | .text _ => True
  | .vector args => PlainVector args

/-- A prepared command survives its display form exactly when it is a string or a plain vector,
and passes with a pinned executable, as every trusted spec has to. -/
theorem roundTrip_iff (hprepared : input.prepare host strict = .ok spec) :
    RoundTrip host input spec ↔
      input.plain ∧ ∃ pinned, input.prepare host true = .ok pinned := by
  obtain ⟨parsed, hparsed, hok, hdisplay⟩ := ValidationInput.prepare_eq_ok.mp hprepared
  have hne : parsed ≠ [] := parsed_ne_nil hok
  constructor
  · rintro ⟨hback, hruns⟩
    refine ⟨?_, ?_⟩
    · cases input with
      | text command => trivial
      | vector args =>
        cases hparsed
        rw [hdisplay] at hback
        exact (parseCommandLine_intercalate hne).mp hback
    · have hstarted := hruns ⟨none, fun _ => false⟩
      have hsome := runs_ne_nil host.platform ⟨none, fun _ => false⟩ spec.prepared
      rw [runTrustedValidation] at hstarted
      split at hstarted
      · exact absurd hstarted.symm hsome
      split at hstarted
      · exact absurd hstarted.symm hsome
      next spec' hspec =>
        obtain ⟨parsed', hparsed', hok', -⟩ := ValidationInput.prepare_eq_ok.mp hspec
        have hsame : some parsed' = some parsed := by
          rw [← hparsed', ← hparsed, ← hback]
          exact congrArg (parseFrom none none) (trim_trim _)
        cases hsame
        exact ⟨⟨input.displayCommand, spec'.prepared⟩,
          ValidationInput.prepare_eq_ok.mpr ⟨parsed, hparsed, hok', rfl⟩⟩
  · rintro ⟨hplain, pinned, hpinned⟩
    -- The display form is trimmed and gives the vector back.
    have hback : trim spec.displayCommand = spec.displayCommand ∧
        parseCommandLine spec.displayCommand = some parsed := by
      rw [hdisplay]
      cases input with
      | text command =>
        refine ⟨trim_trim _, ?_⟩
        rw [← hparsed]
        exact congrArg (parseFrom none none) (trim_trim command)
      | vector args =>
        cases hparsed
        exact ⟨trim_intercalate hplain.1 hne, (parseCommandLine_intercalate hne).mpr hplain⟩
    refine ⟨hback.2.trans hparsed.symm, fun answers => ?_⟩
    obtain ⟨parsed', hparsed', hok', -⟩ := ValidationInput.prepare_eq_ok.mp hpinned
    cases hparsed.symm.trans hparsed'
    have hsome : spec.displayCommand ≠ [] := by
      intro hempty
      rw [hempty] at hback
      cases hback.2
      exact hne rfl
    have hspec : (ValidationInput.text spec.displayCommand).prepare host true = .ok spec :=
      ValidationInput.prepare_eq_ok.mpr
        ⟨parsed, hback.2, prepared_unique hok hok' ▸ hok', hback.1.symm⟩
    rw [runTrustedValidation, hback.1, if_neg hsome]
    simp only [hspec, ↓reduceIte]

/-! ### Runs -/

/-- `gitHost` with Git allowed by its digest as well. -/
def pinnedHost : ValidationHost := { gitHost with validationExecutableSha256Allowlist := [""] }

def checkOf (path : String) : List Text := [git, diff, check, separator, path.toList]

def checkSpec (path : String) : ValidationSpec where
  displayCommand := "git diff --check -- ".toList ++ path.toList
  prepared := ⟨gitExecutable.path,
    [diff, noExtDiff, noTextconv, check, separator, path.toList], none⟩

theorem check_round_trip :
    RoundTrip pinnedHost (.vector (checkOf "src")) (checkSpec "src") :=
  (@roundTrip_iff pinnedHost true (.vector (checkOf "src")) (checkSpec "src") rfl).mpr
    ⟨(by decide : PlainVector (checkOf "src")), checkSpec "src", rfl⟩

theorem blank_path_no_round_trip :
    (ValidationInput.vector (checkOf "my src")).prepare pinnedHost true =
        .ok (checkSpec "my src") ∧
      ¬RoundTrip pinnedHost (.vector (checkOf "my src")) (checkSpec "my src") := by
  refine ⟨rfl, fun h => ?_⟩
  have hparsed : parseCommandLine (checkSpec "my src").displayCommand ≠
      some (checkOf "my src") := by decide
  exact hparsed h.1

end AgentBridge.Validation
