import AgentBridge.Paths

/-!
# Provider and model keys

The keys under which slots, limits and pauses of a provider or of one of its models
are stored: `lib/provider-quarantine.js` and the quota groups of
`lib/provider-leases.js`. Model entries are `provider/model[@variant]`, as
`lib/agent-policy.js` reads them.
-/

namespace AgentBridge.Providers

open List Bool

/-- `String.prototype.trim` -/
def trimText (text : String) : String := String.ofList (Paths.trim text.toList)

def isProviderCharacter (c : Char) : Bool :=
  c.isLower || c.isDigit || c == '.' || c == '_' || c == '-'

/-- `.replace(/[^a-z0-9._-]+/g, "-")` -/
def dashOthers : List Char → List Char
  | [] => []
  | c :: rest =>
    if isProviderCharacter c then c :: dashOthers rest
    else
      match rest with
      | d :: _ => if isProviderCharacter d then '-' :: dashOthers rest else dashOthers rest
      | [] => ['-']

def providerName (provider : String) : String :=
  String.ofList (dashOthers (trimText provider).toLower.toList)

/-- The settings that decide how keys are built. -/
structure KeyConfig where
  providerConcurrencyKey : String
  providerConcurrencyKeyExplicit : Bool
  quotaGroups : List (List String)

def isModelIdentifierCharacter (c : Char) : Bool :=
  c.isAlphanum || c == '.' || c == '_' || c == ':' || c == '-'

/-- `MODEL_IDENTIFIER_PATTERN` -/
def modelIdentifier (text : String) : Bool :=
  match text.toList with
  | [] => false
  | c :: rest => c.isAlphanum && rest.all isModelIdentifierCharacter

/-- `MODEL_NAME_PATTERN` -/
def modelName (text : String) : Bool :=
  match text.toList with
  | [] => false
  | c :: rest => c.isAlphanum && rest.all fun d => isModelIdentifierCharacter d || d == '/'

namespace KeyConfig

variable (config : KeyConfig)

def providerKeyForMetadata (provider : String) : String :=
  if config.providerConcurrencyKeyExplicit || providerName provider == "" then
    config.providerConcurrencyKey
  else config.providerConcurrencyKey ++ ":" ++ providerName provider

def modelPauseKeyForMetadata (provider model : String) : String :=
  if providerName provider == "" || trimText model == "" || !modelName (trimText model) then ""
  else
    config.providerConcurrencyKey ++ ":" ++ providerName provider ++ "/"
      ++ (trimText model).toLower

def quotaGroupProviderKeys (provider : String) : List String :=
  if providerName provider == "" || config.providerConcurrencyKeyExplicit then []
  else
    ((config.quotaGroups.filter (·.contains (providerName provider))).flatMap fun group =>
      group.map config.providerKeyForMetadata).dedup

end KeyConfig

/-! ### Model entries -/

structure ModelEntry where
  provider : String
  model : String
  /-- Empty when the entry names none. -/
  variant : String

/-- The text before and after the last occurrence of a character. -/
def splitAtLast (c : Char) (text : List Char) : Option (List Char × List Char) :=
  let after := text.reverse.takeWhile (· != c)
  if after.length = text.length then none
  else some ((text.reverse.drop (after.length + 1)).reverse, after.reverse)

/-- The provider and the model on either side of the first slash. -/
def splitModel (text : List Char) : Option (List Char × List Char) :=
  match text.takeWhile (· != '/'), text.dropWhile (· != '/') with
  | provider@(_ :: _), _ :: model@(_ :: _) => some (Paths.trim provider, Paths.trim model)
  | _, _ => none

def parseModelAllowlistEntry (entry : String) : Option ModelEntry :=
  let raw := Paths.trim entry.toList
  let (modelPart, variant) :=
    match splitAtLast '@' raw with
    | some (front@(_ :: _), back) => (Paths.trim front, some (Paths.trim back))
    | _ => (raw, none)
  match splitModel modelPart with
  | none => none
  | some (provider, model) =>
    if variant = some [] then none
    else
      let parsed : ModelEntry :=
        ⟨String.ofList provider, String.ofList model, String.ofList (variant.getD [])⟩
      if modelIdentifier parsed.provider && modelName parsed.model
          && (parsed.variant == "" || modelIdentifier parsed.variant) then
        some parsed
      else none

/-- `retryPolicyModelSpec` -/
def ModelEntry.spec (entry : ModelEntry) : String :=
  entry.provider ++ "/" ++ entry.model
    ++ (if entry.variant = "" then "" else "@" ++ entry.variant)

structure ModelRequirement where
  provider : String
  model : String
  variant : Option String
  requireRuntimeEvidence : Option Bool
deriving DecidableEq

/-- `retryPolicyRequirement` -/
def ModelEntry.requirement (entry : ModelEntry) : ModelRequirement where
  provider := entry.provider
  model := entry.model
  variant := if entry.variant = "" then none else some entry.variant
  requireRuntimeEvidence := none

def mcpSanitizedReaderAgent : String := "mcp-sanitized-reader"

def allowlistedModelOverride (allowlist : List String) (requirement : ModelRequirement)
    (agent : String) : Bool :=
  requirement.provider != "" && requirement.model != ""
    && (trimText agent).toLower != mcpSanitizedReaderAgent
    && (allowlist.filterMap parseModelAllowlistEntry).any fun parsed =>
        parsed.provider == requirement.provider && parsed.model == requirement.model
          && (parsed.variant == "" || requirement.variant == none
            || requirement.variant == some parsed.variant)

/-! ### An entry read back from its text -/

theorem trim_of_all {text : List Char} (h : ∀ c ∈ text, Paths.isWhitespace c = false) :
    Paths.trim text = text := by
  have hback : text.rdropWhile Paths.isWhitespace = text := by
    rw [rdropWhile_eq_self_iff]
    intro hne
    simp [h _ (getLast_mem hne)]
  rw [Paths.trim, hback, dropWhile_eq_self_iff]
  intro hpos
  simp [h _ (getElem_mem hpos)]

theorem modelCharacter_not_whitespace {c : Char}
    (h : isModelIdentifierCharacter c = true ∨ c = '/') : Paths.isWhitespace c = false := by
  rcases h with h | rfl
  · simp only [isModelIdentifierCharacter, Char.isAlphanum, Char.isAlpha, Char.isUpper,
      Char.isLower, Char.isDigit, or_eq_true, and_eq_true, decide_eq_true_eq,
      beq_iff_eq, ge_iff_le, UInt32.le_iff_toNat_le] at h
    simp only [Paths.isWhitespace, or_eq_false_iff, and_eq_false_iff,
      decide_eq_false_iff_not, beq_eq_false_iff_ne, ne_eq, UInt32.le_iff_toNat_le,
      ← UInt32.toNat_inj]
    rcases h with (((h | rfl) | rfl) | rfl) | rfl
    · simp at h ⊢
      omega
    all_goals decide
  · decide


theorem splitAtLast_of_absent {c : Char} {text : List Char} (h : c ∉ text) :
    splitAtLast c text = none := by
  have hall : text.reverse.takeWhile (· != c) = text.reverse := by
    rw [takeWhile_eq_self_iff]
    intro d hd
    simpa using fun hdc : d = c => h (hdc ▸ mem_reverse.mp hd)
  simp [splitAtLast, hall]

theorem splitAtLast_append {c : Char} (front : List Char) {back : List Char} (h : c ∉ back) :
    splitAtLast c (front ++ c :: back) = some (front, back) := by
  have hback : ∀ d ∈ back.reverse, (d != c) = true := by
    intro d hd
    simpa using fun hdc : d = c => h (hdc ▸ mem_reverse.mp hd)
  have hreverse : (front ++ c :: back).reverse = back.reverse ++ c :: front.reverse := by simp
  have hafter : (front ++ c :: back).reverse.takeWhile (· != c) = back.reverse := by
    rw [hreverse, takeWhile_append_of_pos hback, takeWhile_cons_of_neg (by simp),
      append_nil]
  have hdrop : (front ++ c :: back).reverse.drop (back.length + 1) = front.reverse := by
    rw [hreverse, ← length_reverse, drop_append]
    simp
  have hlength : ¬ back.length = (front ++ c :: back).length := by
    simp only [length_append, length_cons]
    omega
  simp only [splitAtLast, hafter, length_reverse, hdrop, if_neg hlength,
    reverse_reverse]

theorem splitModel_append {provider model : List Char} (slash : '/' ∉ provider)
    (providerNe : provider ≠ []) (modelNe : model ≠ []) :
    splitModel (provider ++ '/' :: model) = some (Paths.trim provider, Paths.trim model) := by
  have hfront : ∀ c ∈ provider, (c != '/') = true := by
    intro c hc
    simpa using fun h : c = '/' => slash (h ▸ hc)
  have htake : (provider ++ '/' :: model).takeWhile (· != '/') = provider := by
    rw [takeWhile_append_of_pos hfront, takeWhile_cons_of_neg (by simp),
      append_nil]
  have hdrop : (provider ++ '/' :: model).dropWhile (· != '/') = '/' :: model := by
    rw [dropWhile_append_of_pos hfront, dropWhile_cons_of_neg (by simp)]
  obtain ⟨c, provider, rfl⟩ := exists_cons_of_ne_nil providerNe
  obtain ⟨d, model, rfl⟩ := exists_cons_of_ne_nil modelNe
  rw [splitModel, htake, hdrop]

structure ModelEntry.WellFormed (entry : ModelEntry) : Prop where
  provider : modelIdentifier entry.provider = true
  model : modelName entry.model = true
  variant : entry.variant = "" ∨ modelIdentifier entry.variant = true

theorem wellFormed_of_parsed {text : String} {entry : ModelEntry}
    (h : parseModelAllowlistEntry text = some entry) : entry.WellFormed := by
  unfold parseModelAllowlistEntry at h
  extract_lets raw at h
  split at h
  next front variant hfront =>
    split at h
    next => cases h
    next provider model hmodel =>
      split at h
      next => cases h
      next hempty =>
        extract_lets parsed at h
        split at h
        next hform =>
          rw [← Option.some.inj h]
          simp only [and_eq_true, or_eq_true, beq_iff_eq] at hform
          exact ⟨hform.1.1, hform.1.2, hform.2⟩
        next => cases h

theorem modelIdentifier_characters {text : String} (h : modelIdentifier text = true) :
    text.toList ≠ [] ∧ ∀ c ∈ text.toList, isModelIdentifierCharacter c = true := by
  unfold modelIdentifier at h
  split at h
  · cases h
  next c rest htext =>
    rw [and_eq_true, all_eq_true] at h
    rw [htext]
    refine ⟨cons_ne_nil c rest, ?_⟩
    intro d hd
    rcases mem_cons.mp hd with rfl | hd
    · simp [isModelIdentifierCharacter, h.1]
    · exact h.2 d hd

theorem modelName_characters {text : String} (h : modelName text = true) :
    text.toList ≠ [] ∧
      ∀ c ∈ text.toList, isModelIdentifierCharacter c = true ∨ c = '/' := by
  unfold modelName at h
  split at h
  · cases h
  next c rest htext =>
    rw [and_eq_true, all_eq_true] at h
    rw [htext]
    refine ⟨cons_ne_nil c rest, ?_⟩
    intro d hd
    rcases mem_cons.mp hd with rfl | hd
    · simp [isModelIdentifierCharacter, h.1]
    · simpa using h.2 d hd

theorem parseModelAllowlistEntry_spec {entry : ModelEntry} (h : entry.WellFormed) :
    parseModelAllowlistEntry entry.spec = some entry := by
  obtain ⟨provider, model, variant⟩ := entry
  obtain ⟨hproviderNe, hprovider⟩ := modelIdentifier_characters h.provider
  obtain ⟨hmodelNe, hmodel⟩ := modelName_characters h.model
  have hblankP : Paths.trim provider.toList = provider.toList :=
    trim_of_all fun c hc => modelCharacter_not_whitespace (.inl (hprovider c hc))
  have hblankM : Paths.trim model.toList = model.toList :=
    trim_of_all fun c hc => modelCharacter_not_whitespace (hmodel c hc)
  have hslash : '/' ∉ provider.toList := by
    intro hc
    exact absurd (hprovider _ hc) (by decide)
  have hfrontCharacters : ∀ c ∈ provider.toList ++ '/' :: model.toList,
      isModelIdentifierCharacter c = true ∨ c = '/' := by
    intro c hc
    rcases mem_append.mp hc with hc | hc
    · exact .inl (hprovider c hc)
    · rcases mem_cons.mp hc with rfl | hc
      · exact .inr rfl
      · exact hmodel c hc
  have hat : '@' ∉ provider.toList ++ '/' :: model.toList := by
    intro hc
    exact absurd (hfrontCharacters _ hc) (by decide)
  have hfrontTrim : Paths.trim (provider.toList ++ '/' :: model.toList)
      = provider.toList ++ '/' :: model.toList :=
    trim_of_all fun c hc => modelCharacter_not_whitespace (hfrontCharacters c hc)
  have hform := h.provider
  have hform' := h.model
  by_cases hvariant : variant = ""
  · subst hvariant
    have hspec : (ModelEntry.spec ⟨provider, model, ""⟩).toList
        = provider.toList ++ '/' :: model.toList := by
      simp [ModelEntry.spec]
    rw [parseModelAllowlistEntry, hspec, hfrontTrim, splitAtLast_of_absent hat]
    simp [splitModel_append hslash hproviderNe hmodelNe, hblankP, hblankM, hform, hform']
  · obtain ⟨hvariantNe, hcharacters⟩ :=
      modelIdentifier_characters (h.variant.resolve_left hvariant)
    have hidentifier := h.variant.resolve_left hvariant
    have hspec : (ModelEntry.spec ⟨provider, model, variant⟩).toList
        = (provider.toList ++ '/' :: model.toList) ++ '@' :: variant.toList := by
      simp [ModelEntry.spec, hvariant]
    have htrim : Paths.trim
        ((provider.toList ++ '/' :: model.toList) ++ '@' :: variant.toList)
        = (provider.toList ++ '/' :: model.toList) ++ '@' :: variant.toList := by
      apply trim_of_all
      intro c hc
      rcases mem_append.mp hc with hc | hc
      · exact modelCharacter_not_whitespace (hfrontCharacters c hc)
      · rcases mem_cons.mp hc with rfl | hc
        · decide
        · exact modelCharacter_not_whitespace (.inl (hcharacters c hc))
    have hblankV : Paths.trim variant.toList = variant.toList :=
      trim_of_all fun c hc => modelCharacter_not_whitespace (.inl (hcharacters c hc))
    have hatV : '@' ∉ variant.toList := by
      intro hc
      exact absurd (hcharacters _ hc) (by decide)
    have hsplit := splitAtLast_append (provider.toList ++ '/' :: model.toList) hatV
    obtain ⟨c, front, hfront⟩ : ∃ c front, provider.toList ++ '/' :: model.toList = c :: front :=
      exists_cons_of_ne_nil (by simp)
    rw [parseModelAllowlistEntry, hspec, htrim, hsplit, hfront]
    simp only [← hfront, hfrontTrim, splitModel_append hslash hproviderNe hmodelNe]
    simp [hblankP, hblankM, hblankV, hform, hform', hidentifier, hvariant]

end AgentBridge.Providers
