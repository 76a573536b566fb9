import AgentBridge.Providers.Pauses
import AgentBridge.Queue.Retry

/-!
# Resuming a provider

`resumeProvider` of `lib/provider-leases.js` deletes rows of the pause tables by key, without
regard to case; the queue scheduler derives the keys that it reads from the names of a job's
candidate models. The two meet here: after a whole provider is resumed, no key that the
scheduler derives for it is paused.
-/

namespace AgentBridge.Providers

open List

/-! ### Keys as the database compares them -/

/-- `=` under `COLLATE NOCASE` -/
def noCaseEq (left right : String) : Bool := left.toLower == right.toLower

/-- `LIKE` with a pattern that is an escaped text and one `%`. -/
def likePrefix (start text : String) : Bool :=
  start.toLower.toList.isPrefixOf text.toLower.toList

/-! ### The target of a call -/

structure PauseTarget where
  key : String
  provider : String
  /-- Empty for a whole provider, which then has a prefix for the keys of its models. -/
  model : String
  modelPrefix : String
deriving DecidableEq

namespace KeyConfig

variable (config : KeyConfig)

/-- What the pause keys of a provider's models start with. -/
def modelKeyPrefix (provider : String) : String :=
  config.providerConcurrencyKey ++ ":" ++ providerName provider ++ "/"

def providerPauseTarget (target : String) : Option PauseTarget :=
  let raw := Paths.trim target.toList
  let slash := raw.contains '/'
  let provider := String.ofList (Paths.trim (raw.takeWhile (· != '/')))
  let model := String.ofList (Paths.trim ((raw.dropWhile (· != '/')).drop 1))
  if provider = "" ∨ modelIdentifier provider = false
      ∨ (slash = true ∧ (model = "" ∨ modelName model = false)) then none
  else if slash = true then
    some ⟨config.modelPauseKeyForMetadata provider model, providerName provider, model, ""⟩
  else
    some ⟨config.providerKeyForMetadata provider, providerName provider, "",
      config.modelKeyPrefix provider⟩

/-- The other provider keys that a call ends the pauses of. -/
def otherGroupKeys (target : PauseTarget) : List String :=
  if target.model = "" then
    (config.quotaGroupProviderKeys target.provider).filter (· != target.key)
  else []

end KeyConfig

/-- The condition of the `DELETE` statements. -/
def PauseTarget.selects (target : PauseTarget) (key : String) : Bool :=
  noCaseEq key target.key || (target.modelPrefix != "" && likePrefix target.modelPrefix key)

structure ResumeOutcome where
  key : String
  removed : List ProviderCooldownRow
  db : PauseDb
deriving DecidableEq

/-- The transaction of `resumeProvider`. -/
def resumeTarget (config : KeyConfig) (target : PauseTarget) (db : PauseDb) : ResumeOutcome :=
  let kept := db.cooldowns.filter fun row => !target.selects row.providerKey
  let groupKeys := config.otherGroupKeys target
  { key := target.key
    removed := (db.cooldowns.filter fun row => target.selects row.providerKey)
      ++ groupKeys.flatMap fun key => kept.filter fun row => row.providerKey == key
    db := { db with
      cooldowns := kept.filter fun row => !groupKeys.contains row.providerKey
      pauseStrikes := db.pauseStrikes.filter fun row => !target.selects row.pauseKey } }

/-- A target that is not accepted changes nothing. -/
def resumeProvider (config : KeyConfig) (provider : String) (db : PauseDb) :
    Option ResumeOutcome :=
  (config.providerPauseTarget provider).map fun target => resumeTarget config target db

/-- The pauses in force under the keys of the account. -/
def activeProviderPauses (config : KeyConfig) (now : Nat) (db : PauseDb) : List (String × Nat) :=
  (db.cooldowns.filter fun row =>
    now < row.untilAt ∧ (row.providerKey = config.providerConcurrencyKey
      ∨ likePrefix (config.providerConcurrencyKey ++ ":") row.providerKey = true)).map
    fun row => (row.providerKey, row.untilAt)

/-! ### Names in keys -/

theorem dashOthers_all (text : List Char) :
    ∀ c ∈ dashOthers text, isProviderCharacter c = true := by
  induction text with
  | nil => simp [dashOthers]
  | cons c rest ih =>
    unfold dashOthers
    split_ifs with hc
    · intro d hd
      cases mem_cons.mp hd with
      | inl heq => exact heq ▸ hc
      | inr hrest => exact ih d hrest
    · split
      · split_ifs
        · intro d hd
          cases mem_cons.mp hd with
          | inl heq => exact heq ▸ rfl
          | inr hrest => exact ih d hrest
        · exact ih
      · simp only [mem_singleton, forall_eq]
        rfl

theorem dashOthers_of_all {text : List Char}
    (h : ∀ c ∈ text, isProviderCharacter c = true) : dashOthers text = text := by
  induction text with
  | nil => rfl
  | cons c rest ih =>
    have hc := h c mem_cons_self
    have hrest := ih fun d hd => h d (mem_cons_of_mem c hd)
    simp only [dashOthers, hc, if_true, hrest]

theorem providerName_toList (provider : String) :
    ∀ c ∈ (providerName provider).toList, isProviderCharacter c = true := by
  rw [providerName, String.toList_ofList]
  exact dashOthers_all _

theorem toLower_of_providerCharacter {c : Char} (h : isProviderCharacter c = true) :
    c.toLower = c := by
  unfold Char.toLower
  rw [dif_neg]
  intro hupper
  simp only [isProviderCharacter, Char.isLower, Char.isDigit, Bool.or_eq_true, Bool.and_eq_true,
    decide_eq_true_eq, beq_iff_eq, ge_iff_le, UInt32.le_iff_toNat_le] at h hupper
  obtain (((h | h) | rfl) | rfl) | rfl := h
  · simp at h hupper
    omega
  · simp at h hupper
    omega
  all_goals revert hupper; decide

theorem not_whitespace_of_providerCharacter {c : Char} (h : isProviderCharacter c = true) :
    Paths.isWhitespace c = false := by
  apply modelCharacter_not_whitespace
  simp only [isProviderCharacter, Bool.or_eq_true] at h
  simp only [isModelIdentifierCharacter, Char.isAlphanum, Char.isAlpha, Bool.or_eq_true]
  tauto

theorem slash_not_mem_providerName (provider : String) : '/' ∉ (providerName provider).toList := by
  intro hmem
  exact absurd (providerName_toList provider '/' hmem) (by decide)

theorem toLower_toList (text : String) : text.toLower.toList = text.toList.map Char.toLower :=
  String.toList_map

theorem map_toLower_of_all {text : List Char} (h : ∀ c ∈ text, isProviderCharacter c = true) :
    text.map Char.toLower = text := by
  have hsame : text.map Char.toLower = text.map id :=
    map_congr_left fun c hc => toLower_of_providerCharacter (h c hc)
  rw [hsame, map_id]

theorem providerName_providerName (provider : String) :
    providerName (providerName provider) = providerName provider := by
  have hall := providerName_toList provider
  have htrim : trimText (providerName provider) = providerName provider := by
    rw [trimText, trim_of_all fun c hc => not_whitespace_of_providerCharacter (hall c hc),
      String.ofList_toList]
  calc providerName (providerName provider)
      = String.ofList (dashOthers (providerName provider).toLower.toList) := by
        rw [providerName, htrim]
    _ = String.ofList (providerName provider).toList := by
        rw [toLower_toList, map_toLower_of_all hall, dashOthers_of_all hall]
    _ = providerName provider := String.ofList_toList

namespace KeyConfig

variable {config : KeyConfig} {left right : String}

theorem providerKeyForMetadata_congr (h : providerName left = providerName right) :
    config.providerKeyForMetadata left = config.providerKeyForMetadata right := by
  unfold providerKeyForMetadata
  rw [h]

theorem modelPauseKeyForMetadata_congr (h : providerName left = providerName right)
    (model : String) :
    config.modelPauseKeyForMetadata left model = config.modelPauseKeyForMetadata right model := by
  unfold modelPauseKeyForMetadata
  rw [h]

theorem quotaGroupProviderKeys_congr (h : providerName left = providerName right) :
    config.quotaGroupProviderKeys left = config.quotaGroupProviderKeys right := by
  unfold quotaGroupProviderKeys
  rw [h]

end KeyConfig

/-! ### Which keys a resumption reaches -/

theorem noCaseEq_iff {left right : String} :
    noCaseEq left right = true ↔ left.toLower.toList = right.toLower.toList := by
  rw [noCaseEq, beq_iff_eq, String.toList_inj]

theorem likePrefix_iff {start text : String} :
    likePrefix start text = true ↔ start.toLower.toList <+: text.toLower.toList :=
  isPrefixOf_iff_prefix

theorem takeWhile_of_prefix_slash {name text : List Char} (hname : '/' ∉ name)
    (h : name ++ ['/'] <+: text) : text.takeWhile (· != '/') = name := by
  obtain ⟨rest, rfl⟩ := h
  have hne : ∀ c ∈ name, (c != '/') = true := by
    intro c hc
    simpa using fun heq : c = '/' => hname (heq ▸ hc)
  rw [append_assoc, takeWhile_append_of_pos hne]
  simp

namespace KeyConfig

variable (config : KeyConfig)

/-- The account part of the keys, as the comparisons see it. -/
def account : List Char := config.providerConcurrencyKey.toLower.toList

theorem toLower_append_name (provider : String) :
    (config.providerConcurrencyKey ++ ":" ++ providerName provider).toLower.toList =
      config.account ++ ':' :: (providerName provider).toList := by
  have hcolon : ":".toList.map Char.toLower = [':'] := by decide
  have hname := map_toLower_of_all (providerName_toList provider)
  rw [toLower_toList, String.toList_append, String.toList_append, map_append,
    map_append, hcolon, hname, account, toLower_toList, append_assoc]
  rfl

theorem toLower_providerKey (provider : String) :
    (config.providerKeyForMetadata provider).toLower.toList =
      config.account ++
        (if config.providerConcurrencyKeyExplicit = true ∨ providerName provider = "" then []
          else ':' :: (providerName provider).toList) := by
  unfold providerKeyForMetadata
  by_cases h : config.providerConcurrencyKeyExplicit = true ∨ providerName provider = ""
  · rw [if_pos h, if_pos (by simpa using h), append_nil, account]
  · rw [if_neg h, if_neg (by simpa using h)]
    exact config.toLower_append_name provider

theorem toLower_modelKeyPrefix (provider : String) :
    (config.modelKeyPrefix provider).toLower.toList =
      config.account ++ ':' :: ((providerName provider).toList ++ ['/']) := by
  have hslash : "/".toList.map Char.toLower = ['/'] := by decide
  have hfront := config.toLower_append_name provider
  rw [toLower_toList] at hfront
  rw [modelKeyPrefix, toLower_toList, String.toList_append, map_append, hfront, hslash,
    append_assoc]
  rfl

theorem modelKeyPrefix_ne_empty (provider : String) : config.modelKeyPrefix provider ≠ "" := by
  intro h
  have htext := config.toLower_modelKeyPrefix provider
  rw [h] at htext
  simp [toLower_toList] at htext

variable {config}

theorem not_likePrefix_providerKey (provider other : String) :
    likePrefix (config.modelKeyPrefix provider) (config.providerKeyForMetadata other) = false := by
  rw [Bool.eq_false_iff]
  intro h
  rw [likePrefix_iff, config.toLower_modelKeyPrefix, config.toLower_providerKey,
    List.prefix_append_right_inj] at h
  split_ifs at h with hplain
  · exact absurd (List.prefix_nil.mp h) (by simp)
  · have hslash := (cons_prefix_cons.mp h).2
    apply slash_not_mem_providerName other
    exact hslash.subset (by simp)

theorem providerName_eq_of_likePrefix {provider other key : String}
    (h : likePrefix (config.modelKeyPrefix provider) key = true)
    (h' : likePrefix (config.modelKeyPrefix other) key = true) :
    providerName provider = providerName other := by
  rw [likePrefix_iff, config.toLower_modelKeyPrefix] at h h'
  obtain ⟨rest, hrest⟩ := h
  rw [← hrest, append_assoc, List.prefix_append_right_inj] at h'
  have hother : (providerName other).toList ++ ['/'] <+:
      (providerName provider).toList ++ ['/'] ++ rest := (cons_prefix_cons.mp h').2
  have hprovider : (providerName provider).toList ++ ['/'] <+:
      (providerName provider).toList ++ ['/'] ++ rest := List.prefix_append _ _
  have htake := takeWhile_of_prefix_slash (slash_not_mem_providerName other) hother
  rw [takeWhile_of_prefix_slash (slash_not_mem_providerName provider) hprovider] at htake
  exact String.toList_inj.mp htake

theorem providerName_eq_of_providerKey {provider other : String}
    (hexplicit : config.providerConcurrencyKeyExplicit = false)
    (h : noCaseEq (config.providerKeyForMetadata provider) (config.providerKeyForMetadata other)
      = true) :
    providerName provider = providerName other := by
  rw [noCaseEq_iff, config.toLower_providerKey, config.toLower_providerKey,
    append_cancel_left_eq] at h
  simp only [hexplicit, Bool.false_eq_true, false_or] at h
  split_ifs at h with hleft hright hright
  · rw [hleft, hright]
  · exact String.toList_inj.mp (List.cons.inj h).2

/-- The target of a call that names a whole provider. -/
def wholeTarget (config : KeyConfig) (provider : String) : PauseTarget :=
  ⟨config.providerKeyForMetadata provider, providerName provider, "",
    config.modelKeyPrefix provider⟩

theorem providerPauseTarget_whole {provider : String} {target : PauseTarget}
    (h : config.providerPauseTarget provider = some target) (hmodel : target.model = "") :
    target = config.wholeTarget provider := by
  unfold providerPauseTarget at h
  extract_lets raw slash name model at h
  split_ifs at h with hrefused hslash
  · cases h
    exact absurd (.inr (.inr ⟨hslash, .inl hmodel⟩)) hrefused
  · cases h
    have hno : ∀ c ∈ raw, (c != '/') = true := by
      intro c hc
      have hslash' : '/' ∉ raw := by simpa [slash] using hslash
      simpa using fun heq : c = '/' => hslash' (heq ▸ hc)
    have hname : providerName name = providerName provider := by
      have hraw : raw.takeWhile (· != '/') = raw := takeWhile_eq_self_iff.mpr hno
      have htrim : trimText name = trimText provider := by
        simp only [trimText, name, hraw, raw, String.toList_ofList, Paths.trim_trim]
      unfold providerName
      rw [htrim]
    rw [wholeTarget, providerKeyForMetadata_congr hname, hname, modelKeyPrefix, hname,
      modelKeyPrefix]

/-- Every key of the provider and of its models is reached. -/
theorem wholeTarget_selects (config : KeyConfig) (provider key : String)
    (h : noCaseEq key (config.providerKeyForMetadata provider) = true
      ∨ likePrefix (config.modelKeyPrefix provider) key = true) :
    (config.wholeTarget provider).selects key = true := by
  unfold PauseTarget.selects
  cases h with
  | inl hkey => simp [wholeTarget, hkey]
  | inr hmodel => simp [wholeTarget, hmodel, config.modelKeyPrefix_ne_empty]

/-- Nothing else is. -/
theorem of_wholeTarget_selects {provider key : String}
    (h : (config.wholeTarget provider).selects key = true) :
    noCaseEq key (config.providerKeyForMetadata provider) = true
      ∨ likePrefix (config.modelKeyPrefix provider) key = true := by
  unfold PauseTarget.selects at h
  rw [Bool.or_eq_true, Bool.and_eq_true] at h
  exact h.imp id And.right

theorem likePrefix_modelPauseKey {provider model : String}
    (h : config.modelPauseKeyForMetadata provider model ≠ "") :
    likePrefix (config.modelKeyPrefix provider) (config.modelPauseKeyForMetadata provider model)
      = true := by
  unfold modelPauseKeyForMetadata at h ⊢
  split_ifs at h ⊢ with hnone
  · exact absurd rfl h
  · show likePrefix _ (config.modelKeyPrefix provider ++ (trimText model).toLower) = true
    rw [likePrefix_iff, toLower_toList, toLower_toList, String.toList_append, map_append]
    exact List.prefix_append _ _

theorem modelKey_not_selected {provider other key : String}
    (hne : providerName other ≠ providerName provider)
    (hkey : likePrefix (config.modelKeyPrefix other) key = true) :
    (config.wholeTarget provider).selects key = false := by
  rw [Bool.eq_false_iff]
  intro hselected
  cases of_wholeTarget_selects hselected with
  | inl hsame =>
    have hother : likePrefix (config.modelKeyPrefix other)
        (config.providerKeyForMetadata provider) = true := by
      rw [likePrefix_iff] at hkey ⊢
      rwa [noCaseEq_iff.mp hsame] at hkey
    rw [not_likePrefix_providerKey] at hother
    cases hother
  | inr hmodel => exact hne (providerName_eq_of_likePrefix hkey hmodel)

theorem providerKey_selected_iff {provider other : String}
    (hne : providerName other ≠ providerName provider) :
    (config.wholeTarget provider).selects (config.providerKeyForMetadata other) = true ↔
      config.providerConcurrencyKeyExplicit = true := by
  constructor
  · intro hselected
    by_contra hexplicit
    cases of_wholeTarget_selects hselected with
    | inl hsame =>
      exact hne (providerName_eq_of_providerKey (Bool.eq_false_iff.mpr hexplicit) hsame)
    | inr hmodel =>
      rw [not_likePrefix_providerKey] at hmodel
      cases hmodel
  · intro hexplicit
    apply config.wholeTarget_selects
    left
    simp [providerKeyForMetadata, hexplicit, noCaseEq]

theorem mem_quotaGroupProviderKeys {provider key : String}
    (h : key ∈ config.quotaGroupProviderKeys provider) :
    config.providerConcurrencyKeyExplicit = false ∧
      ∃ member, key = config.providerKeyForMetadata member := by
  unfold quotaGroupProviderKeys at h
  split_ifs at h with hnone
  · cases h
  · obtain ⟨group, -, hkey⟩ := mem_flatMap.mp (mem_dedup.mp h)
    obtain ⟨member, -, rfl⟩ := mem_map.mp hkey
    simp only [Bool.or_eq_true, not_or, Bool.not_eq_true] at hnone
    exact ⟨hnone.2, member, rfl⟩

end KeyConfig

/-! ### The tables after a resumption -/

section Whole

variable {config : KeyConfig} {provider : String} {db : PauseDb}

theorem mem_cooldowns_resumeTarget {target : PauseTarget} {row : ProviderCooldownRow} :
    row ∈ (resumeTarget config target db).db.cooldowns ↔
      row ∈ db.cooldowns ∧ target.selects row.providerKey = false ∧
        row.providerKey ∉ config.otherGroupKeys target := by
  simp only [resumeTarget, mem_filter, Bool.not_eq_true', contains_eq_mem,
    decide_eq_false_iff_not, and_assoc]

theorem mem_pauseStrikes_resumeTarget {target : PauseTarget} {row : PauseStrikeRow} :
    row ∈ (resumeTarget config target db).db.pauseStrikes ↔
      row ∈ db.pauseStrikes ∧ target.selects row.pauseKey = false := by
  simp only [resumeTarget, mem_filter, Bool.not_eq_true']

/-- The call reports the rows that are gone, and no other ones. -/
theorem mem_removed_resumeTarget {target : PauseTarget} {row : ProviderCooldownRow} :
    row ∈ (resumeTarget config target db).removed ↔
      row ∈ db.cooldowns ∧ row ∉ (resumeTarget config target db).db.cooldowns := by
  rw [mem_cooldowns_resumeTarget]
  simp only [resumeTarget, mem_append, mem_flatMap, mem_filter, beq_iff_eq,
    Bool.not_eq_true']
  constructor
  · intro hrow
    obtain ⟨hmem, hselected⟩ | ⟨key, hkey, ⟨hmem, hnot⟩, rfl⟩ := hrow
    · exact ⟨hmem, fun h => by simp [hselected] at h⟩
    · exact ⟨hmem, fun h => h.2.2 hkey⟩
  · rintro ⟨hmem, hgone⟩
    cases hselected : target.selects row.providerKey with
    | true => exact .inl ⟨hmem, rfl⟩
    | false =>
      have hkey : row.providerKey ∈ config.otherGroupKeys target := by
        by_contra hkey
        exact hgone ⟨hmem, hselected, hkey⟩
      exact .inr ⟨_, hkey, ⟨hmem, rfl⟩, rfl⟩

/-- The keys that the scheduler looks up for a provider whose name is the resumed one. -/
theorem mem_otherGroupKeys_whole {key : String} :
    key ∈ config.otherGroupKeys (config.wholeTarget provider) ↔
      key ∈ config.quotaGroupProviderKeys provider ∧
        key ≠ config.providerKeyForMetadata provider := by
  have hgroup : config.quotaGroupProviderKeys (providerName provider) =
      config.quotaGroupProviderKeys provider :=
    KeyConfig.quotaGroupProviderKeys_congr (providerName_providerName provider)
  simp [KeyConfig.otherGroupKeys, KeyConfig.wholeTarget, hgroup]

end Whole

/-! ### What the scheduler reads -/

theorem pauseOf_eq_zero {pauses : List (String × Nat)} {key : String}
    (h : ∀ pause ∈ pauses, pause.1 ≠ key) : Queue.pauseOf pauses key = 0 := by
  have hnone : pauses.lookup key = none := by
    rw [lookup_eq_none_iff]
    intro pause hpause
    simpa using (h pause hpause).symm
  rw [Queue.pauseOf, hnone, Option.getD_none]

theorem pauseOf_activeProviderPauses {config : KeyConfig} {db : PauseDb} {key : String}
    (h : ∀ row ∈ db.cooldowns, row.providerKey ≠ key) (now : Nat) :
    Queue.pauseOf (activeProviderPauses config now db) key = 0 := by
  apply pauseOf_eq_zero
  intro pause hpause
  obtain ⟨row, hrow, rfl⟩ := mem_map.mp hpause
  exact h row (mem_filter.mp hrow).1

theorem pauseOf_empty {config : KeyConfig} (haccount : config.providerConcurrencyKey ≠ "")
    (now : Nat) (db : PauseDb) :
    Queue.pauseOf (activeProviderPauses config now db) "" = 0 := by
  apply pauseOf_eq_zero
  intro pause hpause hempty
  obtain ⟨row, hrow, rfl⟩ := mem_map.mp hpause
  have hkey := (mem_filter.mp hrow).2
  simp only [decide_eq_true_eq] at hkey hempty
  rw [hempty] at hkey
  cases hkey.2 with
  | inl haccount' => exact haccount haccount'.symm
  | inr hprefix =>
    rw [likePrefix_iff, toLower_toList, toLower_toList, String.toList_append] at hprefix
    simp at hprefix

theorem foldl_max_eq_zero {values : List Nat} (h : ∀ value ∈ values, value = 0) :
    values.foldl max 0 = 0 := by
  induction values with
  | nil => rfl
  | cons value values ih =>
    rw [foldl_cons, h value mem_cons_self, max_self]
    exact ih fun other hother => h other (mem_cons_of_mem _ hother)

theorem pausedUntil_eq_zero {keys : KeyConfig} {pauses : List (String × Nat)}
    {provider model : String}
    (hprovider : Queue.pauseOf pauses (keys.providerKeyForMetadata provider) = 0)
    (hmodel : Queue.pauseOf pauses (keys.modelPauseKeyForMetadata provider model) = 0)
    (hgroup : ∀ key ∈ keys.quotaGroupProviderKeys provider, Queue.pauseOf pauses key = 0) :
    Queue.pausedUntil keys pauses provider model = 0 := by
  have hvalues : ∀ value ∈ (keys.quotaGroupProviderKeys provider).map (Queue.pauseOf pauses),
      value = 0 := by
    intro value hvalue
    obtain ⟨key, hkey, rfl⟩ := mem_map.mp hvalue
    exact hgroup key hkey
  rw [Queue.pausedUntil, hprovider, hmodel, ite_self, max_self]
  exact foldl_max_eq_zero hvalues

/-! ### Resuming a whole provider -/

/-- What the tables keep of another provider. -/
structure OtherKept (config : KeyConfig) (provider other : String) (db db' : PauseDb) : Prop where
  models : ∀ row ∈ db.cooldowns,
    likePrefix (config.modelKeyPrefix other) row.providerKey = true → row ∈ db'.cooldowns
  whole : ∀ row ∈ db.cooldowns, row.providerKey = config.providerKeyForMetadata other →
    (row ∈ db'.cooldowns ↔ config.providerConcurrencyKeyExplicit = false ∧
      row.providerKey ∉ config.quotaGroupProviderKeys provider)
  modelStrikes : ∀ row ∈ db.pauseStrikes,
    likePrefix (config.modelKeyPrefix other) row.pauseKey = true → row ∈ db'.pauseStrikes
  wholeStrikes : ∀ row ∈ db.pauseStrikes, row.pauseKey = config.providerKeyForMetadata other →
    (row ∈ db'.pauseStrikes ↔ config.providerConcurrencyKeyExplicit = false)

structure ProviderResumed (config : KeyConfig) (provider : String) (db : PauseDb)
    (outcome : ResumeOutcome) : Prop where
  free : ∀ name, providerName name = providerName provider → ∀ model now,
    Queue.pausedUntil config (activeProviderPauses config now outcome.db) name model = 0
  others : ∀ other, providerName other ≠ providerName provider →
    OtherKept config provider other db outcome.db
  cooldowns : outcome.db.cooldowns.Sublist db.cooldowns
  pauseStrikes : outcome.db.pauseStrikes.Sublist db.pauseStrikes
  removed : ∀ row, row ∈ outcome.removed ↔ row ∈ db.cooldowns ∧ row ∉ outcome.db.cooldowns
  tables : outcome.db.leases = db.leases ∧ outcome.db.capacities = db.capacities ∧
    outcome.db.settings = db.settings

section Whole

variable {config : KeyConfig} {provider : String}

theorem free_resumeTarget (haccount : config.providerConcurrencyKey ≠ "") (db : PauseDb)
    {name : String} (hname : providerName name = providerName provider) (model : String)
    (now : Nat) :
    Queue.pausedUntil config (activeProviderPauses config now
      (resumeTarget config (config.wholeTarget provider) db).db) name model = 0 := by
  have hselected : ∀ key, (config.wholeTarget provider).selects key = true →
      Queue.pauseOf (activeProviderPauses config now
        (resumeTarget config (config.wholeTarget provider) db).db) key = 0 := by
    intro key hkey
    apply pauseOf_activeProviderPauses
    rintro row hrow rfl
    rw [mem_cooldowns_resumeTarget, hkey] at hrow
    cases hrow.2.1
  have hown : (config.wholeTarget provider).selects (config.providerKeyForMetadata provider)
      = true := config.wholeTarget_selects provider _ (.inl (beq_self_eq_true _))
  apply pausedUntil_eq_zero
  · rw [KeyConfig.providerKeyForMetadata_congr hname]
    exact hselected _ hown
  · rw [KeyConfig.modelPauseKeyForMetadata_congr hname]
    by_cases hkey : config.modelPauseKeyForMetadata provider model = ""
    · rw [hkey]
      exact pauseOf_empty haccount now _
    · exact hselected _ (config.wholeTarget_selects provider _
        (.inr (KeyConfig.likePrefix_modelPauseKey hkey)))
  · intro key hkey
    rw [KeyConfig.quotaGroupProviderKeys_congr hname] at hkey
    by_cases hsame : key = config.providerKeyForMetadata provider
    · exact hselected key (hsame ▸ hown)
    · apply pauseOf_activeProviderPauses
      rintro row hrow rfl
      exact (mem_cooldowns_resumeTarget.mp hrow).2.2 (mem_otherGroupKeys_whole.mpr ⟨hkey, hsame⟩)

theorem others_resumeTarget (db : PauseDb) {other : String}
    (hne : providerName other ≠ providerName provider) :
    OtherKept config provider other db
      (resumeTarget config (config.wholeTarget provider) db).db where
  models := by
    intro row hrow hkey
    rw [mem_cooldowns_resumeTarget]
    refine ⟨hrow, KeyConfig.modelKey_not_selected hne hkey, ?_⟩
    intro hgroup
    obtain ⟨-, member, hmember⟩ :=
      KeyConfig.mem_quotaGroupProviderKeys (mem_otherGroupKeys_whole.mp hgroup).1
    rw [hmember, KeyConfig.not_likePrefix_providerKey] at hkey
    cases hkey
  whole := by
    intro row hrow hkey
    have hselected := @KeyConfig.providerKey_selected_iff config provider other hne
    rw [mem_cooldowns_resumeTarget, mem_otherGroupKeys_whole, hkey, ← Bool.not_eq_true, hselected,
      Bool.not_eq_true]
    constructor
    · rintro ⟨-, hexplicit, hgroup⟩
      refine ⟨hexplicit, fun hmem => hgroup ⟨hmem, fun hsame => ?_⟩⟩
      apply hne
      apply KeyConfig.providerName_eq_of_providerKey hexplicit
      simp [hsame, noCaseEq]
    · rintro ⟨hexplicit, hgroup⟩
      exact ⟨hrow, hexplicit, fun hmem => hgroup hmem.1⟩
  modelStrikes := by
    intro row hrow hkey
    exact mem_pauseStrikes_resumeTarget.mpr ⟨hrow, KeyConfig.modelKey_not_selected hne hkey⟩
  wholeStrikes := by
    intro row hrow hkey
    have hselected := @KeyConfig.providerKey_selected_iff config provider other hne
    rw [mem_pauseStrikes_resumeTarget, hkey, ← Bool.not_eq_true, hselected, Bool.not_eq_true]
    exact and_iff_right hrow

end Whole

/-- Resuming a whole provider: at no time does the scheduler find one of its models paused. Rows
of other providers stay, except the rows of the providers that share its quota and, where one
explicit key stands for all providers, the row of that key; no other table changes. -/
theorem resumeProvider_whole {config : KeyConfig} {provider : String} {db : PauseDb}
    {target : PauseTarget} {outcome : ResumeOutcome}
    (haccount : config.providerConcurrencyKey ≠ "")
    (htarget : config.providerPauseTarget provider = some target) (hwhole : target.model = "")
    (h : resumeProvider config provider db = some outcome) :
    ProviderResumed config provider db outcome := by
  rw [resumeProvider, htarget, KeyConfig.providerPauseTarget_whole htarget hwhole,
    Option.map_some] at h
  cases h
  exact {
    free := fun name hname model now => free_resumeTarget haccount db hname model now
    others := fun other hne => others_resumeTarget db hne
    cooldowns := filter_sublist.trans filter_sublist
    pauseStrikes := filter_sublist
    removed := fun row => mem_removed_resumeTarget
    tables := ⟨rfl, rfl, rfl⟩ }

/-- Two providers that share one quota. -/
def sharedQuota : KeyConfig := ⟨"account", false, [["codex", "openai"]]⟩

/-- A pause of each of them and of one model of each. -/
def pausedGroup : PauseDb :=
  { PauseDb.empty with
    cooldowns := [⟨"account:codex", 1000, "provider_paused", "", 0⟩,
      ⟨"account:Codex/GPT", 1000, "provider_rate_limited", "", 0⟩,
      ⟨"account:openai", 1000, "provider_paused", "", 0⟩,
      ⟨"account:openai/gpt", 1000, "provider_rate_limited", "", 0⟩] }

theorem resumeProvider_whole_of_group :
    ∃ outcome, resumeProvider sharedQuota "codex" pausedGroup = some outcome ∧
      ProviderResumed sharedQuota "codex" pausedGroup outcome :=
  ⟨resumeTarget sharedQuota (sharedQuota.wholeTarget "codex") pausedGroup, by decide +kernel,
    @resumeProvider_whole sharedQuota "codex" pausedGroup (sharedQuota.wholeTarget "codex") _
      (by decide) (by decide +kernel) rfl (by decide +kernel)⟩

/-- The operator resumes one provider, and the pause of the other one is gone too. -/
theorem resume_removes_pause_of_group_member :
    ∃ outcome row, resumeProvider sharedQuota "codex" pausedGroup = some outcome ∧
      providerName "openai" ≠ providerName "codex" ∧
      row.providerKey = sharedQuota.providerKeyForMetadata "openai" ∧
      row ∈ pausedGroup.cooldowns ∧ row ∉ outcome.db.cooldowns :=
  ⟨resumeTarget sharedQuota (sharedQuota.wholeTarget "codex") pausedGroup,
    ⟨"account:openai", 1000, "provider_paused", "", 0⟩, by decide +kernel⟩

end AgentBridge.Providers
