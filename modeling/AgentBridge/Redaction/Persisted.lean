import AgentBridge.Redaction.Patterns
import AgentBridge.Systems.Json

/-!
# Values as they are persisted

`sanitizePersistedValue`, and the values it leaves alone.
-/

namespace AgentBridge.Redaction

open Systems Function

/-- What the functions of this module take from the host: the hash, as hexadecimal text,
and `String(value || "")`. -/
structure TextHost where
  sha256 : Text → Text
  string : Json → Text

def lowerKey (key : String) : Text := key.toList.map Char.toLower

/-- `/token|secret|password|credential|api[-_]?key|authorization|cookie/i` -/
def droppedKeyParts : List Text :=
  ["token".toList, "secret".toList, "password".toList, "credential".toList, "apikey".toList,
    "api-key".toList, "api_key".toList, "authorization".toList, "cookie".toList]

def droppedKey (key : String) : Bool := droppedKeyParts.any fun part => part <:+: lowerKey key

/-- `/^(task|prompt|messages|input)$/i` -/
def hashedKeys : List Text :=
  ["task".toList, "prompt".toList, "messages".toList, "input".toList]

def hashedKey (key : String) : Bool := hashedKeys.contains (lowerKey key)

def keptKey (key : String) : Bool := !droppedKey key && !hashedKey key

mutual

def sanitizePersistedValue (host : TextHost) : Json → Json
  | .text value => .text (redactSensitiveText value)
  | .array items => .array (sanitizeItems host items)
  | .object fields => .object (sanitizeFields host fields)
  | .null => .null
  | .bool value => .bool value
  | .number literal => .number literal

def sanitizeItems (host : TextHost) : List Json → List Json
  | [] => []
  | item :: items => sanitizePersistedValue host item :: sanitizeItems host items

def sanitizeFields (host : TextHost) : Fields → Fields
  | [] => []
  | (key, child) :: fields =>
    if droppedKey key then sanitizeFields host fields
    else if hashedKey key then
      (key ++ "Sha256", .text (host.sha256 (host.string child))) ::
        (key ++ "Chars", .number (toString (host.string child).length)) ::
        sanitizeFields host fields
    else (key, sanitizePersistedValue host child) :: sanitizeFields host fields

end

mutual

/-- No key of the value is dropped or hashed, and its texts are as the condition says. -/
def Kept (condition : Text → Prop) : Json → Prop
  | .text value => condition value
  | .array items => KeptItems condition items
  | .object fields => KeptFields condition fields
  | .null | .bool _ | .number _ => True

def KeptItems (condition : Text → Prop) : List Json → Prop
  | [] => True
  | item :: items => Kept condition item ∧ KeptItems condition items

def KeptFields (condition : Text → Prop) : Fields → Prop
  | [] => True
  | (key, child) :: fields =>
    keptKey key = true ∧ Kept condition child ∧ KeptFields condition fields

end

section

variable {host : TextHost}

theorem lowerKey_append (key suffix : String) :
    lowerKey (key ++ suffix) = lowerKey key ++ lowerKey suffix := by
  simp [lowerKey]

theorem keptKey_of_hashedKey {key : String} (h : hashedKey key = true) :
    keptKey (key ++ "Sha256") = true ∧ keptKey (key ++ "Chars") = true := by
  have hall : ∀ lower ∈ hashedKeys, ∀ suffix ∈ [lowerKey "Sha256", lowerKey "Chars"],
      droppedKeyParts.any (fun part => part <:+: lower ++ suffix) = false ∧
        hashedKeys.contains (lower ++ suffix) = false := by decide
  have hmem : lowerKey key ∈ hashedKeys := List.contains_iff_mem.mp h
  constructor
  · have ⟨hdropped, hhashed⟩ := hall _ hmem (lowerKey "Sha256") (by simp)
    simp only [keptKey, droppedKey, hashedKey, lowerKey_append, hdropped, hhashed]
    rfl
  · have ⟨hdropped, hhashed⟩ := hall _ hmem (lowerKey "Chars") (by simp)
    simp only [keptKey, droppedKey, hashedKey, lowerKey_append, hdropped, hhashed]
    rfl

theorem keptKey_of_mem_sanitizeFields (fields : Fields) :
    ∀ entry ∈ sanitizeFields host fields, keptKey entry.1 = true := by
  induction fields with
  | nil => simp [sanitizeFields]
  | cons field fields ih =>
    unfold sanitizeFields
    split
    · exact ih
    · rename_i hdropped
      split
      · rename_i hhashed
        have ⟨hsha, hchars⟩ := keptKey_of_hashedKey hhashed
        intro entry hentry
        simp only [List.mem_cons] at hentry
        obtain rfl | rfl | hrest := hentry
        · exact hsha
        · exact hchars
        · exact ih entry hrest
      · rename_i hhashed
        intro entry hentry
        cases List.mem_cons.mp hentry with
        | inl heq =>
          rw [heq]
          simp only [keptKey, Bool.and_eq_true, Bool.not_eq_true']
          exact ⟨by simpa using hdropped, by simpa using hhashed⟩
        | inr hrest => exact ih entry hrest

theorem sanitizeFields_cons {key : String} (h : keptKey key = true) (child : Json)
    (fields : Fields) :
    sanitizeFields host ((key, child) :: fields) =
      (key, sanitizePersistedValue host child) :: sanitizeFields host fields := by
  simp only [keptKey, Bool.and_eq_true, Bool.not_eq_true'] at h
  simp [sanitizeFields, h.1, h.2]

/-! ## What is stored -/

def StoredText (host : TextHost) (text : Text) : Prop :=
  text ∈ Set.range redactSensitiveText ∨ text ∈ Set.range host.sha256

mutual

theorem kept_sanitizePersistedValue (host : TextHost) : ∀ value : Json,
    Kept (StoredText host) (sanitizePersistedValue host value)
  | .text value => .inl ⟨value, rfl⟩
  | .array items => kept_sanitizeItems host items
  | .object fields => kept_sanitizeFields host fields
  | .null => trivial
  | .bool _ => trivial
  | .number _ => trivial

theorem kept_sanitizeItems (host : TextHost) : ∀ items : List Json,
    KeptItems (StoredText host) (sanitizeItems host items)
  | [] => trivial
  | item :: items => ⟨kept_sanitizePersistedValue host item, kept_sanitizeItems host items⟩

theorem kept_sanitizeFields (host : TextHost) : ∀ fields : Fields,
    KeptFields (StoredText host) (sanitizeFields host fields)
  | [] => trivial
  | (key, child) :: fields => by
    have hrest := kept_sanitizeFields host fields
    rw [sanitizeFields]
    split
    · exact hrest
    · rename_i hdropped
      split
      · rename_i hhashed
        have ⟨hsha, hchars⟩ := keptKey_of_hashedKey hhashed
        exact ⟨hsha, .inr ⟨_, rfl⟩, hchars, trivial, hrest⟩
      · rename_i hhashed
        have hkept : keptKey key = true := by simp [keptKey, hdropped, hhashed]
        exact ⟨hkept, kept_sanitizePersistedValue host child, hrest⟩

end

theorem iterate_text (n : Nat) (value : Text) :
    (sanitizePersistedValue host)^[n] (.text value) = .text (redactSensitiveText^[n] value) := by
  induction n generalizing value with
  | zero => rfl
  | succ n ih => exact ih (redactSensitiveText value)

theorem iterate_array (n : Nat) (items : List Json) :
    (sanitizePersistedValue host)^[n] (.array items) = .array ((sanitizeItems host)^[n] items) := by
  induction n generalizing items with
  | zero => rfl
  | succ n ih => exact ih (sanitizeItems host items)

theorem iterate_object (n : Nat) (fields : Fields) :
    (sanitizePersistedValue host)^[n] (.object fields) =
      .object ((sanitizeFields host)^[n] fields) := by
  induction n generalizing fields with
  | zero => rfl
  | succ n ih => exact ih (sanitizeFields host fields)

theorem iterate_items_cons (n : Nat) (item : Json) (items : List Json) :
    (sanitizeItems host)^[n] (item :: items) =
      (sanitizePersistedValue host)^[n] item :: (sanitizeItems host)^[n] items := by
  induction n generalizing item items with
  | zero => rfl
  | succ n ih => exact ih (sanitizePersistedValue host item) (sanitizeItems host items)

theorem iterate_fields_cons (n : Nat) {key : String} (h : keptKey key = true) (child : Json)
    (fields : Fields) :
    (sanitizeFields host)^[n] ((key, child) :: fields) =
      (key, (sanitizePersistedValue host)^[n] child) :: (sanitizeFields host)^[n] fields := by
  induction n generalizing child fields with
  | zero => rfl
  | succ n ih =>
    rw [iterate_succ_apply, sanitizeFields_cons h, ih, iterate_succ_apply,
      iterate_succ_apply]

theorem keptKey_of_iterate_eq {n : Nat} {fields : Fields}
    (h : (sanitizeFields host)^[n + 1] fields = fields) :
    ∀ entry ∈ fields, keptKey entry.1 = true := by
  intro entry hentry
  rw [← h, iterate_succ_apply'] at hentry
  exact keptKey_of_mem_sanitizeFields _ entry hentry

/-! ## The values that are left alone -/

mutual

/-- The passes leave a value alone when they leave its texts alone and it has kept keys
only. -/
theorem iterate_eq_self_iff (n : Nat) : ∀ value : Json,
    (sanitizePersistedValue host)^[n + 1] value = value ↔
      Kept (fun text => redactSensitiveText^[n + 1] text = text) value
  | .text value => by
    rw [iterate_text, Json.text.injEq]
    exact Iff.rfl
  | .array items => by
    rw [iterate_array, Json.array.injEq]
    exact iterate_items_eq_self_iff n items
  | .object fields => by
    rw [iterate_object, Json.object.injEq]
    exact iterate_fields_eq_self_iff n fields
  | .null => by
    refine iff_of_true ?_ trivial
    exact iterate_fixed rfl _
  | .bool value => by
    refine iff_of_true ?_ trivial
    exact iterate_fixed rfl _
  | .number literal => by
    refine iff_of_true ?_ trivial
    exact iterate_fixed rfl _

theorem iterate_items_eq_self_iff (n : Nat) : ∀ items : List Json,
    (sanitizeItems host)^[n + 1] items = items ↔
      KeptItems (fun text => redactSensitiveText^[n + 1] text = text) items
  | [] => by
    refine iff_of_true ?_ trivial
    exact iterate_fixed rfl _
  | item :: items => by
    rw [iterate_items_cons, List.cons.injEq]
    exact and_congr (iterate_eq_self_iff n item) (iterate_items_eq_self_iff n items)

theorem iterate_fields_eq_self_iff (n : Nat) : ∀ fields : Fields,
    (sanitizeFields host)^[n + 1] fields = fields ↔
      KeptFields (fun text => redactSensitiveText^[n + 1] text = text) fields
  | [] => by
    refine iff_of_true ?_ trivial
    exact iterate_fixed rfl _
  | (key, child) :: fields => by
    have hchild := iterate_eq_self_iff n child
    have hrest := iterate_fields_eq_self_iff n fields
    constructor
    · intro h
      have hkey := keptKey_of_iterate_eq h (key, child) List.mem_cons_self
      rw [iterate_fields_cons _ hkey, List.cons.injEq, Prod.mk.injEq] at h
      exact ⟨hkey, hchild.mp h.1.2, hrest.mp h.2⟩
    · intro h
      have hkey : keptKey key = true := h.1
      rw [iterate_fields_cons _ hkey, hchild.mpr h.2.1, hrest.mpr h.2.2]

end

end

end AgentBridge.Redaction
