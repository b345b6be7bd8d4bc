import Mathlib
import McpTracer.Json.Value

/-! Redaction policies and the key-name rule.

A key is compared after dropping separators and case. The default rule masks
common secret-bearing names; a custom policy adds exact normalized names.
-/

set_option autoImplicit false

namespace McpTracer.Redact
open McpTracer.Json

/-- Placeholder substituted for a redacted value. -/
def redactedPlaceholder : String := "***REDACTED***"

/-- Sensitive when the normalized key contains one of these fragments. -/
def containsTokens : List String :=
  ["password", "passwd", "passphrase", "secret", "apikey", "accesstoken", "refreshtoken",
    "authorization", "credential", "privatekey", "clientsecret", "sessiontoken", "mnemonic",
    "seedphrase"]

/-- Sensitive when the normalized key equals or ends with one of these. -/
def suffixTokens : List String := ["token", "cookie", "bearer"]

def normalizeKey (key : String) : String :=
  String.ofList ((key.toList.filter Char.isAlphanum).map Char.toLower)

/-- Whether a JSON object key names a value that should be masked. -/
def isSensitiveKey (key : String) : Bool :=
  let normalized := normalizeKey key
  if normalized = "" then false
  else if containsTokens.any fun token => decide (token.toList <:+: normalized.toList) then true
  else suffixTokens.any fun token =>
    decide (normalized = token) || decide (token.toList <:+ normalized.toList)

def matchesPolicySensitiveKey (key : String) (customKeys : List String) : Bool :=
  if isSensitiveKey key then true
  else
    let normalized := normalizeKey key
    decide (normalized ≠ "") && customKeys.any fun custom => decide (custom = normalized)

inductive RedactionPolicy where
  | none
  | default
  | custom (extraKeys : List String)
  deriving DecidableEq, Repr

namespace RedactionPolicy

def fromName : String → Option RedactionPolicy
  | "none" => some .none
  | "default" => some .default
  | _ => Option.none

/-- Build a policy from the command-line options of `record` and `replay`. -/
def fromCli (name : String) (extraKeys : List String) : Except String RedactionPolicy :=
  match fromName name with
  | Option.none => .error s!"unknown redaction policy: {name} (expected none|default)"
  | some base =>
    if extraKeys = [] then .ok base
    else if base ≠ .default then .error "--redact-keys requires --redact default"
    else
      let normalizedKeys := (extraKeys.map normalizeKey).filter (· ≠ "")
      let normalizedKeys := (normalizedKeys.insertionSort (· ≤ ·)).destutter (· ≠ ·)
      if normalizedKeys = [] then .error "--redact-keys must contain at least one non-empty key"
      else .ok (.custom normalizedKeys)

/-- Stable string used for CLI values and the stored policy column. -/
def asStr : RedactionPolicy → String
  | .none => "none"
  | .default => "default"
  | .custom _ => "custom"

/-- Reconstruct a policy from durable session metadata. -/
def fromStorage (name : String) (extraKeys : List String) : Except String RedactionPolicy :=
  match name with
  | "none" =>
    if extraKeys = [] then .ok .none
    else .error "the none redaction policy cannot have custom keys"
  | "default" =>
    if extraKeys = [] then .ok .default
    else .error "the default redaction policy cannot have custom keys"
  | "custom" =>
    if extraKeys = [] then .error "the custom redaction policy requires custom keys"
    else fromCli "default" extraKeys
  | _ => .error s!"unknown redaction policy in stored session: {name}"

def customKeys : RedactionPolicy → List String
  | .custom extraKeys => extraKeys
  | .none | .default => []

/-- The policies a command line or a stored session can configure. -/
def Built (policy : RedactionPolicy) : Prop :=
  ∃ name extraKeys, fromCli name extraKeys = .ok policy ∨ fromStorage name extraKeys = .ok policy

end RedactionPolicy

/-! ## Normalization is idempotent -/

theorem toLower_isAlphanum {c : Char} (alphanumeric : c.isAlphanum = true) :
    c.toLower.isAlphanum = true := by
  simp only [Char.isAlphanum, Bool.or_eq_true] at alphanumeric ⊢
  rcases alphanumeric with alpha | digit
  · exact .inl (by simpa using alpha)
  · have fixed : c.toLower = c := Char.toLower_eq_of_not_isUpper fun upper => by
      simp only [Char.isUpper, Char.isDigit, UInt32.le_iff_toNat_le, ge_iff_le, decide_eq_true_eq,
        Bool.decide_and, Bool.and_eq_true] at upper digit
      exact absurd (upper.1.trans digit.2) (by decide)
    exact .inr (by rw [fixed]; exact digit)

@[simp] theorem normalizeKey_normalizeKey (key : String) :
    normalizeKey (normalizeKey key) = normalizeKey key := by
  have kept : ∀ c ∈ (key.toList.filter Char.isAlphanum).map Char.toLower,
      c.isAlphanum = true ∧ c.toLower = c := by
    intro c member
    obtain ⟨original, found, rfl⟩ := List.mem_map.mp member
    exact ⟨toLower_isAlphanum (List.mem_filter.mp found).2, Char.toLower_toLower_eq_toLower original⟩
  simp only [normalizeKey, String.toList_ofList]
  rw [List.filter_eq_self.mpr fun c member => (kept c member).1]
  congr 1
  conv_rhs => rw [← List.map_id ((key.toList.filter Char.isAlphanum).map Char.toLower)]
  exact List.map_congr_left fun c member => (kept c member).2

namespace RedactionPolicy

/-- Custom names that are already in the form keys are compared in. -/
def Normalized (policy : RedactionPolicy) : Prop :=
  ∀ key ∈ policy.customKeys, normalizeKey key = key ∧ key ≠ ""

theorem fromName_customKeys {name : String} {policy : RedactionPolicy}
    (named : fromName name = some policy) : policy.customKeys = [] := by
  unfold fromName at named
  split at named <;> cases named <;> rfl

theorem fromCli_normalized {name : String} {extraKeys : List String} {policy : RedactionPolicy}
    (built : fromCli name extraKeys = .ok policy) : policy.Normalized := by
  unfold fromCli at built
  cases named : fromName name with
  | none => simp [named] at built
  | some base =>
      simp only [named] at built
      split_ifs at built
      · obtain rfl := Except.ok.inj built
        simp [Normalized, fromName_customKeys named]
      · obtain rfl := Except.ok.inj built
        intro key member
        have sorted := (List.destutter_sublist _ _).subset member
        rw [List.mem_insertionSort] at sorted
        obtain ⟨found, nonempty⟩ := List.mem_filter.mp sorted
        obtain ⟨original, -, rfl⟩ := List.mem_map.mp found
        exact ⟨normalizeKey_normalizeKey original, by simpa using nonempty⟩

/-- The keys of a policy that a command line configured, as that function left them. -/
theorem fromCli_custom {name : String} {extraKeys : List String} {policy : RedactionPolicy}
    (built : fromCli name extraKeys = .ok policy) : policy = .none ∨ policy = .default ∨
      ∃ keys ≠ [], policy = .custom ((keys.insertionSort (· ≤ ·)).destutter (· ≠ ·)) ∧
        (keys.insertionSort (· ≤ ·)).destutter (· ≠ ·) ≠ [] := by
  unfold fromCli at built
  cases named : fromName name with
  | none => simp [named] at built
  | some base =>
      simp only [named] at built
      split_ifs at built with plain active nonempty
      · obtain rfl := Except.ok.inj built
        unfold fromName at named
        split at named <;> cases named
        · exact .inl rfl
        · exact .inr (.inl rfl)
      · obtain rfl := Except.ok.inj built
        refine .inr (.inr ⟨(extraKeys.map normalizeKey).filter (· ≠ ""), fun empty => ?_, rfl, nonempty⟩)
        exact nonempty (by rw [empty]; rfl)

/-- What the stored columns of a configured policy read back as. -/
theorem fromStorage_asStr {name : String} {extraKeys : List String} {policy : RedactionPolicy}
    (built : fromCli name extraKeys = .ok policy) :
    fromStorage policy.asStr policy.customKeys = .ok policy := by
  have normalized := fromCli_normalized built
  rcases fromCli_custom built with rfl | rfl | ⟨keys, -, rfl, nonempty⟩
  · rfl
  · rfl
  simp only [Normalized, customKeys] at normalized
  set stored := (keys.insertionSort (· ≤ ·)).destutter (· ≠ ·) with storedEq
  have mapped : stored.map normalizeKey = stored :=
    (List.map_congr_left fun key member => (normalized key member).1).trans (List.map_id' _)
  have kept : stored.filter (· ≠ "") = stored :=
    List.filter_eq_self.mpr fun key member => by simpa using (normalized key member).2
  have sorted : stored.insertionSort (· ≤ ·) = stored :=
    ((List.pairwise_insertionSort (· ≤ ·) keys).sublist (List.destutter_sublist _ _)).insertionSort_eq
  have distinct : stored.destutter (· ≠ ·) = stored :=
    List.destutter_of_isChain _ _ (List.isChain_destutter _ _)
  simp only [fromStorage, asStr, customKeys, fromCli, fromName, nonempty, mapped, kept, sorted, distinct,
    if_false, ne_eq, not_true_eq_false]

/-- A stored name names the policy that is read back from it. -/
theorem asStr_of_fromStorage {name : String} {extraKeys : List String} {policy : RedactionPolicy}
    (stored : fromStorage name extraKeys = .ok policy) : policy.asStr = name := by
  unfold fromStorage at stored
  split at stored
  · split_ifs at stored
    obtain rfl := Except.ok.inj stored
    rfl
  · split_ifs at stored
    obtain rfl := Except.ok.inj stored
    rfl
  · split_ifs at stored with some_
    simp only [fromCli, fromName, some_, if_false, ne_eq, not_true_eq_false] at stored
    split_ifs at stored
    obtain rfl := Except.ok.inj stored
    rfl
  · cases stored

theorem Built.normalized {policy : RedactionPolicy} (built : policy.Built) : policy.Normalized := by
  obtain ⟨name, extraKeys, cli | storage⟩ := built
  · exact fromCli_normalized cli
  · unfold fromStorage at storage
    split at storage
    · split_ifs at storage
      obtain rfl := Except.ok.inj storage
      simp [Normalized, customKeys]
    · split_ifs at storage
      obtain rfl := Except.ok.inj storage
      simp [Normalized, customKeys]
    · split_ifs at storage
      exact fromCli_normalized storage
    · cases storage

end RedactionPolicy

end McpTracer.Redact
