import McpTracer.Redact.Validator

/-! What the validator accepts is left alone by redaction.

The validator only ever adds keys. So if it ends with the keys it started with, then no step of
its walk added one, and the redactor, which takes the same walk, has nothing to rewrite.
-/

set_option autoImplicit false

namespace McpTracer.Redact
open McpTracer.Json

/-! ## Loops side by side -/

section Loops
variable {A : Type}

/-- Collecting keeps all keys, and if it adds none then rewriting changes nothing. -/
def Watches (rewrite : A → A) (collect : A → List String → List String) (x : A) : Prop :=
  ∀ keys, keys <+: collect x keys ∧ (collect x keys = keys → rewrite x = x)

theorem watches_of_silent {rewrite : A → A} {collect : A → List String → List String} {x : A}
    (same : rewrite x = x) (silent : ∀ keys, collect x keys = keys) : Watches rewrite collect x :=
  fun keys => ⟨(silent keys).symm ▸ List.prefix_rfl, fun _ => same⟩

/-- A loop that adds nothing in the end adds nothing in any round. -/
theorem foldl_watches {rewrite : A → A} {collect : A → List String → List String} {xs : List A}
    (each : ∀ x ∈ xs, Watches rewrite collect x) :
    Watches (List.map rewrite) (fun xs keys => xs.foldl (fun keys x => collect x keys) keys) xs := by
  induction xs with
  | nil => exact watches_of_silent rfl fun _ => rfl
  | cons x rest ih =>
    obtain ⟨head, tail⟩ := List.forall_mem_cons.1 each
    intro keys
    obtain ⟨grows, fixes⟩ := head keys
    obtain ⟨restGrows, restFixes⟩ := ih tail (collect x keys)
    refine ⟨grows.trans restGrows, fun still => ?_⟩
    have final : rest.foldl (fun keys x => collect x keys) (collect x keys) = keys := still
    have quietHead : collect x keys = keys := by
      have back : collect x keys <+: keys := by
        dsimp only at restGrows
        rwa [final] at restGrows
      exact (grows.eq_of_length_le back.length_le).symm
    have quietRest : rest.foldl (fun keys x => collect x keys) (collect x keys) = collect x keys :=
      final.trans quietHead.symm
    rw [List.map_cons, fixes quietHead, restFixes quietRest]

/-- A loop over the members of an object. -/
theorem fields_watches (rewrite : String → A → A) (collect : String → A → List String → List String)
    {fields : List (String × A)} (each : ∀ field ∈ fields, Watches (rewrite field.1) (collect field.1) field.2) :
    Watches (List.map fun field => (field.1, rewrite field.1 field.2))
      (fun fields keys => fields.foldl (fun keys field => collect field.1 field.2 keys) keys) fields := by
  refine foldl_watches fun field member keys => ?_
  obtain ⟨grows, fixes⟩ := each field member keys
  exact ⟨grows, fun still => Prod.ext rfl (fixes still)⟩

/-- The same for steps that hand on a value and a state. -/
def WatchesStep (first : A → Unit → A × Unit) (second : A → List String → A × List String) (x : A) : Prop :=
  ∀ keys, keys <+: (second x keys).2 ∧ ((second x keys).2 = keys → (first x ()).1 = x)

theorem watchesStep_of_silent {first : A → Unit → A × Unit} {second : A → List String → A × List String} {x : A}
    (same : (first x ()).1 = x) (silent : ∀ keys, (second x keys).2 = keys) : WatchesStep first second x :=
  fun keys => ⟨(silent keys).symm ▸ List.prefix_rfl, fun _ => same⟩

theorem sweep_watches {first : A → Unit → A × Unit} {second : A → List String → A × List String} {xs : List A}
    (each : ∀ x ∈ xs, WatchesStep first second x) : WatchesStep (sweep first) (sweep second) xs := by
  have collected : ∀ keys, (sweep second xs keys).2 = xs.foldl (fun keys x => (second x keys).2) keys := by
    clear each
    induction xs with
    | nil => exact fun _ => rfl
    | cons x rest ih => exact fun keys => ih _
  intro keys
  rw [collected keys, sweep_fst]
  exact @foldl_watches A (fun x => (first x ()).1) (fun x keys => (second x keys).2) xs each keys

theorem named_watches {first : String → Value → Unit → Value × Unit}
    {second : String → Value → List String → Value × List String} {field : String × Value}
    (watches : WatchesStep (first field.1) (second field.1) field.2) :
    WatchesStep (named first) (named second) field := by
  intro keys
  obtain ⟨grows, fixes⟩ := watches keys
  exact ⟨grows, fun still => Prod.ext rfl (fixes still)⟩

end Loops

/-! ## Schemas -/

section Schemas
variable {isSensitive : String → Bool} {rewrite : String → Value → Value}
  {visit : String → Value → List String → Value × List String}

/-- Every part of the schema walk, at one value. -/
structure Watched (isSensitive : String → Bool) (rewrite : String → Value → Value)
    (visit : String → Value → List String → Value × List String) (value : Value) : Prop where
  schema : WatchesStep (walkSchema isSensitive (rewriting rewrite)) (walkSchema isSensitive visit) value
  nameMap : WatchesStep (walkNameMap isSensitive (rewriting rewrite)) (walkNameMap isSensitive visit) value
  schemaArray : ∀ key, WatchesStep (walkSchemaArray isSensitive (rewriting rewrite) key)
    (walkSchemaArray isSensitive visit key) value
  dependencies : ∀ key, WatchesStep (walkDependencies isSensitive (rewriting rewrite) key)
    (walkDependencies isSensitive visit key) value

variable (watches : ∀ key value, WatchesStep (rewriting rewrite key) (visit key) value)

include watches

theorem walkMember_watches {child : Value} (watched : Watched isSensitive rewrite visit child) (key : String) :
    WatchesStep (walkMember isSensitive (rewriting rewrite) key) (walkMember isSensitive visit key) child := by
  intro keys
  unfold walkMember
  split_ifs
  · exact watches key child keys
  · exact watched.nameMap keys
  · exact watched.schema keys
  · exact watched.schemaArray key keys
  · exact watched.dependencies key keys
  · exact watches key child keys

theorem walkDefinition_watches {definition : Value} (watched : Watched isSensitive rewrite visit definition)
    (name : String) : WatchesStep (walkDefinition isSensitive (rewriting rewrite) name)
      (walkDefinition isSensitive visit name) definition := by
  intro keys
  unfold walkDefinition
  split_ifs
  · exact watched.schema keys
  · exact watches name definition keys

theorem walkDependency_watches {definition : Value} (watched : Watched isSensitive rewrite visit definition)
    (key name : String) : WatchesStep (walkDependency isSensitive (rewriting rewrite) key name)
      (walkDependency isSensitive visit key name) definition := by
  intro keys
  unfold walkDependency
  split_ifs
  · exact ⟨List.prefix_rfl, fun _ => rfl⟩
  · exact watched.schema keys
  · exact watches name definition keys

theorem walkSchema_watches_plain {value : Value} (plain : isSchema value = false) :
    WatchesStep (walkSchema isSensitive (rewriting rewrite)) (walkSchema isSensitive visit) value := by
  intro keys
  rw [walkSchema_plain _ plain, walkSchema_plain _ plain]
  exact watches "" value keys

theorem watched (value : Value) : Watched isSensitive rewrite visit value := by
  induction value using Value.children with
  | array items ih =>
    refine ⟨walkSchema_watches_plain watches rfl, watchesStep_of_silent rfl fun _ => rfl, fun key keys => ?_,
      fun _ => watchesStep_of_silent rfl fun _ => rfl⟩
    have each := sweep_watches fun item member => walkDefinition_watches watches (ih item member) key
    obtain ⟨grows, fixes⟩ := each keys
    simp only [walkSchemaArray, walkSchemaItems_eq_sweep]
    exact ⟨grows, fun still => congrArg Value.array (fixes still)⟩
  | object fields ih =>
    refine ⟨fun keys => ?_, fun keys => ?_, fun _ => watchesStep_of_silent rfl fun _ => rfl, fun key keys => ?_⟩
    · have each := sweep_watches fun field member =>
        named_watches (walkMember_watches watches (ih field member) field.1)
      obtain ⟨grows, fixes⟩ := each keys
      simp only [walkSchema, walkSchemaMembers_eq_sweep]
      exact ⟨grows, fun still => congrArg Value.object (fixes still)⟩
    · have each := sweep_watches fun field member =>
        named_watches (walkDefinition_watches watches (ih field member) field.1)
      obtain ⟨grows, fixes⟩ := each keys
      simp only [walkNameMap, walkDefinitions_eq_sweep]
      exact ⟨grows, fun still => congrArg Value.object (fixes still)⟩
    · have each := sweep_watches fun field member =>
        named_watches (walkDependency_watches watches (ih field member) key field.1)
      obtain ⟨grows, fixes⟩ := each keys
      simp only [walkDependencies, walkDependencyMembers_eq_sweep]
      exact ⟨grows, fun still => congrArg Value.object (fixes still)⟩
  | bool b =>
    refine ⟨?_, ?_, fun _ => ?_, fun _ => ?_⟩ <;> exact watchesStep_of_silent rfl fun _ => rfl
  | null | number _ | string _ =>
    refine ⟨walkSchema_watches_plain watches rfl, ?_, fun _ => ?_, fun _ => ?_⟩ <;>
      exact watchesStep_of_silent rfl fun _ => rfl

end Schemas

/-! ## Payloads -/

section Payloads
variable (customKeys : List String)

theorem push_watches {value : Value}
    (inner : Watches (maskWalk (matchesPolicySensitiveKey · customKeys) fun _ => placeholder)
      (collectUnredactedSensitiveKeys customKeys) value) (key : String) :
    Watches (maskMember (matchesPolicySensitiveKey · customKeys) (fun _ => placeholder) key)
      (fun value keys => pushIfUnredacted key value customKeys keys) value := by
  intro keys
  unfold pushIfUnredacted maskMember
  by_cases sensitive : matchesPolicySensitiveKey key customKeys = true
  · by_cases masked : value.asStr = some redactedPlaceholder
    · have same : value = placeholder := by
        cases value <;> simp_all [Value.asStr, placeholder]
      simp only [sensitive, masked, if_true]
      exact ⟨List.prefix_rfl, fun _ => same.symm⟩
    · simp [sensitive, masked]
  · simpa only [sensitive, Bool.false_eq_true, if_false] using inner keys

theorem collect_watches (value : Value) :
    Watches (maskWalk (matchesPolicySensitiveKey · customKeys) fun _ => placeholder)
      (collectUnredactedSensitiveKeys customKeys) value := by
  induction value using Value.children with
  | array items ih =>
    intro keys
    obtain ⟨grows, fixes⟩ := foldl_watches (fun item member => ih item member) keys
    simp only [maskWalk, maskItems_eq_map, collectUnredactedSensitiveKeys, collectUnredactedItems_eq_foldl]
    exact ⟨grows, fun still => congrArg Value.array (fixes still)⟩
  | object fields ih =>
    intro keys
    obtain ⟨grows, fixes⟩ := fields_watches (maskMember (matchesPolicySensitiveKey · customKeys) fun _ => placeholder)
      (fun key value keys => pushIfUnredacted key value customKeys keys)
      (fun field member => push_watches customKeys (ih field member) field.1) keys
    simp only [maskWalk, maskFields_eq_map, collectUnredactedSensitiveKeys, collectUnredactedFields_eq_foldl]
    exact ⟨grows, fun still => congrArg Value.object (fixes still)⟩
  | _ => exact watches_of_silent rfl fun _ => rfl

theorem member_watches (key : String) (value : Value) :
    Watches (maskMember (matchesPolicySensitiveKey · customKeys) (fun _ => placeholder) key)
      (fun value keys => pushIfUnredacted key value customKeys keys) value :=
  push_watches customKeys (collect_watches customKeys value) key

theorem schema_watches (schema : Value) :
    Watches (maskSchema (matchesPolicySensitiveKey · customKeys) fun _ => placeholder)
      (fun schema keys => (walkSchema (matchesPolicySensitiveKey · customKeys)
        (fun key value keys => (value, pushIfUnredacted key value customKeys keys)) schema keys).2) schema :=
  (@watched (matchesPolicySensitiveKey · customKeys)
    (maskMember (matchesPolicySensitiveKey · customKeys) fun _ => placeholder)
    (fun key value keys => (value, pushIfUnredacted key value customKeys keys))
    (member_watches customKeys) schema).schema

/-! ### The members of a tool, a result and a message -/

def maskToolMember (key : String) (child : Value) : Value :=
  if matchesPolicySensitiveKey key customKeys then placeholder
  else if isMcpToolSchemaKey key then maskSchema (matchesPolicySensitiveKey · customKeys) (fun _ => placeholder) child
  else maskWalk (matchesPolicySensitiveKey · customKeys) (fun _ => placeholder) child

def collectToolMember (key : String) (child : Value) (keys : List String) : List String :=
  if isMcpToolSchemaKey key && !matchesPolicySensitiveKey key customKeys then
    (walkSchema (matchesPolicySensitiveKey · customKeys)
      (fun key value keys => (value, pushIfUnredacted key value customKeys keys)) child keys).2
  else pushIfUnredacted key child customKeys keys

theorem toolMember_watches (key : String) (child : Value) :
    Watches (maskToolMember customKeys key) (collectToolMember customKeys key) child := by
  have member := member_watches customKeys key child
  intro keys
  unfold maskToolMember collectToolMember
  by_cases sensitive : matchesPolicySensitiveKey key customKeys = true
  · simpa [maskMember, sensitive] using member keys
  by_cases schema : isMcpToolSchemaKey key = true
  · simpa [sensitive, schema] using schema_watches customKeys child keys
  · simpa [maskMember, sensitive, schema] using member keys

theorem toolDefinition_watches (tool : Value) :
    Watches (maskToolDefinition (matchesPolicySensitiveKey · customKeys) fun _ => placeholder)
      (collectUnredactedToolDefinition customKeys) tool := by
  cases tool with
  | object fields =>
    intro keys
    have each := fun (field : String × Value) (_ : field ∈ fields) => toolMember_watches customKeys field.1 field.2
    obtain ⟨grows, fixes⟩ := fields_watches _ _ each keys
    exact ⟨grows, fun still => congrArg Value.object (fixes still)⟩
  | _ => exact collect_watches customKeys _

def maskResultMember (key : String) (child : Value) : Value :=
  match key = "tools" && !matchesPolicySensitiveKey key customKeys, child with
  | true, .array tools =>
    .array (tools.map (maskToolDefinition (matchesPolicySensitiveKey · customKeys) fun _ => placeholder))
  | _, child => maskMember (matchesPolicySensitiveKey · customKeys) (fun _ => placeholder) key child

def collectResultMember (key : String) (child : Value) (keys : List String) : List String :=
  match key = "tools" && !matchesPolicySensitiveKey key customKeys, child with
  | true, .array tools =>
    tools.foldl (fun keys tool => collectUnredactedToolDefinition customKeys tool keys) keys
  | _, child => pushIfUnredacted key child customKeys keys

theorem resultMember_watches (key : String) (child : Value) :
    Watches (maskResultMember customKeys key) (collectResultMember customKeys key) child := by
  have member := member_watches customKeys key child
  intro keys
  unfold maskResultMember collectResultMember
  cases listing : (key = "tools" && !matchesPolicySensitiveKey key customKeys) with
  | false => exact member keys
  | true =>
    cases child with
    | array tools =>
      obtain ⟨grows, fixes⟩ := foldl_watches (fun tool (_ : tool ∈ tools) => toolDefinition_watches customKeys tool) keys
      exact ⟨grows, fun still => congrArg Value.array (fixes still)⟩
    | _ => exact member keys

theorem result_watches (result : Value) :
    Watches (maskResult (matchesPolicySensitiveKey · customKeys) fun _ => placeholder)
      (collectUnredactedResult customKeys) result := by
  cases result with
  | object fields =>
    intro keys
    have each := fun (field : String × Value) (_ : field ∈ fields) => resultMember_watches customKeys field.1 field.2
    obtain ⟨grows, fixes⟩ := fields_watches _ _ each keys
    exact ⟨grows, fun still => congrArg Value.object (fixes still)⟩
  | _ => exact collect_watches customKeys _

def maskMessageMember (context : RedactionContext) (key : String) (child : Value) : Value :=
  if matchesPolicySensitiveKey key customKeys then placeholder
  else if key = "result" && decide (context = .toolListResponse) then
    maskResult (matchesPolicySensitiveKey · customKeys) (fun _ => placeholder) child
  else maskWalk (matchesPolicySensitiveKey · customKeys) (fun _ => placeholder) child

def collectMessageMember (context : RedactionContext) (key : String) (child : Value) (keys : List String) :
    List String :=
  if key = "result" && decide (context = .toolListResponse) && !matchesPolicySensitiveKey key customKeys then
    collectUnredactedResult customKeys child keys
  else pushIfUnredacted key child customKeys keys

theorem messageMember_watches (context : RedactionContext) (key : String) (child : Value) :
    Watches (maskMessageMember customKeys context key) (collectMessageMember customKeys context key) child := by
  have member := member_watches customKeys key child
  intro keys
  unfold maskMessageMember collectMessageMember
  by_cases sensitive : matchesPolicySensitiveKey key customKeys = true
  · simpa [maskMember, sensitive] using member keys
  by_cases result : (key = "result" && decide (context = .toolListResponse)) = true
  · simpa [sensitive, result] using result_watches customKeys child keys
  · simpa [maskMember, sensitive, result] using member keys

theorem message_watches (context : RedactionContext) (message : Value) :
    Watches (maskMessage (matchesPolicySensitiveKey · customKeys) (fun _ => placeholder) context)
      (collectUnredactedMessage customKeys context) message := by
  cases message with
  | object fields =>
    intro keys
    have each := fun (field : String × Value) (_ : field ∈ fields) =>
      messageMember_watches customKeys context field.1 field.2
    obtain ⟨grows, fixes⟩ := fields_watches _ _ each keys
    exact ⟨grows, fun still => congrArg Value.object (fixes still)⟩
  | _ => exact collect_watches customKeys _

end Payloads

/-- A payload in which the validator finds nothing is its own redaction. -/
theorem redactWithContext_eq_self {policy : RedactionPolicy} (built : policy.Built) {value : Value}
    {context : RedactionContext} (clean : unredactedSensitiveKeysWithContext value policy context = []) :
    (Redactor.new policy).redactWithContext value context = value := by
  unfold Redactor.redactWithContext
  split_ifs with active
  · have redacting : policy ≠ .none := by simpa [Redactor.isActive, Redactor.new] using active
    have sensitive : (Redactor.new policy).isSensitiveKey = (matchesPolicySensitiveKey · policy.customKeys) := by
      funext key
      rw [Redactor.isSensitiveKey, new_customKeys built.normalized]
    have collected : collectUnredactedMessage policy.customKeys context value [] = [] := by
      simp only [unredactedSensitiveKeysWithContext, redacting, if_false, List.destutter_eq_nil] at clean
      have sorted := List.perm_insertionSort (· ≤ ·) (collectUnredactedMessage policy.customKeys context value [])
      rw [clean] at sorted
      exact List.nil_perm.1 sorted
    rw [Redactor.walkMessage, sensitive]
    exact (message_watches policy.customKeys context value []).2 collected
  · rfl

end McpTracer.Redact
