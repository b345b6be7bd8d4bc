import McpTracer.Redact.Redactor

/-! The validator's mirror of the redaction walk.

It collects the sensitive keys whose values are not the placeholder. The schema
walk is the same function with another visitor, so the two cannot take different
branches unless rewriting a value changes the shape a branch is chosen by. The
schema lemma below is about that: a visitor finds nothing in a rewritten schema
when rewriting keeps the shape of every value it does not mask.
-/

set_option autoImplicit false

namespace McpTracer.Redact
open McpTracer.Json

mutual
def collectUnredactedSensitiveKeys (customKeys : List String) : Value → List String → List String
  | .object map, keys => collectUnredactedFields customKeys map keys
  | .array items, keys => collectUnredactedItems customKeys items keys
  | _, keys => keys
def collectUnredactedFields (customKeys : List String) :
    List (String × Value) → List String → List String
  | [], keys => keys
  | (key, child) :: rest, keys => collectUnredactedFields customKeys rest <|
      if matchesPolicySensitiveKey key customKeys then
        if child.asStr = some redactedPlaceholder then keys else keys ++ [key]
      else collectUnredactedSensitiveKeys customKeys child keys
def collectUnredactedItems (customKeys : List String) : List Value → List String → List String
  | [], keys => keys
  | item :: rest, keys => collectUnredactedItems customKeys rest <|
      collectUnredactedSensitiveKeys customKeys item keys
end

def pushIfUnredacted (key : String) (child : Value) (customKeys keys : List String) : List String :=
  if matchesPolicySensitiveKey key customKeys then
    if child.asStr = some redactedPlaceholder then keys else keys ++ [key]
  else collectUnredactedSensitiveKeys customKeys child keys

/-- The only place `inputSchema` and `outputSchema` are exempt. -/
def collectUnredactedToolDefinition (customKeys : List String) :
    Value → List String → List String
  | .object tool, keys => tool.foldl (fun keys (key, child) =>
      if isMcpToolSchemaKey key && !matchesPolicySensitiveKey key customKeys then
        (walkSchema (matchesPolicySensitiveKey · customKeys)
          (fun key value keys => (value, pushIfUnredacted key value customKeys keys)) child keys).2
      else pushIfUnredacted key child customKeys keys) keys
  | value, keys => collectUnredactedSensitiveKeys customKeys value keys

def collectUnredactedResult (customKeys : List String) : Value → List String → List String
  | .object result, keys => result.foldl (fun keys (key, child) =>
      match key = "tools" && !matchesPolicySensitiveKey key customKeys, child with
      | true, .array tools =>
        tools.foldl (fun keys tool => collectUnredactedToolDefinition customKeys tool keys) keys
      | _, child => pushIfUnredacted key child customKeys keys) keys
  | value, keys => collectUnredactedSensitiveKeys customKeys value keys

def collectUnredactedMessage (customKeys : List String) (context : RedactionContext) :
    Value → List String → List String
  | .object top, keys => top.foldl (fun keys (key, child) =>
      if key = "result" && decide (context = .toolListResponse) &&
          !matchesPolicySensitiveKey key customKeys then
        collectUnredactedResult customKeys child keys
      else pushIfUnredacted key child customKeys keys) keys
  | value, keys => collectUnredactedSensitiveKeys customKeys value keys

/-- The keys whose values `policy` should have masked, sorted and without repetition. -/
def unredactedSensitiveKeysWithContext (value : Value) (policy : RedactionPolicy)
    (context : RedactionContext) : List String :=
  if policy = .none then []
  else
    let keys := collectUnredactedMessage policy.customKeys context value []
    (keys.insertionSort (· ≤ ·)).destutter (· ≠ ·)

def unredactedSensitiveKeys (value : Value) (policy : RedactionPolicy) : List String :=
  unredactedSensitiveKeysWithContext value policy .runtime

/-! ## The walks as maps -/

section Walk
variable (isSensitive : String → Bool) (mask : Value → Value)

theorem maskItems_eq_map (items : List Value) :
    maskItems isSensitive mask items = items.map (maskWalk isSensitive mask) := by
  induction items with
  | nil => rfl
  | cons item rest ih => simp [maskItems, ih]

theorem maskFields_eq_map (fields : List (String × Value)) :
    maskFields isSensitive mask fields =
      fields.map fun field => (field.1, maskMember isSensitive mask field.1 field.2) := by
  induction fields with
  | nil => rfl
  | cons field rest ih => simp [maskFields, maskMember, ih]

/-- The container tests by which a schema walk chooses a branch. -/
structure SameShape (v w : Value) : Prop where
  isObject : w.isObject = v.isObject
  isBoolean : w.isBoolean = v.isBoolean
  isArray : w.isArray = v.isArray

theorem SameShape.isSchema {v w : Value} (same : SameShape v w) : isSchema w = isSchema v := by
  simp [Redact.isSchema, same.isObject, same.isBoolean]

theorem maskWalk_sameShape (v : Value) : SameShape v (maskWalk isSensitive mask v) := by
  cases v <;> exact ⟨rfl, rfl, rfl⟩

theorem maskWalk_isString (v : Value) : (maskWalk isSensitive mask v).isString = v.isString := by
  cases v <;> rfl

theorem maskWalk_isNameArray (v : Value) :
    isNameArray (maskWalk isSensitive mask v) = isNameArray v := by
  cases v with
  | array items =>
      simp [maskWalk, isNameArray, maskItems_eq_map, List.all_map, Function.comp_def, maskWalk_isString]
  | _ => rfl

end Walk

theorem collectUnredactedFields_eq_foldl (customKeys : List String) (fields : List (String × Value))
    (keys : List String) : collectUnredactedFields customKeys fields keys =
      fields.foldl (fun keys field => pushIfUnredacted field.1 field.2 customKeys keys) keys := by
  induction fields generalizing keys with
  | nil => rfl
  | cons field rest ih => simp only [collectUnredactedFields, List.foldl_cons, ih, pushIfUnredacted]

theorem collectUnredactedItems_eq_foldl (customKeys : List String) (items : List Value)
    (keys : List String) : collectUnredactedItems customKeys items keys =
      items.foldl (fun keys item => collectUnredactedSensitiveKeys customKeys item keys) keys := by
  induction items generalizing keys with
  | nil => rfl
  | cons item rest ih => simp only [collectUnredactedItems, List.foldl_cons, ih]

/-- A loop whose every step leaves the state alone leaves it alone. -/
theorem foldl_fixed {A S : Type} (step : S → A → S) (xs : List A) (state : S)
    (fixed : ∀ x ∈ xs, step state x = state) : xs.foldl step state = state := by
  induction xs with
  | nil => rfl
  | cons x rest ih =>
      rw [List.foldl_cons, fixed x List.mem_cons_self]
      exact ih fun y member => fixed y (List.mem_cons_of_mem _ member)

/-! ## A rewritten schema holds nothing for the visitor -/

section Schema
variable {σ : Type} {isSensitive : String → Bool} {rewrite : String → Value → Value}
  {visit : String → Value → σ → Value × σ}

/-- A visitor finds nothing in rewritten values, and rewriting keeps the shape of what it does not mask. -/
structure Settled (isSensitive : String → Bool) (rewrite : String → Value → Value)
    (visit : String → Value → σ → Value × σ) : Prop where
  quiet : ∀ key value state, (visit key (rewrite key value) state).2 = state
  masked : ∀ key value, isSensitive key = true → ∃ text, rewrite key value = .string text
  shape : ∀ key value, isSensitive key = false → SameShape value (rewrite key value)
  names : ∀ key value, isSensitive key = false → isNameArray (rewrite key value) = isNameArray value

/-- The schema walk that only rewrites. -/
def rewriting (rewrite : String → Value → Value) (key : String) (value : Value) (state : Unit) :
    Value × Unit := (rewrite key value, state)

/-- A loop that rewrites the elements of a list from left to right with a state. -/
def sweep {A S : Type} (round : A → S → A × S) : List A → S → List A × S
  | [], state => ([], state)
  | x :: rest, state =>
    let walked := round x state
    let others := sweep round rest walked.2
    (walked.1 :: others.1, others.2)

theorem sweep_quiet {A S : Type} (first : A → Unit → A × Unit) (second : A → S → A × S) (xs : List A)
    (quiet : ∀ x ∈ xs, ∀ state, (second (first x ()).1 state).2 = state) (state : S) :
    (sweep second (sweep first xs ()).1 state).2 = state := by
  induction xs generalizing state with
  | nil => rfl
  | cons x rest ih =>
      simp only [sweep, quiet x List.mem_cons_self]
      exact ih (fun y member => quiet y (List.mem_cons_of_mem _ member)) state

theorem sweep_fst {A : Type} (round : A → Unit → A × Unit) (xs : List A) :
    (sweep round xs ()).1 = xs.map fun x => (round x ()).1 := by
  induction xs with
  | nil => rfl
  | cons x rest ih => simp only [sweep, List.map_cons, ih]

/-- The round of each loop of the schema walk, as a walk of one named child. -/
def named {S : Type} (round : String → Value → S → Value × S) (field : String × Value) (state : S) :
    (String × Value) × S :=
  let walked := round field.1 field.2 state
  ((field.1, walked.1), walked.2)

def walkMember (isSensitive : String → Bool) (visit : String → Value → σ → Value × σ)
    (key : String) (child : Value) (state : σ) : Value × σ :=
  if isSensitive key then visit key child state
  else if nameMapKeywords.contains key && child.isObject then walkNameMap isSensitive visit child state
  else if subschemaKeywords.contains key && isSchema child then walkSchema isSensitive visit child state
  else if schemaArrayKeywords.contains key && child.isArray then
    walkSchemaArray isSensitive visit key child state
  else if dependencyKeywords.contains key && child.isObject then
    walkDependencies isSensitive visit key child state
  else visit key child state

def walkDefinition (isSensitive : String → Bool) (visit : String → Value → σ → Value × σ)
    (name : String) (definition : Value) (state : σ) : Value × σ :=
  if isSchema definition then walkSchema isSensitive visit definition state
  else visit name definition state

def walkDependency (isSensitive : String → Bool) (visit : String → Value → σ → Value × σ)
    (key name : String) (definition : Value) (state : σ) : Value × σ :=
  if isNameArray definition then (definition, state)
  else if key = "dependencies" && isSchema definition then
    walkSchema isSensitive visit definition state
  else visit name definition state

theorem walkSchemaMembers_eq_sweep (visit : String → Value → σ → Value × σ)
    (fields : List (String × Value)) (state : σ) :
    walkSchemaMembers isSensitive visit fields state =
      sweep (named (walkMember isSensitive visit)) fields state := by
  induction fields generalizing state with
  | nil => rfl
  | cons field rest ih => simp only [walkSchemaMembers, sweep, named, walkMember, ih]

theorem walkDefinitions_eq_sweep (visit : String → Value → σ → Value × σ)
    (fields : List (String × Value)) (state : σ) :
    walkDefinitions isSensitive visit fields state =
      sweep (named (walkDefinition isSensitive visit)) fields state := by
  induction fields generalizing state with
  | nil => rfl
  | cons field rest ih => simp only [walkDefinitions, sweep, named, walkDefinition, ih]

theorem walkSchemaItems_eq_sweep (visit : String → Value → σ → Value × σ) (key : String)
    (items : List Value) (state : σ) : walkSchemaItems isSensitive visit key items state =
      sweep (walkDefinition isSensitive visit key) items state := by
  induction items generalizing state with
  | nil => rfl
  | cons item rest ih => simp only [walkSchemaItems, sweep, walkDefinition, ih]

theorem walkDependencyMembers_eq_sweep (visit : String → Value → σ → Value × σ) (key : String)
    (fields : List (String × Value)) (state : σ) :
    walkDependencyMembers isSensitive visit key fields state =
      sweep (named (walkDependency isSensitive visit key)) fields state := by
  induction fields generalizing state with
  | nil => rfl
  | cons field rest ih => simp only [walkDependencyMembers, sweep, named, walkDependency, ih]

/-- Every walk finds nothing in a value after the rewriting walk of the same kind. -/
structure Quiet (isSensitive : String → Bool) (rewrite : String → Value → Value)
    (visit : String → Value → σ → Value × σ) (value : Value) : Prop where
  schema : ∀ state, (walkSchema isSensitive visit
    (walkSchema isSensitive (rewriting rewrite) value ()).1 state).2 = state
  nameMap : ∀ state, (walkNameMap isSensitive visit
    (walkNameMap isSensitive (rewriting rewrite) value ()).1 state).2 = state
  schemaArray : ∀ key state, (walkSchemaArray isSensitive visit key
    (walkSchemaArray isSensitive (rewriting rewrite) key value ()).1 state).2 = state
  dependencies : ∀ key state, (walkDependencies isSensitive visit key
    (walkDependencies isSensitive (rewriting rewrite) key value ()).1 state).2 = state

theorem walkSchema_sameShape (isSensitive : String → Bool) (visit : String → Value → σ → Value × σ)
    {value : Value} (schema : isSchema value = true) (state : σ) :
    SameShape value (walkSchema isSensitive visit value state).1 := by
  cases value with
  | object fields => exact ⟨rfl, rfl, rfl⟩
  | bool b => exact ⟨rfl, rfl, rfl⟩
  | _ => cases schema

/-- The three walks of a container keep it a container of its kind. -/
theorem container_sameShape (isSensitive : String → Bool) (visit : String → Value → σ → Value × σ)
    (key : String) (value : Value) (state : σ) : SameShape value (walkNameMap isSensitive visit value state).1 ∧
      SameShape value (walkSchemaArray isSensitive visit key value state).1 ∧
      SameShape value (walkDependencies isSensitive visit key value state).1 := by
  cases value <;> exact ⟨⟨rfl, rfl, rfl⟩, ⟨rfl, rfl, rfl⟩, ⟨rfl, rfl, rfl⟩⟩

theorem walkMember_quiet (settled : Settled isSensitive rewrite visit) {child : Value}
    (quiet : Quiet isSensitive rewrite visit child) (key : String) (state : σ) :
    (walkMember isSensitive visit key
      (walkMember isSensitive (rewriting rewrite) key child ()).1 state).2 = state := by
  obtain ⟨nameMapShape, arrayShape, dependencyShape⟩ :=
    container_sameShape isSensitive (rewriting rewrite) key child ()
  by_cases sensitive : isSensitive key = true
  · simp [walkMember, sensitive, rewriting, settled.quiet]
  simp only [Bool.not_eq_true] at sensitive
  by_cases nameMap : (nameMapKeywords.contains key && child.isObject) = true
  · simpa only [walkMember, sensitive, nameMap, nameMapShape.isObject, Bool.false_eq_true, if_false,
      if_true] using quiet.nameMap state
  by_cases subschema : (subschemaKeywords.contains key && isSchema child) = true
  · have schema := (Bool.and_eq_true_iff.mp subschema).2
    have shape := walkSchema_sameShape isSensitive (rewriting rewrite) schema ()
    simpa only [walkMember, sensitive, nameMap, subschema, shape.isObject, shape.isSchema,
      Bool.false_eq_true, if_false, if_true] using quiet.schema state
  by_cases array : (schemaArrayKeywords.contains key && child.isArray) = true
  · simpa only [walkMember, sensitive, nameMap, subschema, array, arrayShape.isObject,
      arrayShape.isSchema, arrayShape.isArray, Bool.false_eq_true, if_false, if_true] using
      quiet.schemaArray key state
  by_cases dependency : (dependencyKeywords.contains key && child.isObject) = true
  · simpa only [walkMember, sensitive, nameMap, subschema, array, dependency, dependencyShape.isObject,
      dependencyShape.isSchema, dependencyShape.isArray, Bool.false_eq_true, if_false, if_true] using
      quiet.dependencies key state
  have shape := settled.shape key child sensitive
  simp only [walkMember, sensitive, nameMap, subschema, array, dependency, rewriting, shape.isObject,
    shape.isSchema, shape.isArray, Bool.false_eq_true, if_false, settled.quiet]

/-- What is no schema stays no schema: it is masked by a string or keeps its shape. -/
theorem rewrite_isSchema (settled : Settled isSensitive rewrite visit) (key : String) {value : Value}
    (plain : isSchema value = false) : isSchema (rewrite key value) = false := by
  by_cases sensitive : isSensitive key = true
  · obtain ⟨text, same⟩ := settled.masked key value sensitive
    rw [same]
    rfl
  · rw [(settled.shape key value (by simpa using sensitive)).isSchema, plain]

theorem rewrite_isNameArray (settled : Settled isSensitive rewrite visit) (key : String)
    {value : Value} (plain : isNameArray value = false) : isNameArray (rewrite key value) = false := by
  by_cases sensitive : isSensitive key = true
  · obtain ⟨text, same⟩ := settled.masked key value sensitive
    rw [same]
    rfl
  · rw [settled.names key value (by simpa using sensitive), plain]

theorem walkDefinition_quiet (settled : Settled isSensitive rewrite visit) {definition : Value}
    (quiet : Quiet isSensitive rewrite visit definition) (name : String) (state : σ) :
    (walkDefinition isSensitive visit name
      (walkDefinition isSensitive (rewriting rewrite) name definition ()).1 state).2 = state := by
  by_cases schema : isSchema definition = true
  · have shape := walkSchema_sameShape isSensitive (rewriting rewrite) schema ()
    simpa only [walkDefinition, schema, shape.isSchema, if_true] using quiet.schema state
  · have plain := rewrite_isSchema settled name (by simpa using schema)
    simp only [walkDefinition, schema, plain, rewriting, Bool.false_eq_true, if_false, settled.quiet]

theorem walkDependency_quiet (settled : Settled isSensitive rewrite visit) {definition : Value}
    (quiet : Quiet isSensitive rewrite visit definition) (key name : String) (state : σ) :
    (walkDependency isSensitive visit key name
      (walkDependency isSensitive (rewriting rewrite) key name definition ()).1 state).2 = state := by
  by_cases names : isNameArray definition = true
  · simp [walkDependency, names]
  by_cases schema : (key = "dependencies" && isSchema definition) = true
  · have isSchemaTrue := (Bool.and_eq_true_iff.mp schema).2
    have shape := walkSchema_sameShape isSensitive (rewriting rewrite) isSchemaTrue ()
    have noNames : isNameArray
        (walkSchema isSensitive (rewriting rewrite) definition ()).1 = false := by
      cases definition <;> first | rfl | cases isSchemaTrue
    simpa only [walkDependency, names, schema, noNames, shape.isSchema, Bool.false_eq_true, if_false,
      if_true] using quiet.schema state
  have noNames := rewrite_isNameArray settled name (by simpa using names)
  have plain : (key = "dependencies" && isSchema (rewrite name definition)) = false := by
    by_cases keyword : key = "dependencies"
    · have notSchema : isSchema definition = false := by simpa [keyword] using schema
      simp [rewrite_isSchema settled name notSchema]
    · simp [keyword]
  simp only [walkDependency, names, schema, noNames, plain, rewriting, Bool.false_eq_true, if_false,
    settled.quiet]

theorem walkSchema_plain (visit : String → Value → σ → Value × σ) {value : Value}
    (plain : isSchema value = false) (state : σ) :
    walkSchema isSensitive visit value state = visit "" value state := by
  cases value <;> first | rfl | cases plain

theorem walkSchema_quiet_plain (settled : Settled isSensitive rewrite visit) {value : Value}
    (plain : isSchema value = false) (state : σ) :
    (walkSchema isSensitive visit
      (walkSchema isSensitive (rewriting rewrite) value ()).1 state).2 = state := by
  rw [walkSchema_plain _ plain, rewriting, walkSchema_plain _ (rewrite_isSchema settled "" plain),
    settled.quiet]

theorem quiet (settled : Settled isSensitive rewrite visit) (value : Value) :
    Quiet isSensitive rewrite visit value := by
  induction value using Value.children with
  | array items ih =>
      refine ⟨walkSchema_quiet_plain settled rfl, fun _ => rfl, fun key state => ?_, fun _ _ => rfl⟩
      simp only [walkSchemaArray, walkSchemaItems_eq_sweep]
      exact sweep_quiet _ _ items (fun item member => walkDefinition_quiet settled (ih item member) key) state
  | object fields ih =>
      refine ⟨fun state => ?_, fun state => ?_, fun _ _ => rfl, fun key state => ?_⟩
      · simp only [walkSchema, walkSchemaMembers_eq_sweep]
        exact sweep_quiet _ _ fields
          (fun field member => walkMember_quiet settled (ih field member) field.1) state
      · simp only [walkNameMap, walkDefinitions_eq_sweep]
        exact sweep_quiet _ _ fields
          (fun field member => walkDefinition_quiet settled (ih field member) field.1) state
      · simp only [walkDependencies, walkDependencyMembers_eq_sweep]
        exact sweep_quiet _ _ fields
          (fun field member => walkDependency_quiet settled (ih field member) key field.1) state
  | bool b => exact ⟨fun _ => rfl, fun _ => rfl, fun _ _ => rfl, fun _ _ => rfl⟩
  | null => exact ⟨walkSchema_quiet_plain settled rfl, fun _ => rfl, fun _ _ => rfl, fun _ _ => rfl⟩
  | number n => exact ⟨walkSchema_quiet_plain settled rfl, fun _ => rfl, fun _ _ => rfl, fun _ _ => rfl⟩
  | string s => exact ⟨walkSchema_quiet_plain settled rfl, fun _ => rfl, fun _ _ => rfl, fun _ _ => rfl⟩

end Schema

/-! ## Redaction leaves nothing for the validator -/

section Agreement
variable (customKeys : List String)

theorem collect_maskWalk (value : Value) (keys : List String) :
    collectUnredactedSensitiveKeys customKeys
      (maskWalk (matchesPolicySensitiveKey · customKeys) (fun _ => placeholder) value) keys = keys := by
  induction value using Value.children generalizing keys with
  | array items ih =>
      simp only [maskWalk, maskItems_eq_map, collectUnredactedSensitiveKeys,
        collectUnredactedItems_eq_foldl, List.foldl_map]
      exact foldl_fixed _ _ _ fun item member => ih item member keys
  | object fields ih =>
      simp only [maskWalk, maskFields_eq_map, collectUnredactedSensitiveKeys,
        collectUnredactedFields_eq_foldl, List.foldl_map]
      refine foldl_fixed _ _ _ fun field member => ?_
      by_cases sensitive : matchesPolicySensitiveKey field.1 customKeys = true
      · simp [pushIfUnredacted, maskMember, sensitive, placeholder, Value.asStr]
      · simpa [pushIfUnredacted, maskMember, sensitive] using ih field member keys
  | _ => rfl

theorem push_maskMember (key : String) (value : Value) (keys : List String) :
    pushIfUnredacted key (maskMember (matchesPolicySensitiveKey · customKeys) (fun _ => placeholder)
      key value) customKeys keys = keys := by
  by_cases sensitive : matchesPolicySensitiveKey key customKeys = true
  · simp [pushIfUnredacted, maskMember, sensitive, placeholder, Value.asStr]
  · simpa [pushIfUnredacted, maskMember, sensitive] using collect_maskWalk customKeys value keys

/-- Masking is a rewriting the collecting visitor finds nothing in. -/
theorem maskMember_settled :
    Settled (matchesPolicySensitiveKey · customKeys)
      (maskMember (matchesPolicySensitiveKey · customKeys) fun _ => placeholder)
      (fun key value keys => (value, pushIfUnredacted key value customKeys keys)) where
  quiet := push_maskMember customKeys
  masked key value sensitive := ⟨redactedPlaceholder, by simp [maskMember, sensitive, placeholder]⟩
  shape key value plain := by
    simpa [maskMember, plain] using maskWalk_sameShape _ _ value
  names key value plain := by
    simpa [maskMember, plain] using maskWalk_isNameArray _ _ value

theorem collect_maskToolDefinition (tool : Value) (keys : List String) :
    collectUnredactedToolDefinition customKeys
      (maskToolDefinition (matchesPolicySensitiveKey · customKeys) (fun _ => placeholder) tool)
      keys = keys := by
  cases tool with
  | object fields =>
      simp only [maskToolDefinition, collectUnredactedToolDefinition, List.foldl_map]
      refine foldl_fixed _ _ _ fun field _ => ?_
      by_cases sensitive : matchesPolicySensitiveKey field.1 customKeys = true
      · simp [sensitive, pushIfUnredacted, placeholder, Value.asStr]
      by_cases schema : isMcpToolSchemaKey field.1 = true
      · simp only [sensitive, schema, Bool.not_false, Bool.and_true, Bool.false_eq_true, if_true,
          if_false]
        exact (quiet (maskMember_settled customKeys) field.2).schema keys
      · simpa [sensitive, schema, maskMember] using push_maskMember customKeys field.1 field.2 keys
  | _ => exact collect_maskWalk customKeys _ keys

theorem collect_maskResult (result : Value) (keys : List String) :
    collectUnredactedResult customKeys
      (maskResult (matchesPolicySensitiveKey · customKeys) (fun _ => placeholder) result) keys =
      keys := by
  cases result with
  | object fields =>
      simp only [maskResult, collectUnredactedResult, List.foldl_map]
      refine foldl_fixed _ _ _ fun field _ => ?_
      obtain ⟨key, child⟩ := field
      by_cases listing : (key = "tools" && !matchesPolicySensitiveKey key customKeys) = true
      · have walked := collect_maskWalk customKeys child keys
        cases child with
        | array tools =>
            simp only [listing, List.foldl_map]
            exact foldl_fixed _ _ _ fun tool _ => collect_maskToolDefinition customKeys tool keys
        | _ =>
            have plain : matchesPolicySensitiveKey key customKeys = false := by
              simpa using (Bool.and_eq_true_iff.mp listing).2
            simp only [listing]
            simpa only [maskMember, plain, Bool.false_eq_true, if_false, pushIfUnredacted,
              maskWalk] using walked
      · simp only [Bool.not_eq_true] at listing
        simpa only [listing] using push_maskMember customKeys key child keys
  | _ => exact collect_maskWalk customKeys _ keys

theorem collect_maskMessage (context : RedactionContext) (message : Value) (keys : List String) :
    collectUnredactedMessage customKeys context
      (maskMessage (matchesPolicySensitiveKey · customKeys) (fun _ => placeholder) context message)
      keys = keys := by
  cases message with
  | object fields =>
      simp only [maskMessage, collectUnredactedMessage, List.foldl_map]
      refine foldl_fixed _ _ _ fun field _ => ?_
      by_cases sensitive : matchesPolicySensitiveKey field.1 customKeys = true
      · simp [sensitive, pushIfUnredacted, placeholder, Value.asStr]
      by_cases result : (field.1 = "result" && decide (context = .toolListResponse)) = true
      · simpa [sensitive, result] using collect_maskResult customKeys field.2 keys
      · simpa [sensitive, result, maskMember] using push_maskMember customKeys field.1 field.2 keys
  | _ => exact collect_maskWalk customKeys _ keys

/-- The keys a redactor compares with are the policy's own, since those are normalized. -/
theorem new_customKeys {policy : RedactionPolicy} (normalized : policy.Normalized) :
    (Redactor.new policy).customKeys = policy.customKeys := by
  have kept : policy.customKeys.map normalizeKey = policy.customKeys :=
    (List.map_congr_left fun key member => (normalized key member).1).trans (List.map_id' _)
  rw [Redactor.new, kept, List.filter_eq_self]
  exact fun key member => by simpa using (normalized key member).2

end Agreement

/-- What the recorder masks under a configured policy, the validator accepts under the same one. -/
theorem unredactedSensitiveKeys_redactWithContext (policy : RedactionPolicy) (built : policy.Built)
    (active : policy ≠ .none) (value : Value) (context : RedactionContext) :
    unredactedSensitiveKeysWithContext ((Redactor.new policy).redactWithContext value context)
      policy context = [] := by
  have isActive : (Redactor.new policy).isActive = true := by
    simpa [Redactor.isActive, Redactor.new] using active
  have sameKeys := new_customKeys built.normalized
  have sensitive : (Redactor.new policy).isSensitiveKey =
      (matchesPolicySensitiveKey · policy.customKeys) := by
    funext key
    rw [Redactor.isSensitiveKey, sameKeys]
  simp only [unredactedSensitiveKeysWithContext, active, if_false, Redactor.redactWithContext,
    isActive, if_true, Redactor.walkMessage, sensitive, collect_maskMessage]
  rfl

theorem unredactedSensitiveKeys_redacted_tool :
    RedactionPolicy.default.Built ∧
      unredactedSensitiveKeysWithContext ((Redactor.new .default).redactWithContext
        (.object [("result", .object [("tools", .array [.object [("inputSchema", .object
          [("properties", .object [("api_key", .object [("default", .string "sk-1")])])])]])])])
        .toolListResponse) .default .toolListResponse = [] :=
  have built : RedactionPolicy.default.Built := ⟨"default", [], .inl rfl⟩
  ⟨built, unredactedSensitiveKeys_redactWithContext .default built (by decide) _ .toolListResponse⟩

end McpTracer.Redact
