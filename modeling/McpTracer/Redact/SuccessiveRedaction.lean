import McpTracer.Redact.TypedRedaction

/-! Redaction under one policy and then under another.

A payload may be redacted more than once. What a second redaction makes of the first is what one redaction under
both policies would have made of the payload, so that neither the order nor repetition matters.
-/

set_option autoImplicit false

namespace McpTracer.Redact
open McpTracer.Json

/-! ## Masks -/

/-- A container without anything inside, or no container. -/
def Bare : Value → Prop
  | .array items => items = []
  | .object fields => fields = []
  | _ => True

/-- A mask that looks at nothing but the type of a value, and leaves nothing to mask. -/
structure Blunt (mask : Value → Value) : Prop where
  type : ∀ v w, jsonType v = jsonType w → mask v = mask w
  again : ∀ v, mask (mask v) = mask v
  bare : ∀ v, Bare (mask v)
  plain : ∀ v, isSchema v = false → isSchema (mask v) = false

theorem blunt_placeholder : Blunt fun _ => placeholder where
  type := fun _ _ _ => rfl
  again := fun _ => rfl
  bare := fun _ => trivial
  plain := fun _ _ => rfl

theorem blunt_redactValueTyped : Blunt redactValueTyped where
  type := fun v w same => by cases v <;> cases w <;> first | rfl | cases same
  again := fun v => by cases v <;> rfl
  bare := fun v => by cases v <;> first | rfl | trivial
  plain := fun v plain => by cases v <;> first | rfl | cases plain

/-- The keys that one of the two policies masks. -/
def either (first second : String → Bool) (key : String) : Bool := first key || second key

section Single
variable (sensitive : String → Bool) {mask : Value → Value}

theorem jsonType_maskWalk (mask : Value → Value) (v : Value) : jsonType (maskWalk sensitive mask v) = jsonType v := by
  cases v <;> rfl

theorem maskWalk_bare (mask : Value → Value) {v : Value} (bare : Bare v) : maskWalk sensitive mask v = v := by
  cases v with
  | array items =>
    obtain rfl : items = [] := bare
    rfl
  | object fields =>
    obtain rfl : fields = [] := bare
    rfl
  | _ => rfl

/-- What is masked stays as it is, whether or not the key is masked again. -/
theorem maskMember_mask (blunt : Blunt mask) (key : String) (v : Value) :
    maskMember sensitive mask key (mask v) = mask v := by
  unfold maskMember
  split_ifs
  · exact blunt.again v
  · exact maskWalk_bare sensitive mask (blunt.bare v)

/-- A mask does not see what was masked inside. -/
theorem mask_maskMember (blunt : Blunt mask) (key : String) (v : Value) :
    mask (maskMember sensitive mask key v) = mask v := by
  unfold maskMember
  split_ifs
  · exact blunt.again v
  · exact blunt.type _ _ (jsonType_maskWalk sensitive mask v)

end Single

/-! ## The payload walk -/

section Twice
variable {first second : String → Bool} {mask : Value → Value}

/-- A mask for a sensitive key, and else a walk. -/
def guarded (sensitive : String → Bool) (mask : Value → Value) (walk : (String → Bool) → Value → Value) (key : String)
    (v : Value) : Value :=
  if sensitive key then mask v else walk sensitive v

/-- A walk behind a guard composes if the walk does, and if it and the mask do not disturb each other. -/
theorem guarded_twice (walk : (String → Bool) → Value → Value) (blunt : Blunt mask) (key : String) {v : Value}
    (twice : walk second (walk first v) = walk (either first second) v) (blind : mask (walk first v) = mask v)
    (still : walk second (mask v) = mask v) :
    guarded second mask walk key (guarded first mask walk key v) = guarded (either first second) mask walk key v := by
  cases masksFirst : first key <;> cases masksSecond : second key <;>
    simp only [guarded, either, masksFirst, masksSecond, Bool.or_self, Bool.or_true, Bool.or_false, Bool.false_eq_true,
      if_true, if_false]
  · exact twice
  · exact blind
  · exact still
  · exact blunt.again v

theorem maskMember_twice_of_walk (blunt : Blunt mask) {v : Value}
    (walked : maskWalk second mask (maskWalk first mask v) = maskWalk (either first second) mask v) (key : String) :
    maskMember second mask key (maskMember first mask key v) = maskMember (either first second) mask key v :=
  guarded_twice (fun sensitive => maskWalk sensitive mask) blunt key walked
    (blunt.type _ _ (jsonType_maskWalk first mask v)) (maskWalk_bare second mask (blunt.bare v))

theorem maskWalk_twice (blunt : Blunt mask) (v : Value) :
    maskWalk second mask (maskWalk first mask v) = maskWalk (either first second) mask v := by
  induction v using Value.children with
  | array items ih =>
    simp only [maskWalk, maskItems_eq_map, List.map_map]
    exact congrArg Value.array (List.map_congr_left ih)
  | object fields ih =>
    simp only [maskWalk, maskFields_eq_map, List.map_map]
    refine congrArg Value.object (List.map_congr_left fun field member => ?_)
    exact congrArg (Prod.mk field.1) (maskMember_twice_of_walk blunt (ih field member) field.1)
  | _ => rfl

theorem maskMember_twice (blunt : Blunt mask) (key : String) (v : Value) :
    maskMember second mask key (maskMember first mask key v) = maskMember (either first second) mask key v :=
  maskMember_twice_of_walk blunt (maskWalk_twice blunt v) key

end Twice

/-! ## The schema walk -/

section Single
variable (sensitive : String → Bool) (mask : Value → Value)

/-- The walks of the parts of a schema, as rewritings. -/
def maskNameMap (v : Value) : Value := (walkNameMap sensitive (rewriting (maskMember sensitive mask)) v ()).1

def maskSchemaArray (key : String) (v : Value) : Value :=
  (walkSchemaArray sensitive (rewriting (maskMember sensitive mask)) key v ()).1

def maskDependencies (key : String) (v : Value) : Value :=
  (walkDependencies sensitive (rewriting (maskMember sensitive mask)) key v ()).1

/-- A member of a schema whose key is not sensitive. -/
def maskOpenMember (mask : Value → Value) (key : String) (sensitive : String → Bool) (v : Value) : Value :=
  if nameMapKeywords.contains key && v.isObject then maskNameMap sensitive mask v
  else if subschemaKeywords.contains key && isSchema v then maskSchema sensitive mask v
  else if schemaArrayKeywords.contains key && v.isArray then maskSchemaArray sensitive mask key v
  else if dependencyKeywords.contains key && v.isObject then maskDependencies sensitive mask key v
  else maskWalk sensitive mask v

def maskSchemaMember (key : String) (v : Value) : Value :=
  if sensitive key then mask v else maskOpenMember mask key sensitive v

def maskDefinition (name : String) (v : Value) : Value :=
  if isSchema v then maskSchema sensitive mask v else maskMember sensitive mask name v

def maskDependency (key name : String) (v : Value) : Value :=
  if isNameArray v then v
  else if key = "dependencies" && isSchema v then maskSchema sensitive mask v
  else maskMember sensitive mask name v

theorem walkMember_eq (key : String) (v : Value) :
    (walkMember sensitive (rewriting (maskMember sensitive mask)) key v ()).1 =
      maskSchemaMember sensitive mask key v := by
  unfold walkMember maskSchemaMember maskOpenMember
  split_ifs with masked <;> first | rfl | simp [rewriting, maskMember, masked]

theorem walkDefinition_eq (name : String) (v : Value) :
    (walkDefinition sensitive (rewriting (maskMember sensitive mask)) name v ()).1 =
      maskDefinition sensitive mask name v := by
  unfold walkDefinition maskDefinition
  split_ifs <;> rfl

theorem walkDependency_eq (key name : String) (v : Value) :
    (walkDependency sensitive (rewriting (maskMember sensitive mask)) key name v ()).1 =
      maskDependency sensitive mask key name v := by
  unfold walkDependency maskDependency
  split_ifs <;> rfl

theorem maskSchema_object (fields : List (String × Value)) : maskSchema sensitive mask (.object fields) =
    .object (fields.map fun field => (field.1, maskSchemaMember sensitive mask field.1 field.2)) := by
  change Value.object (walkSchemaMembers sensitive (rewriting (maskMember sensitive mask)) fields ()).1 = _
  simp only [walkSchemaMembers_eq_sweep, sweep_fst, named, walkMember_eq]

theorem maskNameMap_object (fields : List (String × Value)) : maskNameMap sensitive mask (.object fields) =
    .object (fields.map fun field => (field.1, maskDefinition sensitive mask field.1 field.2)) := by
  change Value.object (walkDefinitions sensitive (rewriting (maskMember sensitive mask)) fields ()).1 = _
  simp only [walkDefinitions_eq_sweep, sweep_fst, named, walkDefinition_eq]

theorem maskSchemaArray_array (key : String) (items : List Value) : maskSchemaArray sensitive mask key (.array items) =
    .array (items.map (maskDefinition sensitive mask key)) := by
  change Value.array (walkSchemaItems sensitive (rewriting (maskMember sensitive mask)) key items ()).1 = _
  simp only [walkSchemaItems_eq_sweep, sweep_fst, walkDefinition_eq]

theorem maskDependencies_object (key : String) (fields : List (String × Value)) :
    maskDependencies sensitive mask key (.object fields) =
      .object (fields.map fun field => (field.1, maskDependency sensitive mask key field.1 field.2)) := by
  change Value.object (walkDependencyMembers sensitive (rewriting (maskMember sensitive mask)) key fields ()).1 = _
  simp only [walkDependencyMembers_eq_sweep, sweep_fst, named, walkDependency_eq]

theorem maskSchema_plain {v : Value} (plain : isSchema v = false) :
    maskSchema sensitive mask v = maskMember sensitive mask "" v :=
  congrArg Prod.fst (walkSchema_plain (rewriting (maskMember sensitive mask)) plain ())

theorem maskSchema_sameShape {v : Value} (schema : isSchema v = true) : SameShape v (maskSchema sensitive mask v) :=
  walkSchema_sameShape sensitive (rewriting (maskMember sensitive mask)) schema ()

end Single

section Blunt
variable (sensitive : String → Bool) {mask : Value → Value}

theorem maskMember_plain (blunt : Blunt mask) (key : String) {v : Value} (plain : isSchema v = false) :
    isSchema (maskMember sensitive mask key v) = false := by
  unfold maskMember
  split_ifs
  · exact blunt.plain v plain
  · rw [(maskWalk_sameShape sensitive mask v).isSchema, plain]

theorem maskSchema_mask (blunt : Blunt mask) (v : Value) : maskSchema sensitive mask (mask v) = mask v := by
  cases schema : isSchema (mask v) with
  | false => rw [maskSchema_plain sensitive mask schema, maskMember_mask sensitive blunt]
  | true =>
    have bare := blunt.bare v
    cases masked : mask v with
    | object fields =>
      rw [masked] at bare
      obtain rfl : fields = [] := bare
      rfl
    | bool b => rfl
    | _ =>
      rw [masked] at schema
      cases schema

/-- What is masked stays as it is in a schema. -/
theorem maskOpenMember_mask (blunt : Blunt mask) (key : String) (v : Value) :
    maskOpenMember mask key sensitive (mask v) = mask v := by
  have bare := blunt.bare v
  unfold maskOpenMember
  split_ifs
  · cases masked : mask v with
    | object fields =>
      rw [masked] at bare
      obtain rfl : fields = [] := bare
      rfl
    | _ => rfl
  · exact maskSchema_mask sensitive blunt v
  · cases masked : mask v with
    | array items =>
      rw [masked] at bare
      obtain rfl : items = [] := bare
      rfl
    | _ => rfl
  · cases masked : mask v with
    | object fields =>
      rw [masked] at bare
      obtain rfl : fields = [] := bare
      rfl
    | _ => rfl
  · exact maskWalk_bare sensitive mask bare

theorem jsonType_maskSchema {v : Value} (schema : isSchema v = true) :
    jsonType (maskSchema sensitive mask v) = jsonType v := by
  cases v <;> first | rfl | cases schema

theorem mask_maskSchema (blunt : Blunt mask) (v : Value) : mask (maskSchema sensitive mask v) = mask v := by
  cases schema : isSchema v with
  | false => rw [maskSchema_plain sensitive mask schema, mask_maskMember sensitive blunt]
  | true => exact blunt.type _ _ (jsonType_maskSchema sensitive schema)

/-- A mask does not see what was masked inside of a schema. -/
theorem mask_maskOpenMember (blunt : Blunt mask) (key : String) (v : Value) :
    mask (maskOpenMember mask key sensitive v) = mask v := by
  unfold maskOpenMember
  split_ifs
  · exact blunt.type _ _ (by cases v <;> rfl)
  · exact mask_maskSchema sensitive blunt v
  · exact blunt.type _ _ (by cases v <;> rfl)
  · exact blunt.type _ _ (by cases v <;> rfl)
  · exact blunt.type _ _ (jsonType_maskWalk sensitive mask v)

end Blunt

section Twice
variable {first second : String → Bool} {mask : Value → Value}

/-- What a second walk makes of the parts of a schema. -/
structure SchemaTwice (first second : String → Bool) (mask : Value → Value) (v : Value) : Prop where
  schema : maskSchema second mask (maskSchema first mask v) = maskSchema (either first second) mask v
  nameMap : maskNameMap second mask (maskNameMap first mask v) = maskNameMap (either first second) mask v
  schemaArray : ∀ key, maskSchemaArray second mask key (maskSchemaArray first mask key v) =
    maskSchemaArray (either first second) mask key v
  dependencies : ∀ key, maskDependencies second mask key (maskDependencies first mask key v) =
    maskDependencies (either first second) mask key v

theorem SchemaTwice.unguarded {v : Value} (twice : SchemaTwice first second mask v) (blunt : Blunt mask)
    (key : String) : maskOpenMember mask key second (maskOpenMember mask key first v) =
      maskOpenMember mask key (either first second) v := by
  obtain ⟨nameMapShape, arrayShape, dependencyShape⟩ :=
    container_sameShape first (rewriting (maskMember first mask)) key v ()
  have walkShape := maskWalk_sameShape first mask v
  by_cases nameMap : (nameMapKeywords.contains key && v.isObject) = true
  · have shape : (maskNameMap first mask v).isObject = v.isObject := nameMapShape.isObject
    simpa only [maskOpenMember, nameMap, shape, if_true] using twice.nameMap
  by_cases subschema : (subschemaKeywords.contains key && isSchema v) = true
  · have shape := maskSchema_sameShape first mask (Bool.and_eq_true_iff.1 subschema).2
    simpa only [maskOpenMember, nameMap, subschema, shape.isObject, shape.isSchema, Bool.false_eq_true, if_false,
      if_true] using twice.schema
  by_cases array : (schemaArrayKeywords.contains key && v.isArray) = true
  · have shape : SameShape v (maskSchemaArray first mask key v) := arrayShape
    simpa only [maskOpenMember, nameMap, subschema, array, shape.isObject, shape.isSchema, shape.isArray,
      Bool.false_eq_true, if_false, if_true] using twice.schemaArray key
  by_cases dependency : (dependencyKeywords.contains key && v.isObject) = true
  · have shape : SameShape v (maskDependencies first mask key v) := dependencyShape
    simpa only [maskOpenMember, nameMap, subschema, array, dependency, shape.isObject, shape.isSchema, shape.isArray,
      Bool.false_eq_true, if_false, if_true] using twice.dependencies key
  simpa only [maskOpenMember, nameMap, subschema, array, dependency, walkShape.isObject, walkShape.isSchema,
    walkShape.isArray, Bool.false_eq_true, if_false] using maskWalk_twice blunt v

theorem SchemaTwice.member {v : Value} (twice : SchemaTwice first second mask v) (blunt : Blunt mask) (key : String) :
    maskSchemaMember second mask key (maskSchemaMember first mask key v) =
      maskSchemaMember (either first second) mask key v :=
  guarded_twice (maskOpenMember mask key) blunt key (twice.unguarded blunt key) (mask_maskOpenMember first blunt key v)
    (maskOpenMember_mask second blunt key v)

theorem SchemaTwice.definition {v : Value} (twice : SchemaTwice first second mask v) (blunt : Blunt mask)
    (name : String) : maskDefinition second mask name (maskDefinition first mask name v) =
      maskDefinition (either first second) mask name v := by
  cases schema : isSchema v with
  | true =>
    have shape := maskSchema_sameShape first mask schema
    simpa only [maskDefinition, schema, shape.isSchema, if_true] using twice.schema
  | false =>
    have plain := maskMember_plain first blunt name schema
    simpa only [maskDefinition, schema, plain, Bool.false_eq_true, if_false] using maskMember_twice blunt name v

theorem SchemaTwice.dependency {v : Value} (twice : SchemaTwice first second mask v) (blunt : Blunt mask)
    (key name : String) : maskDependency second mask key name (maskDependency first mask key name v) =
      maskDependency (either first second) mask key name v := by
  by_cases names : isNameArray v = true
  · simp only [maskDependency, names, if_true]
  by_cases schema : (key = "dependencies" && isSchema v) = true
  · have isSchemaTrue := (Bool.and_eq_true_iff.1 schema).2
    have shape := maskSchema_sameShape first mask isSchemaTrue
    have noNames : isNameArray (maskSchema first mask v) = false := by
      cases v <;> first | rfl | cases isSchemaTrue
    simpa only [maskDependency, names, schema, noNames, shape.isSchema, Bool.false_eq_true, if_false, if_true] using
      twice.schema
  have masked : maskDependency first mask key name v = maskMember first mask name v := by
    simp only [maskDependency, names, schema, if_false, Bool.false_eq_true]
  have whole : maskDependency (either first second) mask key name v = maskMember (either first second) mask name v := by
    simp only [maskDependency, names, schema, if_false, Bool.false_eq_true]
  rw [masked, whole]
  unfold maskDependency
  split_ifs with listed inner
  -- Only a mask that leaves an empty array makes a list of names.
  · cases masksFirst : first name with
    | true => simp [maskMember, either, masksFirst]
    | false =>
      simp only [maskMember, masksFirst, Bool.false_eq_true, if_false, maskWalk_isNameArray] at listed
      exact absurd listed names
  · have plain : isSchema v = false := by
      simpa [(of_decide_eq_true (Bool.and_eq_true_iff.1 inner).1)] using schema
    have still := maskMember_plain first blunt name plain
    rw [still] at inner
    simp at inner
  · exact maskMember_twice blunt name v

theorem schemaTwice_plain (blunt : Blunt mask) {v : Value} (plain : isSchema v = false) :
    maskSchema second mask (maskSchema first mask v) = maskSchema (either first second) mask v := by
  rw [maskSchema_plain first mask plain, maskSchema_plain _ mask plain,
    maskSchema_plain second mask (maskMember_plain first blunt "" plain), maskMember_twice blunt]

theorem schemaTwice (blunt : Blunt mask) (v : Value) : SchemaTwice first second mask v := by
  induction v using Value.children with
  | array items ih =>
    refine ⟨schemaTwice_plain blunt rfl, rfl, fun key => ?_, fun _ => rfl⟩
    simp only [maskSchemaArray_array, List.map_map]
    exact congrArg Value.array (List.map_congr_left fun item member => (ih item member).definition blunt key)
  | object fields ih =>
    refine ⟨?_, ?_, fun _ => rfl, fun key => ?_⟩
    · simp only [maskSchema_object, List.map_map]
      exact congrArg Value.object (List.map_congr_left fun field member =>
        congrArg (Prod.mk field.1) ((ih field member).member blunt field.1))
    · simp only [maskNameMap_object, List.map_map]
      exact congrArg Value.object (List.map_congr_left fun field member =>
        congrArg (Prod.mk field.1) ((ih field member).definition blunt field.1))
    · simp only [maskDependencies_object, List.map_map]
      exact congrArg Value.object (List.map_congr_left fun field member =>
        congrArg (Prod.mk field.1) ((ih field member).dependency blunt key field.1))
  | bool b => exact ⟨rfl, rfl, fun _ => rfl, fun _ => rfl⟩
  | null | number _ | string _ => exact ⟨schemaTwice_plain blunt rfl, rfl, fun _ => rfl, fun _ => rfl⟩

/-! ## Messages -/

/-- What a tool definition has under a key that is not sensitive. -/
def maskToolField (mask : Value → Value) (key : String) (sensitive : String → Bool) (v : Value) : Value :=
  if isMcpToolSchemaKey key then maskSchema sensitive mask v else maskWalk sensitive mask v

theorem maskToolDefinition_object (sensitive : String → Bool) (fields : List (String × Value)) :
    maskToolDefinition sensitive mask (.object fields) =
      .object (fields.map fun field =>
        (field.1, guarded sensitive mask (maskToolField mask field.1) field.1 field.2)) := rfl

theorem maskToolDefinition_twice (blunt : Blunt mask) (tool : Value) :
    maskToolDefinition second mask (maskToolDefinition first mask tool) =
      maskToolDefinition (either first second) mask tool := by
  cases tool with
  | object fields =>
    simp only [maskToolDefinition_object, List.map_map]
    refine congrArg Value.object (List.map_congr_left fun field _ => congrArg (Prod.mk field.1) ?_)
    apply guarded_twice _ blunt <;> unfold maskToolField <;> split_ifs
    · exact (schemaTwice blunt field.2).schema
    · exact maskWalk_twice blunt field.2
    · exact mask_maskSchema first blunt field.2
    · exact blunt.type _ _ (jsonType_maskWalk first mask field.2)
    · exact maskSchema_mask second blunt field.2
    · exact maskWalk_bare second mask (blunt.bare field.2)
  | _ => exact maskWalk_twice blunt _

/-- What a result has under a key that is not sensitive. -/
def maskListing (mask : Value → Value) (key : String) (sensitive : String → Bool) : Value → Value
  | .array items =>
    if key = "tools" then .array (items.map (maskToolDefinition sensitive mask))
    else maskWalk sensitive mask (.array items)
  | v => maskWalk sensitive mask v

theorem maskResult_object (sensitive : String → Bool) (fields : List (String × Value)) :
    maskResult sensitive mask (.object fields) =
      .object (fields.map fun field =>
        (field.1, guarded sensitive mask (maskListing mask field.1) field.1 field.2)) := by
  unfold maskResult
  refine congrArg Value.object (List.map_congr_left fun field _ => congrArg (Prod.mk field.1) ?_)
  obtain ⟨key, child⟩ := field
  cases masked : sensitive key with
  | true => simp [guarded, maskMember, masked]
  | false =>
    by_cases listing : key = "tools"
    · have tools : sensitive "tools" = false := listing ▸ masked
      cases child <;> simp [guarded, maskListing, maskMember, tools, listing]
    · cases child <;> simp [guarded, maskListing, maskMember, masked, listing]

theorem maskListing_bare (sensitive : String → Bool) (key : String) {v : Value} (bare : Bare v) :
    maskListing mask key sensitive v = v := by
  cases v with
  | array items =>
    obtain rfl : items = [] := bare
    unfold maskListing
    split_ifs <;> rfl
  | _ => exact maskWalk_bare sensitive mask bare

theorem jsonType_maskListing (sensitive : String → Bool) (key : String) (v : Value) :
    jsonType (maskListing mask key sensitive v) = jsonType v := by
  cases v with
  | array items =>
    unfold maskListing
    split_ifs <;> rfl
  | _ => rfl

theorem maskListing_twice (blunt : Blunt mask) (key : String) (v : Value) :
    maskListing mask key second (maskListing mask key first v) = maskListing mask key (either first second) v := by
  cases v with
  | array items =>
    by_cases listing : key = "tools"
    · simp only [maskListing, listing, if_true, List.map_map]
      exact congrArg Value.array (List.map_congr_left fun tool _ => maskToolDefinition_twice blunt tool)
    · simp only [maskListing, listing, if_false]
      have walked := @maskWalk_twice first second mask blunt (.array items)
      simpa only [maskWalk, maskListing, listing, if_false] using walked
  | _ => exact maskWalk_twice blunt _

theorem maskResult_twice (blunt : Blunt mask) (result : Value) :
    maskResult second mask (maskResult first mask result) = maskResult (either first second) mask result := by
  cases result with
  | object fields =>
    simp only [maskResult_object, List.map_map]
    refine congrArg Value.object (List.map_congr_left fun field _ => congrArg (Prod.mk field.1) ?_)
    exact guarded_twice _ blunt field.1 (maskListing_twice blunt field.1 field.2)
      (blunt.type _ _ (jsonType_maskListing first field.1 field.2))
      (maskListing_bare second field.1 (blunt.bare field.2))
  | _ => exact maskWalk_twice blunt _

theorem maskResult_bare (sensitive : String → Bool) {v : Value} (bare : Bare v) : maskResult sensitive mask v = v := by
  cases v with
  | object fields =>
    obtain rfl : fields = [] := bare
    rfl
  | _ => exact maskWalk_bare sensitive mask bare

/-- What a message has under a key that is not sensitive. -/
def maskTop (mask : Value → Value) (context : RedactionContext) (key : String) (sensitive : String → Bool) (v : Value) :
    Value :=
  if key = "result" && decide (context = .toolListResponse) then maskResult sensitive mask v
  else maskWalk sensitive mask v

theorem maskMessage_object (sensitive : String → Bool) (context : RedactionContext) (fields : List (String × Value)) :
    maskMessage sensitive mask context (.object fields) = .object (fields.map fun field =>
      (field.1, guarded sensitive mask (maskTop mask context field.1) field.1 field.2)) := rfl

theorem maskMessage_twice (blunt : Blunt mask) (context : RedactionContext) (message : Value) :
    maskMessage second mask context (maskMessage first mask context message) =
      maskMessage (either first second) mask context message := by
  cases message with
  | object fields =>
    simp only [maskMessage_object, List.map_map]
    refine congrArg Value.object (List.map_congr_left fun field _ => congrArg (Prod.mk field.1) ?_)
    apply guarded_twice _ blunt <;> unfold maskTop <;> split_ifs
    · exact maskResult_twice blunt field.2
    · exact maskWalk_twice blunt field.2
    · exact blunt.type _ _ (by cases field.2 <;> rfl)
    · exact blunt.type _ _ (jsonType_maskWalk first mask field.2)
    · exact maskResult_bare second (blunt.bare field.2)
    · exact maskWalk_bare second mask (blunt.bare field.2)
  | _ => exact maskWalk_twice blunt _

end Twice

/-! ## Policies -/

/-- The policy that masks what one of two policies masks. -/
def RedactionPolicy.join : RedactionPolicy → RedactionPolicy → RedactionPolicy
  | .none, policy | policy, .none | .default, policy => policy
  | .custom extraKeys, other => .custom (extraKeys ++ other.customKeys)

theorem matchesPolicySensitiveKey_append (key : String) (customKeys others : List String) :
    matchesPolicySensitiveKey key (customKeys ++ others) =
      (matchesPolicySensitiveKey key customKeys || matchesPolicySensitiveKey key others) := by
  unfold matchesPolicySensitiveKey
  split_ifs
  · rfl
  · simp only [List.any_append, Bool.and_or_distrib_left]

theorem new_join_customKeys {first second : RedactionPolicy} (firstActive : first ≠ .none)
    (secondActive : second ≠ .none) : (Redactor.new (first.join second)).customKeys =
      (Redactor.new first).customKeys ++ (Redactor.new second).customKeys := by
  cases first with
  | none => exact absurd rfl firstActive
  | default =>
    cases second with
    | none => exact absurd rfl secondActive
    | default | custom => rfl
  | custom extraKeys =>
    cases second with
    | none => exact absurd rfl secondActive
    | default | custom =>
      simp [Redactor.new, RedactionPolicy.join, RedactionPolicy.customKeys, List.filter_append]

/-- A redaction that walks a payload with some mask, unless its policy is the one that masks nothing. -/
def maskUnder (mask : Value → Value) (context : RedactionContext) (policy : RedactionPolicy) (v : Value) : Value :=
  if policy = .none then v else maskMessage (Redactor.new policy).isSensitiveKey mask context v

theorem redactWithContext_eq (policy : RedactionPolicy) (v : Value) (context : RedactionContext) :
    (Redactor.new policy).redactWithContext v context = maskUnder (fun _ => placeholder) context policy v := by
  cases policy <;> rfl

theorem redactPreservingTypesWithContext_eq (policy : RedactionPolicy) (v : Value) (context : RedactionContext) :
    (Redactor.new policy).redactPreservingTypesWithContext v context =
      maskUnder redactValueTyped context policy v := by
  cases policy <;> rfl

/-- Redactions that amount to one, in whichever order and however often they are made. -/
structure Composes (redact : RedactionPolicy → Value → Value) : Prop where
  joins : ∀ first second v, redact second (redact first v) = redact (first.join second) v
  commute : ∀ first second v, redact second (redact first v) = redact first (redact second v)
  again : ∀ policy v, redact policy (redact policy v) = redact policy v

theorem composes_maskUnder {mask : Value → Value} (blunt : Blunt mask) (context : RedactionContext) :
    Composes (maskUnder mask context) := by
  have twice {first second : RedactionPolicy} (firstActive : first ≠ .none) (secondActive : second ≠ .none)
      (v : Value) : maskUnder mask context second (maskUnder mask context first v) =
        maskMessage (either (Redactor.new first).isSensitiveKey (Redactor.new second).isSensitiveKey) mask context
          v := by
    rw [maskUnder, maskUnder, if_neg firstActive, if_neg secondActive, maskMessage_twice blunt]
  have off (v : Value) : maskUnder mask context .none v = v := rfl
  refine ⟨fun first second v => ?_, fun first second v => ?_, fun policy v => ?_⟩
  · by_cases firstActive : first = .none
    · rw [firstActive, off]
      rfl
    by_cases secondActive : second = .none
    · rw [secondActive, off]
      cases first <;> rfl
    have active : first.join second ≠ .none := by
      cases first <;> cases second <;> first | exact absurd rfl firstActive | exact absurd rfl secondActive | nofun
    have keys : (Redactor.new (first.join second)).isSensitiveKey =
        either (Redactor.new first).isSensitiveKey (Redactor.new second).isSensitiveKey := by
      funext key
      unfold Redactor.isSensitiveKey either
      rw [new_join_customKeys firstActive secondActive, matchesPolicySensitiveKey_append]
    rw [twice firstActive secondActive, ← keys, maskUnder, if_neg active]
  · by_cases firstActive : first = .none
    · rw [firstActive, off, off]
    by_cases secondActive : second = .none
    · rw [secondActive, off, off]
    rw [twice firstActive secondActive, twice secondActive firstActive]
    congr 1
    funext key
    exact Bool.or_comm _ _
  · by_cases active : policy = .none
    · rw [active, off]
    rw [twice active active, maskUnder, if_neg active]
    congr 1
    funext key
    exact Bool.or_self _

/-- Redacting what was redacted is redacting once under both policies, so that the order of redactions makes no
difference and a redaction that is made again none at all. That holds whether the placeholder is put in or a value of
the same type. -/
theorem redactions_compose (context : RedactionContext) :
    Composes (fun policy v => (Redactor.new policy).redactWithContext v context) ∧
      Composes (fun policy v => (Redactor.new policy).redactPreservingTypesWithContext v context) := by
  simp only [redactWithContext_eq, redactPreservingTypesWithContext_eq]
  exact ⟨composes_maskUnder blunt_placeholder context, composes_maskUnder blunt_redactValueTyped context⟩

end McpTracer.Redact
