import McpTracer.Model.SchemaSilence

/-! Schema explanations depend on withheld values through equality only.

Enum members and the values of keywords that the analyzer does not know are
replaced by others, the same way in both schemas. If equal values stay equal and
different ones stay different, as trees and as texts, the analysis is the same.
-/

set_option autoImplicit false

namespace McpTracer.Model
open McpTracer.Foundation McpTracer.Json McpTracer.Storage

/-! ## Replacing values -/

/-- A replacement of values that keeps apart what a comparison or a text tells apart, and nothing else. -/
structure ValueRenaming where
  apply : Value → Value
  wellFormed : ∀ v, v.wellFormed = true → (apply v).wellFormed = true
  injective : ∀ v w, v.wellFormed = true → w.wellFormed = true → apply v = apply w → v = w
  beq_eq : ∀ v w, v.wellFormed = true → w.wellFormed = true → (apply v).beq (apply w) = v.beq w

/-- The members of an enum, one by one. -/
def renameMembers (f : Value → Value) : Value → Value
  | .array items => .array (items.map f)
  | other => other

mutual
/-- A schema with the values replaced that it is not analyzed for, at every node. -/
def renameSchema (f : Value → Value) : Value → Value
  | .object fields => .object (renameKeywords f fields)
  | other => other
def renameKeywords (f : Value → Value) : List (String × Value) → List (String × Value)
  | [] => []
  | (key, value) :: rest =>
    (key, if key = "properties" then renameDefinitions f value
      else if key = "enum" then renameMembers f value
      else if knownKeywords.contains key then value
      else f value) :: renameKeywords f rest
def renameDefinitions (f : Value → Value) : Value → Value
  | .object properties => .object (renameProperties f properties)
  | other => other
def renameProperties (f : Value → Value) : List (String × Value) → List (String × Value)
  | [] => []
  | (name, definition) :: rest => (name, renameSchema f definition) :: renameProperties f rest
end

def ToolDef.renameSchemas (f : Value → Value) (tool : ToolDef) : ToolDef :=
  { tool with
    inputSchema := tool.inputSchema.map (renameSchema f)
    outputSchema := tool.outputSchema.map (renameSchema f) }

def ToolCatalog.renameSchemas (f : Value → Value) (catalog : ToolCatalog) : ToolCatalog :=
  { catalog with tools := catalog.tools.map fun tool => (tool.1, tool.2.renameSchemas f) }

@[simp] theorem complete_renameSchemas (f : Value → Value) (catalog : ToolCatalog) :
    (catalog.renameSchemas f).complete = catalog.complete := rfl

theorem tools_renameSchemas (f : Value → Value) (catalog : ToolCatalog) :
    (catalog.renameSchemas f).tools = catalog.tools.map fun tool => (tool.1, tool.2.renameSchemas f) := rfl

/-! ## Lookups -/

section Lookups
variable {f : Value → Value}

/-- What is done to the value of a keyword. -/
@[grind] def renameKeyword (f : Value → Value) (key : String) (value : Value) : Value :=
  if key = "properties" then renameDefinitions f value
  else if key = "enum" then renameMembers f value
  else if knownKeywords.contains key then value
  else f value

theorem renameKeywords_eq (fields : List (String × Value)) :
    renameKeywords f fields = fields.map fun field => (field.1, renameKeyword f field.1 field.2) := by
  induction fields with
  | nil => rfl
  | cons field rest ih => rw [renameKeywords, ih, List.map_cons, renameKeyword]

theorem renameProperties_eq (properties : List (String × Value)) :
    renameProperties f properties = properties.map fun property => (property.1, renameSchema f property.2) := by
  induction properties with
  | nil => rfl
  | cons property rest ih => rw [renameProperties, ih, List.map_cons]

theorem lookup_map_values {V W : Type} (g : String → V → W) (key : String) (fields : List (String × V)) :
    (fields.map fun field => (field.1, g field.1 field.2)).lookup key = (fields.lookup key).map (g key) := by
  induction fields with
  | nil => rfl
  | cons field rest ih =>
      obtain ⟨name, value⟩ := field
      rw [List.map_cons]
      by_cases same : key = name
      · subst same
        simp
      · rw [lookup_cons_other same, lookup_cons_other same, ih]

theorem lookup_renameKeywords (key : String) (fields : List (String × Value)) :
    (renameKeywords f fields).lookup key = (fields.lookup key).map (renameKeyword f key) := by
  rw [renameKeywords_eq, lookup_map_values]

theorem keys_renameKeywords (fields : List (String × Value)) :
    (renameKeywords f fields).map Prod.fst = fields.map Prod.fst := by
  rw [renameKeywords_eq, List.map_map]
  rfl

theorem propertiesOf_renameKeywords (fields : List (String × Value)) :
    propertiesOf (renameKeywords f fields) = (propertiesOf fields).map (renameProperties f) := by
  unfold propertiesOf
  rw [lookup_renameKeywords]
  cases fields.lookup "properties" with
  | none => rfl
  | some value => cases value <;> rfl

theorem hasInvalidProperties_renameKeywords (fields : List (String × Value)) :
    hasInvalidProperties (renameKeywords f fields) = hasInvalidProperties fields := by
  rw [hasInvalidProperties, hasInvalidProperties, propertiesOf_renameKeywords, lookup_renameKeywords, Option.isSome_map,
    Option.isNone_map]

theorem propertySchema_renameKeywords (fields : List (String × Value)) (name : String) :
    propertySchema (renameKeywords f fields) name = renameSchema f (propertySchema fields name) := by
  unfold propertySchema
  rw [propertiesOf_renameKeywords]
  cases propertiesOf fields with
  | none => rfl
  | some properties =>
      rw [Option.map_some, Option.bind_some, Option.bind_some, renameProperties_eq,
        lookup_map_values fun _ => renameSchema f]
      cases properties.lookup name <;> rfl

theorem propertyNames_renameKeywords (before after : List (String × Value)) :
    propertyNames (renameKeywords f before) (renameKeywords f after) = propertyNames before after := by
  have names (fields : List (String × Value)) : ((propertiesOf (renameKeywords f fields)).getD []).map Prod.fst =
      ((propertiesOf fields).getD []).map Prod.fst := by
    rw [propertiesOf_renameKeywords]
    cases propertiesOf fields with
    | none => rfl
    | some properties =>
        rw [Option.map_some, Option.getD_some, Option.getD_some, renameProperties_eq, List.map_map]
        rfl
  rw [propertyNames, names, names, propertyNames]

end Lookups

/-! ## Comparisons -/

section Comparisons
variable (f : ValueRenaming)

theorem beqItems_map {g : Value → Value} {xs ys : List Value} (same : ∀ x ∈ xs, ∀ y ∈ ys, (g x).beq (g y) = x.beq y) :
    Value.beqItems (xs.map g) (ys.map g) = Value.beqItems xs ys := by
  induction xs generalizing ys with
  | nil => cases ys <;> rfl
  | cons x xs ih =>
      cases ys with
      | nil => rfl
      | cons y ys =>
          rw [List.map_cons, List.map_cons, Value.beqItems, Value.beqItems, same x (.head _) y (.head _),
            ih fun x here y there => same x (.tail _ here) y (.tail _ there)]

theorem beqFields_map {g : String → Value → Value} {fs gs : List (String × Value)}
    (same : ∀ a ∈ fs, ∀ b ∈ gs, (g a.1 a.2).beq (g a.1 b.2) = a.2.beq b.2) :
    Value.beqFields (fs.map fun a => (a.1, g a.1 a.2)) (gs.map fun b => (b.1, g b.1 b.2)) = Value.beqFields fs gs := by
  induction fs generalizing gs with
  | nil => cases gs <;> rfl
  | cons a fs ih =>
      cases gs with
      | nil => rfl
      | cons b gs =>
          rw [List.map_cons, List.map_cons, Value.beqFields, Value.beqFields,
            ih fun a here b there => same a (.tail _ here) b (.tail _ there)]
          by_cases keys : a.1 = b.1
          · rw [← keys, same a (.head _) b (.head _)]
          · rw [beq_eq_false_iff_ne.2 keys]
            rfl

theorem beq_renameMembers {v w : Value} (left : v.wellFormed = true) (right : w.wellFormed = true) :
    (renameMembers f.apply v).beq (renameMembers f.apply w) = v.beq w := by
  cases v with
  | array xs =>
      cases w with
      | array ys =>
          rw [renameMembers, renameMembers, Value.beq, Value.beq]
          exact beqItems_map fun x here y there => f.beq_eq x y ((Value.wellFormedItems_iff xs).1 left x here)
            ((Value.wellFormedItems_iff ys).1 right y there)
      | _ => rfl
  | _ => cases w <;> rfl

/-- Schemas and definitions of properties are as equal as they were. -/
theorem beq_rename (v : Value) : v.wellFormed = true → ∀ w, w.wellFormed = true →
    (renameSchema f.apply v).beq (renameSchema f.apply w) = v.beq w ∧
      (renameDefinitions f.apply v).beq (renameDefinitions f.apply w) = v.beq w := by
  induction v using Value.children with
  | object fields ih =>
      intro left w right
      cases w with
      | object others =>
          have formed := (Value.wellFormed_object left).2
          have formed' := (Value.wellFormed_object right).2
          simp only [renameSchema, renameDefinitions, renameKeywords_eq, renameProperties_eq, Value.beq]
          -- The two replacements agree on what a member of a definition or a keyword becomes.
          refine ⟨beqFields_map fun a here b there => ?_,
            @beqFields_map (fun _ => renameSchema f.apply) _ _ fun a here b there => ?_⟩
          · unfold renameKeyword
            split_ifs
            · exact (ih a here (formed a here) b.2 (formed' b there)).2
            · exact beq_renameMembers f (formed a here) (formed' b there)
            · rfl
            · exact f.beq_eq _ _ (formed a here) (formed' b there)
          · exact (ih a here (formed a here) b.2 (formed' b there)).1
      | _ => exact ⟨rfl, rfl⟩
  | _ =>
      intro _ w _
      cases w <;> exact ⟨rfl, rfl⟩

theorem beq_renameKeyword (key : String) {v w : Value} (left : v.wellFormed = true) (right : w.wellFormed = true) :
    (renameKeyword f.apply key v).beq (renameKeyword f.apply key w) = v.beq w := by
  unfold renameKeyword
  split_ifs
  · exact (beq_rename f v left w right).2
  · exact beq_renameMembers f left right
  · rfl
  · exact f.beq_eq _ _ left right

/-- Optional values are as equal as they were. -/
theorem optionBeq_map {g : Value → Value} {v w : Option Value}
    (same : ∀ x y, v = some x → w = some y → (g x).beq (g y) = x.beq y) : (v.map g == w.map g) = (v == w) := by
  cases v with
  | none => cases w <;> rfl
  | some x =>
      cases w with
      | none => rfl
      | some y =>
          rw [Option.map_some, Option.map_some, Option.some_beq_some, Option.some_beq_some]
          exact same x y rfl rfl

end Comparisons

/-! ## Keywords -/

section Keywords
variable (f : ValueRenaming) {codec : Codec} {site : SchemaSite}

/-- The texts of replaced members, against those of the members. -/
theorem mem_texts_iff {xs : List Value} {x : Value} (formed : ∀ y ∈ xs, y.wellFormed = true) (own : x.wellFormed = true) :
    codec.toString (f.apply x) ∈ (xs.map f.apply).map codec.toString ↔ codec.toString x ∈ xs.map codec.toString := by
  simp only [List.mem_map, exists_exists_and_eq_and]
  constructor
  · rintro ⟨y, member, same⟩
    have wf := formed y member
    have equal := codec.toString_injective (f.wellFormed y wf) (f.wellFormed x own) same
    exact ⟨y, member, congrArg codec.toString (f.injective y x wf own equal)⟩
  · rintro ⟨y, member, same⟩
    exact ⟨y, member, congrArg (fun v => codec.toString (f.apply v))
      (codec.toString_injective (formed y member) own same)⟩

/-- The sets of texts that are read of an enum and of its replacement. -/
inductive ReadRenamed (codec : Codec) : Option (List String) → Option (List String) → Prop where
  | unrestricted : ReadRenamed codec none none
  | members {values : List Value} (formed : ∀ v ∈ values, v.wellFormed = true)
      (unique : (values.map codec.toString).Nodup) (unique' : ((values.map f.apply).map codec.toString).Nodup) :
      ReadRenamed codec (some (SortedSet.ofList (values.map codec.toString)))
        (some (SortedSet.ofList ((values.map f.apply).map codec.toString)))

theorem nodup_texts_iff {xs : List Value} (formed : ∀ y ∈ xs, y.wellFormed = true) :
    ((xs.map f.apply).map codec.toString).Nodup ↔ (xs.map codec.toString).Nodup := by
  have texts : (xs.map codec.toString).Nodup ↔ xs.Nodup :=
    ⟨.of_map _, fun distinct => (List.nodup_map_iff_inj_on distinct).2 fun x here y there =>
      codec.toString_injective (formed x here) (formed y there)⟩
  have renamed : ((xs.map f.apply).map codec.toString).Nodup ↔ xs.Nodup := by
    rw [List.map_map]
    refine ⟨.of_map _, fun distinct => (List.nodup_map_iff_inj_on distinct).2 fun x here y there same => ?_⟩
    have equal := codec.toString_injective (f.wellFormed x (formed x here)) (f.wellFormed y (formed y there)) same
    exact f.injective x y (formed x here) (formed y there) equal
  rw [texts, renamed]

/-- An enum is read where its replacement is. -/
theorem parseEnum_renameMembers {keyword : Option Value} (formed : ∀ v, keyword = some v → v.wellFormed = true) :
    Option.Rel (ReadRenamed f codec) (parseEnum codec keyword)
      (parseEnum codec (keyword.map (renameMembers f.apply))) := by
  cases keyword with
  | none => exact .some .unrestricted
  | some v =>
      cases v with
      | array values =>
          have items := (Value.wellFormedItems_iff values).1 (formed _ rfl)
          rw [Option.map_some, renameMembers, parseEnum, parseEnum, List.isEmpty_map, List.length_map]
          dsimp only
          by_cases counted : (!values.isEmpty && decide (values.length ≤ maxSchemaNodes)) = true
          · rw [if_pos counted, if_pos counted]
            -- An enum that lists a text twice is unreadable.
            by_cases unique : (values.map codec.toString).Nodup
            · have unique' := (nodup_texts_iff f items).2 unique
              rw [if_neg (not_not.2 (SortedSet.length_ofList_iff.2 unique)),
                if_neg (not_not.2 (SortedSet.length_ofList_iff.2 unique'))]
              exact .some (.members items unique unique')
            · have repeated' := mt (nodup_texts_iff f items).1 unique
              rw [if_pos (mt SortedSet.length_ofList_iff.1 unique), if_pos (mt SortedSet.length_ofList_iff.1 repeated')]
              exact .none
          · rw [if_neg counted, if_neg counted]
            exact .none
      | _ => exact .none

/-- Members of one enum are all found in another one where their replacements are. -/
theorem texts_subset_iff {xs ys : List Value} (left : ∀ x ∈ xs, x.wellFormed = true)
    (right : ∀ y ∈ ys, y.wellFormed = true) :
    (∀ text ∈ (xs.map f.apply).map codec.toString, text ∈ (ys.map f.apply).map codec.toString) ↔
      ∀ text ∈ xs.map codec.toString, text ∈ ys.map codec.toString := by
  rw [List.forall_mem_map, List.forall_mem_map, List.forall_mem_map]
  constructor
  · intro contained x member
    exact (mem_texts_iff f right (left x member)).1 (contained x member)
  · intro contained x member
    exact (mem_texts_iff f right (left x member)).2 (contained x member)

section
variable {read renamed other otherRenamed : Option (List String)}

theorem ReadRenamed.subset (first : ReadRenamed f codec read renamed) (second : ReadRenamed f codec other otherRenamed) :
    enumSubset renamed otherRenamed = enumSubset read other := by
  cases first with
  | unrestricted => cases second <;> rfl
  | members left =>
      cases second with
      | unrestricted => rfl
      | members right =>
          rw [enumSubset, enumSubset, Bool.eq_iff_iff]
          simp only [List.all_eq_true, List.contains_eq_mem, decide_eq_true_eq, SortedSet.mem_ofList]
          exact texts_subset_iff f left right

theorem ReadRenamed.eq_iff (first : ReadRenamed f codec read renamed) (second : ReadRenamed f codec other otherRenamed) :
    renamed = otherRenamed ↔ read = other := by
  cases first with
  | unrestricted => cases second <;> simp
  | members left =>
      cases second with
      | unrestricted => simp
      | members right =>
          rw [Option.some_inj, Option.some_inj, SortedSet.ofList_eq_iff, SortedSet.ofList_eq_iff]
          have forth := @texts_subset_iff f codec _ _ left right
          have back := @texts_subset_iff f codec _ _ right left
          constructor
          · intro same text
            exact ⟨forth.1 (fun found => (same found).1) text, back.1 (fun found => (same found).2) text⟩
          · intro same text
            exact ⟨forth.2 (fun found => (same found).1) text, back.2 (fun found => (same found).2) text⟩

theorem ReadRenamed.summary (first : ReadRenamed f codec read renamed) : enumSummary renamed = enumSummary read := by
  cases first with
  | unrestricted => rfl
  | members _ unique unique' =>
      rw [enumSummary, enumSummary, Option.elim_some, Option.elim_some, SortedSet.length_ofList_iff.2 unique,
        SortedSet.length_ofList_iff.2 unique', List.length_map, List.length_map, List.length_map]

end

theorem unclassifiedKeyword_map {g : Value → Value} (keyword reason : String) (before after : Option Value) :
    unclassifiedKeyword site keyword reason (before.map g) (after.map g) =
      unclassifiedKeyword site keyword reason before after := by
  rw [unclassifiedKeyword, safePresenceSummary, safePresenceSummary, Option.isSome_map, Option.isSome_map]
  rfl

theorem enumChanges_renameMembers {before after : Option Value} (left : ∀ v, before = some v → v.wellFormed = true)
    (right : ∀ v, after = some v → v.wellFormed = true) :
    enumChanges codec site (before.map (renameMembers f.apply)) (after.map (renameMembers f.apply)) =
      enumChanges codec site before after := by
  have same : (before.map (renameMembers f.apply) == after.map (renameMembers f.apply)) = (before == after) :=
    optionBeq_map fun x y here there => beq_renameMembers f (left x here) (right y there)
  have old := @parseEnum_renameMembers f codec _ left
  have new := @parseEnum_renameMembers f codec _ right
  unfold enumChanges readChanges
  rw [bne, bne, same, unclassifiedKeyword_map]
  generalize parseEnum codec before = read, parseEnum codec (before.map _) = read' at old ⊢
  generalize parseEnum codec after = other, parseEnum codec (after.map _) = other' at new ⊢
  cases old with
  | none => rfl
  | some old =>
      cases new with
      | none => rfl
      | some new =>
          simp only [ne_eq, old.eq_iff f new, new.subset f old, old.subset f new, old.summary f, new.summary f]

theorem renameKeyword_of_plain (key : String) (known : knownKeywords.contains key = true) (definitions : key ≠ "properties")
    (members : key ≠ "enum") : renameKeyword f.apply key = id := by
  funext value
  rw [renameKeyword, if_neg definitions, if_neg members, if_pos known, id]

section
variable {before after : List (String × Value)}

theorem lookup_beq_renameKeywords (left : (Value.object before).wellFormed = true)
    (right : (Value.object after).wellFormed = true) (key : String) :
    ((renameKeywords f.apply before).lookup key == (renameKeywords f.apply after).lookup key) =
      (before.lookup key == after.lookup key) := by
  rw [lookup_renameKeywords, lookup_renameKeywords]
  exact optionBeq_map fun x y here there =>
    beq_renameKeyword f key (wellFormed_lookup left key x here) (wellFormed_lookup right key y there)

theorem keywordChanges_renameKeywords (left : (Value.object before).wellFormed = true)
    (right : (Value.object after).wellFormed = true) :
    keywordChanges codec site (renameKeywords f.apply before) (renameKeywords f.apply after) =
      keywordChanges codec site before after := by
  have members : renameKeyword f.apply "enum" = renameMembers f.apply := rfl
  unfold keywordChanges
  simp only [lookup_renameKeywords, members, Option.map_id, id, renameKeyword_of_plain f "type" rfl (by decide) (by decide),
    renameKeyword_of_plain f "required" rfl (by decide) (by decide),
    renameKeyword_of_plain f "additionalProperties" rfl (by decide) (by decide)]
  rw [enumChanges_renameMembers f (wellFormed_lookup left "enum") (wellFormed_lookup right "enum")]

theorem otherChanges_renameKeywords (left : (Value.object before).wellFormed = true)
    (right : (Value.object after).wellFormed = true) :
    otherChanges site (renameKeywords f.apply before) (renameKeywords f.apply after) =
      otherChanges site before after := by
  have same (key : String) := lookup_beq_renameKeywords f left right key
  simp only [lookup_renameKeywords] at same
  unfold otherChanges
  simp only [keys_renameKeywords, bne, lookup_renameKeywords, same, unclassifiedKeyword_map]

theorem invalidProperties_renameKeywords :
    invalidProperties site (renameKeywords f.apply before) (renameKeywords f.apply after) =
      invalidProperties site before after := by
  rw [invalidProperties, lookup_renameKeywords, lookup_renameKeywords, unclassifiedKeyword_map, invalidProperties]

theorem propertySchema_beq_renameKeywords (left : (Value.object before).wellFormed = true)
    (right : (Value.object after).wellFormed = true) (name : String) :
    (propertySchema (renameKeywords f.apply before) name != propertySchema (renameKeywords f.apply after) name) =
      (propertySchema before name != propertySchema after name) := by
  rw [propertySchema_renameKeywords, propertySchema_renameKeywords, bne, bne]
  exact congrArg (! ·) (beq_rename f _ (wellFormed_propertySchema left name) _ (wellFormed_propertySchema right name)).1

end

end Keywords

/-! ## Walks -/

/-- Steps that do the same are walked the same way, under whatever names. -/
theorem walkUntilTruncated_map {A B : Type} {step : B → SchemaAnalysis → SchemaAnalysis}
    {step' : A → SchemaAnalysis → SchemaAnalysis} (g : A → B) {items : List A}
    (same : ∀ item ∈ items, ∀ analysis, step (g item) analysis = step' item analysis) (analysis : SchemaAnalysis) :
    walkUntilTruncated step (items.map g) analysis = walkUntilTruncated step' items analysis := by
  induction items generalizing analysis with
  | nil => rfl
  | cons item rest ih =>
      rw [List.map_cons, walkUntilTruncated, walkUntilTruncated, same item (.head _) analysis, ih fun other member => same other (.tail _ member)]

theorem asObject_renameSchema (f : Value → Value) (v : Value) :
    (renameSchema f v).asObject = v.asObject.map (renameKeywords f) := by
  cases v <;> rfl

section Walks
variable (f : ValueRenaming) (codec : Codec)

theorem analyzeSchemaNode_renameSchema (levels : Nat) (site : SchemaSite) (before after : Value)
    (left : before.wellFormed = true) (right : after.wellFormed = true) (analysis : SchemaAnalysis) :
    analyzeSchemaNode codec levels site (renameSchema f.apply before) (renameSchema f.apply after) analysis =
      analyzeSchemaNode codec levels site before after analysis := by
  -- Every value that is looked at is compared or counted, and the walk below goes by names.
  induction levels generalizing site before after analysis with
  | zero => rw [analyzeSchemaNode, analyzeSchemaNode]
  | succ levels ih =>
      rw [analyzeSchemaNode, analyzeSchemaNode, asObject_renameSchema, asObject_renameSchema]
      cases here : before.asObject with
      | none => rfl
      | some fields =>
          obtain rfl := Value.asObject_eq_some_iff.1 here
          cases there : after.asObject with
          | none => rfl
          | some others =>
              obtain rfl := Value.asObject_eq_some_iff.1 there
              have walks (name : String) : walkProperty (analyzeSchemaNode codec levels) site
                  (renameKeywords f.apply fields) (renameKeywords f.apply others) name =
                    walkProperty (analyzeSchemaNode codec levels) site fields others name := by
                funext analysis
                rw [walkProperty, propertySchema_beq_renameKeywords f left right, propertySchema_renameKeywords,
                  propertySchema_renameKeywords, ih _ _ _ (wellFormed_propertySchema left name)
                    (wellFormed_propertySchema right name), walkProperty]
              simp only [Option.map_some, keywordChanges_renameKeywords f left right,
                hasInvalidProperties_renameKeywords, invalidProperties_renameKeywords,
                otherChanges_renameKeywords f left right, propertyNames_renameKeywords, funext walks]

theorem explainSchema_renameSchema (tool : String) (kind : ToolSchemaKind) {before after : Option Value}
    (left : ∀ v, before = some v → v.wellFormed = true) (right : ∀ v, after = some v → v.wellFormed = true)
    (analysis : SchemaAnalysis) :
    explainSchema codec tool kind (before.map (renameSchema f.apply)) (after.map (renameSchema f.apply)) analysis =
      explainSchema codec tool kind before after analysis := by
  have same : (before.map (renameSchema f.apply) == after.map (renameSchema f.apply)) = (before == after) :=
    optionBeq_map fun x y here there => (beq_rename f x (left x here) y (right y there)).1
  unfold explainSchema
  rw [same]
  cases before with
  | none => cases after <;> rfl
  | some old =>
      cases after with
      | none => rfl
      | some new =>
          simp only [Option.map_some]
          rw [analyzeSchemaNode_renameSchema f codec _ _ old new (left old rfl) (right new rfl)]

/-- The catalogs' schemas are trees, since a decoder has yielded them. -/
def ToolCatalog.SchemasFormed (catalog : ToolCatalog) : Prop :=
  ∀ tool ∈ catalog.tools, ∀ kind schema, tool.2.schema kind = some schema → schema.wellFormed = true

theorem explainTool_renameSchemas {baseline candidate : ToolCatalog} (left : baseline.SchemasFormed)
    (right : candidate.SchemasFormed) (tool : String × ToolDef) (listed : tool ∈ baseline.tools)
    (analysis : SchemaAnalysis) :
    explainTool codec (candidate.renameSchemas f.apply).tools (tool.1, tool.2.renameSchemas f.apply) analysis =
      explainTool codec candidate.tools tool analysis := by
  have renamed : (candidate.renameSchemas f.apply).tools.lookup tool.1 =
      (candidate.tools.lookup tool.1).map (ToolDef.renameSchemas f.apply) :=
    lookup_map_values (fun _ => ToolDef.renameSchemas f.apply) tool.1 candidate.tools
  rw [explainTool, explainTool, renamed]
  cases found : candidate.tools.lookup tool.1 with
  | none => rfl
  | some after =>
      have inputs := explainSchema_renameSchema f codec tool.1 .input (left tool listed .input)
        (right _ (mem_of_lookup found) .input)
      have outputs := explainSchema_renameSchema f codec tool.1 .output (left tool listed .output)
        (right _ (mem_of_lookup found) .output)
      simp only [ToolDef.schema] at inputs outputs
      simp only [Option.map_some, ToolDef.renameSchemas, walkUntilTruncated, inputs, outputs]

end Walks

theorem schemasFormed (codec : Codec) (messages : List StoredMessage) :
    (extractToolCatalog codec messages).SchemasFormed :=
  fun _ listed kind schema declared => extractTools_wellFormed listed kind schema declared

/-- Two sessions whose catalogs differ from two others in the values of enum members and of unknown keywords only,
and in these by a renaming, are explained the same way. -/
theorem explainToolSchemaChanges_renamed (f : ValueRenaming) (codec : Codec)
    {baseline candidate baseline' candidate' : List StoredMessage}
    (left : extractToolCatalog codec baseline' = (extractToolCatalog codec baseline).renameSchemas f.apply)
    (right : extractToolCatalog codec candidate' = (extractToolCatalog codec candidate).renameSchemas f.apply) :
    explainToolSchemaChanges codec baseline' candidate' = explainToolSchemaChanges codec baseline candidate := by
  have walks (analysis : SchemaAnalysis) := walkUntilTruncated_map
    (fun tool : String × ToolDef => (tool.1, tool.2.renameSchemas f.apply))
    (explainTool_renameSchemas f codec (schemasFormed codec baseline) (schemasFormed codec candidate)) analysis
  unfold explainToolSchemaChanges
  simp only [left, right, complete_renameSchemas, tools_renameSchemas f.apply (extractToolCatalog codec baseline), walks]

/-! ## Renamings -/

/-- Every value is put into an array of its own. -/
def boxed : ValueRenaming where
  apply v := .array [v]
  wellFormed v formed := by rw [Value.wellFormed, Value.wellFormedItems, formed]; rfl
  injective v w _ _ same := by
    rw [Value.array.injEq] at same
    exact List.head_eq_of_cons_eq same
  beq_eq v w _ _ := by rw [Value.beq, Value.beqItems, Value.beqItems, Bool.and_true]

def enumOf (members : List Value) : Value := .object [("enum", .array members)]

theorem listing_enum_names : extractToolCatalog Compact.codec (toolListing (enumOf [.string "a", .string "b"])) =
    echoCatalog (enumOf [.string "a", .string "b"]) :=
  listing_catalog (by decide) (by decide) (by decide)

theorem listing_enum_name : extractToolCatalog Compact.codec (toolListing (enumOf [.string "b"])) =
    echoCatalog (enumOf [.string "b"]) :=
  listing_catalog (by decide) (by decide) (by decide)

theorem explainToolSchemaChanges_renamed_boxed :
    explainToolSchemaChanges Compact.codec
        (toolListing (enumOf [.array [.string "a"], .array [.string "b"]])) (toolListing (enumOf [.array [.string "b"]])) =
      explainToolSchemaChanges Compact.codec
        (toolListing (enumOf [.string "a", .string "b"])) (toolListing (enumOf [.string "b"])) :=
  explainToolSchemaChanges_renamed boxed Compact.codec
    (by rw [listing_enum_names]; decide +kernel) (by rw [listing_enum_name]; decide +kernel)

def zeroMember : Value := .number (.float ⟨0x0000000000000000#64, by decide⟩)

/-- Equal to zero as a number, but of another text. -/
def negativeZeroMember : Value := .number (.float ⟨0x8000000000000000#64, by decide⟩)

/-- Two names change places with the two zeros. -/
def zerosForNames : Equiv.Perm Value :=
  (Equiv.swap (.string "a") zeroMember).trans (Equiv.swap (.string "b") negativeZeroMember)

theorem zerosForNames_wellFormed (v : Value) (formed : v.wellFormed = true) : (zerosForNames v).wellFormed = true := by
  rw [zerosForNames, Equiv.trans_apply, Equiv.swap_apply_def, Equiv.swap_apply_def]
  split_ifs <;> first | rfl | exact formed

theorem listing_enum_a : extractToolCatalog Compact.codec (toolListing (enumOf [.string "a"])) =
    echoCatalog (enumOf [.string "a"]) :=
  listing_catalog (by decide) (by decide) (by decide)

theorem listing_enum_zero : extractToolCatalog Compact.codec (toolListing (enumOf [zeroMember])) =
    echoCatalog (enumOf [zeroMember]) := by decide +kernel

theorem listing_enum_negativeZero : extractToolCatalog Compact.codec (toolListing (enumOf [negativeZeroMember])) =
    echoCatalog (enumOf [negativeZeroMember]) := by decide +kernel

/-- A change of the one name to the other is reported, that of the one zero to the other is not. -/
theorem zeros_for_names_differ :
    ¬ ∀ (codec : Codec) (f : Value → Value), Function.Injective f →
      (∀ v, v.wellFormed = true → (f v).wellFormed = true) →
      ∀ baseline candidate baseline' candidate' : List StoredMessage,
        extractToolCatalog codec baseline' = (extractToolCatalog codec baseline).renameSchemas f →
        extractToolCatalog codec candidate' = (extractToolCatalog codec candidate).renameSchemas f →
        explainToolSchemaChanges codec baseline' candidate' = explainToolSchemaChanges codec baseline candidate := by
  intro renamed
  have same := renamed Compact.codec zerosForNames zerosForNames.injective zerosForNames_wellFormed
    (toolListing (enumOf [.string "a"])) (toolListing (enumOf [.string "b"]))
    (toolListing (enumOf [zeroMember])) (toolListing (enumOf [negativeZeroMember]))
    (by rw [listing_enum_a, listing_enum_zero]; decide +kernel)
    (by rw [listing_enum_name, listing_enum_negativeZero]; decide +kernel)
  rw [explainToolSchemaChanges, listing_enum_zero, listing_enum_negativeZero, explainToolSchemaChanges, listing_enum_a,
    listing_enum_name] at same
  exact absurd same (by decide +kernel)

end McpTracer.Model
