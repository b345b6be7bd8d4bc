import McpTracer.Model.SchemaSilence

/-! What the label "potentially non-breaking" is worth.

The analyzer judges keywords one at a time. Each harmless change lets a keyword allow what it
allowed before. A closed object is the exception, since there the keywords act together: a
property whose definition goes away is unconstrained for the analyzer, but forbidden for the
candidate.
-/

set_option autoImplicit false

namespace McpTracer.Model
open McpTracer.Foundation McpTracer.Json McpTracer.Protocol McpTracer.Storage

/-! ## Schemas and what they drop -/

/-- A schema of the keywords that the analyzer knows, with booleans for additional properties. -/
inductive Supported : Value → Prop where
  | node {fields : List (String × Value)}
      (keywords : ∀ keyword ∈ fields.map Prod.fst, keyword ∈ knownKeywords)
      (additional : ∀ schema, fields.lookup "additionalProperties" = some schema → ∃ b, schema = .bool b)
      (definitions : ∀ name definition, definitionOf fields name = some definition → Supported definition) :
      Supported (.object fields)

/-- Somewhere in the instance is a member that only the first schema declares, and the second is closed there. -/
inductive Dropped : Value → Value → Instance → Prop where
  | here {before after : List (String × Value)} {i member : Instance} {name : String}
      (has : i.get name = some member) (declared : definitionOf before name ≠ none)
      (gone : definitionOf after name = none)
      (closed : after.lookup "additionalProperties" = some (.bool false)) :
      Dropped (.object before) (.object after) i
  | within {before after : List (String × Value)} {i member : Instance} {name : String}
      (has : i.get name = some member)
      (dropped : Dropped (propertySchema before name) (propertySchema after name) member) :
      Dropped (.object before) (.object after) i

theorem supported_propertySchema {fields : List (String × Value)} (supported : Supported (.object fields))
    (name : String) : Supported (propertySchema fields name) := by
  cases supported with
  | node _ _ definitions =>
    rw [propertySchema_eq]
    cases declared : definitionOf fields name with
    | none =>
      refine .node (by simp) ?_ ?_
      · intro schema listed
        cases listed
      · intro name definition declares
        cases declares
    | some definition => exact definitions name definition declared

theorem accepts_propertySchema {fields : List (String × Value)} {i member : Instance} {name : String}
    (accepts : Accepts (.object fields) i) (has : i.get name = some member) :
    Accepts (propertySchema fields name) member := by
  cases accepts with
  | object _ _ _ declared _ =>
    rw [propertySchema_eq]
    cases definition : definitionOf fields name with
    | none => exact accepts_empty member
    | some schema => exact declared name member schema has definition

/-- A closed schema rejects what it has dropped. -/
theorem Dropped.not_accepts {before after : Value} {i : Instance} (dropped : Dropped before after i) :
    ¬ Accepts after i := by
  induction dropped with
  | here has _ gone closed =>
    intro accepts
    cases accepts with
    | object _ _ _ _ additional => cases additional _ _ _ has gone closed
  | within has _ ih => exact fun accepts => ih (accepts_propertySchema accepts has)

/-! ## Harmless changes of a keyword -/

/-- Nothing but potentially non-breaking changes is reported. -/
def Harmless (found : List SchemaChangeExplanation) : Prop :=
  ∀ explanation ∈ found, explanation.classification = .potentiallyNonBreaking

section
variable {found others : List SchemaChangeExplanation} {explanation : SchemaChangeExplanation}

theorem harmless_append : Harmless (found ++ others) ↔ Harmless found ∧ Harmless others :=
  List.forall_mem_append

theorem harmless_singleton : Harmless [explanation] ↔ explanation.classification = .potentiallyNonBreaking := by
  simp [Harmless]

end

theorem not_harmless_unclassified (site : SchemaSite) (reason before after : String) (keywords : List String) :
    ¬ Harmless [site.unclassified reason before after keywords] := by
  simp [harmless_singleton, SchemaSite.unclassified, SchemaSite.explanation, outputClassification]

/-- For an input, an explanation is labelled as the rule says. -/
theorem explanation_classification {site : SchemaSite} (input : site.kind = .input) (rule : String)
    (classification : SchemaChangeClassification) (before after reason : String)
    (keywords : Option (List String)) :
    (site.explanation rule classification before after reason keywords).classification = classification := by
  simp [SchemaSite.explanation, outputClassification, input]

theorem direction_widening {narrowing widening : Bool} {fewer more other : String}
    (harmless : (direction narrowing widening fewer more other).2.1 = .potentiallyNonBreaking) :
    widening = true := by
  cases narrowing <;> cases widening <;> simp_all [direction]

/-- A harmless report on a keyword is a report on two readings, if there is one at all. -/
theorem readAlike_or_harmless {A : Type} {parse : Option Value → Option A}
    {report : A → A → List SchemaChangeExplanation} {unread : SchemaChangeExplanation}
    {before after : Option Value} (unclassified : ¬ Harmless [unread])
    (harmless : Harmless (readChanges parse unread report before after)) :
    ReadAlike parse before after ∨ ∃ olds news, parse before = some olds ∧ parse after = some news ∧
      Harmless (report olds news) := by
  unfold readChanges at harmless
  cases same : before == after with
  | true => exact .inl (.inl same)
  | false =>
    rw [if_pos (by simp [bne, same])] at harmless
    cases left : parse before with
    | none => exact absurd (by rwa [left] at harmless) unclassified
    | some olds =>
      cases right : parse after with
      | none => exact absurd (by rwa [left, right] at harmless) unclassified
      | some news => exact .inr ⟨olds, news, rfl, rfl, by rwa [left, right] at harmless⟩

/-- Where two readings differ, a harmless report on them is one of a widened set. -/
theorem readAlike_or_widened {A : Type} {parse : Option Value → Option A} {subset : A → A → Bool}
    {report : A → A → List SchemaChangeExplanation} {site : SchemaSite} {keyword reason : String}
    {before after : Option Value}
    (widened : ∀ olds news, olds ≠ news → Harmless (report olds news) → subset olds news = true)
    (harmless : Harmless
      (readChanges parse (unclassifiedKeyword site keyword reason before after) report before after)) :
    ReadAlike parse before after ∨ ∃ olds news, parse before = some olds ∧ parse after = some news ∧
      subset olds news = true := by
  rcases readAlike_or_harmless (not_harmless_unclassified _ _ _ _ _) harmless with
    alike | ⟨olds, news, left, right, harmlessReport⟩
  · exact .inl alike
  · by_cases equal : olds = news
    · exact .inl (.inr ⟨olds, left, equal ▸ right⟩)
    · exact .inr ⟨olds, news, left, right, widened olds news equal harmlessReport⟩

section
variable {site : SchemaSite} {before after : Option Value}

theorem typeChanges_harmless (input : site.kind = .input) (harmless : Harmless (typeChanges site before after)) :
    ReadAlike parseTypeSet before after ∨ ∃ olds news, parseTypeSet before = some olds ∧
      parseTypeSet after = some news ∧ typeSetSubset olds news = true := by
  refine readAlike_or_widened (fun olds news differ report => ?_) harmless
  rw [if_pos differ, harmless_singleton, explanation_classification (by exact input)] at report
  exact direction_widening report

theorem enumChanges_harmless {codec : Codec} (input : site.kind = .input)
    (harmless : Harmless (enumChanges codec site before after)) :
    ReadAlike (parseEnum codec) before after ∨ ∃ olds news, parseEnum codec before = some olds ∧
      parseEnum codec after = some news ∧ enumSubset olds news = true := by
  refine readAlike_or_widened (fun olds news differ report => ?_) harmless
  rw [if_pos differ, harmless_singleton, explanation_classification (by exact input)] at report
  exact direction_widening report

theorem requiredChanges_harmless (input : site.kind = .input)
    (harmless : Harmless (requiredChanges site before after)) :
    ReadAlike parseRequired before after ∨ ∃ olds news, parseRequired before = some olds ∧
      parseRequired after = some news ∧ ∀ name ∈ news, name ∈ olds := by
  rcases readAlike_or_harmless (not_harmless_unclassified _ _ _ _ _) harmless with
    alike | ⟨olds, news, left, right, report⟩
  · exact .inl alike
  · refine .inr ⟨olds, news, left, right, fun name member => ?_⟩
    by_contra fresh
    have reported : requiredAdded site name ∈
        (news.filter fun name => !olds.contains name).map (requiredAdded site) :=
      List.mem_map_of_mem (List.mem_filter.2 ⟨member, by simpa using fresh⟩)
    have label := (harmless_append.1 report).1 _ reported
    rw [requiredAdded, explanation_classification (by exact input)] at label
    cases label

theorem additionalPropertiesChanges_harmless (input : site.kind = .input)
    (harmless : Harmless (additionalPropertiesChanges site before after)) :
    ReadAlike parseAdditionalProperties before after ∨ parseAdditionalProperties after = some .allow := by
  rcases readAlike_or_harmless (not_harmless_unclassified _ _ _ _ _) harmless with
    alike | ⟨old, new, left, right, report⟩
  · exact .inl alike
  · by_cases equal : old = new
    · exact .inl (.inr ⟨old, left, equal ▸ right⟩)
    · rw [if_neg equal] at report
      split at report
      · rw [harmless_singleton, explanation_classification (by exact input)] at report
        cases report
      · exact .inr right
      · exact absurd report (not_harmless_unclassified _ _ _ _ _)

end

/-! ## Each keyword allows no less -/

/-- Items that are listed in any order cover each other. -/
theorem SameItems.covered {items : Option Value → Option (List Value)} {before after : Option Value}
    (same : SameItems items before after)
    (equal : (before == after) = true →
      Option.Rel (List.Forall₂ fun old new => old.beq new = true) (items before) (items after))
    {news : List Value} (listed : items after = some news) :
    ∃ olds, items before = some olds ∧ Covered olds news ∧ Covered news olds := by
  rcases same with beq | ⟨olds, others, left, right, perm⟩
  · exact covered_of_rel (equal beq) listed
  · obtain rfl : others = news := Option.some.inj (right.symm.trans listed)
    exact ⟨olds, left, covered_of_subset fun item => perm.mem_iff.1, covered_of_subset fun item => perm.mem_iff.2⟩

/-- An integer is a number, so a set that has lost "integer" to "number" still covers it. -/
theorem typeSetSubset_sound {olds news : List String} (subset : typeSetSubset (some olds) (some news) = true)
    {i : Instance} {name : String} (has : name ∈ i.typeNames) (listed : name ∈ olds) :
    ∃ other ∈ i.typeNames, other ∈ news := by
  have covered := List.all_eq_true.1 subset name listed
  simp only [Bool.or_eq_true, List.contains_eq_mem, decide_eq_true_eq, Bool.and_eq_true, beq_iff_eq] at covered
  rcases covered with kept | ⟨rfl, number⟩
  · exact ⟨name, has, kept⟩
  · exact ⟨"number", Instance.number_of_integer has, number⟩

section
variable {site : SchemaSite} {before after : Option Value} {i : Instance}

theorem typeAllows_of_harmless (input : site.kind = .input) (harmless : Harmless (typeChanges site before after))
    (allows : TypeAllows before i) : TypeAllows after i := by
  rcases typeChanges_harmless input harmless with alike | ⟨olds, news, left, right, subset⟩
  · refine allows.mono fun news listed => ?_
    obtain ⟨olds, earlier, covered, -⟩ := (sameItems_of_readAlike_type alike).covered typeItems_beq listed
    exact ⟨olds, earlier, covered⟩
  · rcases parseTypeSet_eq_some right with ⟨rfl, -⟩ | ⟨newNames, newItems, -, rfl⟩
    · intro items listed
      cases listed
    · rcases parseTypeSet_eq_some left with ⟨-, rfl⟩ | ⟨oldNames, oldItems, -, rfl⟩
      · cases subset
      · intro items listed
        obtain rfl : newNames.map Value.string = items := Option.some.inj (newItems.symm.trans listed)
        obtain ⟨name, has, member⟩ := allows _ oldItems
        obtain ⟨other, otherHas, kept⟩ := typeSetSubset_sound subset has
          (SortedSet.mem_ofList.2 (by simpa using member))
        exact ⟨other, otherHas, List.mem_map_of_mem (SortedSet.mem_ofList.1 kept)⟩

theorem requiredAllows_of_harmless (input : site.kind = .input)
    (harmless : Harmless (requiredChanges site before after)) (allows : RequiredAllows before i) :
    RequiredAllows after i := by
  refine allows.mono fun items listed => ?_
  rcases requiredChanges_harmless input harmless with alike | ⟨olds, news, left, right, subset⟩
  · obtain ⟨olds, earlier, -, covered⟩ :=
      (sameItems_of_readAlike_required alike).covered requiredItems_beq listed
    exact ⟨olds, earlier, covered⟩
  · obtain ⟨oldNames, oldItems, -, rfl⟩ := parseRequired_eq_some left
    obtain ⟨newNames, newItems, -, rfl⟩ := parseRequired_eq_some right
    obtain rfl : newNames.map Value.string = items := Option.some.inj (newItems.symm.trans listed)
    refine ⟨_, oldItems, covered_of_subset fun item member => ?_⟩
    obtain ⟨name, kept, rfl⟩ := List.mem_map.1 member
    exact List.mem_map_of_mem (SortedSet.mem_ofList.1 (subset name (SortedSet.mem_ofList.2 kept)))

theorem enumAllows_of_harmless {codec : Codec}
    (formedBefore : ∀ keyword, before = some keyword → keyword.wellFormed = true)
    (formedAfter : ∀ keyword, after = some keyword → keyword.wellFormed = true)
    (input : site.kind = .input) (harmless : Harmless (enumChanges codec site before after))
    (allows : EnumAllows before i) : EnumAllows after i := by
  rcases enumChanges_harmless input harmless with alike | ⟨olds, news, left, right, subset⟩
  · refine allows.mono fun items listed => ?_
    obtain ⟨olds, earlier, covered, -⟩ :=
      (sameItems_of_readAlike_enum formedBefore formedAfter alike).covered enumItems_beq listed
    exact ⟨olds, earlier, covered⟩
  · rcases parseEnum_eq_some right with ⟨rfl, -⟩ | ⟨newValues, rfl, -, rfl⟩
    · intro items listed
      cases listed
    · rcases parseEnum_eq_some left with ⟨-, rfl⟩ | ⟨oldValues, rfl, -, rfl⟩
      · cases subset
      · refine allows.mono fun items listed => ?_
        obtain rfl : newValues = items := Option.some.inj listed
        refine ⟨oldValues, rfl, covered_of_subset fun item member => ?_⟩
        -- The text of the member is among the new texts, and only its own text is.
        have text := List.all_eq_true.1 subset _ (SortedSet.mem_ofList.2 (List.mem_map_of_mem member))
        simp only [List.contains_eq_mem, decide_eq_true_eq, SortedSet.mem_ofList, List.mem_map] at text
        obtain ⟨other, found, sameText⟩ := text
        have oldFormed := (Value.wellFormedItems_iff oldValues).1 (formedBefore _ rfl) item member
        have newFormed := (Value.wellFormedItems_iff newValues).1 (formedAfter _ rfl) other found
        exact codec.toString_injective newFormed oldFormed sameText ▸ found

/-- A candidate that is closed was closed before. -/
theorem closed_of_harmless (input : site.kind = .input)
    (harmless : Harmless (additionalPropertiesChanges site before after))
    (closed : after = some (.bool false)) : before = some (.bool false) := by
  subst closed
  rcases additionalPropertiesChanges_harmless input harmless with (same | ⟨read, left, right⟩) | opened
  · cases Value.optionBeq_iff.1 same with
    | @some old _ equal =>
      cases old with
      | bool b =>
        obtain rfl : b = false := by simpa [Value.beq] using equal
        rfl
      | _ => cases equal
  · obtain rfl : AdditionalPropertiesState.deny = read := Option.some.inj right
    unfold parseAdditionalProperties at left
    split at left <;> cases left
    rfl
  · cases opened

end

/-! ## Schemas -/

/-- When all that is reported is harmless, an accepted instance is rejected only for a member that was dropped. -/
theorem Explains.accepts_iff {codec : Codec} {site : SchemaSite} {before after : Value}
    {found : List SchemaChangeExplanation} (explains : Explains codec site before after found)
    (input : site.kind = .input) (harmless : Harmless found) (supported : Supported after)
    (formedBefore : before.wellFormed = true) (formedAfter : after.wellFormed = true) {i : Instance}
    (accepts : Accepts before i) : Accepts after i ↔ ¬ Dropped before after i := by
  refine ⟨fun accepted dropped => dropped.not_accepts accepted, fun kept => ?_⟩
  induction explains generalizing i with
  | shape odd => exact absurd harmless (not_harmless_unclassified _ _ _ _ _)
  | invalid invalid =>
    rw [harmless_append, harmless_append] at harmless
    exact absurd harmless.1.2 (not_harmless_unclassified _ _ _ _ _)
  | @object site before after valid children unchanged changed ih =>
    simp only [keywordChanges, harmless_append] at harmless
    obtain ⟨⟨⟨⟨⟨type, required⟩, additional⟩, enum⟩, below⟩, -⟩ := harmless
    have whole := accepts
    cases accepts with
    | object typeOk enumOk requiredOk _ additionalOk =>
      refine .object (typeAllows_of_harmless input type typeOk) ?_
        (requiredAllows_of_harmless input required requiredOk) ?_ ?_
      · exact enumAllows_of_harmless (wellFormed_lookup formedBefore "enum") (wellFormed_lookup formedAfter "enum")
          input enum enumOk
      · intro name member definition has declares
        have earlier := accepts_propertySchema whole has
        have definition_ : propertySchema after name = definition := by
          rw [propertySchema_eq, declares]
          rfl
        rw [← definition_]
        cases same : (propertySchema before name).beq (propertySchema after name) with
        | true => exact earlier.of_beq same
        | false =>
          by_cases named : name ∈ propertyNames before after
          · have harmlessChildren : Harmless (children name) := fun explanation reported =>
              below explanation (List.mem_flatMap.2 ⟨name, named, reported⟩)
            exact ih name named same input harmlessChildren (supported_propertySchema supported name)
              (wellFormed_propertySchema formedBefore name) (wellFormed_propertySchema formedAfter name) earlier
              fun dropped => kept (.within has dropped)
          · obtain ⟨left, right⟩ := propertySchema_of_not_named named
            rw [left, right] at same
            cases same
      · intro name member schema has undeclared listed
        cases supported with
        | node _ booleans _ =>
          obtain ⟨b, rfl⟩ := booleans schema listed
          cases b with
          | true => exact .any member
          | false =>
            have closed := closed_of_harmless input additional listed
            cases declared : definitionOf before name with
            | none => cases additionalOk name member _ has declared closed
            | some definition => exact absurd (.here has (by simp [declared]) undeclared listed) kept

/-- In a complete analysis that reports only potentially non-breaking changes of an input schema, the candidate
accepts what the baseline accepted, but for the instances that have a member which was dropped. -/
theorem harmless_changes_accept_iff {codec : Codec} {baseline candidate : List StoredMessage}
    (complete : (explainToolSchemaChanges codec baseline candidate).analysisStatus = .complete)
    {tool : String} {before after : ToolDef}
    (old : (extractTools codec baseline).lookup tool = some before)
    (new : (extractTools codec candidate).lookup tool = some after)
    {oldSchema newSchema : Value} (oldInput : before.inputSchema = some oldSchema)
    (newInput : after.inputSchema = some newSchema) (supported : Supported newSchema)
    (harmless : ∀ explanation ∈ (explainToolSchemaChanges codec baseline candidate).schemaExplanations,
      explanation.Of tool .input → explanation.classification = .potentiallyNonBreaking)
    (i : Instance) (accepts : Accepts oldSchema i) :
    Accepts newSchema i ↔ ¬ Dropped oldSchema newSchema i := by
  obtain ⟨found, explained, reported⟩ := explainToolSchemaChanges_complete complete .input old new
  have harmlessFound : Harmless found := fun explanation member =>
    harmless explanation ((reported explanation).2 member).1 ((reported explanation).2 member).2
  have formedBefore := extractTools_wellFormed (mem_of_lookup old) .input oldSchema oldInput
  have formedAfter := extractTools_wellFormed (mem_of_lookup new) .input newSchema newInput
  rw [show before.schema .input = some oldSchema from oldInput,
    show after.schema .input = some newSchema from newInput] at explained
  cases same : oldSchema.beq newSchema with
  | true => exact ⟨fun accepted dropped => dropped.not_accepts accepted, fun _ => accepts.of_beq same⟩
  | false =>
    exact (explained.2 same).accepts_iff rfl harmlessFound supported formedBefore formedAfter accepts

/-- Where nothing is declared, nothing is dropped. -/
theorem not_dropped_of_no_properties {before : List (String × Value)} (none : before.lookup "properties" = none)
    (after : Value) (i : Instance) : ¬ Dropped (.object before) after i := by
  generalize whole : Value.object before = earlier
  intro dropped
  induction dropped generalizing before with
  | here has declared _ _ =>
    cases whole
    exact declared (by rw [definitionOf, none]; rfl)
  | @within _ after i member name has _ ih =>
    cases whole
    -- Below, the first schema is the empty one.
    refine @ih [] rfl ?_
    rw [propertySchema, propertiesOf, none]
    rfl

theorem listing_integer : extractToolCatalog Compact.codec (toolListing (typed (.string "integer"))) =
    echoCatalog (typed (.string "integer")) :=
  listing_catalog (by decide) (by decide) (by decide)

theorem listing_number : extractToolCatalog Compact.codec (toolListing (typed (.string "number"))) =
    echoCatalog (typed (.string "number")) :=
  listing_catalog (by decide) (by decide) (by decide)

theorem accepts_typed {name : String} {i : Instance} (named : name ∈ i.typeNames) :
    Accepts (typed (.string name)) i := by
  refine .object ?_ ?_ ?_ ?_ ?_
  · rintro items ⟨⟩
    exact ⟨name, named, List.mem_singleton_self _⟩
  · intro items listed
    cases listed
  · rintro items ⟨⟩ _ name member
    cases member
  · intro name member definition _ declared
    cases declared
  · intro name member schema _ _ declared
    cases declared

theorem harmless_changes_accept_integer :
    Accepts (typed (.string "integer")) (.number 3) ∧ Accepts (typed (.string "number")) (.number 3) := by
  have complete : (explainToolSchemaChanges Compact.codec (toolListing (typed (.string "integer")))
      (toolListing (typed (.string "number")))).analysisStatus = .complete := by
    rw [explainToolSchemaChanges, listing_integer, listing_number]
    decide +kernel
  have harmless : ∀ explanation ∈ (explainToolSchemaChanges Compact.codec
      (toolListing (typed (.string "integer"))) (toolListing (typed (.string "number")))).schemaExplanations,
      explanation.classification = .potentiallyNonBreaking := by
    rw [explainToolSchemaChanges, listing_integer, listing_number]
    decide +kernel
  have supported : Supported (typed (.string "number")) := by
    refine .node (by decide) ?_ ?_
    · intro schema listed
      cases listed
    · intro name definition declares
      cases declares
  have accepts : Accepts (typed (.string "integer")) (.number 3) := accepts_typed (by decide)
  exact ⟨accepts, (harmless_changes_accept_iff complete (lookup_echo listing_integer) (lookup_echo listing_number)
    rfl rfl supported (fun explanation reported _ => harmless explanation reported) _ accepts).2
    (not_dropped_of_no_properties rfl _ _)⟩

/-- An object schema without additional properties. -/
def closedTo (properties : List (String × Value)) : Value :=
  .object [("additionalProperties", .bool false), ("properties", .object properties)]

theorem listing_declared : extractToolCatalog Compact.codec (toolListing (closedTo [("a", .object [])])) =
    echoCatalog (closedTo [("a", .object [])]) :=
  listing_catalog (by decide) (by decide) (by decide)

theorem listing_dropped : extractToolCatalog Compact.codec (toolListing (closedTo [])) =
    echoCatalog (closedTo []) :=
  listing_catalog (by decide) (by decide) (by decide)

theorem supported_closedTo {properties : List (String × Value)}
    (definitions : ∀ name definition, properties.lookup name = some definition → definition = .object []) :
    Supported (closedTo properties) := by
  have empty : Supported (.object []) := by
    refine .node (by simp) ?_ ?_
    · intro schema listed
      cases listed
    · intro name definition declares
      cases declares
  refine .node (by simp [knownKeywords]) ?_ ?_
  · intro schema listed
    exact ⟨false, (Option.some.inj listed).symm⟩
  · intro name definition declares
    rw [definitions name definition declares]
    exact empty

/-- A closed schema that no longer declares a property rejects the calls that pass it, and nothing is reported. -/
theorem property_drop_unreported :
    ¬ ∀ (codec : Codec) (baseline candidate : List StoredMessage),
      (explainToolSchemaChanges codec baseline candidate).analysisStatus = .complete →
      ∀ (tool : String) (before after : ToolDef),
        (extractTools codec baseline).lookup tool = some before →
        (extractTools codec candidate).lookup tool = some after →
        ∀ oldSchema newSchema, before.inputSchema = some oldSchema → after.inputSchema = some newSchema →
        Supported oldSchema → Supported newSchema →
        (∀ explanation ∈ (explainToolSchemaChanges codec baseline candidate).schemaExplanations,
          explanation.Of tool .input → explanation.classification = .potentiallyNonBreaking) →
        ∀ i : Instance, i.WellFormed → Accepts oldSchema i → Accepts newSchema i := by
  intro sound
  have complete : (explainToolSchemaChanges Compact.codec (toolListing (closedTo [("a", .object [])]))
      (toolListing (closedTo []))).analysisStatus = .complete := by
    rw [explainToolSchemaChanges, listing_declared, listing_dropped]
    decide +kernel
  have silent : (explainToolSchemaChanges Compact.codec (toolListing (closedTo [("a", .object [])]))
      (toolListing (closedTo []))).schemaExplanations = [] := by
    rw [explainToolSchemaChanges, listing_declared, listing_dropped]
    decide +kernel
  have supportedOld : Supported (closedTo [("a", .object [])]) := by
    refine supported_closedTo fun name definition declares => ?_
    have member := mem_of_lookup declares
    simp only [List.mem_singleton, Prod.mk.injEq] at member
    exact member.2
  have formed : (Instance.object [("a", .null)]).WellFormed :=
    .object (by simp) (by simpa using Instance.WellFormed.null)
  have accepted : Accepts (closedTo [("a", .object [])]) (.object [("a", .null)]) := by
    refine .object ?_ ?_ ?_ ?_ ?_
    · intro items listed
      cases listed
    · intro items listed
      cases listed
    · rintro items ⟨⟩ _ name member
      cases member
    · intro name member definition _ declares
      obtain ⟨rfl, rfl⟩ : name = "a" ∧ definition = .object [] := by simpa using mem_of_lookup declares
      exact accepts_empty member
    · intro name member schema has undeclared _
      obtain ⟨rfl, rfl⟩ : name = "a" ∧ member = .null := by simpa using mem_of_lookup has
      cases undeclared
  have rejected := sound Compact.codec _ _ complete "echo" _ _ (lookup_echo listing_declared)
    (lookup_echo listing_dropped) _ _ rfl rfl supportedOld (supported_closedTo (by simp)) (by simp [silent])
    _ formed accepted
  cases rejected with
  | object _ _ _ _ additional => cases additional "a" .null (.bool false) rfl rfl rfl

end McpTracer.Model
