import McpTracer.Model.Emptiness
import McpTracer.Model.SchemaChanges

/-! What a completed schema analysis reports, without its budgets.

The budgets only ever truncate. So an analysis that ends untruncated has gone through every
node, and what it reports of a pair of schemas is a list that the pair determines.
-/

set_option autoImplicit false

namespace McpTracer.Model
open McpTracer.Foundation McpTracer.Json McpTracer.Storage

/-! ## Untruncated steps -/

namespace SchemaAnalysis

/-- If the later analysis is untruncated, the earlier one is, and a list that holds was added to it. -/
def Extends (holds : List SchemaChangeExplanation → Prop) (earlier later : SchemaAnalysis) : Prop :=
  later.truncated = false → earlier.truncated = false ∧
    ∃ found, later.explanations = earlier.explanations ++ found ∧ holds found

section
variable {earlier middle later : SchemaAnalysis} {first second : List SchemaChangeExplanation → Prop}

theorem Extends.refl (analysis : SchemaAnalysis) : analysis.Extends (· = []) analysis :=
  fun whole => ⟨whole, [], by simp, rfl⟩

theorem Extends.imp (step : earlier.Extends first later) (weaker : ∀ found, first found → second found) :
    earlier.Extends second later := by
  intro whole
  obtain ⟨before, found, added, holds⟩ := step whole
  exact ⟨before, found, added, weaker found holds⟩

theorem Extends.trans (left : earlier.Extends first middle) (right : middle.Extends second later) :
    earlier.Extends (fun found => ∃ front back, found = front ++ back ∧ first front ∧ second back) later := by
  intro whole
  obtain ⟨between, back, addedBack, holdsBack⟩ := right whole
  obtain ⟨before, front, addedFront, holdsFront⟩ := left between
  refine ⟨before, front ++ back, ?_, front, back, rfl, holdsFront, holdsBack⟩
  rw [addedBack, addedFront, List.append_assoc]

theorem extends_of_truncated (holds : List SchemaChangeExplanation → Prop) (earlier : SchemaAnalysis)
    (truncated : later.truncated = true) : earlier.Extends holds later := by
  intro whole
  rw [truncated] at whole
  cases whole

end

theorem push_extends (analysis : SchemaAnalysis) (explanation : SchemaChangeExplanation) :
    analysis.Extends (· = [explanation]) (analysis.push explanation) := by
  unfold push
  split
  · exact extends_of_truncated _ _ rfl
  · exact fun whole => ⟨whole, [explanation], rfl, rfl⟩

theorem pushAll_extends (analysis : SchemaAnalysis) (explanations : List SchemaChangeExplanation) :
    analysis.Extends (· = explanations) (analysis.pushAll explanations) := by
  induction explanations generalizing analysis with
  | nil => exact Extends.refl analysis
  | cons explanation rest ih =>
    refine ((analysis.push_extends explanation).trans (ih (analysis.push explanation))).imp ?_
    rintro _ ⟨_, _, rfl, rfl, rfl⟩
    rfl

theorem pushUntilTruncated_extends (analysis : SchemaAnalysis) (explanations : List SchemaChangeExplanation) :
    analysis.Extends (· = explanations) (analysis.pushUntilTruncated explanations) := by
  induction explanations generalizing analysis with
  | nil => exact Extends.refl analysis
  | cons explanation rest ih =>
    unfold pushUntilTruncated
    dsimp only
    split
    · exact extends_of_truncated _ _ (by assumption)
    · refine ((analysis.push_extends explanation).trans (ih (analysis.push explanation))).imp ?_
      rintro _ ⟨_, _, rfl, rfl, rfl⟩
      rfl

end SchemaAnalysis

open SchemaAnalysis in
/-- A walk over distinct items adds what its steps add, item by item. -/
theorem walkUntilTruncated_extends {A : Type} {step : A → SchemaAnalysis → SchemaAnalysis}
    {holds : A → List SchemaChangeExplanation → Prop} {items : List A} (distinct : items.Nodup)
    (steps : ∀ item ∈ items, ∀ analysis : SchemaAnalysis, analysis.Extends (holds item) (step item analysis))
    (analysis : SchemaAnalysis) :
    analysis.Extends
      (fun found => ∃ part : A → List SchemaChangeExplanation,
        found = items.flatMap part ∧ ∀ item ∈ items, holds item (part item))
      (walkUntilTruncated step items analysis) := by
  classical
  induction items generalizing analysis with
  | nil => exact (Extends.refl analysis).imp fun found none => ⟨fun _ => [], none, by simp⟩
  | cons item rest ih =>
    obtain ⟨fresh, others⟩ := List.nodup_cons.1 distinct
    obtain ⟨head, tail⟩ := List.forall_mem_cons.1 steps
    unfold walkUntilTruncated
    dsimp only
    split
    · exact extends_of_truncated _ _ (by assumption)
    · refine ((head analysis).trans (ih others tail (step item analysis))).imp ?_
      rintro _ ⟨front, _, rfl, holdsFront, part, rfl, holdsPart⟩
      have elsewhere : ∀ other ∈ rest, Function.update part item front other = part other :=
        fun other member => Function.update_of_ne (by rintro rfl; exact fresh member) _ _
      refine ⟨Function.update part item front, ?_, ?_⟩
      · rw [List.flatMap_cons, Function.update_self, List.flatMap_congr elsewhere]
      · refine List.forall_mem_cons.2 ⟨by rwa [Function.update_self], fun other member => ?_⟩
        rw [elsewhere other member]
        exact holdsPart other member

/-! ## Nodes -/

/-- The explanations of a pair of different schemas at a place, whatever the budgets. -/
inductive Explains (codec : Codec) : SchemaSite → Value → Value → List SchemaChangeExplanation → Prop where
  | shape {site : SchemaSite} {before after : Value}
      (odd : before.asObject = none ∨ after.asObject = none) :
      Explains codec site before after [invalidShape site]
  | invalid {site : SchemaSite} {before after : List (String × Value)}
      (invalid : (hasInvalidProperties before || hasInvalidProperties after) = true) :
      Explains codec site (.object before) (.object after)
        (keywordChanges codec site before after ++ [invalidProperties site before after] ++
          otherChanges site before after)
  | object {site : SchemaSite} {before after : List (String × Value)}
      (valid : (hasInvalidProperties before || hasInvalidProperties after) = false)
      (children : String → List SchemaChangeExplanation)
      (unchanged : ∀ name ∈ propertyNames before after,
        (propertySchema before name).beq (propertySchema after name) = true → children name = [])
      (changed : ∀ name ∈ propertyNames before after,
        (propertySchema before name).beq (propertySchema after name) = false →
          Explains codec (site.property name) (propertySchema before name) (propertySchema after name)
            (children name)) :
      Explains codec site (.object before) (.object after)
        (keywordChanges codec site before after ++ (propertyNames before after).flatMap children ++
          otherChanges site before after)

theorem propertyNames_nodup (before after : List (String × Value)) : (propertyNames before after).Nodup :=
  SortedSet.ofList_nodup _

/-- What is reported of the definitions of one property. -/
def PropertyExplained (codec : Codec) (site : SchemaSite) (before after : List (String × Value))
    (name : String) (found : List SchemaChangeExplanation) : Prop :=
  ((propertySchema before name).beq (propertySchema after name) = true → found = []) ∧
    ((propertySchema before name).beq (propertySchema after name) = false →
      Explains codec (site.property name) (propertySchema before name) (propertySchema after name) found)

theorem walkProperty_extends {codec : Codec}
    {analyze : SchemaSite → Value → Value → SchemaAnalysis → SchemaAnalysis}
    (analyzed : ∀ site before after, ∀ analysis : SchemaAnalysis,
      analysis.Extends (Explains codec site before after) (analyze site before after analysis))
    (site : SchemaSite) (before after : List (String × Value)) (name : String) (analysis : SchemaAnalysis) :
    analysis.Extends (PropertyExplained codec site before after name)
      (walkProperty analyze site before after name analysis) := by
  unfold walkProperty
  cases same : (propertySchema before name).beq (propertySchema after name) with
  | true =>
    have equal : ¬ (propertySchema before name != propertySchema after name) = true := by
      simp [bne, BEq.beq, same]
    rw [if_neg equal]
    exact (SchemaAnalysis.Extends.refl analysis).imp fun found none =>
      ⟨fun _ => none, fun differs => by simp [same] at differs⟩
  | false =>
    have differs : (propertySchema before name != propertySchema after name) = true := by
      simp [bne, BEq.beq, same]
    rw [if_pos differs]
    exact (analyzed _ _ _ analysis).imp fun found explained =>
      ⟨fun equal => by simp [same] at equal, fun _ => explained⟩

open SchemaAnalysis in
theorem analyzeSchemaNode_extends (codec : Codec) (levels : Nat) (site : SchemaSite) (before after : Value)
    (analysis : SchemaAnalysis) :
    analysis.Extends (Explains codec site before after)
      (analyzeSchemaNode codec levels site before after analysis) := by
  induction levels generalizing site before after analysis with
  | zero =>
    unfold analyzeSchemaNode
    split <;> exact extends_of_truncated _ _ rfl
  | succ levels ih =>
    unfold analyzeSchemaNode
    split
    · exact extends_of_truncated _ _ rfl
    dsimp only
    split
    · exact extends_of_truncated _ _ rfl
    split
    · rename_i fields others left right
      obtain rfl := Value.asObject_eq_some_iff.1 left
      obtain rfl := Value.asObject_eq_some_iff.1 right
      have counted : analysis.Extends (· = keywordChanges codec site fields others)
          (pushAll { analysis with nodes := analysis.nodes + 1 } (keywordChanges codec site fields others)) :=
        pushAll_extends { analysis with nodes := analysis.nodes + 1 } _
      generalize pushAll { analysis with nodes := analysis.nodes + 1 }
        (keywordChanges codec site fields others) = keyed at counted
      split
      · rename_i invalid
        have others_ := (keyed.push_extends (invalidProperties site fields others)).trans
          (pushUntilTruncated_extends _ (otherChanges site fields others))
        refine (counted.trans others_).imp ?_
        rintro _ ⟨_, _, rfl, rfl, _, _, rfl, rfl, rfl⟩
        rw [← List.append_assoc]
        exact .invalid invalid
      · rename_i valid
        have walks := walkUntilTruncated_extends (propertyNames_nodup fields others)
          (fun name _ => walkProperty_extends ih site fields others name) keyed
        split
        · rename_i stopped
          exact extends_of_truncated _ _ (Bool.and_eq_true_iff.1 stopped).2
        · refine (counted.trans (walks.trans (pushUntilTruncated_extends _ (otherChanges site fields others)))).imp ?_
          rintro _ ⟨_, _, rfl, rfl, _, _, rfl, ⟨children, rfl, parts⟩, rfl⟩
          rw [← List.append_assoc]
          exact .object (Bool.eq_false_iff.2 valid) children (fun name member => (parts name member).1)
            fun name member => (parts name member).2
    · rename_i odd
      refine (push_extends { analysis with nodes := analysis.nodes + 1 } (invalidShape site)).imp ?_
      rintro _ rfl
      refine .shape ?_
      cases left : before.asObject with
      | none => exact .inl rfl
      | some fields =>
        cases right : after.asObject with
        | none => exact .inr rfl
        | some others => exact absurd right (odd fields others left)

/-! ## Where an explanation belongs -/

/-- The explanation is about this schema of this tool. -/
def SchemaChangeExplanation.Of (tool : String) (kind : ToolSchemaKind)
    (explanation : SchemaChangeExplanation) : Prop :=
  explanation.tool = tool ∧ explanation.schema = kind

/-- A finding at a place of the schema that the site is in; the limits have a rule of their own. -/
def SchemaSite.Finds (site : SchemaSite) (explanation : SchemaChangeExplanation) : Prop :=
  ∃ (place : SchemaSite) (rule : String) (classification : SchemaChangeClassification) (before after reason : String)
    (unsupportedKeywords : Option (List String)), place.tool = site.tool ∧ place.kind = site.kind ∧
      rule ≠ "analysis_limit" ∧
      explanation = place.explanation rule classification before after reason unsupportedKeywords

theorem SchemaSite.Finds.of {site : SchemaSite} {explanation : SchemaChangeExplanation}
    (finds : site.Finds explanation) : explanation.Of site.tool site.kind := by
  obtain ⟨place, rule, classification, before, after, reason, keywords, tool, kind, -, rfl⟩ := finds
  exact ⟨tool, kind⟩

/-- A keyword has a rule of its own for each direction of its change. -/
theorem directed_ne_limit (suffix : String) :
    "type." ++ suffix ≠ "analysis_limit" ∧ "enum." ++ suffix ≠ "analysis_limit" := by
  constructor <;>
  · intro same
    have texts := congrArg String.toList same
    simp at texts

/-- What holds of a keyword's report and of the finding for an unreadable one holds of what is reported. -/
theorem readChanges_forall {A : Type} {parse : Option Value → Option A} {unread : SchemaChangeExplanation}
    {report : A → A → List SchemaChangeExplanation} {before after : Option Value}
    {holds : SchemaChangeExplanation → Prop} (unreadHolds : holds unread)
    (reportHolds : ∀ olds news, ∀ explanation ∈ report olds news, holds explanation)
    {explanation : SchemaChangeExplanation} (member : explanation ∈ readChanges parse unread report before after) :
    holds explanation := by
  unfold readChanges at member
  split at member
  · split at member
    · exact reportHolds _ _ explanation member
    · obtain rfl := List.mem_singleton.1 member
      exact unreadHolds
  · cases member

section
variable {site : SchemaSite} {before after : Option Value} {explanation : SchemaChangeExplanation}

theorem unclassifiedKeyword_finds (keyword reason : String) (before after : Option Value) :
    site.Finds (unclassifiedKeyword site keyword reason before after) :=
  ⟨site.child keyword, _, _, _, _, _, _, rfl, rfl, by decide, rfl⟩

theorem typeChanges_finds (member : explanation ∈ typeChanges site before after) : site.Finds explanation := by
  refine readChanges_forall (unclassifiedKeyword_finds _ _ _ _) (fun olds news explanation member => ?_) member
  split at member
  · obtain rfl := List.mem_singleton.1 member
    exact ⟨site.child "type", _, _, _, _, _, _, rfl, rfl, (directed_ne_limit _).1, rfl⟩
  · cases member

theorem requiredChanges_finds (member : explanation ∈ requiredChanges site before after) : site.Finds explanation := by
  refine readChanges_forall (unclassifiedKeyword_finds _ _ _ _) (fun olds news explanation member => ?_) member
  rcases List.mem_append.1 member with added | removed
  · obtain ⟨name, -, rfl⟩ := List.mem_map.1 added
    exact ⟨site.property name, _, _, _, _, _, _, rfl, rfl, by decide, rfl⟩
  · obtain ⟨name, -, rfl⟩ := List.mem_map.1 removed
    exact ⟨site.property name, _, _, _, _, _, _, rfl, rfl, by decide, rfl⟩

theorem additionalPropertiesChanges_finds (member : explanation ∈ additionalPropertiesChanges site before after) :
    site.Finds explanation := by
  refine readChanges_forall (unclassifiedKeyword_finds _ _ _ _) (fun old new explanation member => ?_) member
  split at member
  · cases member
  · split at member
    · obtain rfl := List.mem_singleton.1 member
      exact ⟨site.child "additionalProperties", _, _, _, _, _, _, rfl, rfl, by decide, rfl⟩
    · obtain rfl := List.mem_singleton.1 member
      exact ⟨site.child "additionalProperties", _, _, _, _, _, _, rfl, rfl, by decide, rfl⟩
    · obtain rfl := List.mem_singleton.1 member
      exact unclassifiedKeyword_finds _ _ _ _

theorem enumChanges_finds {codec : Codec} (member : explanation ∈ enumChanges codec site before after) :
    site.Finds explanation := by
  refine readChanges_forall (unclassifiedKeyword_finds _ _ _ _) (fun olds news explanation member => ?_) member
  split at member
  · obtain rfl := List.mem_singleton.1 member
    exact ⟨site.child "enum", _, _, _, _, _, _, rfl, rfl, (directed_ne_limit _).2, rfl⟩
  · cases member

end

section
variable {codec : Codec} {site : SchemaSite} {explanation : SchemaChangeExplanation}

theorem keywordChanges_finds {before after : List (String × Value)}
    (member : explanation ∈ keywordChanges codec site before after) : site.Finds explanation := by
  simp only [keywordChanges, List.mem_append, or_assoc] at member
  rcases member with found | found | found | found
  · exact typeChanges_finds found
  · exact requiredChanges_finds found
  · exact additionalPropertiesChanges_finds found
  · exact enumChanges_finds found

theorem otherChanges_finds {before after : List (String × Value)}
    (member : explanation ∈ otherChanges site before after) : site.Finds explanation := by
  obtain ⟨keyword, -, rfl⟩ := List.mem_map.1 member
  exact unclassifiedKeyword_finds _ _ _ _

theorem invalidShape_finds (site : SchemaSite) : site.Finds (invalidShape site) :=
  ⟨site, _, _, _, _, _, _, rfl, rfl, by decide, rfl⟩

end

theorem Explains.of {codec : Codec} {site : SchemaSite} {before after : Value}
    {found : List SchemaChangeExplanation} (explains : Explains codec site before after found) :
    ∀ explanation ∈ found, explanation.Of site.tool site.kind := by
  induction explains with
  | shape _ =>
    intro explanation member
    obtain rfl := List.mem_singleton.1 member
    exact (invalidShape_finds _).of
  | invalid _ =>
    intro explanation member
    simp only [List.mem_append, List.mem_singleton] at member
    rcases member with (found | rfl) | found
    · exact (keywordChanges_finds found).of
    · exact (unclassifiedKeyword_finds _ _ _ _).of
    · exact (otherChanges_finds found).of
  | object _ children unchanged _ ih =>
    intro explanation member
    simp only [List.mem_append, List.mem_flatMap] at member
    rcases member with (found | ⟨name, named, found⟩) | found
    · exact (keywordChanges_finds found).of
    · cases same : (propertySchema _ name).beq (propertySchema _ name) with
      | true => simp [unchanged name named same] at found
      | false => exact ih name named same explanation found
    · exact (otherChanges_finds found).of

/-! ## Catalogs -/

def ToolDef.schema (tool : ToolDef) : ToolSchemaKind → Option Value
  | .input => tool.inputSchema
  | .output => tool.outputSchema

/-- What is reported of one schema of a tool in both catalogs. -/
def SchemaExplained (codec : Codec) (tool : String) (kind : ToolSchemaKind) (before after : Option Value)
    (found : List SchemaChangeExplanation) : Prop :=
  match before, after with
  | some before, some after =>
    (before.beq after = true → found = []) ∧
      (before.beq after = false → Explains codec ⟨tool, kind, ""⟩ before after found)
  | none, none => found = []
  | before, after => found = [SchemaSite.unclassified ⟨tool, kind, ""⟩ "schema presence changed"
      (schemaPresence before) (schemaPresence after) []]

theorem SchemaExplained.of {codec : Codec} {tool : String} {kind : ToolSchemaKind} {before after : Option Value}
    {found : List SchemaChangeExplanation} (explained : SchemaExplained codec tool kind before after found) :
    ∀ explanation ∈ found, explanation.Of tool kind := by
  cases before with
  | none =>
    cases after with
    | none =>
      obtain rfl : found = [] := explained
      simp
    | some after =>
      obtain rfl : found = [_] := explained
      simp [SchemaChangeExplanation.Of, SchemaSite.unclassified, SchemaSite.explanation]
  | some before =>
    cases after with
    | none =>
      obtain rfl : found = [_] := explained
      simp [SchemaChangeExplanation.Of, SchemaSite.unclassified, SchemaSite.explanation]
    | some after =>
      cases same : before.beq after with
      | true => simp [explained.1 same]
      | false => exact (explained.2 same).of

open SchemaAnalysis in
theorem explainSchema_extends (codec : Codec) (tool : String) (kind : ToolSchemaKind)
    (before after : Option Value) (analysis : SchemaAnalysis) :
    analysis.Extends (SchemaExplained codec tool kind before after)
      (explainSchema codec tool kind before after analysis) := by
  unfold explainSchema
  split
  · rename_i same
    refine (Extends.refl analysis).imp ?_
    rintro _ rfl
    cases before <;> cases after
    · rfl
    · cases same
    · cases same
    · rename_i before after
      have equal : before.beq after = true := same
      exact ⟨fun _ => rfl, fun differs => by simp [equal] at differs⟩
  · rename_i differs
    split
    · rename_i before after
      have walked := analyzeSchemaNode_extends codec (maxSchemaDepth + 1) ⟨tool, kind, ""⟩ before after
        { analysis with nodes := 0 }
      refine SchemaAnalysis.Extends.imp walked fun found explained => ⟨fun equal => ?_, fun _ => explained⟩
      exact absurd (show (some before == some after) = true from equal) differs
    · exact absurd rfl differs
    · rename_i before after _ _
      refine (push_extends analysis _).imp ?_
      rintro _ rfl
      cases before <;> cases after <;> simp_all [SchemaExplained]

/-- What is reported of a tool of the baseline. -/
def ToolExplained (codec : Codec) (candidate : List (String × ToolDef)) (tool : String × ToolDef)
    (found : List SchemaChangeExplanation) : Prop :=
  match candidate.lookup tool.1 with
  | none => found = []
  | some after => ∃ part : ToolSchemaKind → List SchemaChangeExplanation,
      found = part .input ++ part .output ∧
        ∀ kind, SchemaExplained codec tool.1 kind (tool.2.schema kind) (after.schema kind) (part kind)

open SchemaAnalysis in
theorem explainTool_extends (codec : Codec) (candidate : List (String × ToolDef)) (tool : String × ToolDef)
    (analysis : SchemaAnalysis) :
    analysis.Extends (ToolExplained codec candidate tool) (explainTool codec candidate tool analysis) := by
  unfold explainTool ToolExplained
  cases candidate.lookup tool.1 with
  | none => exact Extends.refl analysis
  | some after =>
    have distinct : [(ToolSchemaKind.input, tool.2.inputSchema, after.inputSchema),
        (ToolSchemaKind.output, tool.2.outputSchema, after.outputSchema)].Nodup := by simp
    refine (walkUntilTruncated_extends distinct (fun schema _ analysis =>
      explainSchema_extends codec tool.1 schema.1 schema.2.1 schema.2.2 analysis) analysis).imp ?_
    rintro _ ⟨part, rfl, parts⟩
    refine ⟨fun kind => part (kind, tool.2.schema kind, after.schema kind), by simp [ToolDef.schema], ?_⟩
    intro kind
    cases kind with
    | input => exact parts _ List.mem_cons_self
    | output => exact parts _ (List.mem_cons_of_mem _ List.mem_cons_self)

theorem ToolExplained.of {codec : Codec} {candidate : List (String × ToolDef)} {tool : String × ToolDef}
    {found : List SchemaChangeExplanation} (explained : ToolExplained codec candidate tool found)
    {explanation : SchemaChangeExplanation} (member : explanation ∈ found) : explanation.tool = tool.1 := by
  unfold ToolExplained at explained
  split at explained
  · simp [explained] at member
  · obtain ⟨part, rfl, parts⟩ := explained
    rcases List.mem_append.1 member with input | output
    · exact ((parts .input).of explanation input).1
    · exact ((parts .output).of explanation output).1

/-- A complete report lists what an untruncated walk over the tools has collected. -/
theorem complete_report {codec : Codec} {baseline candidate : List StoredMessage}
    (complete : (explainToolSchemaChanges codec baseline candidate).analysisStatus = .complete) :
    let analysis := walkUntilTruncated (explainTool codec (extractTools codec candidate))
      (extractTools codec baseline) { nodes := 0, explanations := [], truncated := false }
    analysis.truncated = false ∧ ∀ explanation : SchemaChangeExplanation,
      explanation ∈ (explainToolSchemaChanges codec baseline candidate).schemaExplanations ↔
        explanation ∈ analysis.explanations := by
  unfold explainToolSchemaChanges at complete ⊢
  dsimp only at complete ⊢
  split at complete
  · cases complete
  · rename_i catalogs
    rw [if_neg catalogs]
    dsimp only at complete ⊢
    refine ⟨?_, fun explanation => List.mem_insertionSort _⟩
    split at complete
    · cases complete
    · rename_i whole
      exact Bool.eq_false_iff.2 whole

/-- In a complete analysis, what is reported of one schema is determined by its two versions. -/
theorem explainToolSchemaChanges_complete {codec : Codec} {baseline candidate : List StoredMessage}
    (complete : (explainToolSchemaChanges codec baseline candidate).analysisStatus = .complete)
    {tool : String} {before after : ToolDef} (kind : ToolSchemaKind)
    (old : (extractTools codec baseline).lookup tool = some before)
    (new : (extractTools codec candidate).lookup tool = some after) :
    ∃ found, SchemaExplained codec tool kind (before.schema kind) (after.schema kind) found ∧
      ∀ explanation : SchemaChangeExplanation,
        explanation ∈ (explainToolSchemaChanges codec baseline candidate).schemaExplanations ∧
          explanation.Of tool kind ↔ explanation ∈ found := by
  have unique := extractTools_nodup codec baseline
  have listed : (tool, before) ∈ extractTools codec baseline := (lookup_eq_some_iff unique _ _).1 old
  obtain ⟨whole, report⟩ := complete_report complete
  obtain ⟨-, found, added, part, rfl, parts⟩ := walkUntilTruncated_extends unique.of_map
    (fun tool _ => explainTool_extends codec (extractTools codec candidate) tool) _ whole
  have mine := parts (tool, before) listed
  unfold ToolExplained at mine
  rw [new] at mine
  obtain ⟨byKind, split, explained⟩ := mine
  refine ⟨byKind kind, explained kind, fun explanation => ?_⟩
  rw [report, added, List.nil_append]
  constructor
  · rintro ⟨reported, named, kinded⟩
    obtain ⟨⟨name, def_⟩, member, inPart⟩ := List.mem_flatMap.1 reported
    obtain rfl : name = tool := ((parts (name, def_) member).of inPart).symm.trans named
    obtain rfl : def_ = before := Option.some.inj (((lookup_eq_some_iff unique _ _).2 member).symm.trans old)
    rw [split] at inPart
    rcases List.mem_append.1 inPart with input | output
    · obtain rfl : kind = .input := kinded.symm.trans ((explained .input).of explanation input).2
      exact input
    · obtain rfl : kind = .output := kinded.symm.trans ((explained .output).of explanation output).2
      exact output
  · intro member
    refine ⟨List.mem_flatMap.2 ⟨(tool, before), listed, ?_⟩, (explained kind).of explanation member⟩
    rw [split]
    cases kind with
    | input => exact List.mem_append_left _ member
    | output => exact List.mem_append_right _ member

end McpTracer.Model
