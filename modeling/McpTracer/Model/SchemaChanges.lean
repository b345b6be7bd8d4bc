import McpTracer.Foundation.SortedSet
import McpTracer.Model.Diff

/-! Explanations of the changes between the schemas of two tool catalogs.

The analyzer walks two schemas side by side, keyword by keyword and then down the property
definitions. It stops, and says so, when one of its budgets is used up.
-/

set_option autoImplicit false

namespace McpTracer.Model
open McpTracer.Foundation McpTracer.Json McpTracer.Storage

/-! ## Explanations -/

inductive ToolSchemaKind where
  | input
  | output
  deriving DecidableEq

def ToolSchemaKind.prefixText : ToolSchemaKind → String
  | .input => "input"
  | .output => "output"

inductive SchemaChangeClassification where
  | potentiallyBreaking
  | potentiallyNonBreaking
  | ambiguous
  | unclassified
  deriving DecidableEq

structure SchemaChangeExplanation where
  tool : String
  schema : ToolSchemaKind
  pointer : String
  ruleId : String
  classification : SchemaChangeClassification
  beforeSummary : String
  afterSummary : String
  reason : String
  unsupportedKeywords : Option (List String)
  deriving DecidableEq

inductive SchemaAnalysisStatus where
  | complete
  | incompleteCatalog
  | truncated
  deriving DecidableEq

structure ToolSchemaExplanationAnalysis where
  baselineCatalogComplete : Bool
  candidateCatalogComplete : Bool
  analysisStatus : SchemaAnalysisStatus
  schemaExplanations : List SchemaChangeExplanation
  deriving DecidableEq

def maxSchemaDepth : Nat := 16
def maxSchemaNodes : Nat := 2048
def maxSchemaExplanations : Nat := 100

/-- A place in a schema of a tool. -/
structure SchemaSite where
  tool : String
  kind : ToolSchemaKind
  pointer : String

/-- Consumers of an output vary, so a change of it has no direction. -/
def outputClassification (kind : ToolSchemaKind) (classification : SchemaChangeClassification) :
    SchemaChangeClassification :=
  if kind = .output ∧ classification ≠ .unclassified then .ambiguous else classification

namespace SchemaSite

def child (site : SchemaSite) (token : String) : SchemaSite :=
  { site with pointer := childPointer site.pointer (escapePointerToken token) }

def property (site : SchemaSite) (name : String) : SchemaSite := (site.child "properties").child name

def explanation (site : SchemaSite) (rule : String) (classification : SchemaChangeClassification)
    (before after reason : String) (unsupportedKeywords : Option (List String)) : SchemaChangeExplanation where
  tool := site.tool
  schema := site.kind
  pointer := site.pointer
  ruleId := site.kind.prefixText ++ "." ++ rule
  classification := outputClassification site.kind classification
  beforeSummary := before
  afterSummary := after
  reason := reason
  unsupportedKeywords := unsupportedKeywords

def unclassified (site : SchemaSite) (reason before after : String) (keywords : List String) :
    SchemaChangeExplanation :=
  site.explanation "unclassified" .unclassified before after reason
    (if keywords = [] then none else some keywords)

def limit (site : SchemaSite) (reason : String) : SchemaChangeExplanation :=
  site.explanation "analysis_limit" .unclassified "analysis stopped at configured work limit"
    "analysis stopped at configured work limit" reason none

end SchemaSite

/-- What the walk counts and collects. -/
structure SchemaAnalysis where
  nodes : Nat
  explanations : List SchemaChangeExplanation
  truncated : Bool

namespace SchemaAnalysis

def pushLimit (analysis : SchemaAnalysis) (site : SchemaSite) (reason : String) : SchemaAnalysis :=
  { analysis with
    truncated := true
    explanations :=
      if analysis.explanations.length < maxSchemaExplanations then
        analysis.explanations ++ [site.limit reason]
      else analysis.explanations }

def push (analysis : SchemaAnalysis) (explanation : SchemaChangeExplanation) : SchemaAnalysis :=
  if analysis.explanations.length ≥ maxSchemaExplanations then
    analysis.pushLimit ⟨explanation.tool, explanation.schema, explanation.pointer⟩
      "explanation-count limit reached"
  else { analysis with explanations := analysis.explanations ++ [explanation] }

def pushAll (analysis : SchemaAnalysis) (explanations : List SchemaChangeExplanation) : SchemaAnalysis :=
  explanations.foldl push analysis

/-- Pushes one after another, and stops when the analysis is truncated. -/
def pushUntilTruncated : SchemaAnalysis → List SchemaChangeExplanation → SchemaAnalysis
  | analysis, [] => analysis
  | analysis, explanation :: rest =>
    let pushed := analysis.push explanation
    if pushed.truncated then pushed else pushUntilTruncated pushed rest

end SchemaAnalysis

/-! ## Keywords -/

def safePresenceSummary (value : Option Value) : String :=
  if value.isSome then "present (contents withheld)" else "absent"

/-- The finding for a keyword whose change is not understood. -/
def unclassifiedKeyword (site : SchemaSite) (keyword reason : String) (before after : Option Value) :
    SchemaChangeExplanation :=
  (site.child keyword).unclassified reason (safePresenceSummary before) (safePresenceSummary after) [keyword]

/-- What is reported of a keyword: what two different readings of it give, and one finding for an unreadable one. -/
def readChanges {A : Type} (parse : Option Value → Option A) (unread : SchemaChangeExplanation)
    (report : A → A → List SchemaChangeExplanation) (before after : Option Value) :
    List SchemaChangeExplanation :=
  if before != after then
    match parse before, parse after with
    | some beforeRead, some afterRead => report beforeRead afterRead
    | _, _ => [unread]
  else []

/-- How a set changed: whether the new one is contained in the old one, and the other way. -/
def direction (narrowing widening : Bool) (fewer more other : String) :
    String × SchemaChangeClassification × String :=
  match narrowing, widening with
  | true, false => ("narrowed", .potentiallyBreaking, fewer)
  | false, true => ("widened", .potentiallyNonBreaking, more)
  | _, _ => ("changed", .ambiguous, other)

def knownTypes : List String := ["null", "boolean", "object", "array", "number", "integer", "string"]

/-- The set of types, if there is a well-formed one; `some none` is any type. -/
def parseTypeSet : Option Value → Option (Option (List String))
  | none => some none
  | some (.string name) => if knownTypes.contains name then some (some [name]) else none
  | some (.array values) =>
    if values.isEmpty ∨ values.length > 7 then none
    else do
      let types ← values.mapM Value.asStr
      if (SortedSet.ofList types).length ≠ types.length then none
      else if types.any fun name => !knownTypes.contains name then none
      else some (some (SortedSet.ofList types))
  | some _ => none

def typeSetSubset : Option (List String) → Option (List String) → Bool
  | none, baseline => baseline.isNone
  | some _, none => true
  | some candidate, some baseline => candidate.all fun name =>
      baseline.contains name || (name == "integer" && baseline.contains "number")

def typeSummary (types : Option (List String)) : String :=
  types.elim "any JSON type" fun types => "type " ++ " | ".intercalate types

def typeChanges (site : SchemaSite) (before after : Option Value) : List SchemaChangeExplanation :=
  readChanges parseTypeSet
    (unclassifiedKeyword site "type" "type keyword has an unsupported shape" before after)
    (fun beforeTypes afterTypes =>
      if beforeTypes ≠ afterTypes then
        let (suffix, classification, reason) :=
          direction (typeSetSubset afterTypes beforeTypes) (typeSetSubset beforeTypes afterTypes)
            "The candidate accepts fewer JSON types at this schema path."
            "The candidate accepts more JSON types at this schema path."
            "The candidate type set changed in a way that is not a simple widening or narrowing."
        [(site.child "type").explanation ("type." ++ suffix) classification (typeSummary beforeTypes)
          (typeSummary afterTypes) reason none]
      else []) before after

def parseRequired : Option Value → Option (List String)
  | none => some []
  | some (.array values) =>
    if values.length ≤ maxSchemaNodes then do
      let names ← values.mapM Value.asStr
      if (SortedSet.ofList names).length ≠ names.length then none else some (SortedSet.ofList names)
    else none
  | some _ => none

def requiredAdded (site : SchemaSite) (name : String) : SchemaChangeExplanation :=
  (site.property name).explanation "required.added" .potentiallyBreaking "property is optional"
    "property is required"
    (if site.kind = .input then "Existing callers may omit a newly required input property."
      else "Consumers may rely on the baseline output not requiring this property.") none

def requiredRemoved (site : SchemaSite) (name : String) : SchemaChangeExplanation :=
  (site.property name).explanation "required.removed" .potentiallyNonBreaking "property is required"
    "property is optional"
    (if site.kind = .input then
        "The candidate no longer requires an input property required by the baseline."
      else "The candidate no longer guarantees a property that the baseline output required.") none

def requiredChanges (site : SchemaSite) (before after : Option Value) : List SchemaChangeExplanation :=
  readChanges parseRequired
    (unclassifiedKeyword site "required" "required keyword has an unsupported shape" before after)
    (fun beforeRequired afterRequired =>
      (afterRequired.filter fun name => !beforeRequired.contains name).map (requiredAdded site) ++
        (beforeRequired.filter fun name => !afterRequired.contains name).map (requiredRemoved site))
    before after

inductive AdditionalPropertiesState where
  | allow
  | deny
  | constrained
  deriving DecidableEq

def AdditionalPropertiesState.summary : AdditionalPropertiesState → String
  | allow => "additional properties allowed"
  | deny => "additional properties denied"
  | constrained => "additional properties constrained (details withheld)"

def parseAdditionalProperties : Option Value → Option AdditionalPropertiesState
  | none | some (.bool true) => some .allow
  | some (.bool false) => some .deny
  | some (.object _) => some .constrained
  | some _ => none

def additionalPropertiesChanges (site : SchemaSite) (before after : Option Value) :
    List SchemaChangeExplanation :=
  let unread := unclassifiedKeyword site "additionalProperties"
    "schema-valued or invalid additionalProperties change" before after
  let changed (suffix : String) (classification : SchemaChangeClassification)
      (beforeState afterState : AdditionalPropertiesState) (reason : String) : SchemaChangeExplanation :=
    (site.child "additionalProperties").explanation ("additional_properties." ++ suffix) classification
      beforeState.summary afterState.summary reason none
  readChanges parseAdditionalProperties unread
    (fun beforeState afterState =>
      if beforeState = afterState then []
      else
        match beforeState, afterState with
        | .allow, .deny =>
          [changed "closed" .potentiallyBreaking .allow .deny
            "The candidate rejects extra object properties that the baseline allowed."]
        | .deny, .allow =>
          [changed "opened" .potentiallyNonBreaking .deny .allow
            "The candidate allows extra object properties that the baseline rejected."]
        | _, _ => [unread]) before after

/-- Enum members are compared by their text. -/
def parseEnum (codec : Codec) : Option Value → Option (Option (List String))
  | none => some none
  | some (.array values) =>
    if !values.isEmpty && values.length ≤ maxSchemaNodes then
      let texts := values.map codec.toString
      if (SortedSet.ofList texts).length ≠ texts.length then none else some (some (SortedSet.ofList texts))
    else none
  | some _ => none

def enumSubset : Option (List String) → Option (List String) → Bool
  | some candidate, some baseline => candidate.all fun text => baseline.contains text
  | some _, none => true
  | none, some _ => false
  | none, none => true

def enumSummary (values : Option (List String)) : String :=
  values.elim "unrestricted enum (all values)" fun values =>
    "enum set (" ++ toString values.length ++ " values; members withheld)"

def enumChanges (codec : Codec) (site : SchemaSite) (before after : Option Value) :
    List SchemaChangeExplanation :=
  readChanges (parseEnum codec)
    (unclassifiedKeyword site "enum" "enum keyword has an unsupported shape" before after)
    (fun beforeEnum afterEnum =>
      if beforeEnum ≠ afterEnum then
        let (suffix, classification, reason) :=
          direction (enumSubset afterEnum beforeEnum) (enumSubset beforeEnum afterEnum)
            "The candidate permits fewer enum values; the values are withheld."
            "The candidate permits more enum values; the values are withheld."
            "The enum set changed without a pure widening or narrowing; values are withheld."
        [(site.child "enum").explanation ("enum." ++ suffix) classification (enumSummary beforeEnum)
          (enumSummary afterEnum) reason none]
      else []) before after

/-! ## Nodes -/

def knownKeywords : List String := ["type", "required", "properties", "additionalProperties", "enum"]

/-- The changes of the keywords that need no walk, in the order they are looked at. -/
def keywordChanges (codec : Codec) (site : SchemaSite) (before after : List (String × Value)) :
    List SchemaChangeExplanation :=
  typeChanges site (before.lookup "type") (after.lookup "type") ++
    requiredChanges site (before.lookup "required") (after.lookup "required") ++
    additionalPropertiesChanges site (before.lookup "additionalProperties")
      (after.lookup "additionalProperties") ++
    enumChanges codec site (before.lookup "enum") (after.lookup "enum")

def propertiesOf (fields : List (String × Value)) : Option (List (String × Value)) :=
  (fields.lookup "properties").bind Value.asObject

def hasInvalidProperties (fields : List (String × Value)) : Bool :=
  (fields.lookup "properties").isSome && (propertiesOf fields).isNone

/-- The definition of a property; an undeclared one is unconstrained. -/
def propertySchema (fields : List (String × Value)) (name : String) : Value :=
  ((propertiesOf fields).bind fun properties => properties.lookup name).getD (.object [])

def propertyNames (before after : List (String × Value)) : List String :=
  SortedSet.ofList (((propertiesOf before).getD []).map Prod.fst ++ ((propertiesOf after).getD []).map Prod.fst)

/-- The changed keywords that the analyzer does not know. -/
def otherChanges (site : SchemaSite) (before after : List (String × Value)) : List SchemaChangeExplanation :=
  let keywords := SortedSet.ofList (before.map Prod.fst ++ after.map Prod.fst)
  (keywords.filter fun keyword =>
    !knownKeywords.contains keyword && before.lookup keyword != after.lookup keyword).map fun keyword =>
      unclassifiedKeyword site keyword "changed keyword is outside the version-1 analyzer subset"
        (before.lookup keyword) (after.lookup keyword)

def invalidProperties (site : SchemaSite) (before after : List (String × Value)) : SchemaChangeExplanation :=
  unclassifiedKeyword site "properties" "properties keyword has an unsupported shape"
    (before.lookup "properties") (after.lookup "properties")

def invalidShape (site : SchemaSite) : SchemaChangeExplanation :=
  site.unclassified "schema shape is not an object" "schema value (contents withheld)"
    "schema value (contents withheld)" []

/-- Runs over a list, and stops when the analysis is truncated. -/
def walkUntilTruncated {A : Type} (step : A → SchemaAnalysis → SchemaAnalysis) :
    List A → SchemaAnalysis → SchemaAnalysis
  | [], analysis => analysis
  | item :: rest, analysis =>
    let stepped := step item analysis
    if stepped.truncated then stepped else walkUntilTruncated step rest stepped

/-- The walk into the definitions of one property, if they differ. -/
def walkProperty (analyze : SchemaSite → Value → Value → SchemaAnalysis → SchemaAnalysis)
    (site : SchemaSite) (before after : List (String × Value)) (name : String) (analysis : SchemaAnalysis) :
    SchemaAnalysis :=
  if propertySchema before name != propertySchema after name then
    analyze (site.property name) (propertySchema before name) (propertySchema after name) analysis
  else analysis

/-- One node and everything below it; `levels` counts the levels that may still be entered. -/
def analyzeSchemaNode (codec : Codec) :
    Nat → SchemaSite → Value → Value → SchemaAnalysis → SchemaAnalysis
  | levels, site, before, after, analysis =>
    if analysis.explanations.length ≥ maxSchemaExplanations - 1 then
      analysis.pushLimit site "explanation-count limit reached"
    else
      match levels with
      | 0 => analysis.pushLimit site "schema-depth limit reached"
      | levels + 1 =>
        let analysis := { analysis with nodes := analysis.nodes + 1 }
        if analysis.nodes > maxSchemaNodes then analysis.pushLimit site "schema-node limit reached"
        else
          match before.asObject, after.asObject with
          | some before, some after =>
            let analysis := analysis.pushAll (keywordChanges codec site before after)
            if hasInvalidProperties before || hasInvalidProperties after then
              (analysis.push (invalidProperties site before after)).pushUntilTruncated
                (otherChanges site before after)
            else
              let names := propertyNames before after
              let walked := walkUntilTruncated
                (walkProperty (analyzeSchemaNode codec levels) site before after) names analysis
              if !names.isEmpty && walked.truncated then walked
              else walked.pushUntilTruncated (otherChanges site before after)
          | _, _ => analysis.push (invalidShape site)

/-! ## Catalogs -/

def schemaPresence (schema : Option Value) : String :=
  if schema.isSome then "schema present (contents withheld)" else "schema absent"

/-- One schema of a tool that is in both catalogs. -/
def explainSchema (codec : Codec) (tool : String) (kind : ToolSchemaKind) (before after : Option Value)
    (analysis : SchemaAnalysis) : SchemaAnalysis :=
  if before == after then analysis
  else
    match before, after with
    | some before, some after =>
      analyzeSchemaNode codec (maxSchemaDepth + 1) ⟨tool, kind, ""⟩ before after
        { analysis with nodes := 0 }
    | none, none => analysis
    | before, after =>
      analysis.push <| SchemaSite.unclassified ⟨tool, kind, ""⟩ "schema presence changed"
        (schemaPresence before) (schemaPresence after) []

def explainTool (codec : Codec) (candidate : List (String × ToolDef)) (tool : String × ToolDef)
    (analysis : SchemaAnalysis) : SchemaAnalysis :=
  match candidate.lookup tool.1 with
  | none => analysis
  | some after =>
    walkUntilTruncated (fun schema analysis => explainSchema codec tool.1 schema.1 schema.2.1 schema.2.2 analysis)
      [(.input, tool.2.inputSchema, after.inputSchema), (.output, tool.2.outputSchema, after.outputSchema)]
      analysis

/-- The order of a report: by tool, schema, pointer and rule. -/
def SchemaChangeExplanation.precedes (a b : SchemaChangeExplanation) : Prop :=
  toLex (a.tool, toLex (a.schema.prefixText, toLex (a.pointer, a.ruleId))) ≤
    toLex (b.tool, toLex (b.schema.prefixText, toLex (b.pointer, b.ruleId)))

instance : DecidableRel SchemaChangeExplanation.precedes := fun a b =>
  inferInstanceAs (Decidable (toLex (a.tool, toLex (a.schema.prefixText, toLex (a.pointer, a.ruleId))) ≤
    toLex (b.tool, toLex (b.schema.prefixText, toLex (b.pointer, b.ruleId)))))

/-- Changes of the schemas of tools that both catalogs have, when both are complete. -/
def explainToolSchemaChanges (codec : Codec) (baselineMessages candidateMessages : List StoredMessage) :
    ToolSchemaExplanationAnalysis :=
  let baseline := extractToolCatalog codec baselineMessages
  let candidate := extractToolCatalog codec candidateMessages
  if !baseline.complete || !candidate.complete then
    { baselineCatalogComplete := baseline.complete
      candidateCatalogComplete := candidate.complete
      analysisStatus := .incompleteCatalog
      schemaExplanations := [] }
  else
    let analysis := walkUntilTruncated (explainTool codec candidate.tools) baseline.tools
      { nodes := 0, explanations := [], truncated := false }
    { baselineCatalogComplete := baseline.complete
      candidateCatalogComplete := candidate.complete
      analysisStatus := if analysis.truncated then .truncated else .complete
      schemaExplanations := analysis.explanations.insertionSort SchemaChangeExplanation.precedes }

end McpTracer.Model
