import McpTracer.Foundation.StoppedRun
import McpTracer.Model.SchemaReports

/-! The schema analysis as a run over the walk that it would make without budgets.

The walk is a list of nodes entered and of findings, in order. The analyzer takes them one
by one until a budget is used up. Its loops look at the truncation flag in some places only;
where they do not, the list of explanations is full and nothing more is added to it.
-/

set_option autoImplicit false

namespace McpTracer.Model
open McpTracer.Foundation McpTracer.Json McpTracer.Storage

/-! ## The walk without budgets -/

inductive WalkEvent where
  | schema
  | enter (site : SchemaSite) (depth : Nat)
  | found (explanation : SchemaChangeExplanation)

/-- What lies below one property, if its definitions differ. -/
def propertyEvents (events : SchemaSite → Value → Value → List WalkEvent) (site : SchemaSite)
    (before after : List (String × Value)) (name : String) : List WalkEvent :=
  if propertySchema before name != propertySchema after name then
    events (site.property name) (propertySchema before name) (propertySchema after name)
  else []

/-- One node and everything below it. Of a node that is too deep only the entry is listed. -/
def nodeEvents (codec : Codec) : Nat → Nat → SchemaSite → Value → Value → List WalkEvent
  | 0, depth, site, _, _ => [.enter site depth]
  | levels + 1, depth, site, before, after =>
    .enter site depth ::
      match before.asObject, after.asObject with
      | some before, some after =>
        (keywordChanges codec site before after).map .found ++
          ((if hasInvalidProperties before || hasInvalidProperties after then
              [.found (invalidProperties site before after)]
            else (propertyNames before after).flatMap
              (propertyEvents (nodeEvents codec levels (depth + 1)) site before after)) ++
            (otherChanges site before after).map .found)
      | _, _ => [.found (invalidShape site)]

def schemaEvents (codec : Codec) (tool : String) (kind : ToolSchemaKind) (before after : Option Value) :
    List WalkEvent :=
  if before == after then []
  else
    match before, after with
    | some before, some after =>
      .schema :: nodeEvents codec (maxSchemaDepth + 1) 0 ⟨tool, kind, ""⟩ before after
    | none, none => []
    | before, after =>
      [.found (SchemaSite.unclassified ⟨tool, kind, ""⟩ "schema presence changed" (schemaPresence before)
        (schemaPresence after) [])]

def toolEvents (codec : Codec) (candidate : List (String × ToolDef)) (tool : String × ToolDef) : List WalkEvent :=
  match candidate.lookup tool.1 with
  | none => []
  | some after =>
    [(ToolSchemaKind.input, tool.2.inputSchema, after.inputSchema),
      (ToolSchemaKind.output, tool.2.outputSchema, after.outputSchema)].flatMap fun schema =>
        schemaEvents codec tool.1 schema.1 schema.2.1 schema.2.2

/-- Incomplete catalogs are not compared. -/
def walkEvents (codec : Codec) (baselineMessages candidateMessages : List StoredMessage) : List WalkEvent :=
  let baseline := extractToolCatalog codec baselineMessages
  let candidate := extractToolCatalog codec candidateMessages
  if !baseline.complete || !candidate.complete then []
  else baseline.tools.flatMap (toolEvents codec candidate.tools)

/-! ## Budgets -/

/-- One event of the walk, or the end of the analysis. -/
def SchemaAnalysis.take (analysis : SchemaAnalysis) : WalkEvent → SchemaAnalysis
  | .schema => { analysis with nodes := 0 }
  | .enter site depth =>
    -- One place on the list is kept for the finding that says so.
    if analysis.explanations.length ≥ maxSchemaExplanations - 1 then
      analysis.pushLimit site "explanation-count limit reached"
    else if depth > maxSchemaDepth then analysis.pushLimit site "schema-depth limit reached"
    else
      let analysis := { analysis with nodes := analysis.nodes + 1 }
      if analysis.nodes > maxSchemaNodes then analysis.pushLimit site "schema-node limit reached" else analysis
  | .found explanation => analysis.push explanation

def budgeted : Stoppable SchemaAnalysis WalkEvent where
  step := SchemaAnalysis.take
  stopped := SchemaAnalysis.truncated

def SchemaAnalysis.start : SchemaAnalysis := ⟨0, [], false⟩

/-- Truncated where the list is full, if truncated at all. -/
def SchemaAnalysis.Settled (analysis : SchemaAnalysis) : Prop :=
  analysis.truncated = true → maxSchemaExplanations ≤ analysis.explanations.length

namespace SchemaAnalysis

section
variable {analysis : SchemaAnalysis}

theorem settled_of_running (running : analysis.truncated = false) : analysis.Settled := by
  intro truncated
  rw [running] at truncated
  cases truncated

theorem run_event (running : analysis.truncated = false) (event : WalkEvent) (rest : List WalkEvent) :
    budgeted.run analysis (event :: rest) = budgeted.run (analysis.take event) rest :=
  Stoppable.run_cons running event rest

theorem taken_event (analysis : SchemaAnalysis) (event : WalkEvent) (rest : List WalkEvent) :
    budgeted.taken analysis (event :: rest) =
      if (analysis.take event).truncated then [] else event :: budgeted.taken (analysis.take event) rest := rfl

theorem pushLimit_of_full (truncated : analysis.truncated = true)
    (full : maxSchemaExplanations ≤ analysis.explanations.length) (site : SchemaSite) (reason : String) :
    analysis.pushLimit site reason = analysis := by
  rw [pushLimit, if_neg (Nat.not_lt.2 full), ← truncated]

theorem push_of_full (truncated : analysis.truncated = true)
    (full : maxSchemaExplanations ≤ analysis.explanations.length) (explanation : SchemaChangeExplanation) :
    analysis.push explanation = analysis := by
  rw [push, if_pos full, pushLimit_of_full truncated full]

theorem Settled.push (settled : analysis.Settled) (explanation : SchemaChangeExplanation) :
    (analysis.push explanation).Settled := by
  unfold SchemaAnalysis.push
  split_ifs with full
  · intro _
    rwa [pushLimit, if_neg (Nat.not_lt.2 full)]
  · intro truncated
    exact absurd (settled truncated) full

theorem Settled.pushAll (settled : analysis.Settled) (explanations : List SchemaChangeExplanation) :
    (analysis.pushAll explanations).Settled := by
  induction explanations generalizing analysis with
  | nil => exact settled
  | cons explanation rest ih => exact ih (settled.push explanation)

/-- A push takes a finding, and a truncated analysis is already full. -/
theorem Settled.run_found (settled : analysis.Settled) (explanation : SchemaChangeExplanation) (rest : List WalkEvent) :
    budgeted.run analysis (.found explanation :: rest) = budgeted.run (analysis.push explanation) rest := by
  cases truncated : analysis.truncated with
  | false => exact run_event truncated _ rest
  | true =>
      rw [push_of_full truncated (settled truncated), Stoppable.run_of_stopped truncated,
        Stoppable.run_of_stopped truncated]

theorem Settled.pushAll_eq_run (settled : analysis.Settled) (explanations : List SchemaChangeExplanation) :
    analysis.pushAll explanations = budgeted.run analysis (explanations.map .found) := by
  -- The loop goes on after the flag is set, but then the list is full.
  induction explanations generalizing analysis with
  | nil => rfl
  | cons explanation rest ih =>
      rw [List.map_cons, settled.run_found, ← ih (settled.push explanation)]
      rfl

theorem Settled.pushUntilTruncated_eq_run (settled : analysis.Settled) (explanations : List SchemaChangeExplanation) :
    analysis.pushUntilTruncated explanations = budgeted.run analysis (explanations.map .found) := by
  induction explanations generalizing analysis with
  | nil => rfl
  | cons explanation rest ih =>
      rw [List.map_cons, settled.run_found, pushUntilTruncated]
      split_ifs with truncated
      · exact (Stoppable.run_of_stopped truncated _).symm
      · exact ih (settled.push explanation)

end

end SchemaAnalysis

/-- A loop that stops at the flag runs over the events of its rounds. -/
theorem walkUntilTruncated_eq_run {A : Type} {step : A → SchemaAnalysis → SchemaAnalysis} {events : A → List WalkEvent}
    {ready : SchemaAnalysis → Prop} (running : ∀ analysis : SchemaAnalysis, analysis.truncated = false → ready analysis)
    {items : List A}
    (steps : ∀ item ∈ items, ∀ analysis, ready analysis → step item analysis = budgeted.run analysis (events item))
    {analysis : SchemaAnalysis} (first : ready analysis) :
    walkUntilTruncated step items analysis = budgeted.run analysis (items.flatMap events) := by
  induction items generalizing analysis with
  | nil => rfl
  | cons item rest ih =>
      rw [walkUntilTruncated, List.flatMap_cons, Stoppable.run_append, steps item (.head _) analysis first]
      split_ifs with truncated
      · exact (Stoppable.run_of_stopped truncated _).symm
      · exact ih (fun other member => steps other (.tail _ member)) (running _ (Bool.eq_false_iff.2 truncated))

section Nodes
variable {codec : Codec} {site : SchemaSite} {analysis : SchemaAnalysis}

theorem walkProperty_eq_run {analyze : SchemaSite → Value → Value → SchemaAnalysis → SchemaAnalysis}
    {events : SchemaSite → Value → Value → List WalkEvent}
    (analyzed : ∀ site before after, ∀ analysis : SchemaAnalysis, analysis.Settled →
      analyze site before after analysis = budgeted.run analysis (events site before after))
    (before after : List (String × Value)) (name : String) (settled : analysis.Settled) :
    walkProperty analyze site before after name analysis =
      budgeted.run analysis (propertyEvents events site before after name) := by
  unfold walkProperty propertyEvents
  split_ifs
  · exact analyzed _ _ _ _ settled
  · rfl

/-- A node that is entered when the list is full changes nothing. -/
theorem analyzeSchemaNode_of_full (truncated : analysis.truncated = true)
    (full : maxSchemaExplanations ≤ analysis.explanations.length) (levels : Nat) (before after : Value) :
    analyzeSchemaNode codec levels site before after analysis = analysis := by
  unfold analyzeSchemaNode
  rw [if_pos (Nat.le_trans (Nat.sub_le _ 1) full), SchemaAnalysis.pushLimit_of_full truncated full]

/-- The keywords of a node, then its properties, then its other keywords. -/
theorem objects_eq_run {analyze : SchemaSite → Value → Value → SchemaAnalysis → SchemaAnalysis}
    {events : SchemaSite → Value → Value → List WalkEvent}
    (analyzed : ∀ site before after, ∀ analysis : SchemaAnalysis, analysis.Settled →
      analyze site before after analysis = budgeted.run analysis (events site before after))
    (before after : List (String × Value)) (settled : analysis.Settled) :
    (let analysis := analysis.pushAll (keywordChanges codec site before after)
      if hasInvalidProperties before || hasInvalidProperties after then
        (analysis.push (invalidProperties site before after)).pushUntilTruncated (otherChanges site before after)
      else
        let names := propertyNames before after
        let walked := walkUntilTruncated (walkProperty analyze site before after) names analysis
        if !names.isEmpty && walked.truncated then walked
        else walked.pushUntilTruncated (otherChanges site before after)) =
      budgeted.run analysis ((keywordChanges codec site before after).map .found ++
        ((if hasInvalidProperties before || hasInvalidProperties after then
            [.found (invalidProperties site before after)]
          else (propertyNames before after).flatMap (propertyEvents events site before after)) ++
          (otherChanges site before after).map .found)) := by
  have keyed := settled.pushAll (keywordChanges codec site before after)
  rw [Stoppable.run_append, ← settled.pushAll_eq_run]
  generalize analysis.pushAll (keywordChanges codec site before after) = analysis at keyed
  dsimp only
  split_ifs with invalid stopped
  · rw [List.singleton_append, keyed.run_found, (keyed.push _).pushUntilTruncated_eq_run]
  · rw [Stoppable.run_append, ← walkUntilTruncated_eq_run (fun _ => SchemaAnalysis.settled_of_running)
      (fun name _ _ settled => walkProperty_eq_run analyzed before after name settled) keyed]
    exact (Stoppable.run_of_stopped (Bool.and_eq_true_iff.1 stopped).2 _).symm
  · rw [Stoppable.run_append, ← walkUntilTruncated_eq_run (fun _ => SchemaAnalysis.settled_of_running)
      (fun name _ _ settled => walkProperty_eq_run analyzed before after name settled) keyed]
    refine SchemaAnalysis.Settled.pushUntilTruncated_eq_run ?_ _
    -- Without properties the flag may have been set before, with a full list.
    cases named : (propertyNames before after).isEmpty with
    | true => rwa [List.isEmpty_iff.1 named]
    | false =>
        rw [named, Bool.not_false, Bool.true_and, Bool.not_eq_true] at stopped
        exact SchemaAnalysis.settled_of_running stopped

theorem analyzeSchemaNode_eq_run {levels depth : Nat} (deep : levels + depth = maxSchemaDepth + 1) (before after : Value)
    (settled : analysis.Settled) :
    analyzeSchemaNode codec levels site before after analysis =
      budgeted.run analysis (nodeEvents codec levels depth site before after) := by
  induction levels generalizing depth site before after analysis with
  | zero =>
      cases truncated : analysis.truncated with
      | true => rw [analyzeSchemaNode_of_full truncated (settled truncated), Stoppable.run_of_stopped truncated]
      | false =>
          have limit : depth > maxSchemaDepth := by omega
          rw [nodeEvents, SchemaAnalysis.run_event truncated, analyzeSchemaNode]
          simp only [SchemaAnalysis.take, if_pos limit]
          rfl
  | succ levels ih =>
      cases truncated : analysis.truncated with
      | true => rw [analyzeSchemaNode_of_full truncated (settled truncated), Stoppable.run_of_stopped truncated]
      | false =>
          have within : ¬ depth > maxSchemaDepth := by omega
          rw [nodeEvents, SchemaAnalysis.run_event truncated, analyzeSchemaNode]
          simp only [SchemaAnalysis.take, if_neg within]
          -- The checks at the entry are made in the same order by both.
          split_ifs with full many
          · exact (Stoppable.run_of_stopped rfl _).symm
          · exact (Stoppable.run_of_stopped rfl _).symm
          · have counted : SchemaAnalysis.Settled { analysis with nodes := analysis.nodes + 1 } := settled
            cases here : before.asObject with
            | none => exact (counted.run_found _ []).symm
            | some fields =>
                cases there : after.asObject with
                | none => exact (counted.run_found _ []).symm
                | some others =>
                    have deeper : levels + (depth + 1) = maxSchemaDepth + 1 := by omega
                    have below (site : SchemaSite) (before after : Value) (analysis : SchemaAnalysis)
                        (settled : analysis.Settled) : analyzeSchemaNode codec levels site before after analysis =
                          budgeted.run analysis (nodeEvents codec levels (depth + 1) site before after) :=
                      ih deeper before after settled
                    exact objects_eq_run below fields others counted

end Nodes

/-! ## Catalogs -/

section Catalogs
variable {codec : Codec} {analysis : SchemaAnalysis}

theorem explainSchema_eq_run (tool : String) (kind : ToolSchemaKind) (before after : Option Value)
    (running : analysis.truncated = false) :
    explainSchema codec tool kind before after analysis =
      budgeted.run analysis (schemaEvents codec tool kind before after) := by
  unfold explainSchema schemaEvents
  split_ifs with same
  · rfl
  · cases before with
    | none =>
        cases after with
        | none => rfl
        | some new => exact (SchemaAnalysis.run_event running (.found _) []).symm
    | some old =>
        cases after with
        | none => exact (SchemaAnalysis.run_event running (.found _) []).symm
        | some new =>
            dsimp only
            rw [SchemaAnalysis.run_event running]
            exact analyzeSchemaNode_eq_run (Nat.add_zero _) old new (SchemaAnalysis.settled_of_running running)

theorem explainTool_eq_run (candidate : List (String × ToolDef)) (tool : String × ToolDef)
    (running : analysis.truncated = false) :
    explainTool codec candidate tool analysis = budgeted.run analysis (toolEvents codec candidate tool) := by
  unfold explainTool toolEvents
  cases candidate.lookup tool.1 with
  | none => rfl
  | some after =>
      exact walkUntilTruncated_eq_run (fun _ running => running)
        (fun schema _ analysis running => explainSchema_eq_run tool.1 schema.1 schema.2.1 schema.2.2 running) running

/-- The report is read off the run over the walk. -/
theorem explainToolSchemaChanges_eq_run (codec : Codec) (baseline candidate : List StoredMessage) :
    ((explainToolSchemaChanges codec baseline candidate).analysisStatus = .truncated ↔
        (budgeted.run .start (walkEvents codec baseline candidate)).truncated = true) ∧
      (explainToolSchemaChanges codec baseline candidate).schemaExplanations =
        (budgeted.run .start (walkEvents codec baseline candidate)).explanations.insertionSort
          SchemaChangeExplanation.precedes := by
  unfold explainToolSchemaChanges walkEvents
  dsimp only
  by_cases incomplete : (!(extractToolCatalog codec baseline).complete ||
      !(extractToolCatalog codec candidate).complete) = true
  · rw [if_pos incomplete, if_pos incomplete]
    exact ⟨by simp [Stoppable.run, SchemaAnalysis.start], rfl⟩
  · rw [if_neg incomplete, if_neg incomplete, show (⟨0, [], false⟩ : SchemaAnalysis) = .start from rfl, walkUntilTruncated_eq_run (fun _ running => running)
      (fun tool _ _ running => explainTool_eq_run (extractToolCatalog codec candidate).tools tool running) rfl]
    refine ⟨?_, rfl⟩
    dsimp only
    split_ifs with truncated <;> simp [truncated]

end Catalogs

end McpTracer.Model
