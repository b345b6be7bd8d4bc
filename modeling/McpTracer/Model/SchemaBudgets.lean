import McpTracer.Model.SchemaSilence
import McpTracer.Model.SchemaWalk

/-! When a schema analysis is cut short, and whether it says so.

The walk that would be made without budgets decides where the first limit is met. The analysis
is truncated from there on, and a limit finding says so if there is still room for one.
-/

set_option autoImplicit false

namespace McpTracer.Model
open McpTracer.Foundation McpTracer.Json McpTracer.Storage

/-! ## Limits -/

def WalkEvent.finding : WalkEvent → Option SchemaChangeExplanation
  | .found explanation => some explanation
  | _ => none

/-- The findings of a part of the walk. -/
def foundIn (events : List WalkEvent) : List SchemaChangeExplanation := events.filterMap WalkEvent.finding

/-- One more node, or a new schema. -/
def WalkEvent.count (nodes : Nat) : WalkEvent → Nat
  | .schema => 0
  | .enter _ _ => nodes + 1
  | .found _ => nodes

/-- The nodes of the last schema that were entered. -/
def nodesIn (events : List WalkEvent) : Nat := events.foldl WalkEvent.count 0

/-- The event is over a limit, after those before it. -/
def OverLimit (before : List WalkEvent) : WalkEvent → Prop
  | .schema => False
  | .enter _ depth => maxSchemaExplanations - 1 ≤ (foundIn before).length ∨ maxSchemaDepth < depth ∨
      maxSchemaNodes ≤ nodesIn before
  | .found _ => maxSchemaExplanations ≤ (foundIn before).length

/-- A node of this schema is entered. -/
def WalkEvent.enters (tool : String) (kind : ToolSchemaKind) : WalkEvent → Bool
  | .enter site _ => site.tool == tool && site.kind == kind
  | _ => false

/-- What the analysis of two sessions takes of the walk. -/
def walkTaken (codec : Codec) (baseline candidate : List StoredMessage) : List WalkEvent :=
  budgeted.taken .start (walkEvents codec baseline candidate)

def SchemaChangeExplanation.ReportsLimit (explanation : SchemaChangeExplanation) : Prop :=
  explanation.ruleId = explanation.schema.prefixText ++ "." ++ "analysis_limit"

/-- An analysis keeps its budgets, is truncated just if something is over a limit, and then says so. -/
structure HonestlyTruncated (codec : Codec) (baseline candidate : List StoredMessage) : Prop where
  explanations : (explainToolSchemaChanges codec baseline candidate).schemaExplanations.length ≤ maxSchemaExplanations
  nodes : ∀ tool kind, (walkTaken codec baseline candidate).countP (WalkEvent.enters tool kind) ≤ maxSchemaNodes
  depth : ∀ site depth, .enter site depth ∈ walkTaken codec baseline candidate → depth ≤ maxSchemaDepth
  truncated_iff : (explainToolSchemaChanges codec baseline candidate).analysisStatus = .truncated ↔
    ∃ front event, front ++ [event] <+: walkEvents codec baseline candidate ∧ OverLimit front event
  reported : (explainToolSchemaChanges codec baseline candidate).analysisStatus = .truncated →
    ∃ explanation ∈ (explainToolSchemaChanges codec baseline candidate).schemaExplanations, explanation.ReportsLimit

/-! ## The run counts -/

section Counts
variable {analysis : SchemaAnalysis} {event : WalkEvent} {front events : List WalkEvent}

theorem foundIn_concat (front : List WalkEvent) (event : WalkEvent) :
    foundIn (front ++ [event]) = foundIn front ++ event.finding.toList := by
  rw [foundIn, List.filterMap_append, foundIn]
  cases event <;> rfl

theorem nodesIn_concat (front : List WalkEvent) (event : WalkEvent) :
    nodesIn (front ++ [event]) = event.count (nodesIn front) := by
  rw [nodesIn, List.foldl_append, nodesIn]
  rfl

/-- An event that does not end the analysis is counted. -/
theorem take_running (running : (analysis.take event).truncated = false) :
    (analysis.take event).explanations = analysis.explanations ++ event.finding.toList ∧
      (analysis.take event).nodes = event.count analysis.nodes := by
  cases event with
  | schema => exact ⟨(List.append_nil _).symm, rfl⟩
  | enter site depth =>
      unfold SchemaAnalysis.take at running ⊢
      dsimp only at running ⊢
      split_ifs at running ⊢
      · cases running
      · cases running
      · cases running
      · exact ⟨(List.append_nil _).symm, rfl⟩
  | found explanation =>
      unfold SchemaAnalysis.take SchemaAnalysis.push at running ⊢
      dsimp only at running ⊢
      split_ifs at running ⊢
      · cases running
      · exact ⟨rfl, rfl⟩

theorem run_counts (running : (budgeted.run .start front).truncated = false) :
    (budgeted.run .start front).explanations = foundIn front ∧ (budgeted.run .start front).nodes = nodesIn front := by
  induction front using List.reverseRecOn with
  | nil => exact ⟨rfl, rfl⟩
  | append_singleton init last ih =>
      have before := Stoppable.running_of_shorter (m := budgeted) (List.prefix_append init [last]) running
      rw [Stoppable.run_concat before] at running ⊢
      obtain ⟨explanations, nodes⟩ := take_running running
      obtain ⟨explanations', nodes'⟩ := ih before
      rw [foundIn_concat, nodesIn_concat, ← explanations', ← nodes']
      exact ⟨explanations, nodes⟩

/-- An event ends the analysis just if it is over a limit. -/
theorem take_truncated_iff (running : analysis.truncated = false) (explanations : analysis.explanations = foundIn front)
    (nodes : analysis.nodes = nodesIn front) : (analysis.take event).truncated = true ↔ OverLimit front event := by
  cases event with
  | schema => simp [SchemaAnalysis.take, OverLimit, running]
  | enter site depth =>
      unfold SchemaAnalysis.take OverLimit
      rw [explanations]
      dsimp only
      split_ifs with full deep many
      · exact iff_of_true rfl (.inl full)
      · exact iff_of_true rfl (.inr (.inl deep))
      · rw [nodes] at many
        exact iff_of_true rfl (.inr (.inr (Nat.le_of_lt_succ many)))
      · rw [nodes] at many
        refine iff_of_false (by rw [running]; exact Bool.false_ne_true) ?_
        rintro (limit | limit | limit)
        · exact full limit
        · exact deep limit
        · exact many (Nat.lt_succ_of_le limit)
  | found explanation =>
      unfold SchemaAnalysis.take SchemaAnalysis.push OverLimit
      rw [explanations]
      dsimp only
      split_ifs with full
      · exact iff_of_true rfl full
      · exact iff_of_false (by rw [running]; exact Bool.false_ne_true) full

theorem stops_iff (front : List WalkEvent) (event : WalkEvent)
    (running : budgeted.stopped (budgeted.run .start front) = false) :
    budgeted.stopped (budgeted.step (budgeted.run .start front) event) = true ↔ OverLimit front event := by
  obtain ⟨explanations, nodes⟩ := run_counts running
  exact take_truncated_iff running explanations nodes

theorem run_truncated_iff (events : List WalkEvent) : (budgeted.run .start events).truncated = true ↔
    ∃ front event, front ++ [event] <+: events ∧ OverLimit front event := by
  have running := @Stoppable.running_iff _ _ budgeted .start OverLimit events rfl stops_iff
  rw [← Bool.not_eq_false, show (budgeted.run .start events).truncated = false ↔ _ from running]
  simp only [not_forall, not_not, exists_prop]

end Counts

/-! ## Budgets -/

section Budgets
variable {analysis : SchemaAnalysis} {event : WalkEvent} {events : List WalkEvent} {tool : String} {kind : ToolSchemaKind}

theorem pushLimit_length_le (within : analysis.explanations.length ≤ maxSchemaExplanations) (site : SchemaSite)
    (reason : String) : (analysis.pushLimit site reason).explanations.length ≤ maxSchemaExplanations := by
  rw [SchemaAnalysis.pushLimit]
  dsimp only
  split_ifs with room
  · rw [List.length_append]
    exact room
  · exact within

theorem take_length_le (analysis : SchemaAnalysis) (event : WalkEvent)
    (within : analysis.explanations.length ≤ maxSchemaExplanations) :
    (analysis.take event).explanations.length ≤ maxSchemaExplanations := by
  cases event with
  | schema => exact within
  | enter site depth =>
      unfold SchemaAnalysis.take
      dsimp only
      split_ifs
      · exact pushLimit_length_le within _ _
      · exact pushLimit_length_le within _ _
      · exact pushLimit_length_le within _ _
      · exact within
  | found explanation =>
      unfold SchemaAnalysis.take SchemaAnalysis.push
      dsimp only
      split_ifs with full
      · exact pushLimit_length_le within _ _
      · rw [List.length_append]
        exact Nat.lt_of_not_le full

theorem run_length_le (events : List WalkEvent) :
    (budgeted.run .start events).explanations.length ≤ maxSchemaExplanations :=
  @Stoppable.run_preserves _ _ budgeted .start
    (fun analysis => analysis.explanations.length ≤ maxSchemaExplanations) take_length_le (Nat.zero_le _) events

theorem take_depth_le {site : SchemaSite} {depth : Nat} (running : (analysis.take (.enter site depth)).truncated = false) :
    depth ≤ maxSchemaDepth := by
  unfold SchemaAnalysis.take at running
  dsimp only at running
  split_ifs at running with _ deep
  · cases running
  · cases running
  · cases running
  · exact Nat.le_of_not_lt deep

theorem take_nodes_le (within : analysis.nodes ≤ maxSchemaNodes) (running : (analysis.take event).truncated = false) :
    (analysis.take event).nodes ≤ maxSchemaNodes := by
  cases event with
  | schema => exact Nat.zero_le _
  | enter site depth =>
      unfold SchemaAnalysis.take at running ⊢
      dsimp only at running ⊢
      split_ifs at running ⊢ with _ _ many
      · cases running
      · cases running
      · cases running
      · exact Nat.le_of_not_lt many
  | found explanation =>
      rw [(take_running running).2]
      exact within

/-- The entries that are taken of one schema are counted up to its budget. -/
theorem taken_nodes_le (same : ∀ event ∈ events, event ≠ .schema) (within : analysis.nodes ≤ maxSchemaNodes) :
    analysis.nodes + (budgeted.taken analysis events).countP (WalkEvent.enters tool kind) ≤ maxSchemaNodes := by
  induction events generalizing analysis with
  | nil => exact within
  | cons event rest ih =>
      rw [SchemaAnalysis.taken_event]
      split_ifs with stopped
      · exact within
      · have running := Bool.eq_false_iff.2 stopped
        have later := ih (fun other member => same other (.tail _ member)) (take_nodes_le within running)
        rw [(take_running running).2] at later
        rw [List.countP_cons]
        -- An entry counts a node, of whichever schema it is.
        have own : analysis.nodes + (if event.enters tool kind = true then 1 else 0) ≤ event.count analysis.nodes := by
          cases event with
          | schema => exact absurd rfl (same _ (.head _))
          | enter site depth =>
              rw [WalkEvent.count]
              split_ifs <;> omega
          | found explanation => exact Nat.le_refl _
        omega

end Budgets

/-! ## Where the events belong -/

/-- An entry or a finding of the schema that the site is in. -/
def WalkEvent.Belongs (site : SchemaSite) : WalkEvent → Prop
  | .schema => False
  | .enter place _ => place.tool = site.tool ∧ place.kind = site.kind
  | .found explanation => site.Finds explanation

section Belongs
variable {codec : Codec} {event : WalkEvent}

theorem found_belongs {site : SchemaSite} {explanations : List SchemaChangeExplanation}
    (finds : ∀ explanation ∈ explanations, site.Finds explanation) (member : event ∈ explanations.map .found) :
    event.Belongs site := by
  obtain ⟨explanation, listed, rfl⟩ := List.mem_map.1 member
  exact finds explanation listed

theorem nodeEvents_belong {levels depth : Nat} {site : SchemaSite} {before after : Value}
    (member : event ∈ nodeEvents codec levels depth site before after) : event.Belongs site := by
  induction levels generalizing depth site before after with
  | zero =>
      obtain rfl := List.mem_singleton.1 member
      exact ⟨rfl, rfl⟩
  | succ levels ih =>
      rcases List.mem_cons.1 member with rfl | inside
      · exact ⟨rfl, rfl⟩
      · split at inside
        · rename_i fields others _ _
          simp only [List.mem_append] at inside
          rcases inside with keyword | middle | other
          · exact found_belongs (fun _ => keywordChanges_finds) keyword
          · split_ifs at middle
            · obtain rfl := List.mem_singleton.1 middle
              exact unclassifiedKeyword_finds _ _ _ _
            · obtain ⟨name, -, inner⟩ := List.mem_flatMap.1 middle
              unfold propertyEvents at inner
              split_ifs at inner
              · have below := ih inner
                cases event <;> exact below
              · cases inner
          · exact found_belongs (fun _ => otherChanges_finds) other
        · obtain rfl := List.mem_singleton.1 inside
          exact invalidShape_finds site

theorem schemaEvents_belong {tool : String} {kind : ToolSchemaKind} {before after : Option Value}
    (member : event ∈ schemaEvents codec tool kind before after) :
    event = .schema ∨ event.Belongs ⟨tool, kind, ""⟩ := by
  unfold schemaEvents at member
  split_ifs at member
  · cases member
  · split at member
    · rcases List.mem_cons.1 member with rfl | inside
      · exact .inl rfl
      · exact .inr (nodeEvents_belong inside)
    · cases member
    · obtain rfl := List.mem_singleton.1 member
      exact .inr ⟨⟨tool, kind, ""⟩, _, _, _, _, _, _, rfl, rfl, by decide, rfl⟩

theorem toolEvents_belong {candidate : List (String × ToolDef)} {tool : String × ToolDef}
    (member : event ∈ toolEvents codec candidate tool) :
    event = .schema ∨ ∃ kind, event.Belongs ⟨tool.1, kind, ""⟩ := by
  unfold toolEvents at member
  split at member
  · cases member
  · obtain ⟨schema, -, inside⟩ := List.mem_flatMap.1 member
    exact (schemaEvents_belong inside).imp_right fun belongs => ⟨schema.1, belongs⟩

theorem walkEvents_belong {baseline candidate : List StoredMessage}
    (member : event ∈ walkEvents codec baseline candidate) :
    event = .schema ∨ ∃ tool kind, event.Belongs ⟨tool, kind, ""⟩ := by
  unfold walkEvents at member
  dsimp only at member
  split_ifs at member
  · cases member
  · obtain ⟨tool, -, inside⟩ := List.mem_flatMap.1 member
    exact (toolEvents_belong inside).imp_right fun belongs => ⟨tool.1, belongs⟩

/-- A finding of a schema is not that of a limit. -/
theorem finds_not_limit {site : SchemaSite} {explanation : SchemaChangeExplanation}
    (finds : site.Finds explanation) : ¬ explanation.ReportsLimit := by
  obtain ⟨place, rule, classification, before, after, reason, keywords, -, -, own, rfl⟩ := finds
  intro limit
  exact own ((String.append_right_inj _).1 limit)

/-- Nothing that the walk finds is a limit. -/
theorem foundIn_not_limit {baseline candidate : List StoredMessage} {front : List WalkEvent}
    (shorter : front <+: walkEvents codec baseline candidate) {explanation : SchemaChangeExplanation}
    (member : explanation ∈ foundIn front) : ¬ explanation.ReportsLimit := by
  obtain ⟨event, inside, finding⟩ := List.mem_filterMap.1 member
  cases event with
  | schema => cases finding
  | enter => cases finding
  | found other =>
      obtain rfl := Option.some.inj finding
      rcases walkEvents_belong (shorter.subset inside) with marker | ⟨tool, kind, finds⟩
      · cases marker
      · exact finds_not_limit finds

end Belongs

/-! ## Nodes of a schema -/

section NodeCounts
variable {codec : Codec} {analysis : SchemaAnalysis} {tool : String} {kind : ToolSchemaKind}

/-- Entries of one schema are none of another. -/
theorem countP_enters_eq_zero {events : List WalkEvent} (elsewhere : SchemaSite → Prop)
    (belong : ∀ event ∈ events, event = .schema ∨ ∃ site, elsewhere site ∧ event.Belongs site)
    (apart : ∀ site, elsewhere site → ¬ (site.tool = tool ∧ site.kind = kind)) :
    events.countP (WalkEvent.enters tool kind) = 0 := by
  rw [List.countP_eq_zero]
  intro event member
  cases event with
  | schema => exact Bool.false_ne_true
  | found => exact Bool.false_ne_true
  | enter place depth =>
      rcases belong _ member with marker | ⟨site, other, same, alike⟩
      · cases marker
      · simp only [WalkEvent.enters, Bool.and_eq_true, beq_iff_eq, same, alike]
        exact apart site other

theorem schema_taken_le (before after : Option Value) :
    (budgeted.taken analysis (schemaEvents codec tool kind before after)).countP (WalkEvent.enters tool kind) ≤
      maxSchemaNodes := by
  have single (finding : SchemaChangeExplanation) :
      (budgeted.taken analysis [.found finding]).countP (WalkEvent.enters tool kind) ≤ maxSchemaNodes := by
    have short : (budgeted.taken analysis [.found finding]).length ≤ 1 := (Stoppable.taken_shorter _ _).length_le
    have many : 1 ≤ maxSchemaNodes := by decide
    exact List.countP_le_length.trans (short.trans many)
  unfold schemaEvents
  split_ifs with same
  · exact Nat.zero_le _
  cases before with
  | none =>
      cases after with
      | none => exact Nat.zero_le _
      | some new => exact single _
  | some old =>
      cases after with
      | none => exact single _
      | some new =>
          dsimp only
          rw [SchemaAnalysis.taken_event]
          split_ifs
          · exact Nat.zero_le _
          · have own (event : WalkEvent)
                (member : event ∈ nodeEvents codec (maxSchemaDepth + 1) 0 ⟨tool, kind, ""⟩ old new) :
                event ≠ .schema := by
              rintro rfl
              exact nodeEvents_belong member
            rw [List.countP_cons_of_neg Bool.false_ne_true]
            have counted := @taken_nodes_le (analysis.take .schema) _ tool kind own (Nat.zero_le _)
            exact (Nat.le_add_left _ _).trans counted

theorem tool_taken_le (candidate : List (String × ToolDef)) (definition : ToolDef) (running : analysis.truncated = false) :
    (budgeted.taken analysis (toolEvents codec candidate (tool, definition))).countP (WalkEvent.enters tool kind) ≤
      maxSchemaNodes := by
  unfold toolEvents
  cases candidate.lookup tool with
  | none => exact Nat.zero_le _
  | some after =>
      refine @Stoppable.countP_taken_flatMap _ _ budgeted _ _ _ _ Prod.fst _ kind _ _ (by simp) ?_ ?_ running
      · intro schema _ other
        refine countP_enters_eq_zero (fun site => site.kind = schema.1) ?_ ?_
        · intro event member
          exact (schemaEvents_belong member).imp_right fun belongs => ⟨⟨tool, schema.1, ""⟩, rfl, belongs⟩
        · rintro site same ⟨-, own⟩
          exact other (same.symm.trans own)
      · rintro schema _ rfl state _
        exact schema_taken_le schema.2.1 schema.2.2

theorem walk_taken_le (baseline candidate : List StoredMessage) :
    (walkTaken codec baseline candidate).countP (WalkEvent.enters tool kind) ≤ maxSchemaNodes := by
  unfold walkTaken walkEvents
  dsimp only
  split_ifs
  · exact Nat.zero_le _
  · have distinct := List.pairwise_map.1 (extractTools_nodup codec baseline)
    refine @Stoppable.countP_taken_flatMap _ _ budgeted _ _ _ _ Prod.fst _ tool _ _ distinct ?_ ?_ rfl
    · intro other _ named
      refine countP_enters_eq_zero (fun site => site.tool = other.1) ?_ ?_
      · intro event member
        rcases toolEvents_belong member with marker | ⟨kind, belongs⟩
        · exact .inl marker
        · exact .inr ⟨⟨other.1, kind, ""⟩, rfl, belongs⟩
      · rintro site same ⟨own, -⟩
        exact named (same.symm.trans own)
    · rintro ⟨name, definition⟩ _ rfl state running
      exact tool_taken_le _ definition running

end NodeCounts

/-! ## Truncation -/

section Truncation
variable {codec : Codec} {baseline candidate : List StoredMessage} {front : List WalkEvent} {event : WalkEvent}

/-- What ends an analysis is a limit that it tries to report. -/
theorem take_truncated {analysis : SchemaAnalysis} (running : analysis.truncated = false)
    (truncated : (analysis.take event).truncated = true) : ∃ (nodes : Nat) (site : SchemaSite) (reason : String),
      analysis.take event = SchemaAnalysis.pushLimit { analysis with nodes := nodes } site reason := by
  cases event with
  | schema =>
      rw [show (analysis.take .schema).truncated = analysis.truncated from rfl, running] at truncated
      cases truncated
  | enter site depth =>
      unfold SchemaAnalysis.take at truncated ⊢
      dsimp only at truncated ⊢
      split_ifs at truncated ⊢
      · exact ⟨analysis.nodes, site, _, rfl⟩
      · exact ⟨analysis.nodes, site, _, rfl⟩
      · exact ⟨analysis.nodes + 1, site, _, rfl⟩
      · rw [running] at truncated
        cases truncated
  | found explanation =>
      unfold SchemaAnalysis.take SchemaAnalysis.push at truncated ⊢
      dsimp only at truncated ⊢
      split_ifs at truncated ⊢
      · exact ⟨analysis.nodes, _, _, rfl⟩
      · rw [running] at truncated
        cases truncated

/-- The limit is reported if it is met while there is room on the list. -/
theorem limit_reported_iff (cut : FirstOver OverLimit (walkEvents codec baseline candidate) front event) :
    (∃ explanation ∈ (budgeted.run .start (walkEvents codec baseline candidate)).explanations, explanation.ReportsLimit) ↔
      (foundIn front).length < maxSchemaExplanations := by
  obtain ⟨running, whole⟩ := Stoppable.run_of_firstOver rfl stops_iff cut
  have ends := (stops_iff front event running).2 cut.exceeds
  obtain ⟨nodes, site, reason, ended⟩ := take_truncated running ends
  have collected := (run_counts running).1
  rw [whole, show budgeted.step _ event = _ from ended, SchemaAnalysis.pushLimit]
  dsimp only
  rw [collected]
  split_ifs with room
  · -- The limit takes the next place.
    refine iff_of_true ⟨site.limit reason, List.mem_append_right _ (List.mem_singleton.2 rfl), rfl⟩ room
  · -- The list is full of findings of the walk.
    refine iff_of_false ?_ room
    rintro ⟨explanation, member, limit⟩
    exact foundIn_not_limit ((List.prefix_append front [event]).trans cut.here) member limit

/-- Truncation is honest just if the first limit is met while there is room on the list. -/
theorem honestlyTruncated_iff (codec : Codec) (baseline candidate : List StoredMessage) :
    HonestlyTruncated codec baseline candidate ↔
      ∀ front event, FirstOver OverLimit (walkEvents codec baseline candidate) front event →
        (foundIn front).length < maxSchemaExplanations := by
  obtain ⟨status, listed⟩ := explainToolSchemaChanges_eq_run codec baseline candidate
  have truncated_iff := status.trans (run_truncated_iff (walkEvents codec baseline candidate))
  have reported (explanation : SchemaChangeExplanation) :
      explanation ∈ (explainToolSchemaChanges codec baseline candidate).schemaExplanations ↔
        explanation ∈ (budgeted.run .start (walkEvents codec baseline candidate)).explanations := by
    rw [listed, List.mem_insertionSort]
  constructor
  · intro honest front event cut
    obtain ⟨explanation, member, limit⟩ := honest.reported (truncated_iff.2 ⟨front, event, cut.here, cut.exceeds⟩)
    exact (limit_reported_iff cut).1 ⟨explanation, (reported _).1 member, limit⟩
  · intro room
    refine ⟨?_, fun tool kind => walk_taken_le baseline candidate, ?_, truncated_iff, ?_⟩
    · rw [listed, List.length_insertionSort]
      exact run_length_le _
    · intro site depth member
      obtain ⟨earlier, running⟩ := Stoppable.mem_taken member
      exact take_depth_le running
    · intro truncated
      obtain ⟨front, event, cut⟩ := Stoppable.exists_firstOver rfl stops_iff (status.1 truncated)
      obtain ⟨explanation, member, limit⟩ := (limit_reported_iff cut).2 (room front event cut)
      exact ⟨explanation, (reported _).2 member, limit⟩

end Truncation

/-- An object with these required properties. -/
def requiring (names : List String) : Value := .object [("required", .array (names.map .string))]

def manyNames : List String := (List.range 101).map fun n => String.singleton (Char.ofNat (n + 200))

theorem listing_unrequired : extractToolCatalog Compact.codec (toolListing (requiring [])) = echoCatalog (requiring []) :=
  listing_catalog (by decide) (by decide) (by decide)

theorem listing_many : extractToolCatalog Compact.codec (toolListing (requiring manyNames)) =
    echoCatalog (requiring manyNames) :=
  listing_catalog (by decide +kernel) (by decide +kernel) (by decide +kernel)

/-- The hundred findings of one node leave no room for the one that would say that there are more. -/
theorem limit_not_reported :
    ¬ HonestlyTruncated Compact.codec (toolListing (requiring [])) (toolListing (requiring manyNames)) := by
  intro honest
  obtain ⟨status, listed⟩ :=
    explainToolSchemaChanges_eq_run Compact.codec (toolListing (requiring [])) (toolListing (requiring manyNames))
  -- The list is looked through as it is collected, which spares sorting it.
  have silent : (budgeted.run .start (walkEvents Compact.codec (toolListing (requiring []))
      (toolListing (requiring manyNames)))).truncated = true ∧
        ∀ explanation ∈ (budgeted.run .start (walkEvents Compact.codec (toolListing (requiring []))
          (toolListing (requiring manyNames)))).explanations, ¬ explanation.ReportsLimit := by
    rw [walkEvents, listing_unrequired, listing_many]
    unfold SchemaChangeExplanation.ReportsLimit
    decide +kernel
  obtain ⟨explanation, member, limit⟩ := honest.reported (status.2 silent.1)
  rw [listed, List.mem_insertionSort] at member
  exact silent.2 explanation member limit

end McpTracer.Model
