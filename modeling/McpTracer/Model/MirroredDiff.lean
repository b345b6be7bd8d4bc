import McpTracer.Model.CorrespondingDiff
import McpTracer.Model.PointerDiffs

/-! The diff in the other direction.

Exchanging the sessions exchanges the two sides of every difference. Members that one side lacks are listed
last, so the differences of a body come in another order.
-/

set_option autoImplicit false

namespace McpTracer.Model
open McpTracer.Foundation McpTracer.Json McpTracer.Protocol McpTracer.Storage

/-! ## Bodies -/

def PointerDiff.mirror (diff : PointerDiff) : PointerDiff := ⟨diff.pointer, diff.toValue, diff.fromValue⟩

@[simp] theorem PointerDiff.mirror_mirror (diff : PointerDiff) : diff.mirror.mirror = diff := rfl

theorem comparedTokens_perm {a b : Value} (formed : a.wellFormed = true) (other : b.wellFormed = true)
    (same : SameContainer a b) : (comparedTokens b a).Perm (comparedTokens a b) := by
  rw [List.perm_ext_iff_of_nodup (comparedTokens_nodup other formed) (comparedTokens_nodup formed other)]
  intro token
  rw [mem_comparedTokens same.symm, mem_comparedTokens same, or_comm]

theorem compareValues_mirror {a : Value} (formed : a.wellFormed = true) {b : Value} (other : b.wellFormed = true)
    (pointer : String) : (compareValues pointer b a).Perm ((compareValues pointer a b).map PointerDiff.mirror) := by
  induction a using Value.induction_on_child generalizing b pointer with
  | step a ih =>
    by_cases same : SameContainer a b
    · rw [compareValues_container other formed same.symm, compareValues_container formed other same, List.map_flatMap]
      apply (List.Perm.flatMap_right _ (comparedTokens_perm formed other same)).trans
      apply List.Perm.flatMap_left
      intro token _
      cases here : a.child token with
      | none =>
        cases there : b.child token with
        | none => exact List.Perm.refl _
        | some y => exact List.Perm.refl _
      | some x =>
        cases there : b.child token with
        | none => exact List.Perm.refl _
        | some y => exact ih token x here (Value.wellFormed_child formed here) (Value.wellFormed_child other there) _
    · have back : ¬ SameContainer b a := fun same' => same same'.symm
      rw [compareValues_of_not_same back, compareValues_of_not_same same, Bool.or_comm, Value.beq_comm]
      split_ifs <;> exact List.Perm.refl _

/-! ## Exchanges -/

/-- The same change, seen from the other session. Latency is not among them. -/
inductive ExchangeDelta.Mirrors : ExchangeDelta → ExchangeDelta → Prop
  | status (before after : ExchangeStatus) : Mirrors (.statusChanged before after) (.statusChanged after before)
  | errorCode (before after : Option Int) : Mirrors (.errorCodeChanged before after) (.errorCodeChanged after before)
  | request {diffs mirrored : List PointerDiff} (exchanged : mirrored.Perm (diffs.map PointerDiff.mirror)) :
      Mirrors (.requestChanged diffs) (.requestChanged mirrored)
  | response {diffs mirrored : List PointerDiff} (exchanged : mirrored.Perm (diffs.map PointerDiff.mirror)) :
      Mirrors (.responseChanged diffs) (.responseChanged mirrored)

/-- A delta that is reported when there are differences. -/
theorem mirrors_reported {build : List PointerDiff → ExchangeDelta} {diffs mirrored : List PointerDiff}
    (exchanged : mirrored.Perm (diffs.map PointerDiff.mirror))
    (mirrors : (build diffs).Mirrors (build mirrored)) :
    List.Forall₂ ExchangeDelta.Mirrors (if diffs.isEmpty then [] else [build diffs])
      (if mirrored.isEmpty then [] else [build mirrored]) := by
  have empty : mirrored.isEmpty = diffs.isEmpty := by
    rw [exchanged.isEmpty_eq, List.isEmpty_map]
  rw [empty]
  split_ifs
  · exact .nil
  · exact .cons mirrors .nil

section Exchanges
variable {aPayloads bPayloads : Table Nat Value} {options : DiffOptions}

theorem requestDiffs_mirror (formed : WellFormedPayloads aPayloads) (other : WellFormedPayloads bPayloads)
    (options : DiffOptions) (a b : Exchange) :
    (requestDiffs bPayloads aPayloads options b a).Perm
      ((requestDiffs aPayloads bPayloads options a b).map PointerDiff.mirror) := by
  unfold requestDiffs
  cases left : requestParams a aPayloads with
  | none => cases requestParams b bPayloads <;> exact List.Perm.refl _
  | some v =>
    cases right : requestParams b bPayloads with
    | none => exact List.Perm.refl _
    | some w =>
      exact compareValues_mirror (normalizeRequest_wellFormed (requestParams_wellFormed formed left))
        (normalizeRequest_wellFormed (requestParams_wellFormed other right)) ""

theorem responseDiffs_mirror (formed : WellFormedPayloads aPayloads) (other : WellFormedPayloads bPayloads)
    (options : DiffOptions) {a b : Exchange} (status : a.status = b.status) : (responseDiffs bPayloads aPayloads options b a).Perm
      ((responseDiffs aPayloads bPayloads options a b).map PointerDiff.mirror) := by
  unfold responseDiffs
  rw [← status]
  cases comparedField a.status with
  | none => exact List.Perm.refl _
  | some field =>
    dsimp only
    cases left : responseSubtree a aPayloads field with
    | none => cases responseSubtree b bPayloads field <;> exact List.Perm.refl _
    | some v =>
      cases right : responseSubtree b bPayloads field with
      | none => exact List.Perm.refl _
      | some w =>
        exact compareValues_mirror (normalizeResponse_wellFormed (responseSubtree_wellFormed formed left))
          (normalizeResponse_wellFormed (responseSubtree_wellFormed other right)) ""

theorem compareExchanges_mirror (formed : WellFormedPayloads aPayloads) (other : WellFormedPayloads bPayloads)
    (ignored : options.ignoreLatency = true) (a b : Exchange) :
    List.Forall₂ ExchangeDelta.Mirrors (compareExchanges aPayloads bPayloads options a b)
      (compareExchanges bPayloads aPayloads options b a) := by
  have request := requestDiffs_mirror formed other options a b
  unfold compareExchanges
  rw [latencyDeltas_of_ignored ignored, latencyDeltas_of_ignored ignored, List.append_nil, List.append_nil]
  apply List.rel_append (mirrors_reported request (.request request))
  by_cases status : a.status = b.status
  · have response := responseDiffs_mirror formed other options status
    rw [if_neg (not_not.2 status), if_neg (not_not.2 status.symm)]
    apply List.rel_append _ (mirrors_reported response (.response response))
    by_cases code : a.errorCode = b.errorCode
    · rw [if_neg (not_not.2 code), if_neg (not_not.2 code.symm)]
      exact .nil
    · rw [if_pos code, if_pos (Ne.symm code)]
      exact .cons (.errorCode _ _) .nil
  · rw [if_pos status, if_pos (Ne.symm status)]
    exact .cons (.status _ _) .nil

theorem StepAgrees.symm (formed : WellFormedPayloads aPayloads) (other : WellFormedPayloads bPayloads) {a b : Exchange}
    (agrees : StepAgrees aPayloads bPayloads options a b) : StepAgrees bPayloads aPayloads options b a where
  status := agrees.status.symm
  errorCode := agrees.errorCode.symm
  request := by
    have exchanged := requestDiffs_mirror formed other options a b
    rw [agrees.request] at exchanged
    exact exchanged.eq_nil
  response := by
    have exchanged := responseDiffs_mirror formed other options agrees.status
    rw [agrees.response] at exchanged
    exact exchanged.eq_nil

/-- The steps at which two trajectories branch do not depend on which comes first. -/
theorem divergenceFrom_mirror (formed : WellFormedPayloads aPayloads) (other : WellFormedPayloads bPayloads) (index : Nat)
    (as bs : List (String × Exchange)) :
    (divergenceFrom bPayloads aPayloads options index bs as).map PointOfDivergence.stepIndex =
      (divergenceFrom aPayloads bPayloads options index as bs).map PointOfDivergence.stepIndex := by
  induction as generalizing index bs with
  | nil => cases bs <;> rfl
  | cons a as ih =>
    cases bs with
    | nil => rfl
    | cons b bs =>
      rw [divergenceFrom, divergenceFrom]
      cases step : stepDivergence aPayloads bPayloads options index a b with
      | none =>
        obtain ⟨key, agrees⟩ := (stepDivergence_eq_none_iff index a b).1 step
        rw [(stepDivergence_eq_none_iff index b a).2 ⟨key.symm, agrees.symm formed other⟩]
        exact ih (index + 1) bs
      | some divergence =>
        cases back : stepDivergence bPayloads aPayloads options index b a with
        | none =>
          obtain ⟨key, agrees⟩ := (stepDivergence_eq_none_iff index b a).1 back
          rw [(stepDivergence_eq_none_iff index a b).2 ⟨key.symm, agrees.symm other formed⟩] at step
          cases step
        | some mirrored =>
          rw [Option.map_some, Option.map_some, stepDivergence_index step, stepDivergence_index back]

end Exchanges

theorem compareNotifications_mirror (codec : Codec) (options : DiffOptions) (a b : StoredMessage) :
    List.Forall₂ ExchangeDelta.Mirrors (compareNotifications codec options a b)
      (compareNotifications codec options b a) := by
  unfold compareNotifications
  cases left : codec.fromStr a.payload with
  | none => cases codec.fromStr b.payload <;> exact .nil
  | some v =>
    cases right : codec.fromStr b.payload with
    | none => exact .nil
    | some w =>
      have formed : (normalize options.ignore v).wellFormed = true := normalize_wellFormed (codec.fromStr_wellFormed left)
      have other : (normalize options.ignore w).wellFormed = true := normalize_wellFormed (codec.fromStr_wellFormed right)
      have exchanged := compareValues_mirror formed other ""
      exact mirrors_reported exchanged (.response exchanged)

/-! ## Aligned entries -/

def AlignedExchangeDiff.Mirrors (diff mirrored : AlignedExchangeDiff) : Prop :=
  diff.key = mirrored.key ∧ List.Forall₂ ExchangeDelta.Mirrors diff.deltas mirrored.deltas

theorem align_mirror {A : Type} {as bs : List (String × A)} (unique : (as.map Prod.fst).Nodup)
    (uniqueToo : (bs.map Prod.fst).Nodup) {compare back : A → A → List ExchangeDelta}
    (mirrors : ∀ a b, List.Forall₂ ExchangeDelta.Mirrors (compare a b) (back b a)) :
    ∀ diff ∈ (align as bs compare).changed, ∃ mirrored ∈ (align bs as back).changed, diff.Mirrors mirrored := by
  intro diff reported
  obtain ⟨a, b, inA, inB, compared, differs⟩ := (mem_align_changed_iff uniqueToo diff).1 reported
  have seen := mirrors a b
  rw [compared] at seen
  refine ⟨⟨diff.key, back b a⟩, (mem_align_changed_iff unique _).2 ⟨b, a, inB, inA, rfl, fun quiet => differs ?_⟩, rfl, seen⟩
  rw [show back b a = [] from quiet] at seen
  exact List.forall₂_nil_right_iff.1 seen

/-! ## Tools -/

def FindingDetail.mirror : FindingDetail → FindingDetail
  | .text detail => .text detail
  | .titleChanged before after => .titleChanged after before
  | .descriptionChanged before after => .descriptionChanged after before
  | .annotationsChanged before after => .annotationsChanged after before

def SecurityFinding.mirror (finding : SecurityFinding) : SecurityFinding :=
  { finding with detail := finding.detail.mirror }

/-- The finding is about a tool that both sessions have. -/
def SecurityFinding.isChange (finding : SecurityFinding) : Prop :=
  finding.kind ≠ .toolAdded ∧ finding.kind ≠ .toolRemoved

theorem optionValue_bne_comm (x y : Option Value) : (x != y) = (y != x) := by
  cases x with
  | none => cases y <;> rfl
  | some v =>
    cases y with
    | none => rfl
    | some w => exact congrArg not (Value.beq_comm v w)

/-- A finding that is reported on the same condition in both directions. -/
theorem reported_mirror {p q : Prop} [Decidable p] [Decidable q] (same : q ↔ p) (finding : SecurityFinding) :
    (if q then [finding.mirror] else []) = (if p then [finding] else []).map SecurityFinding.mirror := by
  by_cases holds : p
  · rw [if_pos (same.2 holds), if_pos holds]
    rfl
  · rw [if_neg (same.not.2 holds), if_neg holds]
    rfl

theorem toolFindings_mirror (name : String) (a b : ToolDef) :
    toolFindings name b a = (toolFindings name a b).map SecurityFinding.mirror := by
  have changed (x y : Option Value) : (y != x) = true ↔ (x != y) = true := by rw [optionValue_bne_comm]
  unfold toolFindings
  rw [List.map_append, List.map_append, List.map_append, List.map_append, ← reported_mirror ne_comm,
    ← reported_mirror ne_comm, ← reported_mirror (changed a.inputSchema b.inputSchema),
    ← reported_mirror (changed a.outputSchema b.outputSchema), ← reported_mirror (changed a.annotations b.annotations)]
  rfl

theorem toolFindings_tool {name : String} {a b : ToolDef} {finding : SecurityFinding}
    (found : finding ∈ toolFindings name a b) : finding.tool = name ∧ finding.isChange := by
  unfold toolFindings at found
  simp only [List.mem_append] at found
  rcases found with (((found | found) | found) | found) | found <;>
  · split_ifs at found
    · obtain rfl := List.mem_singleton.1 found
      exact ⟨rfl, by simp [SecurityFinding.isChange]⟩
    · cases found

/-- A change is found in the two definitions of a tool. -/
theorem mem_security_iff {as bs : List (String × ToolDef)} (unique : (bs.map Prod.fst).Nodup) {finding : SecurityFinding}
    (change : finding.isChange) : finding ∈ (diffTools as bs).security ↔
      ∃ a b, as.lookup finding.tool = some a ∧ bs.lookup finding.tool = some b ∧ finding ∈ toolFindings finding.tool a b := by
  have removed : finding ∉ (diffTools as bs).toolsRemoved.map fun name =>
      ⟨.toolRemoved, name, .text "tool present in baseline session but missing now"⟩ := by
    intro inside
    obtain ⟨name, -, rfl⟩ := List.mem_map.1 inside
    exact change.2 rfl
  rw [show (diffTools as bs).security = _ ++ (diffTools as bs).toolsRemoved.map _ from rfl, List.mem_append,
    or_iff_left removed, List.mem_flatMap]
  constructor
  · rintro ⟨⟨name, b⟩, member, found⟩
    dsimp only at found
    split at found
    · obtain rfl := List.mem_singleton.1 found
      exact absurd rfl change.1
    · rename_i a before
      obtain ⟨rfl, -⟩ := toolFindings_tool found
      exact ⟨a, b, before, (lookup_eq_some_iff unique _ _).2 member, found⟩
  · rintro ⟨a, b, before, after, found⟩
    refine ⟨(finding.tool, b), mem_of_lookup after, ?_⟩
    dsimp only
    rw [before]
    exact found

theorem diffTools_mirror {as bs : List (String × ToolDef)} (unique : (as.map Prod.fst).Nodup)
    (uniqueToo : (bs.map Prod.fst).Nodup) {finding : SecurityFinding} (change : finding.isChange) :
    finding ∈ (diffTools bs as).security ↔ finding.mirror ∈ (diffTools as bs).security := by
  have twice (other : SecurityFinding) : other.mirror.mirror = other := by
    obtain ⟨kind, tool, detail⟩ := other
    cases detail <;> rfl
  rw [mem_security_iff unique change, mem_security_iff uniqueToo (show finding.mirror.isChange from change)]
  constructor
  · rintro ⟨b, a, after, before, found⟩
    rw [toolFindings_mirror] at found
    obtain ⟨other, inside, rfl⟩ := List.mem_map.1 found
    exact ⟨a, b, before, after, by rwa [twice]⟩
  · rintro ⟨a, b, before, after, found⟩
    refine ⟨b, a, after, before, ?_⟩
    rw [toolFindings_mirror, List.mem_map]
    exact ⟨finding.mirror, found, twice finding⟩

/-! ## Reports -/

/-- The other report says the same with the sessions exchanged. -/
structure DiffReport.Mirrors (report other : DiffReport) : Prop where
  changed : ∀ diff ∈ report.changed, ∃ mirrored ∈ other.changed, diff.Mirrors mirrored
  changedBack : ∀ diff ∈ other.changed, ∃ mirrored ∈ report.changed, diff.Mirrors mirrored
  added : other.added = report.removed
  removed : other.removed = report.added
  toolsAdded : other.toolsAdded = report.toolsRemoved
  toolsRemoved : other.toolsRemoved = report.toolsAdded
  security : ∀ finding, finding.isChange → (finding ∈ other.security ↔ finding.mirror ∈ report.security)
  errorRateFrom : other.errorRateFrom = report.errorRateTo
  errorRateTo : other.errorRateTo = report.errorRateFrom
  pointOfDivergence : other.pointOfDivergence.map PointOfDivergence.stepIndex =
    report.pointOfDivergence.map PointOfDivergence.stepIndex

section Sessions
variable {codec : Codec} {options : DiffOptions}

theorem diffSessions_changed_mirror (ignored : options.ignoreLatency = true) (as bs : List StoredMessage) :
    ∀ diff ∈ (diffSessions codec as bs options).changed, ∃ mirrored ∈ (diffSessions codec bs as options).changed,
      diff.Mirrors mirrored := by
  intro diff reported
  rcases List.mem_append.1 reported with exchange | notification
  · obtain ⟨mirrored, found, seen⟩ := align_mirror (alignmentKeys_nodup _) (alignmentKeys_nodup _)
      (compareExchanges_mirror (payloadsBySeq_wellFormed codec as) (payloadsBySeq_wellFormed codec bs) ignored) diff exchange
    exact ⟨mirrored, List.mem_append_left _ found, seen⟩
  · obtain ⟨mirrored, found, seen⟩ := align_mirror (notificationAlignmentKeys_nodup as)
      (notificationAlignmentKeys_nodup bs) (compareNotifications_mirror codec options) diff notification
    exact ⟨mirrored, List.mem_append_right _ found, seen⟩

theorem diffSessions_mirror (ignored : options.ignoreLatency = true) (as bs : List StoredMessage) :
    (diffSessions codec as bs options).Mirrors (diffSessions codec bs as options) where
  changed := diffSessions_changed_mirror ignored as bs
  changedBack := diffSessions_changed_mirror ignored bs as
  added := rfl
  removed := rfl
  toolsAdded := rfl
  toolsRemoved := rfl
  security _ change := diffTools_mirror (extractTools_nodup codec as) (extractTools_nodup codec bs) change
  errorRateFrom := rfl
  errorRateTo := rfl
  pointOfDivergence := divergenceFrom_mirror (payloadsBySeq_wellFormed codec as) (payloadsBySeq_wellFormed codec bs) 0 _ _

/-! ## One session with itself -/

/-- Under a unique key there is one entry. -/
theorem entry_unique {A : Type} {entries : List (String × A)} (unique : (entries.map Prod.fst).Nodup) {key : String}
    {a b : A} (first : (key, a) ∈ entries) (second : (key, b) ∈ entries) : a = b := by
  have found := (lookup_eq_some_iff unique key a).2 first
  rw [(lookup_eq_some_iff unique key b).2 second] at found
  exact (Option.some.inj found).symm

theorem AgreeWhereCompared.refl (codec : Codec) (messages : List StoredMessage) (rules : IgnoreRules) :
    AgreeWhereCompared codec messages messages rules := by
  have exchange {key : String} {a b : Exchange} (inA : (key, a) ∈ keyedExchanges codec messages)
      (inB : (key, b) ∈ keyedExchanges codec messages) : a = b := entry_unique (alignmentKeys_nodup _) inA inB
  have alike {x : Option Value} {v w : Value} (left : x = some v) (right : x = some w) : v = w :=
    Option.some.inj (left.symm.trans right)
  exact {
    keys := rfl
    outcome := fun key a b inA inB => by
      obtain rfl := exchange inA inB
      exact ⟨rfl, rfl⟩
    params := fun key a b inA inB v w left right => by
      obtain rfl := exchange inA inB
      obtain rfl := alike left right
      exact .refl _ _
    bodies := fun key a b inA inB field _ v w left right => by
      obtain rfl := exchange inA inB
      obtain rfl := alike left right
      exact .refl _ _
    notificationKeys := fun _ => Iff.rfl
    notifications := fun key a b inA inB v w left right => by
      obtain rfl := entry_unique (notificationAlignmentKeys_nodup messages) inA inB
      obtain rfl := alike left right
      exact .refl _ _
    tools := fun name => option_rel_refl SameTool.refl _ }

/-- The same latency twice is a change only when any change is one. -/
theorem latencyDeltas_self_eq_nil_iff (a : Exchange) : latencyDeltas options a a = [] ↔
    options.ignoreLatency = true ∨ 0 ≤ options.latencyThresholdNs ∨ 0 ≤ options.latencyThresholdPct ∨
      ∀ latency, a.latencyNs = some latency → latency ≤ 0 := by
  unfold latencyDeltas
  cases ignored : options.ignoreLatency with
  | true => simp
  | false =>
    cases a.latencyNs with
    | none => simp
    | some latency =>
      rw [if_neg Bool.false_ne_true]
      dsimp only
      rw [sub_self, sub_self, abs_zero, zero_div, zero_mul, abs_zero]
      by_cases positive : 0 < latency
      · by_cases absolute : options.latencyThresholdNs < 0
        · by_cases relative : options.latencyThresholdPct < 0
          · simp [positive, absolute, relative]
          · simp [relative, not_lt.1 relative]
        · simp [absolute, not_lt.1 absolute]
      · simp [positive, not_lt.1 positive]

theorem diffSessions_self_isEmpty_iff (messages : List StoredMessage) :
    (diffSessions codec messages messages options).isEmpty = true ↔
      options.ignoreLatency = true ∨ 0 ≤ options.latencyThresholdNs ∨ 0 ≤ options.latencyThresholdPct ∨
        ∀ entry ∈ keyedExchanges codec messages, ∀ latency, entry.2.latencyNs = some latency → latency ≤ 0 := by
  rw [diffSessions_isEmpty_iff, and_iff_right (AgreeWhereCompared.refl codec messages options.ignore)]
  constructor
  · intro quiet
    by_contra compared
    simp only [not_or] at compared
    obtain ⟨latency, absolute, relative, slow⟩ := compared
    refine slow fun entry member => ?_
    have silent := (latencyDeltas_self_eq_nil_iff entry.2).1 (quiet entry.1 entry.2 entry.2 member member)
    simpa [latency, absolute, relative] using silent
  · intro quiet key a b inA inB
    obtain rfl := entry_unique (alignmentKeys_nodup _) inA inB
    refine (latencyDeltas_self_eq_nil_iff a).2 ?_
    exact quiet.imp_right fun rest => rest.imp_right fun rest => rest.imp_right fun slow => slow (key, a) inA

/-- A session differs from itself only where any latency is a change, and without latency the diff in the other direction
says the same with the sessions exchanged. -/
theorem diffSessions_unbiased (codec : Codec) (options : DiffOptions) :
    (∀ messages, (diffSessions codec messages messages options).isEmpty = true ↔
      options.ignoreLatency = true ∨ 0 ≤ options.latencyThresholdNs ∨ 0 ≤ options.latencyThresholdPct ∨
        ∀ entry ∈ keyedExchanges codec messages, ∀ latency, entry.2.latencyNs = some latency → latency ≤ 0) ∧
    (options.ignoreLatency = true → ∀ as bs,
      (diffSessions codec as bs options).Mirrors (diffSessions codec bs as options)) :=
  ⟨diffSessions_self_isEmpty_iff, diffSessions_mirror⟩

end Sessions

def DiffOptions.withoutLatency : DiffOptions := { DiffOptions.standard with ignoreLatency := true }

theorem diffSessions_unbiased_pings :
    (diffSessions Compact.codec (pingThen "ping") (pingThen "tools/list") .withoutLatency).Mirrors
      (diffSessions Compact.codec (pingThen "tools/list") (pingThen "ping") .withoutLatency) :=
  (diffSessions_unbiased Compact.codec .withoutLatency).2 rfl (pingThen "ping") (pingThen "tools/list")

/-- A call that is answered after this time. -/
def answeredAfter (latency : Int) : List StoredMessage :=
  [requestMessage "ping" none, ⟨1, latency, "s2c", "response", some "1", none, none, "", 0, false, none⟩]

/-- With negative thresholds a session differs from itself. -/
theorem diffSessions_self_reports : ¬ ∀ (messages : List StoredMessage) (options : DiffOptions),
    (diffSessions Compact.codec messages messages options).isEmpty = true := by
  intro empty
  have entry : ("ping#0", (Exchange.opened .clientToServer (requestMessage "ping" none)).answered Compact.codec
      ⟨1, 5, "s2c", "response", some "1", none, none, "", 0, false, none⟩) ∈
        keyedExchanges Compact.codec (answeredAfter 5) := by decide +kernel
  have quiet := (diffSessions_isEmpty_iff.1 (empty (answeredAfter 5) ⟨.standard, false, -1, -1⟩)).2 _ _ _ entry entry
  simp [latencyDeltas, Exchange.answered, Exchange.opened, requestMessage] at quiet

end McpTracer.Model
