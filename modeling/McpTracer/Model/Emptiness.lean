import McpTracer.Model.Divergence

/-! When the session diff finds nothing.

An empty report is a conjunction of many comparisons, most of which are skipped
where a payload or a member is missing. Here it is read as one relation between
two sessions, in terms of agreement up to redacted positions.
-/

set_option autoImplicit false

namespace McpTracer.Model
open McpTracer.Foundation McpTracer.Json McpTracer.Protocol McpTracer.Storage

/-- Parameters that are equal after normalization, up to redacted subvalues of either side. -/
def RequestsAgree (rules : IgnoreRules) (v w : Value) : Prop :=
  Agrees isRedacted (normalizeRequest rules v) (normalizeRequest rules w)

/-- Bodies that are equal after normalization, up to redacted subvalues of either side. -/
def ResponsesAgree (rules : IgnoreRules) (v w : Value) : Prop :=
  Agrees isRedacted (normalizeResponse rules v) (normalizeResponse rules w)

/-- Tool definitions without a security-relevant difference. -/
structure SameTool (a b : ToolDef) : Prop where
  title : a.title = b.title
  description : a.description = b.description
  inputSchema : (a.inputSchema == b.inputSchema) = true
  outputSchema : (a.outputSchema == b.outputSchema) = true
  annotations : (a.annotations == b.annotations) = true

/-! ## Bodies -/

section Bodies
variable {aPayloads bPayloads : Table Nat Value} {options : DiffOptions}

/-- Every decoded payload is a well-formed tree. -/
def WellFormedPayloads (payloads : Table Nat Value) : Prop :=
  ∀ seq v, payloads seq = some v → v.wellFormed = true

theorem insertAll_wellFormed {table : Table Nat Value} (formed : WellFormedPayloads table)
    {bindings : List (Nat × Value)} (values : ∀ binding ∈ bindings, binding.2.wellFormed = true) :
    WellFormedPayloads (table.insertAll bindings) := by
  induction bindings generalizing table with
  | nil => exact formed
  | cons binding rest ih =>
      refine ih (fun seq v found => ?_) fun later member => values later (List.mem_cons_of_mem _ member)
      by_cases same : seq = binding.1
      · subst same
        obtain rfl : binding.2 = v := by simpa using found
        exact values binding List.mem_cons_self
      · exact formed seq v (by simpa [Table.insert_other _ _ same] using found)

theorem payloadsBySeq_wellFormed (codec : Codec) (messages : List StoredMessage) :
    WellFormedPayloads (payloadsBySeq codec messages) := by
  refine insertAll_wellFormed (fun seq v found => by cases found) fun binding member => ?_
  obtain ⟨message, -, parsed⟩ := List.mem_filterMap.mp member
  obtain ⟨payload, decoded, rfl⟩ := Option.map_eq_some_iff.mp parsed
  exact codec.fromStr_wellFormed decoded

theorem requestParams_wellFormed (formed : WellFormedPayloads aPayloads) {a : Exchange} {v : Value}
    (found : requestParams a aPayloads = some v) : v.wellFormed = true := by
  obtain ⟨payload, stored, rfl⟩ := Option.map_eq_some_iff.mp found
  obtain ⟨seq, -, bound⟩ := Option.bind_eq_some_iff.mp stored
  cases member : payload.get "params" with
  | none => rfl
  | some params => exact Value.wellFormed_get (formed seq payload bound) member

theorem responseSubtree_wellFormed (formed : WellFormedPayloads aPayloads) {a : Exchange}
    {field : String} {v : Value} (found : responseSubtree a aPayloads field = some v) :
    v.wellFormed = true := by
  obtain ⟨payload, stored, member⟩ := Option.bind_eq_some_iff.mp found
  obtain ⟨seq, -, bound⟩ := Option.bind_eq_some_iff.mp stored
  exact Value.wellFormed_get (formed seq payload bound) member

/-- Parameters are compared where both requests have a payload. -/
theorem requestDiffs_eq_nil_iff (formed : WellFormedPayloads aPayloads) (a b : Exchange) :
    requestDiffs aPayloads bPayloads options a b = [] ↔
      ∀ v w, requestParams a aPayloads = some v → requestParams b bPayloads = some w →
        RequestsAgree options.ignore v w := by
  unfold requestDiffs
  cases left : requestParams a aPayloads with
  | none => simp
  | some v =>
      cases right : requestParams b bPayloads with
      | none => simp
      | some w =>
          simp only [Option.some.injEq, RequestsAgree]
          rw [compareValues_eq_nil_iff "" (normalizeRequest_wellFormed (requestParams_wellFormed formed left))]
          exact ⟨fun agree _ _ same other => same ▸ other ▸ agree, fun agree => agree v w rfl rfl⟩

/-- Bodies are compared where both responses have the member. -/
theorem responseDiffs_eq_nil_iff (formed : WellFormedPayloads aPayloads) (a b : Exchange) :
    responseDiffs aPayloads bPayloads options a b = [] ↔
      ∀ field, comparedField a.status = some field → ∀ v w,
        responseSubtree a aPayloads field = some v → responseSubtree b bPayloads field = some w →
          ResponsesAgree options.ignore v w := by
  unfold responseDiffs
  cases comparedField a.status with
  | none => simp
  | some field =>
      simp only [Option.some.injEq, forall_eq']
      cases left : responseSubtree a aPayloads field with
      | none => simp
      | some v =>
          cases right : responseSubtree b bPayloads field with
          | none => simp
          | some w =>
              simp only [Option.some.injEq, ResponsesAgree]
              rw [compareValues_eq_nil_iff ""
                (normalizeResponse_wellFormed (responseSubtree_wellFormed formed left))]
              exact ⟨fun agree _ _ same other => same ▸ other ▸ agree, fun agree => agree v w rfl rfl⟩

end Bodies

/-- Notifications are compared where both payloads parse. -/
theorem compareNotifications_eq_nil_iff (codec : Codec) (options : DiffOptions) (a b : StoredMessage) :
    compareNotifications codec options a b = [] ↔
      ∀ v w, codec.fromStr a.payload = some v → codec.fromStr b.payload = some w →
        Agrees isRedacted (normalize options.ignore v) (normalize options.ignore w) := by
  unfold compareNotifications
  cases left : codec.fromStr a.payload with
  | none => simp
  | some v =>
      cases right : codec.fromStr b.payload with
      | none => simp
      | some w =>
          simp only [Option.some.injEq]
          have agrees := compareValues_eq_nil_iff "" (a := normalize options.ignore v)
            (normalize_wellFormed (codec.fromStr_wellFormed left)) (normalize options.ignore w)
          constructor
          · intro quiet _ _ same other
            subst same other
            refine agrees.mp ?_
            by_contra differs
            simp [differs] at quiet
          · intro agree
            simp [agrees.mpr (agree v w rfl rfl)]

/-! ## Tool drift -/

theorem toolFindings_eq_nil_iff (name : String) (a b : ToolDef) :
    toolFindings name a b = [] ↔ SameTool a b := by
  constructor
  · intro quiet
    simp only [toolFindings, List.append_eq_nil_iff, ite_eq_right_iff, List.cons_ne_nil, imp_false,
      not_not, Bool.not_eq_true, ne_eq] at quiet
    obtain ⟨⟨⟨⟨title, description⟩, input⟩, output⟩, annotations⟩ := quiet
    exact ⟨title, description, by simpa [bne] using input, by simpa [bne] using output,
      by simpa [bne] using annotations⟩
  · rintro ⟨title, description, input, output, annotations⟩
    simp [toolFindings, title, description, input, output, annotations, bne]

/-- No finding is reported when both catalogs define the same tools in the same way. -/
theorem diffTools_security_eq_nil_iff {as bs : List (String × ToolDef)}
    (uniqueB : (bs.map Prod.fst).Nodup) :
    (diffTools as bs).security = [] ↔
      ∀ name, Option.Rel SameTool (as.lookup name) (bs.lookup name) := by
  simp only [diffTools, List.append_eq_nil_iff, List.flatMap_eq_nil_iff, List.map_eq_nil_iff,
    List.filter_eq_nil_iff, Bool.not_eq_true, Option.isNone_eq_false_iff]
  constructor
  · rintro ⟨defined, kept⟩ name
    cases right : bs.lookup name with
    | some b =>
        have quiet := defined (name, b) (mem_of_lookup right)
        cases left : as.lookup name with
        | some a =>
            simp only [left] at quiet
            exact .some ((toolFindings_eq_nil_iff name a b).mp quiet)
        | none => simp [left] at quiet
    | none =>
        cases left : as.lookup name with
        | none => exact .none
        | some a =>
            have found := kept (name, a) (mem_of_lookup left)
            simp [right] at found
  · intro same
    refine ⟨fun tool member => ?_, fun tool member => ?_⟩
    · obtain ⟨name, b⟩ := tool
      have related := same name
      rw [(lookup_eq_some_iff uniqueB name b).mpr member] at related
      generalize as.lookup name = left at related ⊢
      cases related with
      | some both => exact (toolFindings_eq_nil_iff name _ b).mpr both
    · have bound : (as.lookup tool.1).isSome = true :=
        (lookup_isSome_iff as tool.1).mpr (List.mem_map_of_mem member)
      have related := same tool.1
      generalize as.lookup tool.1 = left at related bound
      generalize bs.lookup tool.1 = right at related ⊢
      cases related with
      | some both => rfl
      | none => cases bound

/-- What holds of the empty catalog and survives one decoded definition holds after a page. -/
theorem insertTools_induct {motive : List (String × ToolDef) → Prop}
    (insert : ∀ found name tool, tool.wellFormed = true → motive found →
      motive (SortedMap.insert name (ToolDef.ofValue tool) found))
    {catalog : ToolCatalog} (current : motive catalog.tools) {tools : List Value}
    (formed : ∀ tool ∈ tools, tool.wellFormed = true) : motive (CatalogState.insertTools catalog tools) := by
  unfold CatalogState.insertTools
  generalize catalog.tools = found at current
  induction tools generalizing found with
  | nil => exact current
  | cons tool rest ih =>
      obtain ⟨head, tail⟩ := List.forall_mem_cons.1 formed
      refine ih tail _ ?_
      dsimp only
      split
      · exact insert found _ tool head current
      · exact current

theorem catalogStep_induct {motive : List (String × ToolDef) → Prop} (empty : motive [])
    (insert : ∀ found name tool, tool.wellFormed = true → motive found →
      motive (SortedMap.insert name (ToolDef.ofValue tool) found))
    {payloads : Table Nat Value} (formed : WellFormedPayloads payloads) {state : CatalogState}
    (current : motive state.catalog.tools) (exchange : Exchange) :
    motive (state.step payloads exchange).catalog.tools := by
  unfold CatalogState.step
  dsimp only
  generalize ((exchange.requestSeq.bind payloads).bind (Value.getPath ["params", "cursor"])).bind
    Value.asStr = cursor
  have based : motive (if cursor = none then CatalogState.restart else state).catalog.tools := by
    split_ifs
    · exact empty
    · exact current
  generalize (if cursor = none then CatalogState.restart else state) = base at based ⊢
  split
  · exact based
  split
  · exact based
  split
  · exact based
  · rename_i result response _ tools listed
    refine insertTools_induct insert based ?_
    obtain ⟨payload, stored, found⟩ := Option.bind_eq_some_iff.mp response
    obtain ⟨seq, -, bound⟩ := Option.bind_eq_some_iff.mp stored
    obtain ⟨list, member, items⟩ := Option.bind_eq_some_iff.mp listed
    have listFormed := Value.wellFormed_get (Value.wellFormed_get (formed seq payload bound) found) member
    cases list with
    | array elements =>
        obtain rfl : elements = tools := Option.some.inj items
        exact (Value.wellFormedItems_iff elements).1 listFormed
    | _ => cases items

/-- A catalog grows from nothing by definitions that a decoder has yielded. -/
theorem extractTools_induct {motive : List (String × ToolDef) → Prop} (empty : motive [])
    (insert : ∀ found name tool, tool.wellFormed = true → motive found →
      motive (SortedMap.insert name (ToolDef.ofValue tool) found))
    (codec : Codec) (messages : List StoredMessage) : motive (extractTools codec messages) := by
  have start : motive CatalogState.start.catalog.tools := empty
  unfold extractTools extractToolCatalog
  dsimp only
  generalize CatalogState.start = state at start
  induction (correlate codec messages).exchanges.filter isListing generalizing state with
  | nil => exact start
  | cons exchange rest ih =>
      exact ih _ (catalogStep_induct empty insert (payloadsBySeq_wellFormed codec messages) start exchange)

/-- Every definition of a catalog is read from a listed tool. -/
theorem mem_extractTools {codec : Codec} {messages : List StoredMessage} {tool : String × ToolDef}
    (member : tool ∈ extractTools codec messages) :
    ∃ listed : Value, listed.wellFormed = true ∧ tool.2 = ToolDef.ofValue listed := by
  have decoded : ∀ tool ∈ extractTools codec messages, ∃ listed : Value, listed.wellFormed = true ∧
      tool.2 = ToolDef.ofValue listed := by
    refine extractTools_induct (motive := fun tools => ∀ tool ∈ tools, ∃ listed : Value, listed.wellFormed = true ∧
      tool.2 = ToolDef.ofValue listed) (by simp) ?_ codec messages
    intro found name listed formed earlier tool member
    rcases SortedMap.mem_insert member with rfl | old
    · exact ⟨listed, formed, rfl⟩
    · exact earlier tool old
  exact decoded tool member

/-- A catalog stays sorted through restarts and pages alike. -/
theorem extractTools_sorted (codec : Codec) (messages : List StoredMessage) :
    SortedMap.Sorted (extractTools codec messages) :=
  extractTools_induct (motive := SortedMap.Sorted) List.Pairwise.nil
    (fun _ name tool _ sorted => SortedMap.insert_sorted sorted name (ToolDef.ofValue tool)) codec messages

/-- Tool names are unique in a catalog. -/
theorem extractTools_nodup (codec : Codec) (messages : List StoredMessage) :
    ((extractTools codec messages).map Prod.fst).Nodup :=
  (extractTools_sorted codec messages).nodup

/-! ## Sessions -/

/-- The keyed exchanges of a session. -/
def keyedExchanges (codec : Codec) (messages : List StoredMessage) : List (String × Exchange) :=
  alignmentKeys (correlate codec messages).exchanges

/-- The sessions agree wherever both of them have something to compare. -/
structure AgreeWhereCompared (codec : Codec) (as bs : List StoredMessage) (rules : IgnoreRules) :
    Prop where
  keys : (keyedExchanges codec as).map Prod.fst = (keyedExchanges codec bs).map Prod.fst
  outcome : ∀ key a b, (key, a) ∈ keyedExchanges codec as → (key, b) ∈ keyedExchanges codec bs →
    a.status = b.status ∧ a.errorCode = b.errorCode
  params : ∀ key a b, (key, a) ∈ keyedExchanges codec as → (key, b) ∈ keyedExchanges codec bs →
    ∀ v w, requestParams a (payloadsBySeq codec as) = some v →
      requestParams b (payloadsBySeq codec bs) = some w → RequestsAgree rules v w
  bodies : ∀ key a b, (key, a) ∈ keyedExchanges codec as → (key, b) ∈ keyedExchanges codec bs →
    ∀ field, comparedField a.status = some field →
      ∀ v w, responseSubtree a (payloadsBySeq codec as) field = some v →
        responseSubtree b (payloadsBySeq codec bs) field = some w → ResponsesAgree rules v w
  notificationKeys : ∀ key, key ∈ (notificationAlignmentKeys as).map Prod.fst ↔
    key ∈ (notificationAlignmentKeys bs).map Prod.fst
  notifications : ∀ key a b, (key, a) ∈ notificationAlignmentKeys as →
    (key, b) ∈ notificationAlignmentKeys bs →
    ∀ v w, codec.fromStr a.payload = some v → codec.fromStr b.payload = some w →
      Agrees isRedacted (normalize rules v) (normalize rules w)
  tools : ∀ name, Option.Rel SameTool ((extractTools codec as).lookup name)
    ((extractTools codec bs).lookup name)

section Quiet
variable {codec : Codec} {as bs : List StoredMessage} {options : DiffOptions}

/-- Latency is compared nowhere, or nowhere differs enough. -/
def LatencyQuiet (codec : Codec) (as bs : List StoredMessage) (options : DiffOptions) : Prop :=
  ∀ key a b, (key, a) ∈ keyedExchanges codec as → (key, b) ∈ keyedExchanges codec bs →
    latencyDeltas options a b = []

theorem latencyDeltas_of_ignored (ignored : options.ignoreLatency = true) (a b : Exchange) :
    latencyDeltas options a b = [] := by
  rw [latencyDeltas, if_pos ignored]

theorem latencyQuiet_of_ignored (ignored : options.ignoreLatency = true) : LatencyQuiet codec as bs options :=
  fun _ a b _ _ => latencyDeltas_of_ignored ignored a b

/-- A report is empty when the sessions agree in everything that is compared. -/
theorem diffSessions_isEmpty_iff : (diffSessions codec as bs options).isEmpty = true ↔
    AgreeWhereCompared codec as bs options.ignore ∧ LatencyQuiet codec as bs options := by
  have uniqueA : ((keyedExchanges codec as).map Prod.fst).Nodup := alignmentKeys_nodup _
  have uniqueB : ((keyedExchanges codec bs).map Prod.fst).Nodup := alignmentKeys_nodup _
  have formedA := payloadsBySeq_wellFormed codec as
  have notesA := notificationAlignmentKeys_nodup as
  have notesB := notificationAlignmentKeys_nodup bs
  -- Added and removed tools are findings too, and the error rates do not decide emptiness.
  have parts : (diffSessions codec as bs options).isEmpty = true ↔
      ((diffExchanges codec as bs options).changed = [] ∧
        (diffNotificationEvents codec as bs options).changed = []) ∧
      ((diffExchanges codec as bs options).added = [] ∧
        (diffNotificationEvents codec as bs options).added = []) ∧
      ((diffExchanges codec as bs options).removed = [] ∧
        (diffNotificationEvents codec as bs options).removed = []) ∧
      (diffTools (extractTools codec as) (extractTools codec bs)).security = [] ∧
      Coincide (payloadsBySeq codec as) (payloadsBySeq codec bs) options (keyedExchanges codec as)
        (keyedExchanges codec bs) := by
    simp only [DiffReport.isEmpty, diffSessions, Bool.and_eq_true, List.isEmpty_iff,
      List.append_eq_nil_iff, Option.isNone_iff_eq_none, computePointOfDivergence,
      divergenceFrom_eq_none_iff, keyedExchanges, and_assoc]
  rw [parts]
  constructor
  · -- the trajectory check gives the key sequences, the keyed comparison all the rest
    rintro ⟨⟨changed, notesChanged⟩, ⟨-, notesAdded⟩, ⟨-, notesRemoved⟩, tools, coincide⟩
    have keys : (keyedExchanges codec as).map Prod.fst = (keyedExchanges codec bs).map Prod.fst :=
      coincide.keys
    have quiet (key : String) (a b : Exchange) (inA : (key, a) ∈ keyedExchanges codec as)
        (inB : (key, b) ∈ keyedExchanges codec bs) :=
      (compareExchanges_eq_nil_iff a b).mp ((align_changed_iff uniqueB).mp changed key a b inA inB)
    refine ⟨{
      keys := keys
      outcome := fun key a b inA inB =>
        ⟨(quiet key a b inA inB).1.status, (quiet key a b inA inB).1.errorCode⟩
      params := fun key a b inA inB =>
        (requestDiffs_eq_nil_iff formedA a b).mp (quiet key a b inA inB).1.request
      bodies := fun key a b inA inB =>
        (responseDiffs_eq_nil_iff formedA a b).mp (quiet key a b inA inB).1.response
      notificationKeys := fun key => ⟨(align_removed_iff notesB).mp notesRemoved key,
        (align_added_iff notesA).mp notesAdded key⟩
      notifications := fun key a b inA inB => (compareNotifications_eq_nil_iff codec options a b).mp
        ((align_changed_iff notesB).mp notesChanged key a b inA inB)
      tools := (diffTools_security_eq_nil_iff (extractTools_nodup codec bs)).mp tools },
      fun key a b inA inB => (quiet key a b inA inB).2⟩
  · rintro ⟨agree, latency⟩
    have step (key : String) (a b : Exchange) (inA : (key, a) ∈ keyedExchanges codec as)
        (inB : (key, b) ∈ keyedExchanges codec bs) :
        StepAgrees (payloadsBySeq codec as) (payloadsBySeq codec bs) options a b :=
      { status := (agree.outcome key a b inA inB).1
        errorCode := (agree.outcome key a b inA inB).2
        request := (requestDiffs_eq_nil_iff formedA a b).mpr (agree.params key a b inA inB)
        response := (responseDiffs_eq_nil_iff formedA a b).mpr (agree.bodies key a b inA inB) }
    refine ⟨⟨?_, ?_⟩, ⟨?_, ?_⟩, ⟨?_, ?_⟩, ?_, (forall₂_iff_of_keys uniqueA agree.keys).mpr step⟩
    · exact (align_changed_iff uniqueB).mpr fun key a b inA inB =>
        (compareExchanges_eq_nil_iff a b).mpr ⟨step key a b inA inB, latency key a b inA inB⟩
    · exact (align_changed_iff notesB).mpr fun key a b inA inB =>
        (compareNotifications_eq_nil_iff codec options a b).mpr (agree.notifications key a b inA inB)
    · exact (align_added_iff uniqueA).mpr fun key member => agree.keys ▸ member
    · exact (align_added_iff notesA).mpr fun key member => (agree.notificationKeys key).mpr member
    · exact (align_removed_iff uniqueB).mpr fun key member => agree.keys ▸ member
    · exact (align_removed_iff notesB).mpr fun key member => (agree.notificationKeys key).mp member
    · exact (diffTools_security_eq_nil_iff (extractTools_nodup codec bs)).mpr agree.tools

end Quiet

end McpTracer.Model
