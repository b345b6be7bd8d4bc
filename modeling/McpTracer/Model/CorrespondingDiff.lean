import McpTracer.Model.Correspondence
import McpTracer.Model.Emptiness

/-! The diff of sessions that correspond message by message.

Aligned exchanges are corresponding exchanges, so key sequences never differ.
What is left to compare are the outcomes, the bodies at the sequence numbers of
the first session, the notifications pair by pair, and the tool catalogs.
-/

set_option autoImplicit false

namespace McpTracer.Model
open McpTracer.Foundation McpTracer.Json McpTracer.Protocol McpTracer.Storage

/-- Payloads related message by message are related by sequence number. -/
theorem payloadsBySeq_related {codec : Codec} {R : Value → Value → Prop} {as bs : List StoredMessage}
    (messages : List.Forall₂ (fun m n : StoredMessage => m.seq = n.seq ∧
      Option.Rel R (codec.fromStr m.payload) (codec.fromStr n.payload)) as bs) (seq : Nat) :
    Option.Rel R (payloadsBySeq codec as seq) (payloadsBySeq codec bs seq) := by
  unfold payloadsBySeq Table.ofList
  have start : ∀ seq, Option.Rel R ((Table.empty : Table Nat Value) seq) (Table.empty seq) :=
    fun _ => .none
  generalize (Table.empty : Table Nat Value) = s at start ⊢
  suffices general : ∀ t : Table Nat Value, (∀ seq, Option.Rel R (s seq) (t seq)) →
      Option.Rel R (s.insertAll _ seq) (t.insertAll _ seq) from general s start
  clear start
  -- A payload that does not parse is skipped on both sides, another one replaces on both.
  induction messages generalizing s with
  | nil => exact fun t tables => tables seq
  | @cons m n as bs head _ ih =>
      intro t tables
      obtain ⟨same, payloads⟩ := head
      rw [List.filterMap_cons, List.filterMap_cons]
      generalize codec.fromStr m.payload = v at payloads ⊢
      generalize codec.fromStr n.payload = w at payloads ⊢
      cases payloads with
      | none => exact ih s t tables
      | some related =>
          refine ih _ _ fun other => ?_
          by_cases hit : other = n.seq
          · subst hit
            simp only [same, Table.insert_same]
            exact .some related
          · simp only [same, Table.insert_other _ _ hit]
            exact tables other

section Payloads
variable {R : Value → Value → Prop} {aPayloads bPayloads : Table Nat Value}

/-- Payloads under one optional sequence number are related when payloads are. -/
theorem stored_related (payloads : ∀ seq, Option.Rel R (aPayloads seq) (bPayloads seq))
    (seq : Option Nat) : Option.Rel R (seq.bind aPayloads) (seq.bind bPayloads) :=
  option_rel_bind (option_rel_refl (R := Eq) (fun _ => rfl) seq) fun _ _ same => same ▸ payloads _

theorem requestParams_related {S : Value → Value → Prop}
    (payloads : ∀ seq, Option.Rel R (aPayloads seq) (bPayloads seq))
    (params : ∀ v w, R v w → S ((v.get "params").getD .null) ((w.get "params").getD .null))
    (exchange : Exchange) : Option.Rel S (requestParams exchange aPayloads)
      (requestParams exchange bPayloads) :=
  option_rel_map (stored_related payloads exchange.requestSeq) params

theorem responseSubtree_related {S : Value → Value → Prop} {field : String}
    (payloads : ∀ seq, Option.Rel R (aPayloads seq) (bPayloads seq))
    (member : ∀ v w, R v w → Option.Rel S (v.get field) (w.get field))
    (exchange : Exchange) : Option.Rel S (responseSubtree exchange aPayloads field)
      (responseSubtree exchange bPayloads field) :=
  option_rel_bind (stored_related payloads exchange.responseSeq) member

end Payloads

/-! ## Corresponding exchanges -/

section Exchanges
variable {a b : Exchange}

theorem ExchangesCorrespond.alignmentBase (exchange : ExchangesCorrespond a b) :
    alignmentBase a = alignmentBase b := by
  have orphans : a.status = .orphanResponse ↔ b.status = .orphanResponse := by
    rcases exchange.status with same | ⟨before, after, -⟩
    · rw [same]
    · simp [before, after]
  simp only [Model.alignmentBase, orphans, exchange.method, exchange.toolName, exchange.origin]

theorem ExchangesCorrespond.requestParams (exchange : ExchangesCorrespond a b)
    (payloads : Table Nat Value) : requestParams b payloads = requestParams a payloads := by
  simp only [Model.requestParams, exchange.requestSeq]

theorem ExchangesCorrespond.responseSubtree (exchange : ExchangesCorrespond a b)
    (payloads : Table Nat Value) (field : String) :
    responseSubtree b payloads field = responseSubtree a payloads field := by
  simp only [Model.responseSubtree, exchange.responseSeq]

end Exchanges

theorem MessagesCorrespond.notificationBase {codec : Codec} {names : Names} {m n : StoredMessage}
    (message : MessagesCorrespond codec names m n) : notificationBase m = notificationBase n := by
  simp only [Model.notificationBase, message.messageKind, message.method, message.direction]

/-- The notifications that are aligned are those with a method and a known direction. -/
theorem notificationBase_isSome_iff {m : StoredMessage} : (notificationBase m).isSome = true ↔
    m.messageKind = "notification" ∧ m.method.isSome = true ∧
      ∃ side, Direction.fromDbStr m.direction = some side := by
  unfold Model.notificationBase
  by_cases kind : m.messageKind = "notification"
  · rw [if_neg (not_not.mpr kind)]
    constructor
    · intro labelled
      split at labelled
      · exact ⟨kind, by simp [*], .serverToClient, by simp [*, Direction.fromDbStr]⟩
      · exact ⟨kind, by simp [*], .clientToServer, by simp [*, Direction.fromDbStr]⟩
      · cases labelled
    · rintro ⟨-, named, side, known⟩
      obtain ⟨method, same⟩ := Option.isSome_iff_exists.mp named
      rw [same, (Direction.fromDbStr_eq_some_iff _ _).mp known]
      cases side <;> rfl
  · simp [kind]

/-! ## What is left to compare -/

/-- The bodies of an exchange agree in two sets of payloads, where both have them. -/
structure BodiesAgree (aPayloads bPayloads : Table Nat Value) (rules : IgnoreRules)
    (exchange : Exchange) : Prop where
  params : ∀ v w, requestParams exchange aPayloads = some v → requestParams exchange bPayloads = some w →
    RequestsAgree rules v w
  response : ∀ field, comparedField exchange.status = some field →
    ∀ v w, responseSubtree exchange aPayloads field = some v →
      responseSubtree exchange bPayloads field = some w → ResponsesAgree rules v w

/-- The payloads of two notifications agree, where both parse. -/
def NotificationsAgree (codec : Codec) (rules : IgnoreRules) (m n : StoredMessage) : Prop :=
  ∀ v w, codec.fromStr m.payload = some v → codec.fromStr n.payload = some w →
    Agrees isRedacted (normalize rules v) (normalize rules w)

section Sessions
variable {codec : Codec} {names : Names} {as bs : List StoredMessage} {rules : IgnoreRules}

/-- The difference of corresponding sessions, in terms of the first one's exchanges. -/
theorem agreeWhereCompared_iff (unique : Relator.BiUnique names)
    (messages : List.Forall₂ (MessagesCorrespond codec names) as bs) :
    AgreeWhereCompared codec as bs rules ↔
      ToolErrorsKept codec (as.zip bs) ∧
      (∀ key exchange, (key, exchange) ∈ keyedExchanges codec as →
        BodiesAgree (payloadsBySeq codec as) (payloadsBySeq codec bs) rules exchange) ∧
      (∀ pair ∈ as.zip bs, (notificationBase pair.1).isSome = true →
        NotificationsAgree codec rules pair.1 pair.2) ∧
      ∀ name, Option.Rel SameTool ((extractTools codec as).lookup name)
        ((extractTools codec bs).lookup name) := by
  obtain ⟨exchanges, first, second, related, outcomes⟩ := correlate_corresponds unique messages
  have bases : ∀ pair ∈ exchanges, alignmentBase pair.1 = alignmentBase pair.2 :=
    fun pair member => (related pair member).alignmentBase
  have labels : ∀ pair ∈ as.zip bs, notificationBase pair.1 = notificationBase pair.2 :=
    fun _ member => ((List.forall₂_iff_zip.mp messages).2 member).notificationBase
  have keys := Occurrence.keyed_pairs_keys bases
  have notificationKeys := Occurrence.keyed_pairs_keys labels
  have aligned := Occurrence.keyed_pairs_iff bases
  have alignedNotifications := Occurrence.keyed_pairs_iff labels
  have keyed := Occurrence.exists_keyed_iff alignmentBase (exchanges.map Prod.fst)
  rw [first, second] at keys aligned
  rw [first] at keyed
  rw [List.map_fst_zip messages.length_eq.le, List.map_snd_zip messages.length_eq.ge]
    at notificationKeys alignedNotifications
  constructor
  · intro agree
    refine ⟨outcomes.mp fun pair member => ?_, fun key exchange inA => ?_, fun pair member named => ?_,
      agree.tools⟩
    · rcases (related pair member).status with same | lost
      · exact same
      · -- a tool call has a key, so its changed outcome would be compared
        have labelled : (alignmentBase pair.1).isSome = true := by
          cases tool : pair.1.toolName <;> simp [alignmentBase, lost, tool]
        obtain ⟨key, inA, inB⟩ := (aligned pair.1 pair.2).mpr ⟨member, labelled⟩
        exact (agree.outcome key _ _ inA inB).1
    · obtain ⟨listed, labelled⟩ := (keyed exchange).mp ⟨key, inA⟩
      rw [← first] at listed
      obtain ⟨⟨a, b⟩, member, rfl⟩ := List.mem_map.mp listed
      obtain ⟨shared, inA, inB⟩ := (aligned a b).mpr ⟨member, labelled⟩
      have exchange : ExchangesCorrespond a b := related _ member
      refine ⟨?_, fun field compared => ?_⟩
      · rw [← exchange.requestParams (payloadsBySeq codec bs)]
        exact agree.params shared a b inA inB
      · rw [← exchange.responseSubtree (payloadsBySeq codec bs)]
        exact agree.bodies shared a b inA inB field compared
    · obtain ⟨key, inA, inB⟩ := (alignedNotifications pair.1 pair.2).mpr ⟨member, named⟩
      exact agree.notifications key _ _ inA inB
  · rintro ⟨kept, bodies, notifications, tools⟩
    have pairOf (key : String) (a b : Exchange) (inA : (key, a) ∈ keyedExchanges codec as)
        (inB : (key, b) ∈ keyedExchanges codec bs) : (a, b) ∈ exchanges :=
      ((aligned a b).mp ⟨key, inA, inB⟩).1
    exact {
      keys := keys
      outcome := fun key a b inA inB => ⟨outcomes.mpr kept _ (pairOf key a b inA inB),
        (related _ (pairOf key a b inA inB)).errorCode⟩
      params := fun key a b inA inB => by
        rw [(related _ (pairOf key a b inA inB)).requestParams]
        exact (bodies key a inA).params
      bodies := fun key a b inA inB field compared => by
        rw [(related _ (pairOf key a b inA inB)).responseSubtree]
        exact (bodies key a inA).response field compared
      notificationKeys := fun key => by
        rw [notificationAlignmentKeys, notificationAlignmentKeys, notificationKeys]
      notifications := fun key m n inA inB => by
        obtain ⟨member, named⟩ := (alignedNotifications m n).mp ⟨key, inA, inB⟩
        exact notifications (m, n) member named
      tools := tools }

/-- Exchanges under one key correspond. -/
theorem keyed_corresponds (unique : Relator.BiUnique names)
    (messages : List.Forall₂ (MessagesCorrespond codec names) as bs) {key : String} {a b : Exchange}
    (inA : (key, a) ∈ keyedExchanges codec as) (inB : (key, b) ∈ keyedExchanges codec bs) :
    ExchangesCorrespond a b := by
  obtain ⟨exchanges, first, second, related, -⟩ := correlate_corresponds unique messages
  have aligned := Occurrence.keyed_pairs_iff fun pair member => (related pair member).alignmentBase
  rw [first, second] at aligned
  exact related (a, b) ((aligned a b).mp ⟨key, inA, inB⟩).1

/-- Corresponding exchanges took the same time. -/
theorem latencyQuiet_of_corresponds (unique : Relator.BiUnique names)
    (messages : List.Forall₂ (MessagesCorrespond codec names) as bs) {options : DiffOptions}
    (threshold : 0 ≤ options.latencyThresholdNs) : LatencyQuiet codec as bs options := by
  intro key a b inA inB
  have same := (keyed_corresponds unique messages inA inB).latencyNs
  unfold latencyDeltas
  rw [← same]
  split_ifs
  · rfl
  · cases a.latencyNs with
    | none => rfl
    | some latency => simp [not_lt.mpr threshold]

/-- Payloads from which a catalog reads the same. -/
def SameListing (v w : Value) : Prop :=
  v.getPath ["params", "cursor"] = w.getPath ["params", "cursor"] ∧ v.get "result" = w.get "result"

theorem catalogStep_corresponds {aPayloads bPayloads : Table Nat Value}
    (payloads : ∀ seq, Option.Rel SameListing (aPayloads seq) (bPayloads seq)) {a b : Exchange}
    (exchange : ExchangesCorrespond a b) (state : CatalogState) :
    state.step bPayloads b = state.step aPayloads a := by
  have bind_eq {A : Type} (read : Value → Option A) (same : ∀ v w, SameListing v w → read v = read w)
      (seq : Option Nat) : (seq.bind bPayloads).bind read = (seq.bind aPayloads).bind read :=
    (eq_of_option_rel (option_rel_bind (stored_related payloads seq) fun v w listing =>
      same v w listing ▸ option_rel_refl (fun _ => rfl) (read v))).symm
  unfold CatalogState.step
  rw [← exchange.requestSeq, ← exchange.responseSeq, bind_eq _ fun _ _ listing => listing.1,
    bind_eq _ fun _ _ listing => listing.2]

/-- Corresponding sessions of one outcome show the same catalog. -/
theorem extractTools_corresponds (unique : Relator.BiUnique names)
    (messages : List.Forall₂ (MessagesCorrespond codec names) as bs)
    (kept : ToolErrorsKept codec (as.zip bs))
    (payloads : ∀ seq, Option.Rel SameListing (payloadsBySeq codec as seq) (payloadsBySeq codec bs seq)) :
    extractTools codec bs = extractTools codec as := by
  obtain ⟨exchanges, first, second, related, outcomes⟩ := correlate_corresponds unique messages
  have same := outcomes.mpr kept
  unfold extractTools extractToolCatalog
  dsimp only
  rw [← first, ← second]
  generalize CatalogState.start = state
  suffices folds : ((exchanges.map Prod.snd).filter isListing).foldl
      (CatalogState.step (payloadsBySeq codec bs)) state =
      ((exchanges.map Prod.fst).filter isListing).foldl (CatalogState.step (payloadsBySeq codec as)) state by
    rw [folds]
  clear outcomes first second
  -- Exchanges of one outcome are listings together, and a listing reads the same payload members.
  induction exchanges generalizing state with
  | nil => rfl
  | cons pair rest ih =>
      have later := fun state => ih (fun p member => related p (List.mem_cons_of_mem _ member))
        (fun p member => same p (List.mem_cons_of_mem _ member)) state
      have exchange := related pair List.mem_cons_self
      have listing : isListing pair.2 = isListing pair.1 := by
        rw [isListing, isListing, exchange.method, same pair List.mem_cons_self]
      rw [List.map_cons, List.map_cons, List.filter_cons, List.filter_cons, listing]
      split_ifs
      · rw [List.foldl_cons, List.foldl_cons, catalogStep_corresponds payloads exchange, later]
      · exact later state

end Sessions

/-! ## Agreement does not depend on the order of the sessions -/

theorem SameTool.refl (a : ToolDef) : SameTool a a :=
  ⟨rfl, rfl, by simp, by simp, by simp⟩

theorem SameTool.symm {a b : ToolDef} (same : SameTool a b) : SameTool b a := by
  have swap (x y : Option Value) (equal : (x == y) = true) : (y == x) = true := by
    cases x <;> cases y
    · rfl
    · cases equal
    · cases equal
    · exact Value.beq_symm equal
  exact ⟨same.title.symm, same.description.symm, swap _ _ same.inputSchema,
    swap _ _ same.outputSchema, swap _ _ same.annotations⟩

theorem AgreeWhereCompared.symm {codec : Codec} {as bs : List StoredMessage} {rules : IgnoreRules}
    (agree : AgreeWhereCompared codec as bs rules) : AgreeWhereCompared codec bs as rules where
  keys := agree.keys.symm
  outcome key a b inB inA := ⟨(agree.outcome key b a inA inB).1.symm, (agree.outcome key b a inA inB).2.symm⟩
  params key a b inB inA v w left right := (agree.params key b a inA inB w v right left).symm
  bodies key a b inB inA field compared v w left right :=
    (agree.bodies key b a inA inB field ((agree.outcome key b a inA inB).1 ▸ compared) w v right left).symm
  notificationKeys key := (agree.notificationKeys key).symm
  notifications key a b inB inA v w left right := (agree.notifications key b a inA inB w v right left).symm
  tools name := option_rel_symm (agree.tools name) fun _ _ same => same.symm

end McpTracer.Model
