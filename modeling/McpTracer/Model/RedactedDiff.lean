import McpTracer.Model.CorrespondingDiff
import McpTracer.Model.Normalization
import McpTracer.Redact.Redactor

/-! The diff of a session and a redaction of it.

A redaction puts the placeholder in the place of subvalues of parameters,
results and errors. The comparison of values takes it for unknown. What is read
of a payload before that comparison does not: the report of a tool failure, the
kind of a request state, the type of a result, and the definitions of tools.
-/

set_option autoImplicit false

namespace McpTracer.Model
open McpTracer.Foundation McpTracer.Json McpTracer.Protocol McpTracer.Redact McpTracer.Storage

/-- The members of a payload below which a redaction may replace subvalues. -/
def redactable (kind : String) : List String :=
  if kind = "request" then ["params"] else if kind = "response" then ["result", "error"] else []

/-- The second payload is the first with placeholders below some of these members. -/
def MasksMembers (keys : List String) (v w : Value) : Prop :=
  v = w ∨ ∃ fs gs, v = .object fs ∧ w = .object gs ∧ List.Forall₂ (fun f g => f.1 = g.1 ∧
    if f.1 ∈ keys then Masks placeholder f.2 g.2 else f.2 = g.2) fs gs

/-- The second message is a redaction of the first; ids and columns are left as they are. -/
structure Redacted (codec : Codec) (m n : StoredMessage) : Prop where
  seq : m.seq = n.seq
  tsNs : m.tsNs = n.tsNs
  direction : m.direction = n.direction
  messageKind : m.messageKind = n.messageKind
  rpcId : m.rpcId = n.rpcId
  method : m.method = n.method
  toolName : m.toolName = n.toolName
  isError : m.isError = n.isError
  errorCode : m.errorCode = n.errorCode
  payload : Option.Rel (MasksMembers (redactable m.messageKind)) (codec.fromStr m.payload)
    (codec.fromStr n.payload)

theorem isRedacted_placeholder : isRedacted placeholder = true := by simp [isRedacted, placeholder]

/-! ## Members of a redaction -/

section Members

theorem masks_get {v w : Value} (masks : Masks placeholder v w) (object : w.isObject = true)
    (key : String) : Option.Rel (Masks placeholder) (v.get key) (w.get key) := by
  cases masks with
  | masked => cases object
  | leaf _ _ noObject => rw [noObject] at object; cases object
  | array => cases object
  | object keys members => exact lookup_forall₂ (forall₂_of_keys keys members) key

theorem masks_member {v w y : Value} (masks : Masks placeholder v w) {key : String} (found : w.get key = some y) :
    ∃ x, v.get key = some x ∧ Masks placeholder x y := by
  have related := masks_get masks (Value.isObject_of_get found) key
  rw [found] at related
  cases original : v.get key with
  | none =>
      rw [original] at related
      cases related
  | some x =>
      rw [original] at related
      cases related with
      | some same => exact ⟨x, rfl, same⟩

theorem masksMembers_get {keys : List String} {v w : Value} (masks : MasksMembers keys v w)
    (key : String) : Option.Rel (Masks placeholder) (v.get key) (w.get key) := by
  rcases masks with rfl | ⟨fs, gs, rfl, rfl, members⟩
  · exact option_rel_refl (.refl placeholder) (v.get key)
  · refine lookup_forall₂ (members.imp fun f g both => ⟨both.1, ?_⟩) key
    by_cases inside : f.1 ∈ keys
    · simpa [inside] using both.2
    · have same : f.2 = g.2 := by simpa [inside] using both.2
      exact same ▸ .refl placeholder f.2

/-- Where nothing may be replaced, nothing is. -/
theorem masksMembers_nil {v w : Value} (masks : MasksMembers [] v w) : v = w := by
  rcases masks with rfl | ⟨fs, gs, rfl, rfl, members⟩
  · rfl
  · have same : fs = gs := by
      rw [← List.forall₂_eq_eq_eq]
      exact members.imp fun f g both => Prod.ext both.1 (by simpa using both.2)
    rw [same]

/-- A redaction does not make up a truth value. -/
theorem masks_asBool {v w : Value} (masks : Masks placeholder v w) {b : Bool} (read : w.asBool = some b) :
    v.asBool = some b := by
  cases masks with
  | masked => cases read
  | leaf => exact read
  | array => cases read
  | object => cases read

end Members

section Message
variable {codec : Codec} {m n : StoredMessage}

theorem Redacted.notification (redacted : Redacted codec m n) (kind : m.messageKind = "notification") :
    codec.fromStr m.payload = codec.fromStr n.payload := by
  have payloads := redacted.payload
  generalize codec.fromStr m.payload = v at payloads ⊢
  generalize codec.fromStr n.payload = w at payloads ⊢
  cases payloads with
  | none => rfl
  | some masks =>
      rw [redactable, if_neg (by simp [kind]), if_neg (by simp [kind])] at masks
      rw [masksMembers_nil masks]

theorem Redacted.reportsToolError (redacted : Redacted codec m n)
    (reports : Exchange.reportsToolError codec n = true) : Exchange.reportsToolError codec m = true := by
  simp only [Exchange.reportsToolError, Value.getPath_pair, decide_eq_true_eq, Option.bind_eq_some_iff]
    at reports ⊢
  obtain ⟨flag, ⟨w, parsed, result, found, member⟩, read⟩ := reports
  have payloads := redacted.payload
  rw [parsed] at payloads
  generalize codec.fromStr m.payload = v at payloads ⊢
  cases payloads with
  | @some v w masks =>
      have results := masksMembers_get masks "result"
      rw [found] at results
      generalize originalEq : v.get "result" = original at results
      cases results with
      | @some original _ resultMasks =>
          obtain ⟨first, inside, flags⟩ := masks_member resultMasks member
          exact ⟨first, ⟨v, rfl, original, originalEq, inside⟩, masks_asBool flags read⟩

/-- A redaction is a correspondence of messages under the same ids. -/
theorem Redacted.corresponds (redacted : Redacted codec m n) : MessagesCorrespond codec Eq m n := by
  have same (side : Direction) (x : Option String) : Option.Rel (Names.At Eq side) x x :=
    option_rel_refl (R := Names.At Eq side) (fun _ => rfl) x
  refine ⟨redacted.seq, redacted.tsNs, redacted.direction, redacted.messageKind, redacted.method,
    redacted.toolName, redacted.isError, redacted.errorCode, fun _ _ _ => ?_, fun _ _ _ => ?_,
    fun _ _ kind => ?_, fun _ kind => ?_, fun _ reports => redacted.reportsToolError reports⟩
  · exact redacted.rpcId ▸ same _ m.rpcId
  · exact redacted.rpcId ▸ same _ m.rpcId
  · simp only [cancelledId, StoredMessage.idAt, ← redacted.method, ← redacted.notification kind]
    exact same _ _
  · simp only [subscriptionId, StoredMessage.idAt, ← redacted.method, ← redacted.notification kind]
    exact same _ _

end Message

/-! ## Normalized bodies of a redaction -/

section Bodies
variable {rules : IgnoreRules} {v w : Value}

/-- A request state that is no string is not redacted as a whole. -/
def KeepsRequestState (rules : IgnoreRules) (v w : Value) : Prop :=
  ∀ state, (normalize rules v).get "requestState" = some state → state.isString = false →
    (normalize rules w).get "requestState" ≠ some placeholder

/-- The type of a result that asks for input with a request state is not redacted. -/
def KeepsResultType (rules : IgnoreRules) (v w : Value) : Prop :=
  ((normalize rules v).get "resultType").bind Value.asStr = some "input_required" →
    ((normalize rules v).get "requestState").isSome = true →
      (normalize rules w).get "resultType" ≠ some placeholder

theorem agrees_of_masks {v w : Value} (masks : Masks placeholder v w) : Agrees isRedacted v w :=
  masks.agrees isRedacted_placeholder

theorem option_agrees_of_masks {x y : Option Value} (masks : Option.Rel (Masks placeholder) x y) :
    Option.Rel (Agrees isRedacted) x y :=
  option_rel_imp masks fun _ _ => agrees_of_masks

theorem normalized_masks (masks : Masks placeholder v w) :
    Masks placeholder (normalize rules v) (normalize rules w) :=
  normalize_masks rfl rfl masks

/-- Objects that mask each other, or a leaf or an array in their place. -/
theorem masks_cases {v w : Value} (masks : Masks placeholder v w) :
    w = placeholder ∨ (v.isObject = false ∧ w.isObject = false) ∨
      (v.isObject = true ∧ w.isObject = true) := by
  cases masks with
  | masked => exact .inl rfl
  | leaf _ _ noObject => exact .inr (.inl ⟨noObject, noObject⟩)
  | array => exact .inr (.inl ⟨rfl, rfl⟩)
  | object => exact .inr (.inr ⟨rfl, rfl⟩)

theorem normalizeRequest_of_not_object (plain : (normalize rules v).isObject = false) :
    normalizeRequest rules v = normalize rules v := by
  unfold normalizeRequest
  generalize normalize rules v = normal at plain ⊢
  cases normal with
  | object => cases plain
  | _ => rfl

theorem normalizeResponse_of_not_object (plain : (normalize rules v).isObject = false) :
    normalizeResponse rules v = normalize rules v := by
  unfold normalizeResponse
  generalize normalize rules v = normal at plain ⊢
  cases normal with
  | object => cases plain
  | _ => simp

/-- The state of a request and its redaction agree unless a state that is no string is redacted. -/
theorem state_agrees_iff {x y : Value} (masks : Masks placeholder x y) :
    Agrees isRedacted (if x.isString then opaqueRequestState else x)
        (if y.isString then opaqueRequestState else y) ↔
      (x.isString = false → y ≠ placeholder) := by
  cases masks with
  | masked =>
      have shown : (if placeholder.isString then opaqueRequestState else placeholder) = opaqueRequestState :=
        rfl
      rw [shown]
      by_cases text : x.isString = true
      · simpa [text] using Agrees.refl isRedacted opaqueRequestState
      · have other : x.isString = false := by simpa using text
        simp only [other, Bool.false_eq_true, if_false, true_implies, ne_eq, not_true_eq_false, iff_false]
        intro agrees
        generalize hidden : opaqueRequestState = state at agrees
        cases agrees with
        | left _ unknown => cases x <;> simp_all [isRedacted, Value.isString]
        | right _ unknown => subst hidden; exact absurd unknown (by decide +kernel)
        | leaf _ _ same => subst hidden; cases x <;> simp_all [opaqueRequestState, Value.beq, Value.isString]
        | array => cases hidden
        | object => cases hidden
  | leaf _ _ _ =>
      refine iff_of_true (.refl _ _) fun other same => ?_
      subst same
      cases other
  | array length items =>
      exact iff_of_true (agrees_of_masks (.array length items)) fun _ same => by cases same
  | object keys members =>
      exact iff_of_true (agrees_of_masks (.object keys members)) fun _ same => by cases same

theorem requestsAgree_iff (masks : Masks placeholder v w) :
    RequestsAgree rules v w ↔ KeepsRequestState rules v w := by
  have normal : Masks placeholder (normalize rules v) (normalize rules w) := normalized_masks masks
  unfold RequestsAgree KeepsRequestState
  rcases masks_cases normal with hidden | ⟨plain, alsoPlain⟩ | ⟨object, alsoObject⟩
  · have shown : normalizeRequest rules w = normalize rules w :=
      normalizeRequest_of_not_object (by rw [hidden]; rfl)
    rw [shown, hidden]
    exact iff_of_true (.right _ isRedacted_placeholder) fun _ _ _ found => by cases found
  · rw [normalizeRequest_of_not_object plain, normalizeRequest_of_not_object alsoPlain]
    refine iff_of_true (agrees_of_masks normal) fun state found => ?_
    simp [Value.get_of_not_object plain] at found
  · rw [agrees_iff_get ((isObject_normalizeRequest v).trans object)
      ((isObject_normalizeRequest w).trans alsoObject)]
    simp only [get_normalizeRequest]
    have members := masks_get normal alsoObject
    have states := members "requestState"
    constructor
    · intro agrees state found noString redacted
      have member := agrees "requestState"
      rw [found, redacted] at member states
      simp only [Option.map_some, decide_true, Bool.true_and] at member
      cases states with
      | some stateMasks =>
          cases member with
          | some same => exact (state_agrees_iff stateMasks).mp same noString rfl
    · intro kept key
      by_cases here : key = "requestState"
      · subst here
        generalize (normalize rules v).get "requestState" = x at kept states ⊢
        generalize (normalize rules w).get "requestState" = y at kept states ⊢
        cases states with
        | none => exact .none
        | some stateMasks =>
            simp only [Option.map_some, decide_true, Bool.true_and]
            exact .some ((state_agrees_iff stateMasks).mpr fun noString same =>
              kept _ rfl noString (congrArg some same))
      · simpa [here] using option_agrees_of_masks (members key)

/-- Of a result that asks for input, the request state is not compared. -/
theorem get_normalizeResponse (key : String) (v : Value) : (normalizeResponse rules v).get key =
    if ((normalize rules v).get "resultType").bind Value.asStr = some "input_required" ∧
      key = "requestState" then none else (normalize rules v).get key := by
  unfold normalizeResponse
  dsimp only
  by_cases asks : ((normalize rules v).get "resultType").bind Value.asStr = some "input_required"
  · simp only [asks, if_true, true_and]
    cases normalize rules v with
    | object fields => exact lookup_filter_ne "requestState" key fields
    | _ => simp [Value.get]
  · simp [asks]

theorem isObject_normalizeResponse (v : Value) :
    (normalizeResponse rules v).isObject = (normalize rules v).isObject := by
  unfold normalizeResponse
  dsimp only
  split_ifs
  · cases normalize rules v <;> rfl
  · rfl

/-- A result that asks for input. -/
def AsksForInput (normal : Value) : Prop :=
  (normal.get "resultType").bind Value.asStr = some "input_required"

instance (normal : Value) : Decidable (AsksForInput normal) :=
  inferInstanceAs (Decidable (_ = some "input_required"))

theorem asksForInput_of_redacted {x y : Value}
    (members : ∀ key, Option.Rel (Masks placeholder) (x.get key) (y.get key))
    (asks : AsksForInput y) : AsksForInput x := by
  obtain ⟨type, found, text⟩ := Option.bind_eq_some_iff.mp asks
  have types := members "resultType"
  rw [found] at types
  unfold AsksForInput
  generalize x.get "resultType" = first at types ⊢
  cases types with
  | some masks =>
      cases masks with
      | masked => exact absurd text (by decide +kernel)
      | leaf => exact text
      | array => cases text
      | object => cases text

theorem redacted_asksForInput_iff {x y : Value}
    (members : ∀ key, Option.Rel (Masks placeholder) (x.get key) (y.get key))
    (asks : AsksForInput x) : AsksForInput y ↔ y.get "resultType" ≠ some placeholder := by
  obtain ⟨type, found, text⟩ := Option.bind_eq_some_iff.mp asks
  have types := members "resultType"
  rw [found] at types
  unfold AsksForInput
  generalize y.get "resultType" = second at types ⊢
  cases types with
  | @some _ other masks =>
      rw [Option.bind_some, ne_eq, Option.some.injEq]
      constructor
      · rintro read rfl
        exact absurd read (by decide +kernel)
      · intro shown
        cases masks with
        | masked => exact absurd rfl shown
        | leaf => exact text
        | array => cases text
        | object => cases text

/-- Of a result and its redaction either both ask for input, or the redaction of one that asks
shows its request state. -/
theorem response_members_agree_iff {x y : Value}
    (members : ∀ key, Option.Rel (Masks placeholder) (x.get key) (y.get key)) :
    (∀ key, Option.Rel (Agrees isRedacted)
        (if AsksForInput x ∧ key = "requestState" then none else x.get key)
        (if AsksForInput y ∧ key = "requestState" then none else y.get key)) ↔
      (AsksForInput x → (x.get "requestState").isSome = true → AsksForInput y) := by
  constructor
  · intro agrees asks present
    by_contra hidden
    -- The state is dropped on the original's side only.
    have member := agrees "requestState"
    have states := members "requestState"
    rw [if_pos ⟨asks, rfl⟩, if_neg (fun both => hidden both.1)] at member
    generalize x.get "requestState" = first at states present
    generalize y.get "requestState" = second at states member
    cases member
    cases states
    cases present
  · intro kept key
    by_cases here : key = "requestState"
    · subst here
      by_cases asks : AsksForInput x
      · rw [if_pos ⟨asks, rfl⟩]
        have states := members "requestState"
        have shown := kept asks
        generalize x.get "requestState" = first at states shown
        generalize y.get "requestState" = second at states ⊢
        cases states with
        | none => rw [ite_self]; exact .none
        | some => rw [if_pos ⟨shown rfl, rfl⟩]; exact .none
      · have quiet : ¬ AsksForInput y := fun claims => asks (asksForInput_of_redacted members claims)
        rw [if_neg (fun both => asks both.1), if_neg (fun both => quiet both.1)]
        exact option_agrees_of_masks (members _)
    · rw [if_neg (fun both => here both.2), if_neg (fun both => here both.2)]
      exact option_agrees_of_masks (members key)

theorem responsesAgree_iff (masks : Masks placeholder v w) :
    ResponsesAgree rules v w ↔ KeepsResultType rules v w := by
  have normal : Masks placeholder (normalize rules v) (normalize rules w) := normalized_masks masks
  unfold ResponsesAgree KeepsResultType
  rcases masks_cases normal with hidden | ⟨plain, alsoPlain⟩ | ⟨object, alsoObject⟩
  · have shown : normalizeResponse rules w = normalize rules w :=
      normalizeResponse_of_not_object (by rw [hidden]; rfl)
    rw [shown, hidden]
    exact iff_of_true (.right _ isRedacted_placeholder) fun _ _ found => by cases found
  · rw [normalizeResponse_of_not_object plain, normalizeResponse_of_not_object alsoPlain]
    refine iff_of_true (agrees_of_masks normal) fun asks => ?_
    simp [Value.get_of_not_object plain] at asks
  · have members := masks_get normal alsoObject
    rw [agrees_iff_get ((isObject_normalizeResponse v).trans object)
      ((isObject_normalizeResponse w).trans alsoObject)]
    simp only [get_normalizeResponse]
    refine (response_members_agree_iff members).trans (forall_congr' fun asks => ?_)
    rw [redacted_asksForInput_iff members asks]

end Bodies

/-! ## Sessions -/

/-- What is read of payloads before values are compared is not redacted. -/
structure KeepsReadFields (codec : Codec) (as bs : List StoredMessage) (rules : IgnoreRules) : Prop where
  toolErrors : ToolErrorsKept codec (as.zip bs)
  requestStates : ∀ key exchange, (key, exchange) ∈ keyedExchanges codec as →
    ∀ v w, requestParams exchange (payloadsBySeq codec as) = some v →
      requestParams exchange (payloadsBySeq codec bs) = some w → KeepsRequestState rules v w
  resultTypes : ∀ key exchange, (key, exchange) ∈ keyedExchanges codec as →
    ∀ field, comparedField exchange.status = some field →
      ∀ v w, responseSubtree exchange (payloadsBySeq codec as) field = some v →
        responseSubtree exchange (payloadsBySeq codec bs) field = some w → KeepsResultType rules v w
  tools : ∀ name, Option.Rel SameTool ((extractTools codec as).lookup name)
    ((extractTools codec bs).lookup name)

section Sessions
variable {codec : Codec} {as bs : List StoredMessage} {rules : IgnoreRules}

theorem redacted_corresponds (redacted : List.Forall₂ (Redacted codec) as bs) :
    List.Forall₂ (MessagesCorrespond codec Eq) as bs :=
  redacted.imp fun _ _ message => message.corresponds

theorem eq_biUnique : Relator.BiUnique (Eq : Direction × String → Direction × String → Prop) :=
  ⟨fun _ _ _ left right => left.trans right.symm, fun _ _ _ left right => left.symm.trans right⟩

/-- Payloads by sequence number, member by member. -/
def MembersMasked (v w : Value) : Prop :=
  ∀ key, Option.Rel (Masks placeholder) (v.get key) (w.get key)

theorem redacted_payloads (redacted : List.Forall₂ (Redacted codec) as bs) (seq : Nat) :
    Option.Rel MembersMasked (payloadsBySeq codec as seq) (payloadsBySeq codec bs seq) := by
  refine payloadsBySeq_related (redacted.imp fun m n message => ⟨message.seq, ?_⟩) seq
  exact option_rel_imp message.payload fun _ _ => masksMembers_get

theorem params_masked {aPayloads bPayloads : Table Nat Value}
    (payloads : ∀ seq, Option.Rel MembersMasked (aPayloads seq) (bPayloads seq)) {exchange : Exchange}
    {v w : Value} (left : requestParams exchange aPayloads = some v)
    (right : requestParams exchange bPayloads = some w) : Masks placeholder v w := by
  have related := requestParams_related payloads
    (fun _ _ members => option_rel_getD (members "params") (.refl placeholder .null)) exchange
  rw [left, right] at related
  exact of_option_rel related

theorem response_masked {aPayloads bPayloads : Table Nat Value}
    (payloads : ∀ seq, Option.Rel MembersMasked (aPayloads seq) (bPayloads seq)) {exchange : Exchange}
    {field : String} {v w : Value} (left : responseSubtree exchange aPayloads field = some v)
    (right : responseSubtree exchange bPayloads field = some w) : Masks placeholder v w := by
  have related := responseSubtree_related payloads (fun _ _ members => members field) exchange
  rw [left, right] at related
  exact of_option_rel related

/-- A redaction agrees with the original exactly when it keeps what is read first. -/
theorem redacted_agree_iff (redacted : List.Forall₂ (Redacted codec) as bs) :
    AgreeWhereCompared codec as bs rules ↔ KeepsReadFields codec as bs rules := by
  have payloads := redacted_payloads redacted
  rw [agreeWhereCompared_iff eq_biUnique (redacted_corresponds redacted)]
  constructor
  · rintro ⟨toolErrors, bodies, -, tools⟩
    exact ⟨toolErrors,
      fun key exchange member v w left right => (requestsAgree_iff (params_masked payloads left right)).mp
        ((bodies key exchange member).params v w left right),
      fun key exchange member field compared v w left right =>
        (responsesAgree_iff (response_masked payloads left right)).mp
          ((bodies key exchange member).response field compared v w left right), tools⟩
  · rintro ⟨toolErrors, requestStates, resultTypes, tools⟩
    refine ⟨toolErrors, fun key exchange member => ⟨fun v w left right => ?_,
      fun field compared v w left right => ?_⟩, fun pair member participates => ?_, tools⟩
    · exact (requestsAgree_iff (params_masked payloads left right)).mpr
        (requestStates key exchange member v w left right)
    · exact (responsesAgree_iff (response_masked payloads left right)).mpr
        (resultTypes key exchange member field compared v w left right)
    · have kind := (notificationBase_isSome_iff.mp participates).1
      intro v w left right
      rw [((List.forall₂_iff_zip.mp redacted).2 member).notification kind, right] at left
      obtain rfl := Option.some.inj left
      exact .refl _ _

end Sessions

/-- A redaction is not reported, in either order, exactly when it keeps what is read of payloads
before values are compared. -/
theorem diffSessions_redacted_iff (codec : Codec) (as bs : List StoredMessage) (options : DiffOptions)
    (redacted : List.Forall₂ (Redacted codec) as bs) (noLatency : options.ignoreLatency = true) :
    ((diffSessions codec as bs options).isEmpty = true ∧
        (diffSessions codec bs as options).isEmpty = true) ↔
      KeepsReadFields codec as bs options.ignore := by
  have empty (as bs : List StoredMessage) : (diffSessions codec as bs options).isEmpty = true ↔
      AgreeWhereCompared codec as bs options.ignore :=
    diffSessions_isEmpty_iff.trans (and_iff_left (latencyQuiet_of_ignored noLatency))
  rw [empty, empty, ← redacted_agree_iff redacted]
  exact ⟨fun both => both.1, fun agree => ⟨agree, agree.symm⟩⟩

/-! ## A redacted tool description -/

/-- A call and the response with this result. -/
def called (method : String) (result : Value) : List StoredMessage :=
  [⟨0, 0, "c2s", "request", some "1", some method, none, "null", 0, false, none⟩,
    ⟨1, 5, "s2c", "response", some "1", none, none,
      Compact.codec.toString (.object [("result", result)]), 0, false, none⟩]

theorem called_redacted {method : String} {before after : Value} (masks : Masks placeholder before after)
    (parsed : Compact.codec.fromStr (Compact.codec.toString (.object [("result", before)])) =
      some (.object [("result", before)]))
    (alsoParsed : Compact.codec.fromStr (Compact.codec.toString (.object [("result", after)])) =
      some (.object [("result", after)])) :
    List.Forall₂ (Redacted Compact.codec) (called method before) (called method after) := by
  refine .cons ⟨rfl, rfl, rfl, rfl, rfl, rfl, rfl, rfl, rfl, ?_⟩
    (.cons ⟨rfl, rfl, rfl, rfl, rfl, rfl, rfl, rfl, rfl, ?_⟩ .nil)
  · cases Compact.codec.fromStr "null" with
    | none => exact .none
    | some payload => exact .some (.inl rfl)
  · rw [parsed, alsoParsed]
    exact .some (.inr ⟨_, _, rfl, rfl, .cons ⟨rfl, by simpa [redactable] using masks⟩ .nil⟩)

def latencyIgnored : DiffOptions := { DiffOptions.standard with ignoreLatency := true }

/-- A redacted result of a call that lists no tools is not seen. -/
theorem diffSessions_redacted_result : KeepsReadFields Compact.codec
    (called "ping" (.string "token")) (called "ping" placeholder) latencyIgnored.ignore :=
  (diffSessions_redacted_iff Compact.codec (called "ping" (.string "token")) (called "ping" placeholder)
    latencyIgnored (called_redacted (.masked _) (by decide +kernel) (by decide +kernel)) rfl).mp
    ⟨by decide +kernel, by decide +kernel⟩

/-- A listing of one tool with this description. -/
def listing (description : Value) : Value :=
  .object [("tools", .array [.object [("description", description), ("name", .string "login")]])]

/-- A redacted tool description is reported as a change of the tool. -/
theorem redacted_description_reported :
    ¬ (List.Forall₂ (Redacted Compact.codec) (called "tools/list" (listing (.string "Log in.")))
        (called "tools/list" (listing placeholder)) →
      (diffSessions Compact.codec (called "tools/list" (listing (.string "Log in.")))
        (called "tools/list" (listing placeholder)) latencyIgnored).isEmpty = true) := by
  intro unseen
  have masks : Masks placeholder (listing (.string "Log in.")) (listing placeholder) :=
    .object_of_forall₂ (.cons ⟨rfl, .array_of_forall₂ (.cons (.object_of_forall₂
      (.cons ⟨rfl, .masked _⟩ (.cons ⟨rfl, .refl placeholder _⟩ .nil))) .nil)⟩ .nil)
  exact absurd (unseen (called_redacted masks (by decide +kernel) (by decide +kernel)))
    (by decide +kernel)

end McpTracer.Model
