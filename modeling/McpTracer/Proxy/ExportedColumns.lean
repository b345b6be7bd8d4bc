import McpTracer.Proxy.Recording
import McpTracer.Proxy.SessionHealth
import McpTracer.Redact.Noninterference

/-! What export's redaction does to the columns.

Export masks the payload again and leaves the columns as they were stored. So an exported message
passes validation exactly if masking leaves the members alone that the columns are read off.
-/

set_option autoImplicit false

namespace McpTracer.Proxy
open McpTracer.Foundation McpTracer.Json McpTracer.Protocol McpTracer.Redact McpTracer.Storage

/-! ## Exported messages -/

/-- A stored message with its payload masked; the columns stay. -/
def exportedMessage (codec : Codec) (redactor : Redactor) (message : McpMessage) (context : RedactionContext) :
    MtraceMessage :=
  { MtraceMessage.ofMessage codec message with payload := redactor.redactWithContext message.payload context }

/-- A payload text that decodes, decodes to the payload it was printed from. -/
def Rereads (codec : Codec) (message : McpMessage) : Prop :=
  ∀ payload, codec.fromStr (codec.toString message.payload) = some payload → payload = message.payload

/-- What export asks of a stored payload. -/
def Exportable (codec : Codec) (message : McpMessage) : Prop :=
  codec.fromStr (codec.toString message.payload) = some message.payload ∧ message.payload.isObject = true

theorem exportMessage_eq_ok_iff {codec : Codec} {policy : RedactionPolicy} {tracker : RedactionContextTracker}
    {message : McpMessage} (rereads : Rereads codec message) {outcome : RedactionContextTracker × MtraceMessage} :
    exportMessage codec (.new policy) tracker (StoredMessage.ofMessage codec message) = .ok outcome ↔
      Exportable codec message ∧
        (policy ≠ .none → (tracker.observeCall codec (observedCall message)).1.lostContext = false) ∧
        outcome = ((tracker.observeCall codec (observedCall message)).1,
          exportedMessage codec (.new policy) message (tracker.observeCall codec (observedCall message)).2) := by
  have active : (Redactor.new policy).isActive = decide (policy ≠ .none) := rfl
  have call : tracker.observe codec (StoredMessage.ofMessage codec message).seq
      (StoredMessage.ofMessage codec message).direction message.payload =
        tracker.observeCall codec (observedCall message) := rfl
  unfold exportMessage
  rw [bind_eq_ok_iff]
  constructor
  · rintro ⟨payload, decoded, done⟩
    have printed : codec.fromStr (codec.toString message.payload) = some payload := require_eq_ok_iff.1 decoded
    obtain rfl := rereads payload printed
    rw [call] at done
    dsimp only at done
    split_ifs at done with shape lost
    rw [pure_eq_ok_iff] at done
    refine ⟨⟨printed, by simpa using shape⟩, fun redacting => ?_, done.symm⟩
    by_contra kept
    exact lost (by rw [active]; simpa [redacting] using kept)
  · rintro ⟨⟨printed, shape⟩, kept, rfl⟩
    refine ⟨message.payload, require_eq_ok_iff.2 printed, ?_⟩
    rw [call]
    dsimp only
    rw [shape, if_neg (by simp), if_neg]
    · rfl
    · rw [active]
      intro both
      obtain ⟨redacting, lost⟩ := (Bool.and_eq_true _ _).mp both
      rw [kept (of_decide_eq_true redacting)] at lost
      cases lost

/-- A session is exported message by message, each under the context its own stream gives. -/
theorem exportMessages_eq_ok_iff {codec : Codec} {policy : RedactionPolicy} {tracker : RedactionContextTracker}
    {messages : List McpMessage} (rereads : ∀ message ∈ messages, Rereads codec message)
    (start : policy ≠ .none → tracker.lostContext = false) {exported : List MtraceMessage} :
    exportMessages codec (.new policy) tracker (messages.map (StoredMessage.ofMessage codec)) = .ok exported ↔
      (∀ message ∈ messages, Exportable codec message) ∧
        Retains codec policy tracker (messages.map observedCall) ∧
        exported = List.zipWith (exportedMessage codec (.new policy)) messages
          (RedactionContextTracker.contextsFrom codec tracker (messages.map observedCall)) := by
  induction messages generalizing tracker exported with
  | nil =>
    simp only [List.map_nil, exportMessages, Except.ok.injEq, List.zipWith_nil_left]
    exact ⟨fun same => ⟨fun _ member => (by cases member), start, same.symm⟩, fun both => both.2.2.symm⟩
  | cons message rest ih =>
    obtain ⟨here, others⟩ := List.forall_mem_cons.1 rereads
    simp only [List.map_cons, exportMessages, bind_eq_ok_iff, exportMessage_eq_ok_iff here, pure_eq_ok_iff,
      List.forall_mem_cons, RedactionContextTracker.contextsFrom, List.zipWith_cons_cons]
    set next := (tracker.observeCall codec (observedCall message)).1 with nextEq
    constructor
    · rintro ⟨first, ⟨printed, kept, rfl⟩, later, done, rfl⟩
      obtain ⟨printable, retains, rfl⟩ := (ih others kept).1 done
      exact ⟨⟨printed, printable⟩, retains, rfl⟩
    · rintro ⟨⟨printed, printable⟩, retains, rfl⟩
      have kept : policy ≠ .none → next.lostContext = false := fun redacting =>
        lostContext_of_foldl (retains redacting)
      exact ⟨_, ⟨printed, kept, rfl⟩, _, (ih others kept).2 ⟨printable, retains, rfl⟩, rfl⟩

/-! ## The columns -/

/-- Two messages from which the same columns are read. -/
structure SameColumns (codec : Codec) (message other : McpMessage) : Prop where
  kind : other.kind = message.kind
  id : other.idJson codec = message.idJson codec
  method : other.method = message.method
  toolName : other.toolName = message.toolName
  isError : other.isError = message.isError
  errorCode : other.errorCode = message.errorCode

theorem asDbStr_injective {a b : MessageKind} : a.asDbStr = b.asDbStr ↔ a = b := by
  cases a <;> cases b <;> simp [MessageKind.asDbStr]

theorem rejectMessageFieldPayloadMismatch_exported {codec : Codec} {redactor : Redactor} {message : McpMessage}
    {context : RedactionContext} :
    rejectMessageFieldPayloadMismatch codec (exportedMessage codec redactor message context) = .ok () ↔
      SameColumns codec message (masked redactor message context) := by
  unfold rejectMessageFieldPayloadMismatch
  have known : Direction.fromDbStr (exportedMessage codec redactor message context).direction =
      some message.direction := Direction.fromDbStr_asDbStr message.direction
  have derived : (exportedMessage codec redactor message context).derived message.direction =
      masked redactor message context := rfl
  simp only [known, derived]
  split_ifs with kind id method toolName isError errorCode
  case neg =>
    refine iff_of_true rfl ⟨asDbStr_injective.1 ?_, not_not.1 id, not_not.1 method, not_not.1 toolName,
      not_not.1 isError, not_not.1 errorCode⟩
    exact not_not.1 kind
  · exact iff_of_false not_false fun same => kind (congrArg MessageKind.asDbStr same.kind)
  · exact iff_of_false not_false fun same => id same.id
  · exact iff_of_false not_false fun same => method same.method
  · exact iff_of_false not_false fun same => toolName same.toolName
  · exact iff_of_false not_false fun same => isError same.isError
  · exact iff_of_false not_false fun same => errorCode same.errorCode

/-- What an exported message has to pass. -/
theorem validateMessage_exported {codec : Codec} {policy : RedactionPolicy} {previousSeq : Option Nat}
    {tracker next : RedactionContextTracker} {message : McpMessage} {context : RedactionContext}
    (order : ∀ previous, previousSeq = some previous → previous < message.seq)
    (shape : message.payload.isObject = true) :
    validateMessage codec policy previousSeq tracker (exportedMessage codec (.new policy) message context) =
        .ok next ↔
      SameColumns codec message (masked (.new policy) message context) ∧
        next = (tracker.observeCall codec (observedCall (masked (.new policy) message context))).1 ∧
        (policy ≠ .none → next.lostContext = false) ∧
        unredactedSensitiveKeysWithContext (masked (.new policy) message context).payload policy
          (tracker.observeCall codec (observedCall (masked (.new policy) message context))).2 = [] := by
  set exported := exportedMessage codec (.new policy) message context with exportedEq
  have inOrder : (previousSeq.any fun previous => decide (exported.seq ≤ previous)) = false := by
    cases previousSeq with
    | none => rfl
    | some previous =>
      have below : previous < exported.seq := order previous rfl
      simpa using below
  have direction : ¬(exported.direction ≠ "c2s" ∧ exported.direction ≠ "s2c") := by
    have side : exported.direction = message.direction.asDbStr := rfl
    rw [side]
    cases message.direction <;> simp [Direction.asDbStr]
  have kind : ¬(exported.messageKind ≠ "request" ∧ exported.messageKind ≠ "response" ∧
      exported.messageKind ≠ "notification") := by
    have named : exported.messageKind = message.kind.asDbStr := rfl
    rw [named]
    cases message.kind <;> simp [MessageKind.asDbStr]
  have object : (masked (.new policy) message context).payload.isObject = true := by
    rw [masked, Redactor.redactWithContext, Redactor.walkMessage]
    split_ifs
    · cases payload : message.payload <;> simp_all [maskMessage, Value.isObject]
    · exact shape
  have call : exported.observedCall = observedCall (masked (.new policy) message context) := rfl
  have payload : exported.payload = (masked (.new policy) message context).payload := rfl
  unfold validateMessage
  simp only [inOrder, direction, kind, payload, object, Bool.false_eq_true, if_false, Bool.not_true, call]
  rw [← rejectMessageFieldPayloadMismatch_exported, ← exportedEq]
  cases fits : rejectMessageFieldPayloadMismatch codec exported with
  | error refusal => simp
  | ok done =>
    simp only [true_and]
    split_ifs with lost found
    · refine iff_of_false (by simp) fun both => ?_
      rw [both.1, lost.2] at both
      exact absurd (both.2.1 lost.1) (by simp)
    · exact iff_of_false (by simp) fun both => found both.2.2
    · rw [Except.ok.injEq]
      constructor
      · rintro rfl
        refine ⟨rfl, fun redacting => ?_, not_not.1 found⟩
        by_contra kept
        exact lost ⟨redacting, by simpa using kept⟩
      · exact fun both => both.1.symm

/-! ## Members of a masked payload -/

theorem maskMember_hidden {policy : RedactionPolicy} {key : String}
    (hidden : matchesPolicySensitiveKey key policy.customKeys = true) (v : Value) :
    maskMember (matchesPolicySensitiveKey · policy.customKeys) (fun _ => placeholder) key v = placeholder :=
  if_pos hidden

theorem maskMember_shown {policy : RedactionPolicy} {key : String}
    (shown : matchesPolicySensitiveKey key policy.customKeys = false) (v : Value) :
    maskMember (matchesPolicySensitiveKey · policy.customKeys) (fun _ => placeholder) key v =
      maskWalk (matchesPolicySensitiveKey · policy.customKeys) (fun _ => placeholder) v :=
  if_neg (by simp [shown])

section Members
variable {policy : RedactionPolicy} (built : policy.Built) (redacting : policy ≠ .none)

include built redacting

theorem redactWithContext_get {key : String} (other : key ≠ "result") (v : Value) (context : RedactionContext) :
    ((Redactor.new policy).redactWithContext v context).get key =
      (v.get key).map (maskMember (matchesPolicySensitiveKey · policy.customKeys) (fun _ => placeholder) key) := by
  have active : (Redactor.new policy).isActive = true := decide_eq_true redacting
  have same := isSensitiveKey_new built.normalized key
  rw [Redactor.redactWithContext, if_pos active, Redactor.walkMessage]
  have sensitive : (Redactor.new policy).isSensitiveKey = (matchesPolicySensitiveKey · policy.customKeys) :=
    funext (isSensitiveKey_new built.normalized)
  cases hidden : matchesPolicySensitiveKey key policy.customKeys with
  | true =>
    rw [maskMessage_get_masked (same.trans hidden)]
    exact congrArg (Option.map · (v.get key)) (funext fun member => (maskMember_hidden hidden member).symm)
  | false =>
    rw [maskMessage_get_kept (same.trans hidden) other, sensitive]
    exact congrArg (Option.map · (v.get key)) (funext fun member => (maskMember_shown hidden member).symm)

/-- The scan of one member finds nothing exactly if masking leaves the member alone. -/
theorem unredacted_member_iff {key : String} {member : Value} :
    unredactedSensitiveKeys (.object [(key, member)]) policy = [] ↔
      maskMember (matchesPolicySensitiveKey · policy.customKeys) (fun _ => placeholder) key member = member := by
  have active : (Redactor.new policy).isActive = true := decide_eq_true redacting
  have sensitive : (Redactor.new policy).isSensitiveKey = (matchesPolicySensitiveKey · policy.customKeys) :=
    funext (isSensitiveKey_new built.normalized)
  have rewritten : (Redactor.new policy).redactWithContext (.object [(key, member)]) .runtime = .object [(key,
      maskMember (matchesPolicySensitiveKey · policy.customKeys) (fun _ => placeholder) key member)] := by
    rw [Redactor.redactWithContext, if_pos active, Redactor.walkMessage, maskMessage_runtime, sensitive, maskWalk,
      maskFields_eq_map]
    rfl
  constructor
  · intro clean
    have same := redactWithContext_eq_self built clean
    rw [rewritten] at same
    simpa using same
  · intro same
    have clean := unredactedSensitiveKeys_redactWithContext policy built redacting (.object [(key, member)]) .runtime
    rw [rewritten, same] at clean
    exact clean

end Members

theorem maskWalk_wellFormed {isSensitive : String → Bool} {v : Value} (formed : v.wellFormed = true) :
    (maskWalk isSensitive (fun _ => placeholder) v).wellFormed = true := by
  induction v using Value.children with
  | array items ih =>
    simp only [Value.wellFormed, Value.wellFormedItems_iff] at formed
    simp only [maskWalk, maskItems_eq_map, Value.wellFormed, Value.wellFormedItems_iff, List.forall_mem_map]
    exact fun item member => ih item member (formed item member)
  | object fields ih =>
    simp only [Value.wellFormed, Bool.and_eq_true, decide_eq_true_eq, Value.wellFormedFields_iff] at formed
    simp only [maskWalk, maskFields_eq_map, Value.wellFormed, Bool.and_eq_true, decide_eq_true_eq,
      Value.wellFormedFields_iff, List.map_map, List.forall_mem_map]
    refine ⟨formed.1, fun field member => ?_⟩
    unfold maskMember
    split_ifs
    · rfl
    · exact ih field member (formed.2 field member)
  | _ => rfl

theorem maskMember_wellFormed {isSensitive : String → Bool} {key : String} {v : Value} (formed : v.wellFormed = true) :
    (maskMember isSensitive (fun _ => placeholder) key v).wellFormed = true := by
  unfold maskMember
  split_ifs
  · rfl
  · exact maskWalk_wellFormed formed

theorem maskWalk_get {isSensitive : String → Bool} {key : String} (v : Value) :
    (maskWalk isSensitive (fun _ => placeholder) v).get key =
      (v.get key).map (maskMember isSensitive (fun _ => placeholder) key) := by
  cases v with
  | object fields =>
    rw [maskWalk, maskFields_eq_map]
    exact Value.lookup_map_members (maskMember isSensitive fun _ => placeholder) fields key
  | _ => rfl

/-! ## The columns of a masked message -/

/-- Masking leaves the members alone that the columns are read off: the id holds nothing to mask, and
the method, the tool's name and the error code are not masked, are masked already, or give no column. -/
structure LeavesColumns (policy : RedactionPolicy) (message : McpMessage) : Prop where
  id : ∀ id, message.id = some id → unredactedSensitiveKeys (.object [("id", id)]) policy = []
  method : matchesPolicySensitiveKey "method" policy.customKeys = true →
    ∀ method, message.payload.get "method" = some method → method = placeholder
  params : matchesPolicySensitiveKey "params" policy.customKeys = true → message.toolName = none
  name : matchesPolicySensitiveKey "params" policy.customKeys = false →
    matchesPolicySensitiveKey "name" policy.customKeys = true → message.method = some "tools/call" →
    ∀ params, message.payload.get "params" = some params → ∀ name, params.get "name" = some name → name = placeholder
  errorCode : matchesPolicySensitiveKey "error" policy.customKeys = true ∨
    matchesPolicySensitiveKey "code" policy.customKeys = true → message.errorCode = none

theorem asStr_eq_placeholder_iff {v : Value} : v.asStr = some redactedPlaceholder ↔ v = placeholder := by
  cases v <;> simp [Value.asStr, placeholder]

section Columns
variable {codec : Codec} {policy : RedactionPolicy} (built : policy.Built) (redacting : policy ≠ .none)
  {message : McpMessage} {context : RedactionContext}

include built redacting

theorem idJson_masked_iff (formed : message.payload.wellFormed = true) :
    (masked (.new policy) message context).idJson codec = message.idJson codec ↔
      ∀ id, message.id = some id → unredactedSensitiveKeys (.object [("id", id)]) policy = [] := by
  have read : (masked (.new policy) message context).id = message.id.map
      (maskMember (matchesPolicySensitiveKey · policy.customKeys) (fun _ => placeholder) "id") :=
    redactWithContext_get built redacting (by decide) message.payload context
  unfold McpMessage.idJson
  rw [read]
  cases found : message.id with
  | none => simp
  | some id =>
    have inner : id.wellFormed = true := Value.wellFormed_get formed found
    simp only [Option.map_some, Option.some.injEq, forall_eq', unredacted_member_iff built redacting]
    constructor
    · exact codec.toString_injective (maskMember_wellFormed inner) inner
    · intro same
      rw [same]

theorem method_masked_iff : (masked (.new policy) message context).method = message.method ↔
    (matchesPolicySensitiveKey "method" policy.customKeys = true →
      ∀ method, message.payload.get "method" = some method → method = placeholder) := by
  have read : (masked (.new policy) message context).payload.get "method" = (message.payload.get "method").map
      (maskMember (matchesPolicySensitiveKey · policy.customKeys) (fun _ => placeholder) "method") :=
    redactWithContext_get built redacting (by decide) message.payload context
  unfold McpMessage.method
  rw [read]
  cases found : message.payload.get "method" with
  | none => simp
  | some method =>
    cases hidden : matchesPolicySensitiveKey "method" policy.customKeys with
    | true =>
      rw [Option.map_some, maskMember_hidden hidden]
      simp only [Option.bind_some, forall_const, Option.some.injEq, forall_eq']
      rw [← asStr_eq_placeholder_iff, eq_comm]
      rfl
    | false =>
      rw [Option.map_some, maskMember_shown hidden]
      simp [maskWalk_asStr]

theorem toolName_masked_iff (sameMethod : (masked (.new policy) message context).method = message.method) :
    (masked (.new policy) message context).toolName = message.toolName ↔
      (matchesPolicySensitiveKey "params" policy.customKeys = true → message.toolName = none) ∧
      (matchesPolicySensitiveKey "params" policy.customKeys = false →
        matchesPolicySensitiveKey "name" policy.customKeys = true → message.method = some "tools/call" →
        ∀ params, message.payload.get "params" = some params → ∀ name, params.get "name" = some name →
          name = placeholder) := by
  have read : (masked (.new policy) message context).payload.get "params" = (message.payload.get "params").map
      (maskMember (matchesPolicySensitiveKey · policy.customKeys) (fun _ => placeholder) "params") :=
    redactWithContext_get built redacting (by decide) message.payload context
  unfold McpMessage.toolName
  rw [sameMethod, read]
  by_cases calls : message.method = some "tools/call"
  swap
  · simp [calls]
  cases found : message.payload.get "params" with
  | none => simp [calls]
  | some params =>
    cases hidden : matchesPolicySensitiveKey "params" policy.customKeys with
    | true =>
      have absent : placeholder.get "name" = none := rfl
      rw [Option.map_some, maskMember_hidden hidden]
      simp only [calls, if_true, Option.bind_some, absent, Option.bind_none]
      exact ⟨fun same => ⟨fun _ => same.symm, nofun⟩, fun both => (both.1 trivial).symm⟩
    | false =>
      rw [Option.map_some, maskMember_shown hidden]
      simp only [calls, Option.bind_some, if_true, maskWalk_get, false_implies, true_and,
        forall_const, Option.some.injEq, forall_eq', Bool.false_eq_true]
      cases named : params.get "name" with
      | none => simp
      | some name =>
        cases masks : matchesPolicySensitiveKey "name" policy.customKeys with
        | true =>
          rw [Option.map_some, maskMember_hidden masks]
          simp only [Option.bind_some, forall_const, Option.some.injEq, forall_eq']
          rw [← asStr_eq_placeholder_iff, eq_comm]
          rfl
        | false =>
          rw [Option.map_some, maskMember_shown masks]
          simp [maskWalk_asStr]

theorem errorCode_masked_iff : (masked (.new policy) message context).errorCode = message.errorCode ↔
    (matchesPolicySensitiveKey "error" policy.customKeys = true ∨
      matchesPolicySensitiveKey "code" policy.customKeys = true → message.errorCode = none) := by
  have read : (masked (.new policy) message context).payload.get "error" = (message.payload.get "error").map
      (maskMember (matchesPolicySensitiveKey · policy.customKeys) (fun _ => placeholder) "error") :=
    redactWithContext_get built redacting (by decide) message.payload context
  unfold McpMessage.errorCode
  rw [read]
  cases found : message.payload.get "error" with
  | none => simp
  | some error =>
    cases hidden : matchesPolicySensitiveKey "error" policy.customKeys with
    | true =>
      have absent : placeholder.get "code" = none := rfl
      rw [Option.map_some, maskMember_hidden hidden]
      simp only [Option.bind_some, absent, Option.bind_none]
      exact ⟨fun same _ => same.symm, fun none_ => (none_ (.inl trivial)).symm⟩
    | false =>
      rw [Option.map_some, maskMember_shown hidden]
      simp only [Option.bind_some, maskWalk_get, Bool.false_eq_true, false_or]
      cases coded : error.get "code" with
      | none => simp
      | some code =>
        cases masks : matchesPolicySensitiveKey "code" policy.customKeys with
        | true =>
          have absent : placeholder.asI64 = none := rfl
          rw [Option.map_some, maskMember_hidden masks]
          simp [absent, eq_comm]
        | false =>
          have same : (maskWalk (matchesPolicySensitiveKey · policy.customKeys) (fun _ => placeholder) code).asI64 =
              code.asI64 := by cases code <;> rfl
          rw [Option.map_some, maskMember_shown masks]
          simp [same]

theorem isSome_masked {key : String} (other : key ≠ "result") :
    ((masked (.new policy) message context).payload.get key).isSome = (message.payload.get key).isSome := by
  have read : (masked (.new policy) message context).payload.get key = (message.payload.get key).map
      (maskMember (matchesPolicySensitiveKey · policy.customKeys) (fun _ => placeholder) key) :=
    redactWithContext_get built redacting other message.payload context
  rw [read, Option.isSome_map]

/-- The same columns are read off the masked payload exactly if masking leaves their members alone. -/
theorem sameColumns_masked_iff (formed : message.payload.wellFormed = true) :
    SameColumns codec message (masked (.new policy) message context) ↔ LeavesColumns policy message := by
  constructor
  · intro same
    obtain ⟨params, name⟩ := (toolName_masked_iff built redacting same.method).1 same.toolName
    exact ⟨(idJson_masked_iff built redacting formed).1 same.id, (method_masked_iff built redacting).1 same.method,
      params, name, (errorCode_masked_iff built redacting).1 same.errorCode⟩
  · intro leaves
    have method := (@method_masked_iff policy built redacting message context).2 leaves.method
    have identified : (masked (.new policy) message context).id.isSome = message.id.isSome :=
      isSome_masked built redacting (by decide)
    refine ⟨?_, (idJson_masked_iff built redacting formed).2 leaves.id, method,
      (toolName_masked_iff built redacting method).2 ⟨leaves.params, leaves.name⟩,
      isSome_masked built redacting (by decide), (errorCode_masked_iff built redacting).2 leaves.errorCode⟩
    simp only [McpMessage.kind, McpMessage.isResponse, McpMessage.isNotification, method, identified,
      ← Option.not_isSome]

end Columns

/-! ## The exported stream -/

/-- Export masks every message as if it had no schema exemption to rely on. -/
def Unexempted (codec : Codec) (policy : RedactionPolicy) (tracker : RedactionContextTracker)
    (messages : List McpMessage) : Prop :=
  ∀ pair ∈ messages.zip (RedactionContextTracker.contextsFrom codec tracker (messages.map observedCall)),
    (Redactor.new policy).redactWithContext pair.1.payload pair.2 =
      (Redactor.new policy).redactWithContext pair.1.payload .runtime

/-- Without the version a message neither lists nor answers. -/
theorem observe_unversioned {codec : Codec} {tracker : RedactionContextTracker} {seq : Nat} {direction : String}
    {payload : Value} (version : isVersionTwo payload = false) :
    (tracker.observe codec seq direction payload).1.lostContext = tracker.lostContext ∧
      (tracker.observe codec seq direction payload).2 = .runtime := by
  have listing : isListRequest payload = false := by simp [isListRequest, version]
  have result : isResultResponse payload = false := by simp [isResultResponse, version]
  have outcome := observed codec tracker seq direction payload
  generalize tracker.observe codec seq direction payload = observation at outcome ⊢
  obtain ⟨next, context⟩ := observation
  cases outcome with
  | listed _ _ _ lists => exact absurd lists (by simp [listing])
  | refused _ _ _ lists => exact absurd lists (by simp [listing])
  | answered => exact ⟨rfl, if_neg fun both => by simp [result] at both⟩
  | oversized => exact ⟨by simp [listing], rfl⟩
  | _ => exact ⟨rfl, rfl⟩

section Stream
variable {codec : Codec} {policy : RedactionPolicy} (built : policy.Built) (redacting : policy ≠ .none)
  {tracker validator : RedactionContextTracker} {message : McpMessage} {context : RedactionContext}

include built redacting

/-- With the version left alone, the tracker cannot tell the exported message from the stored one. -/
theorem observeCall_masked (versioned : matchesPolicySensitiveKey "jsonrpc" policy.customKeys = false)
    (leaves : LeavesColumns policy message) :
    tracker.observeCall codec (observedCall (masked (.new policy) message context)) =
      tracker.observeCall codec (observedCall message) := by
  have read : ∀ key, key ≠ "result" → (masked (.new policy) message context).payload.get key =
      (message.payload.get key).map
        (maskMember (matchesPolicySensitiveKey · policy.customKeys) (fun _ => placeholder) key) :=
    fun key other => redactWithContext_get built redacting other message.payload context
  have sameId : (masked (.new policy) message context).payload.get "id" = message.payload.get "id" := by
    rw [read "id" (by decide)]
    cases found : message.payload.get "id" with
    | none => rfl
    | some id => exact congrArg some ((unredacted_member_iff built redacting).1 (leaves.id id found))
  have active : (Redactor.new policy).isActive = true := decide_eq_true redacting
  have envelope : SameEnvelope message.payload (masked (.new policy) message context).payload := by
    refine ⟨?_, ?_, (method_masked_iff built redacting).2 leaves.method, isSome_masked built redacting (by decide), ?_,
      isSome_masked built redacting (by decide)⟩
    · exact congrArg (Option.filter fun id => id.isString || id.isNumber) sameId
    · have version := read "jsonrpc" (by decide)
      rw [funext (maskMember_shown versioned)] at version
      simp only [isVersionTwo, version, Option.bind_map, Function.comp_def, maskWalk_asStr]
    · rw [masked, Redactor.redactWithContext, if_pos active, Redactor.walkMessage]
      exact maskMessage_get_isSome "result" message.payload
  exact observe_of_sameEnvelope codec tracker message.seq _ envelope

/-- With the version masked, the tracker finds neither a listing nor an answer to one. -/
theorem observeCall_unversioned (unversioned : matchesPolicySensitiveKey "jsonrpc" policy.customKeys = true)
    (kept : validator.lostContext = false) :
    (validator.observeCall codec (observedCall (masked (.new policy) message context))).1.lostContext = false ∧
      (validator.observeCall codec (observedCall (masked (.new policy) message context))).2 = .runtime := by
  have version : isVersionTwo (masked (.new policy) message context).payload = false := by
    have read : (masked (.new policy) message context).payload.get "jsonrpc" =
        (message.payload.get "jsonrpc").map
          (maskMember (matchesPolicySensitiveKey · policy.customKeys) (fun _ => placeholder) "jsonrpc") :=
      redactWithContext_get built redacting (by decide) message.payload context
    rw [funext (maskMember_hidden unversioned)] at read
    have other : redactedPlaceholder ≠ "2.0" := by decide
    cases found : message.payload.get "jsonrpc" <;> simp [isVersionTwo, read, found, placeholder, Value.asStr, other]
  obtain ⟨retained, runtime⟩ := @observe_unversioned codec validator message.seq message.direction.asDbStr _ version
  exact ⟨retained.trans kept, runtime⟩

/-- The validator's tracker beside the one of export: the same, or one that grants nothing. -/
def Beside (policy : RedactionPolicy) (tracker validator : RedactionContextTracker) : Prop :=
  if matchesPolicySensitiveKey "jsonrpc" policy.customKeys = true then validator.lostContext = false
  else validator = tracker

/-- One exported message passes exactly if masking leaves its columns alone and, where the version is
masked too, did not rely on an exemption. -/
theorem validateMessage_exported_iff {previousSeq : Option Nat}
    (order : ∀ previous, previousSeq = some previous → previous < message.seq)
    (shape : message.payload.isObject = true) (formed : message.payload.wellFormed = true)
    (beside : Beside policy tracker validator)
    (kept : (tracker.observeCall codec (observedCall message)).1.lostContext = false) :
    let context := (tracker.observeCall codec (observedCall message)).2
    ((LeavesColumns policy message ∧ (matchesPolicySensitiveKey "jsonrpc" policy.customKeys = true →
      (Redactor.new policy).redactWithContext message.payload context =
        (Redactor.new policy).redactWithContext message.payload .runtime)) ↔
      ∃ next, validateMessage codec policy previousSeq validator
        (exportedMessage codec (.new policy) message context) = .ok next) ∧
    ∀ next, validateMessage codec policy previousSeq validator
        (exportedMessage codec (.new policy) message context) = .ok next →
      Beside policy (tracker.observeCall codec (observedCall message)).1 next := by
  intro context
  have clean := masked_unredacted built message context
  unfold Beside at beside ⊢
  simp only [validateMessage_exported order shape, sameColumns_masked_iff built redacting formed]
  cases unversioned : matchesPolicySensitiveKey "jsonrpc" policy.customKeys with
  | false =>
    rw [unversioned, if_neg Bool.false_ne_true] at beside
    subst beside
    simp only [Bool.false_eq_true, false_implies, and_true, if_false]
    refine ⟨⟨fun leaves => ?_, fun ⟨next, leaves, _⟩ => leaves⟩, fun next ⟨leaves, same, _⟩ => ?_⟩
    · have same := @observeCall_masked codec policy built redacting validator message context unversioned leaves
      exact ⟨_, leaves, rfl, fun _ => by rw [same]; exact kept, by rw [same]; exact clean⟩
    · rw [same, @observeCall_masked codec policy built redacting validator message context unversioned leaves]
  | true =>
    rw [unversioned, if_pos rfl] at beside
    obtain ⟨retained, runtime⟩ :=
      @observeCall_unversioned codec policy built redacting validator message context unversioned beside
    simp only [if_true, forall_const]
    refine ⟨⟨fun ⟨leaves, plain⟩ => ⟨_, leaves, rfl, fun _ => retained, ?_⟩, fun ⟨next, leaves, _, _, scanned⟩ => ?_⟩,
      fun next ⟨_, same, _⟩ => same ▸ retained⟩
    · rw [runtime]
      have plainly := masked_unredacted built message .runtime
      rwa [masked, ← plain] at plainly
    · rw [runtime] at scanned
      have still := redactWithContext_eq_self built scanned
      rw [masked, redactWithContext_runtime] at still
      exact ⟨leaves, still.symm⟩

theorem validateMessages_exported_iff {previousSeq : Option Nat} {messages : List McpMessage}
    (order : ∀ previous, previousSeq = some previous → ∀ message ∈ messages, previous < message.seq)
    (increasing : messages.Pairwise fun earlier later => earlier.seq < later.seq)
    (shapes : ∀ message ∈ messages, message.payload.isObject = true)
    (formed : ∀ message ∈ messages, message.payload.wellFormed = true)
    (beside : Beside policy tracker validator) (retains : Retains codec policy tracker (messages.map observedCall)) :
    validateMessages codec policy previousSeq validator (List.zipWith (exportedMessage codec (.new policy)) messages
        (RedactionContextTracker.contextsFrom codec tracker (messages.map observedCall))) = .ok () ↔
      (∀ message ∈ messages, LeavesColumns policy message) ∧
        (matchesPolicySensitiveKey "jsonrpc" policy.customKeys = true → Unexempted codec policy tracker messages) := by
  induction messages generalizing previousSeq tracker validator with
  | nil => simp [validateMessages, Unexempted]
  | cons message rest ih =>
    obtain ⟨later, sorted⟩ := List.pairwise_cons.1 increasing
    obtain ⟨shape, otherShapes⟩ := List.forall_mem_cons.1 shapes
    obtain ⟨wellFormed, othersFormed⟩ := List.forall_mem_cons.1 formed
    have kept := @lostContext_of_foldl codec (tracker.observeCall codec (observedCall message)).1
      (rest.map observedCall) (retains redacting)
    obtain ⟨passes, follows⟩ := @validateMessage_exported_iff codec policy built redacting tracker validator message
      previousSeq (fun previous same => order previous same message List.mem_cons_self) shape wellFormed beside kept
    simp only [List.map_cons, RedactionContextTracker.contextsFrom, List.zipWith_cons_cons, validateMessages,
      Unexempted, List.zip_cons_cons, List.forall_mem_cons]
    cases step : validateMessage codec policy previousSeq validator (exportedMessage codec (.new policy) message
        (tracker.observeCall codec (observedCall message)).2) with
    | error refusal =>
      refine iff_of_false (by simp) fun both => ?_
      obtain ⟨next, accepted⟩ := passes.1 ⟨both.1.1, fun masks => (both.2 masks).1⟩
      rw [step] at accepted
      cases accepted
    | ok next =>
      obtain ⟨leaves, plain⟩ := passes.2 ⟨next, step⟩
      rw [ih (fun previous same other member => by cases same; exact later other member) sorted otherShapes
        othersFormed (follows next step) retains]
      exact ⟨fun both => ⟨⟨leaves, both.1⟩, fun masks => ⟨plain masks, both.2 masks⟩⟩,
        fun both => ⟨both.1.2, fun masks => (both.2 masks).2⟩⟩

end Stream

end McpTracer.Proxy
