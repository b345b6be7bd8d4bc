import McpTracer.Foundation.Pointwise
import McpTracer.Proxy.SessionWriter
import McpTracer.Storage.Mtrace

/-! Recording and validation of one stream.

The writer's tracker sees raw payloads and the validator's tracker sees stored
ones. They run in step as long as masking leaves the members alone that the
tracker reads: the id, the method and the protocol version. A custom policy may
name one of these.
-/

set_option autoImplicit false

namespace McpTracer.Proxy
open McpTracer.Foundation McpTracer.Json McpTracer.Protocol McpTracer.Redact McpTracer.Storage

/-- The members of a payload the tracker reads agree. -/
structure SameEnvelope (v w : Value) : Prop where
  id : correlationId w = correlationId v
  version : isVersionTwo w = isVersionTwo v
  methodName : (w.get "method").bind Value.asStr = (v.get "method").bind Value.asStr
  method : (w.get "method").isSome = (v.get "method").isSome
  result : (w.get "result").isSome = (v.get "result").isSome
  error : (w.get "error").isSome = (v.get "error").isSome

theorem observe_of_sameEnvelope (codec : Codec) (tracker : RedactionContextTracker) (seq : Nat)
    (direction : String) {v w : Value} (same : SameEnvelope v w) :
    tracker.observe codec seq direction w = tracker.observe codec seq direction v := by
  have listing : isListRequest w = isListRequest v := by
    simp only [isListRequest, same.version, same.methodName, ← Option.not_isSome, same.result, same.error]
  simp only [RedactionContextTracker.observe, same.id, same.version, same.method, same.result, listing,
    ← Option.not_isSome, same.error]

/-- The members a policy must leave alone for validation to follow recording. -/
def envelopeKeys : List String := ["jsonrpc", "id", "method"]

def KeepsEnvelope (policy : RedactionPolicy) : Prop :=
  ∀ key ∈ envelopeKeys, matchesPolicySensitiveKey key policy.customKeys = false

section Kept
variable {isSensitive : String → Bool} {context : RedactionContext}

/-- A member of a masked message is the masked member. -/
theorem maskMessage_get (fields : List (String × Value)) (key : String) :
    (maskMessage isSensitive (fun _ => placeholder) context (.object fields)).get key =
      (fields.lookup key).map fun child =>
        if isSensitive key then placeholder
        else if key = "result" && decide (context = .toolListResponse) then
          maskResult isSensitive (fun _ => placeholder) child
        else maskWalk isSensitive (fun _ => placeholder) child :=
  Value.lookup_map_members (fun key child => if isSensitive key then placeholder
    else if key = "result" && decide (context = .toolListResponse) then
      maskResult isSensitive (fun _ => placeholder) child
    else maskWalk isSensitive (fun _ => placeholder) child) fields key

theorem maskWalk_asStr (v : Value) :
    (maskWalk isSensitive (fun _ => placeholder) v).asStr = v.asStr := by
  cases v <;> rfl

/-- Masking leaves strings and numbers, and makes nothing one of them. -/
theorem filter_maskWalk (found : Option Value) :
    (found.map (maskWalk isSensitive fun _ => placeholder)).filter
        (fun id => id.isString || id.isNumber) =
      found.filter fun id => id.isString || id.isNumber := by
  cases found with
  | none => rfl
  | some id => cases id <;> rfl

theorem maskMessage_get_kept {key : String} (kept : isSensitive key = false) (other : key ≠ "result")
    (v : Value) : (maskMessage isSensitive (fun _ => placeholder) context v).get key =
      (v.get key).map (maskWalk isSensitive fun _ => placeholder) := by
  cases v with
  | object fields =>
      rw [maskMessage_get]
      simp [kept, other, Value.get]
  | _ => rfl

theorem maskMessage_get_masked {key : String} (sensitive : isSensitive key = true) (v : Value) :
    (maskMessage isSensitive (fun _ => placeholder) context v).get key =
      (v.get key).map fun _ => placeholder := by
  cases v with
  | object fields =>
      rw [maskMessage_get]
      simp [sensitive, Value.get]
  | _ => rfl

theorem maskMessage_get_isSome (key : String) (v : Value) :
    ((maskMessage isSensitive (fun _ => placeholder) context v).get key).isSome =
      (v.get key).isSome := by
  cases v with
  | object fields =>
      rw [maskMessage_get]
      simp [Value.get]
  | _ => rfl

theorem maskMessage_sameEnvelope (version : isSensitive "jsonrpc" = false)
    (id : isSensitive "id" = false) (method : isSensitive "method" = false) (v : Value) :
    SameEnvelope v (maskMessage isSensitive (fun _ => placeholder) context v) where
  id := by
    rw [correlationId, maskMessage_get_kept id (by decide), filter_maskWalk]
    rfl
  version := by
    simp only [isVersionTwo, maskMessage_get_kept version (by decide), Option.bind_map,
      Function.comp_def, maskWalk_asStr]
  methodName := by
    simp only [maskMessage_get_kept method (by decide), Option.bind_map, Function.comp_def,
      maskWalk_asStr]
  method := maskMessage_get_isSome _ _
  result := maskMessage_get_isSome _ _
  error := maskMessage_get_isSome _ _

end Kept

theorem isSensitiveKey_new {policy : RedactionPolicy} (normalized : policy.Normalized) (key : String) :
    (Redactor.new policy).isSensitiveKey key = matchesPolicySensitiveKey key policy.customKeys := by
  rw [Redactor.isSensitiveKey, new_customKeys normalized]

theorem redactWithContext_sameEnvelope {policy : RedactionPolicy} (normalized : policy.Normalized)
    (keeps : KeepsEnvelope policy) (v : Value) (context : RedactionContext) :
    SameEnvelope v ((Redactor.new policy).redactWithContext v context) := by
  unfold Redactor.redactWithContext
  split
  · have kept : ∀ key ∈ envelopeKeys, (Redactor.new policy).isSensitiveKey key = false :=
      fun key member => (isSensitiveKey_new normalized key).trans (keeps key member)
    exact maskMessage_sameEnvelope (kept _ (by simp [envelopeKeys])) (kept _ (by simp [envelopeKeys]))
      (kept _ (by simp [envelopeKeys])) v
  · exact ⟨rfl, rfl, rfl, rfl, rfl, rfl⟩

/-! ## The two runs of the tracker -/

/-- A message masked under a context. -/
def masked (redactor : Redactor) (message : McpMessage) (context : RedactionContext) : McpMessage :=
  { message with payload := redactor.redactWithContext message.payload context }

theorem observedCall_masked {redactor : Redactor} (active : redactor.isActive = true)
    (message : McpMessage) (context : RedactionContext) :
    observedCall (masked redactor message context) = ⟨message.seq, message.direction.asDbStr,
      maskMessage redactor.isSensitiveKey (fun _ => placeholder) context message.payload⟩ := by
  simp [observedCall, masked, Redactor.redactWithContext, active, Redactor.walkMessage]

/-- The writer masks every message under the context its own tracker gives. -/
theorem redactMessages_snd (codec : Codec) (redactor : Redactor) (state : WriterState)
    (messages : List McpMessage) : (state.redactMessages codec redactor messages).2 =
      List.zipWith (masked redactor) messages
        (RedactionContextTracker.contextsFrom codec state.redactionContext
          (messages.map observedCall)) := by
  induction messages generalizing state with
  | nil => rfl
  | cons message rest ih =>
      simp only [WriterState.redactMessages, ih, List.map_cons, RedactionContextTracker.contextsFrom,
        List.zipWith_cons_cons, WriterState.redactMessage_redactionContext]
      rfl

/-- Whatever the contexts, the tracker cannot tell masked messages from raw ones. -/
theorem contextsFrom_masked {redactor : Redactor}
    (same : ∀ v context, SameEnvelope v (redactor.redactWithContext v context)) (codec : Codec)
    (tracker : RedactionContextTracker) (messages : List McpMessage) (contexts : List RedactionContext)
    (length : contexts.length = messages.length) :
    RedactionContextTracker.contextsFrom codec tracker
        ((List.zipWith (masked redactor) messages contexts).map observedCall) =
      RedactionContextTracker.contextsFrom codec tracker (messages.map observedCall) := by
  induction messages generalizing tracker contexts with
  | nil => cases contexts <;> rfl
  | cons message rest ih =>
      cases contexts with
      | nil => cases length
      | cons context contexts =>
          have step : tracker.observeCall codec (observedCall (masked redactor message context)) =
              tracker.observeCall codec (observedCall message) :=
            observe_of_sameEnvelope codec tracker message.seq _ (same message.payload context)
          simp only [List.zipWith_cons_cons, List.map_cons, RedactionContextTracker.contextsFrom, step]
          rw [ih _ contexts (by simpa using length)]

theorem contextsFrom_length (codec : Codec) (tracker : RedactionContextTracker) (calls : List Call) :
    (RedactionContextTracker.contextsFrom codec tracker calls).length = calls.length := by
  induction calls generalizing tracker with
  | nil => rfl
  | cons call rest ih => simp [RedactionContextTracker.contextsFrom, ih]

/-- Every message the writer stores passes the key check under the context it was masked in. -/
theorem masked_unredacted {policy : RedactionPolicy} (built : policy.Built) (message : McpMessage)
    (context : RedactionContext) :
    unredactedSensitiveKeysWithContext (masked (Redactor.new policy) message context).payload policy
      context = [] := by
  by_cases inactive : policy = .none
  · simp [unredactedSensitiveKeysWithContext, inactive]
  · exact unredactedSensitiveKeys_redactWithContext policy built inactive message.payload context

/-- An artifact that stores a stream under a policy: the columns are not looked at here. -/
structure Stores (document : MtraceDocument) (policy : RedactionPolicy) (stream : List McpMessage) :
    Prop where
  policyName : document.session.redactionPolicy = policy.asStr
  policyKeys : document.session.redactionKeys = policy.customKeys
  messages : document.messages.map MtraceMessage.observedCall = stream.map observedCall

/-- Recording and validation give the same contexts, and validation finds no unredacted field. -/
def ValidationFollows (codec : Codec) (policy : RedactionPolicy) (messages : List McpMessage) : Prop :=
  let stream := recorded codec (Redactor.new policy) messages
  RedactionContextTracker.contexts codec (stream.map observedCall) =
      RedactionContextTracker.contexts codec (messages.map observedCall) ∧
    ∀ document, Stores document policy stream →
      ∀ seq name fields, validate codec document ≠ .error (.unredactedFields seq name fields)

theorem validationFollows_of_keepsEnvelope (codec : Codec) {name : String} {extraKeys : List String}
    {policy : RedactionPolicy} (accepted : RedactionPolicy.fromCli name extraKeys = .ok policy)
    (keeps : KeepsEnvelope policy) (messages : List McpMessage) :
    ValidationFollows codec policy messages := by
  have built : policy.Built := ⟨name, extraKeys, .inl accepted⟩
  set raw := RedactionContextTracker.contexts codec (messages.map observedCall) with rawEq
  have length : raw.length = messages.length := by
    simp [rawEq, RedactionContextTracker.contexts, contextsFrom_length]
  have stream : recorded codec (Redactor.new policy) messages =
      List.zipWith (masked (Redactor.new policy)) messages raw :=
    redactMessages_snd codec (Redactor.new policy) .start messages
  have contexts : RedactionContextTracker.contexts codec
      ((recorded codec (Redactor.new policy) messages).map observedCall) = raw := by
    rw [stream]
    exact contextsFrom_masked (redactWithContext_sameEnvelope built.normalized keeps) codec .fresh
      messages raw length
  refine ⟨contexts, fun document stores seq fieldPolicy fields refused => ?_⟩
  have storedPolicy := RedactionPolicy.fromStorage_asStr accepted
  rw [← stores.policyName, ← stores.policyKeys] at storedPolicy
  obtain ⟨⟨message, context⟩, member, found⟩ := validate_unredacted storedPolicy refused
  rw [stores.messages, contexts] at member
  -- The payload the validator reads is the masked payload at the same position.
  have calls : (message.observedCall, context) ∈ (List.zipWith (fun original context =>
      observedCall (masked (Redactor.new policy) original context)) messages raw).zip raw := by
    rw [← List.map_zipWith, ← stream, ← stores.messages, List.zip_map_left]
    exact List.mem_map.mpr ⟨_, member, rfl⟩
  obtain ⟨original, same⟩ := of_mem_zip_zipWith calls
  have payload : message.payload = (masked (Redactor.new policy) original context).payload :=
    congrArg Call.payload same
  exact found (payload ▸ masked_unredacted built original context)

/-! ## A stream that tells the trackers apart -/

def envelope (id : Value) (method : String) : Value :=
  .object [("id", id), ("jsonrpc", .string "2.0"), ("method", .string method)]

/-- A listing, another request before it is answered, and the answer. -/
def probe (answer : Value) : List McpMessage :=
  [⟨0, 0, .clientToServer, envelope (.number (.posInt 1)) "tools/list", 0⟩,
    ⟨1, 0, .clientToServer, envelope (.number (.posInt 2)) "ping", 0⟩,
    ⟨2, 0, .serverToClient, .object [("id", .number (.posInt 1)), ("jsonrpc", .string "2.0"),
      ("result", answer)], 0⟩]

theorem probe_unbroken (answer : Value) : Unbroken ((probe answer).map observedCall) := by
  simp [probe, Unbroken, observedCall]

theorem probe_granted (codec : Codec) (answer : Value) :
    RedactionContextTracker.contexts codec ((probe answer).map observedCall) =
      [.runtime, .runtime, .toolListResponse] := by
  have one : codec.toString (.number (.posInt 1)) = "1" := codec.toString_posInt 1
  have two : codec.toString (.number (.posInt 2)) = "2" := codec.toString_posInt 2
  have small : ∀ text ∈ ["1", "2"], ¬ maxTrackedIdBytes < text.utf8ByteSize := by decide
  simp [probe, envelope, observedCall, Direction.asDbStr, RedactionContextTracker.contexts,
    RedactionContextTracker.contextsFrom, RedactionContextTracker.observeCall,
    RedactionContextTracker.observe, RedactionContextTracker.retained, RedactionContextTracker.fresh,
    responderOf, correlationId, isListRequest, isVersionTwo, Value.get, Value.isNumber, Value.asStr,
    List.lookup_cons, Option.filter, one, two, maxPendingListRequests, small]

/-- A masked method is not the one a method name is compared with. -/
theorem maskMessage_methodName {isSensitive : String → Bool} {context : RedactionContext}
    {id : Value} {method name : String} (differs : isSensitive "method" = true ∨ method ≠ name)
    (fixed : name ≠ redactedPlaceholder) :
    ((maskMessage isSensitive (fun _ => placeholder) context (envelope id method)).get "method").bind
      Value.asStr ≠ some name := by
  have written : (envelope id method).get "method" = some (.string method) := rfl
  by_cases sensitive : isSensitive "method" = true
  · rw [maskMessage_get_masked sensitive, written]
    simpa [placeholder, Value.asStr, eq_comm] using fixed
  · rw [maskMessage_get_kept (by simpa using sensitive) (by decide), written]
    simpa [maskWalk, Value.asStr, sensitive] using differs

/-- Masking a member of the envelope takes the evidence away from the stored answer. -/
theorem probe_masked {isSensitive : String → Bool}
    (masks : ∃ key ∈ envelopeKeys, isSensitive key = true) (codec : Codec)
    (first second : RedactionContext) (answer : Call) :
    RedactionContextTracker.contextAfter codec
      [⟨0, "c2s", maskMessage isSensitive (fun _ => placeholder) first
          (envelope (.number (.posInt 1)) "tools/list")⟩,
        ⟨1, "c2s", maskMessage isSensitive (fun _ => placeholder) second
          (envelope (.number (.posInt 2)) "ping")⟩] answer ≠ .toolListResponse := by
  intro granted
  obtain ⟨responder, id, earlier, request, between, shape, evidence⟩ :=
    contextAfter_evidence codec _ answer granted
  have listing := evidence.requests.listing
  simp only [isListRequest, Bool.and_eq_true, decide_eq_true_eq] at listing
  obtain ⟨⟨⟨version, method⟩, -⟩, -⟩ := listing
  rcases earlier with _ | ⟨_, _ | ⟨_, earlier⟩⟩
  · obtain ⟨rfl, rfl⟩ := List.cons.inj shape
    obtain ⟨key, member, sensitive⟩ := masks
    simp only [envelopeKeys, List.mem_cons, List.not_mem_nil, or_false] at member
    rcases member with rfl | rfl | rfl
    · rw [isVersionTwo, maskMessage_get_masked sensitive] at version
      exact absurd version (by decide +kernel)
    · -- Both requests now carry the placeholder, so the second one reuses the id of the first.
      refine evidence.undisturbed _ List.mem_cons_self (.inr ⟨?_, .inl ⟨evidence.requests.side, ?_⟩⟩)
      · rw [← evidence.requests.identified, correlationId, correlationId,
          maskMessage_get_masked sensitive, maskMessage_get_masked sensitive]
        rfl
      · rw [maskMessage_get_isSome]
        rfl
    · exact maskMessage_methodName (.inl sensitive) (by decide) method
  · obtain ⟨-, rest⟩ := List.cons.inj shape
    obtain ⟨rfl, -⟩ := List.cons.inj rest
    exact maskMessage_methodName (.inr (by decide)) (by decide) method
  · simp at shape

theorem recorded_probe (codec : Codec) (redactor : Redactor) (answer : Value) :
    recorded codec redactor (probe answer) = List.zipWith (masked redactor) (probe answer)
      [.runtime, .runtime, .toolListResponse] := by
  rw [recorded, redactMessages_snd]
  exact congrArg (List.zipWith (masked redactor) (probe answer)) (probe_granted codec answer)

theorem keepsEnvelope_of_validationFollows (codec : Codec) {policy : RedactionPolicy}
    (normalized : policy.Normalized)
    (follows : ∀ messages, Unbroken (messages.map observedCall) →
      ValidationFollows codec policy messages) : KeepsEnvelope policy := by
  intro key member
  by_contra sensitive
  have active : (Redactor.new policy).isActive = true := by
    by_contra inactive
    obtain rfl : policy = .none := by simpa [Redactor.isActive, Redactor.new] using inactive
    exact sensitive ((by decide +kernel : ∀ key ∈ envelopeKeys, matchesPolicySensitiveKey key [] = false)
      key member)
  have masks : ∃ key ∈ envelopeKeys, (Redactor.new policy).isSensitiveKey key = true :=
    ⟨key, member, by rw [isSensitiveKey_new normalized]; simpa using sensitive⟩
  have same := (follows (probe .null) (probe_unbroken .null)).1
  rw [probe_granted, recorded_probe] at same
  have third : RedactionContextTracker.contextAfter codec
      (([masked (Redactor.new policy) (probe .null)[0] .runtime,
        masked (Redactor.new policy) (probe .null)[1] .runtime]).map observedCall)
      (observedCall (masked (Redactor.new policy) (probe .null)[2] .toolListResponse)) =
        .toolListResponse :=
    Option.some.inj (congrArg (fun contexts => contexts[2]?) same)
  simp only [List.map_cons, List.map_nil, observedCall_masked active] at third
  exact probe_masked masks codec .runtime .runtime _ third

/-- Validation follows recording on every unbroken stream exactly under the policies that leave the
version, the id and the method alone. -/
theorem validation_follows_recording_iff (codec : Codec) (name : String) (extraKeys : List String)
    (policy : RedactionPolicy) (accepted : RedactionPolicy.fromCli name extraKeys = .ok policy) :
    (∀ messages, Unbroken (messages.map observedCall) → ValidationFollows codec policy messages) ↔
      KeepsEnvelope policy :=
  ⟨keepsEnvelope_of_validationFollows codec (RedactionPolicy.fromCli_normalized accepted),
    fun keeps messages _ => validationFollows_of_keepsEnvelope codec accepted keeps messages⟩

theorem validation_follows_recording_default :
    RedactionPolicy.fromCli "default" [] = .ok .default ∧
      ((∀ messages, Unbroken (messages.map observedCall) →
        ValidationFollows Compact.codec .default messages) ↔ KeepsEnvelope .default) :=
  ⟨rfl, validation_follows_recording_iff Compact.codec "default" [] .default rfl⟩

/-- The answer lists a tool whose input schema has a property with a sensitive name. -/
def listedTools : Value :=
  .object [("tools", .array [.object [("inputSchema", .object [("properties", .object
    [("api_key", .object [("type", .string "string")])])]), ("name", .string "login")]])]

def recordedDocument (policy : RedactionPolicy) (messages : List McpMessage) : MtraceDocument where
  format := format
  version := version
  exportedAtNs := 0
  exporter := "mcptracer"
  session := ⟨"client", "server", "stdio", 0, none, policy.asStr, policy.customKeys, 0, []⟩
  messages := (recorded Compact.codec (Redactor.new policy) messages).map
    (MtraceMessage.ofMessage Compact.codec)

/-- A session recorded with `--redact-keys id` is refused for a schema it was allowed to keep. -/
theorem recorded_probe_refused :
    RedactionPolicy.fromCli "default" ["id"] = .ok (.custom ["id"]) ∧
      Unbroken ((probe listedTools).map observedCall) ∧
      validate Compact.codec (recordedDocument (.custom ["id"]) (probe listedTools)) =
        .error (.unredactedFields 2 "custom" ["api_key"]) ∧
      ¬ ValidationFollows Compact.codec (.custom ["id"]) (probe listedTools) := by
  have accepted : RedactionPolicy.fromCli "default" ["id"] = .ok (.custom ["id"]) := by
    decide +kernel
  have refused : validate Compact.codec (recordedDocument (.custom ["id"]) (probe listedTools)) =
      .error (.unredactedFields 2 "custom" ["api_key"]) := by
    decide +kernel
  refine ⟨accepted, probe_unbroken listedTools, refused, fun follows => ?_⟩
  refine follows.2 _ ⟨rfl, rfl, ?_⟩ _ _ _ refused
  simp [recordedDocument, MtraceMessage.observedCall, MtraceMessage.ofMessage, observedCall]

end McpTracer.Proxy
