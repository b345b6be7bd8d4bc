import McpTracer.Model.Assertions
import McpTracer.Model.RedactedDiff
import McpTracer.Storage.Merge

/-! Assertions on the responses of a session and of a redaction of it.

A value that is redacted as a whole makes an assertion fail. One with the
placeholder further down is compared as it stands, so the assertion may pass on
the redaction for a value that the session does not have.
-/

set_option autoImplicit false

namespace McpTracer.Model
open McpTracer.Foundation McpTracer.Json McpTracer.Protocol McpTracer.Redact McpTracer.Storage

/-! ## Redactions of responses -/

/-- The second message is the first, if a response with placeholders for some subvalues. -/
structure RedactedResponse (codec : Codec) (m n : StoredMessage) : Prop where
  columns : n = { m with payload := n.payload }
  response : m.messageKind = "response" → Option.Rel (Masks placeholder) (codec.fromStr m.payload) (codec.fromStr n.payload)
  other : m.messageKind ≠ "response" → n.payload = m.payload

/-- The value meets what the assertion gives. -/
structure MeetsGiven (codec : Codec) (equals : Option TomlValue) (contains : Option String) (value : Value) : Prop where
  equals : ∀ expected, equals = some expected → value.beq (tomlToJson expected) = true
  contains : ∀ needle, contains = some needle → needle.toList <:+: (haystack codec value).toList

/-- An array or object with the placeholder inside. -/
def HidesBelow (value : Value) : Prop := isRedacted value = false ∧ containsRedactedValue value = true

/-- Where the redaction has an array or object with the placeholder inside, the original meets the assertion. -/
def HiddenMeet (codec : Codec) (original redacted : List StoredMessage) (tool method : Option String) (pointer : String)
    (equals : Option TomlValue) (contains : Option String) : Prop :=
  ∀ exchange ∈ (correlate codec redacted).exchanges, inScope exchange tool method = true →
    ∀ x y, (exchange.responseSeq.bind (payloadsBySeq codec original)).bind (Value.pointer pointer) = some x →
      (exchange.responseSeq.bind (payloadsBySeq codec redacted)).bind (Value.pointer pointer) = some y →
      HidesBelow y → MeetsGiven codec equals contains x

/-! ## Values -/

section Values
variable {codec : Codec} {debug : String → String} {pointer : String} {equals : Option TomlValue} {contains : Option String}

theorem valueFailure_eq_none_iff {value : Value} : valueFailure codec debug pointer equals contains value = none ↔
    isRedacted value = false ∧ MeetsGiven codec equals contains value := by
  have given : MeetsGiven codec equals contains value ↔ (equals.filter fun expected => !value.beq (tomlToJson expected)) = none ∧
      (contains.filter fun needle => !decide (needle.toList <:+: (haystack codec value).toList)) = none := by
    simp only [Option.filter_eq_none_iff, Bool.not_eq_true', Bool.not_eq_false, decide_eq_true_eq]
    exact ⟨fun meets => ⟨meets.equals, meets.contains⟩, fun both => ⟨both.1, both.2⟩⟩
  unfold valueFailure
  rw [given]
  cases isRedacted value with
  | true => simp
  | false =>
      rw [if_neg Bool.false_ne_true]
      cases equals.filter fun expected => !value.beq (tomlToJson expected) with
      | some expected => simp
      | none =>
          cases contains.filter fun needle => !decide (needle.toList <:+: (haystack codec value).toList) with
          | some needle => simp
          | none => simp

theorem containsRedactedItem_false {items : List Value} :
    containsRedactedItem items = false ↔ ∀ item ∈ items, containsRedactedValue item = false := by
  induction items with
  | nil => simp [containsRedactedItem]
  | cons item rest ih => simp [containsRedactedItem, ih]

theorem containsRedactedField_false {fields : List (String × Value)} :
    containsRedactedField fields = false ↔ ∀ field ∈ fields, containsRedactedValue field.2 = false := by
  induction fields with
  | nil => simp [containsRedactedField]
  | cons field rest ih => simp [containsRedactedField, ih]

/-- A tree without the placeholder is what it was. -/
theorem eq_of_masks {v w : Value} (masks : Masks placeholder v w) : containsRedactedValue w = false → v = w := by
  induction masks with
  | masked v =>
      intro absent
      simp [placeholder, containsRedactedValue] at absent
  | leaf v _ _ => exact fun _ => rfl
  | @array xs ys length items ih =>
      intro absent
      have each := containsRedactedItem_false.1 absent
      have same : List.Forall₂ Eq xs ys := forall₂_iff_getElem?.2 ⟨length, fun n x y left right =>
        ih n x y left right (each y (List.mem_of_getElem? right))⟩
      rw [List.forall₂_eq_eq_eq] at same
      rw [same]
  | @object fs gs keys members ih =>
      intro absent
      have each := containsRedactedField_false.1 absent
      have same : List.Forall₂ (fun f g => f.1 = g.1 ∧ f.2 = g.2) fs gs := forall₂_of_keys keys fun n f g left right =>
        ih n f g left right (each g (List.mem_of_getElem? right))
      have equal : List.Forall₂ Eq fs gs := same.imp fun f g both => Prod.ext both.1 both.2
      rw [List.forall₂_eq_eq_eq] at equal
      rw [equal]

theorem masks_child {v w y : Value} (masks : Masks placeholder v w) {token : String} (found : w.child token = some y) :
    ∃ x, v.child token = some x ∧ Masks placeholder x y := by
  cases masks with
  | masked => cases found
  | leaf => exact ⟨y, found, .refl placeholder y⟩
  | @array xs ys length items =>
      obtain ⟨index, rfl, inside⟩ := Value.child_array_eq_some_iff.1 found
      have bound : index < xs.length := length ▸ (List.getElem?_eq_some_iff.1 inside).1
      have there := List.getElem?_eq_getElem bound
      exact ⟨xs[index], Value.child_array_eq_some_iff.2 ⟨index, rfl, there⟩, items index _ _ there inside⟩
  | @object fs gs keys members =>
      rw [Value.child_object] at found
      have related := lookup_forall₂ (forall₂_of_keys keys members) token
      rw [found] at related
      cases original : fs.lookup token with
      | none =>
          rw [original] at related
          cases related
      | some x =>
          rw [original] at related
          cases related with
          | some same => exact ⟨x, original, same⟩

theorem masks_resolve {path : List String} {v w y : Value} (masks : Masks placeholder v w) (found : w.resolve path = some y) :
    ∃ x, v.resolve path = some x ∧ Masks placeholder x y := by
  induction path generalizing v w with
  | nil => exact ⟨v, rfl, Option.some.inj found ▸ masks⟩
  | cons token rest ih =>
      obtain ⟨next, child, later⟩ := Option.bind_eq_some_iff.1 found
      obtain ⟨before, original, below⟩ := masks_child masks child
      obtain ⟨x, reached, same⟩ := ih below later
      exact ⟨x, Option.bind_eq_some_iff.2 ⟨before, original, reached⟩, same⟩

/-- What a pointer finds in a redaction is a redaction of what it finds in the original. -/
theorem masks_pointer {v w y : Value} (masks : Masks placeholder v w) (found : w.pointer pointer = some y) :
    ∃ x, v.pointer pointer = some x ∧ Masks placeholder x y := by
  obtain ⟨path, named, reached⟩ := Option.bind_eq_some_iff.1 found
  obtain ⟨x, original, same⟩ := masks_resolve masks reached
  exact ⟨x, Option.bind_eq_some_iff.2 ⟨path, named, original⟩, same⟩

/-- A value that is not redacted as a whole was not either. -/
theorem isRedacted_of_masks {v w : Value} (masks : Masks placeholder v w) (plain : isRedacted w = false) :
    isRedacted v = false := by
  cases masks with
  | masked =>
      rw [isRedacted_placeholder] at plain
      cases plain
  | leaf => exact plain
  | array => rfl
  | object => rfl

end Values

/-! ## Sessions -/

section Sessions
variable {codec : Codec} {as bs : List StoredMessage}

theorem RedactedResponse.payload {m n : StoredMessage} (redacted : RedactedResponse codec m n) :
    Option.Rel (Masks placeholder) (codec.fromStr m.payload) (codec.fromStr n.payload) := by
  by_cases response : m.messageKind = "response"
  · exact redacted.response response
  · rw [redacted.other response]
    exact option_rel_refl (.refl placeholder) _

theorem RedactedResponse.reportsToolError {m n : StoredMessage} (redacted : RedactedResponse codec m n)
    (reports : Exchange.reportsToolError codec n = true) : Exchange.reportsToolError codec m = true := by
  simp only [Exchange.reportsToolError, Value.getPath_pair, decide_eq_true_eq, Option.bind_eq_some_iff]
    at reports ⊢
  obtain ⟨flag, ⟨w, parsed, result, found, member⟩, read⟩ := reports
  have payloads := redacted.payload
  rw [parsed] at payloads
  generalize codec.fromStr m.payload = v at payloads ⊢
  cases payloads with
  | @some v w masks =>
      obtain ⟨original, here, results⟩ := masks_member masks found
      obtain ⟨first, inside, flags⟩ := masks_member results member
      exact ⟨first, ⟨v, rfl, original, here, inside⟩, masks_asBool flags read⟩

/-- A redaction of responses is a correspondence of messages under the same ids. -/
theorem RedactedResponse.corresponds {m n : StoredMessage} (redacted : RedactedResponse codec m n) :
    MessagesCorrespond codec Eq m n := by
  have same (side : Direction) (x : Option String) : Option.Rel (Names.At Eq side) x x :=
    option_rel_refl (R := Names.At Eq side) (fun _ => rfl) x
  have weaker : m.messageKind = "response" → Exchange.reportsToolError codec n = true →
      Exchange.reportsToolError codec m = true := fun _ reports => redacted.reportsToolError reports
  have kept (kind : m.messageKind = "notification") : n.payload = m.payload := redacted.other (by rw [kind]; decide)
  obtain ⟨columns, -, -⟩ := redacted
  refine ⟨(congrArg StoredMessage.seq columns).symm, (congrArg StoredMessage.tsNs columns).symm,
    (congrArg StoredMessage.direction columns).symm, (congrArg StoredMessage.messageKind columns).symm,
    (congrArg StoredMessage.method columns).symm, (congrArg StoredMessage.toolName columns).symm,
    (congrArg StoredMessage.isError columns).symm, (congrArg StoredMessage.errorCode columns).symm,
    fun _ _ _ => ?_, fun _ _ _ => ?_, fun _ _ kind => ?_, fun _ kind => ?_, weaker⟩
  · rw [columns]
    exact same _ _
  · rw [columns]
    exact same _ _
  · rw [columns, kept kind]
    exact same _ _
  · rw [columns, kept kind]
    exact same _ _

theorem masked_payloads (redacted : List.Forall₂ (RedactedResponse codec) as bs) (seq : Nat) :
    Option.Rel (Masks placeholder) (payloadsBySeq codec as seq) (payloadsBySeq codec bs seq) :=
  payloadsBySeq_related (redacted.imp fun _ _ message =>
    ⟨(congrArg StoredMessage.seq message.columns).symm, message.payload⟩) seq

/-- What a response of the redaction has at a pointer is a redaction of what the original has there. -/
theorem masked_response (redacted : List.Forall₂ (RedactedResponse codec) as bs) {seq : Option Nat} {pointer : String}
    {y : Value} (found : (seq.bind (payloadsBySeq codec bs)).bind (Value.pointer pointer) = some y) :
    ∃ x, (seq.bind (payloadsBySeq codec as)).bind (Value.pointer pointer) = some x ∧ Masks placeholder x y := by
  obtain ⟨w, stored, reached⟩ := Option.bind_eq_some_iff.1 found
  obtain ⟨number, rfl, payload⟩ := Option.bind_eq_some_iff.1 stored
  have related := masked_payloads redacted number
  rw [payload] at related
  cases original : payloadsBySeq codec as number with
  | none =>
      rw [original] at related
      cases related
  | some v =>
      rw [original] at related
      cases related with
      | some masks =>
          obtain ⟨x, here, same⟩ := masks_pointer masks reached
          exact ⟨x, by rw [Option.bind_some, original, Option.bind_some, here], same⟩

/-- An exchange with a response whose value at the pointer is there, not redacted, and meets what is given. -/
def ResponseMeets (codec : Codec) (payloads : Table Nat Value) (pointer : String) (equals : Option TomlValue)
    (contains : Option String) (exchange : Exchange) : Prop :=
  ∃ value, (exchange.responseSeq.bind payloads).bind (Value.pointer pointer) = some value ∧
    isRedacted value = false ∧ MeetsGiven codec equals contains value

theorem responseFailure_eq_none_iff {debug : String → String} {payloads : Table Nat Value} {pointer : String}
    {equals : Option TomlValue} {contains : Option String} {exchange : Exchange} :
    responseFailure codec debug payloads pointer equals contains exchange = none ↔
      ResponseMeets codec payloads pointer equals contains exchange := by
  unfold responseFailure ResponseMeets
  cases (exchange.responseSeq.bind payloads).bind (Value.pointer pointer) with
  | none => simp
  | some value => simp [valueFailure_eq_none_iff]

/-- The exchanges in scope that have a response. -/
def respondedInScope (exchanges : List Exchange) (tool method : Option String) : List Exchange :=
  exchanges.filter fun e => inScope e tool method && e.responseSeq.isSome

/-- A response is in scope, and every one that is meets the assertion. -/
theorem responseMatches_passed_iff {debug : String → String} {exchanges : List Exchange} {payloads : Table Nat Value}
    {tool method : Option String} {pointer : String} {equals : Option TomlValue} {contains : Option String} :
    (responseMatches codec debug exchanges payloads tool method pointer equals contains).passed = true ↔
      respondedInScope exchanges tool method ≠ [] ∧
        ∀ exchange ∈ respondedInScope exchanges tool method, ResponseMeets codec payloads pointer equals contains exchange := by
  simp only [← @responseFailure_eq_none_iff codec debug, ← List.findSome?_eq_none_iff]
  rw [responseMatches, respondedInScope, ← List.isEmpty_eq_false_iff]
  generalize exchanges.filter (fun e => inScope e tool method && e.responseSeq.isSome) = matching
  cases matching.isEmpty with
  | true => simp
  | false =>
      rw [if_neg Bool.false_ne_true]
      cases matching.findSome? (responseFailure codec debug payloads pointer equals contains) with
      | none => simp
      | some reason => simp

/-- The responses in scope come in pairs that have the same number. -/
theorem paired_responses (redacted : List.Forall₂ (RedactedResponse codec) as bs) (tool method : Option String) :
    ∃ responses : List (Exchange × Exchange),
      responses.map Prod.fst = respondedInScope (correlate codec as).exchanges tool method ∧
      responses.map Prod.snd = respondedInScope (correlate codec bs).exchanges tool method ∧
      ∀ pair ∈ responses, pair.1.responseSeq = pair.2.responseSeq := by
  obtain ⟨exchanges, left, right, same, -⟩ :=
    correlate_corresponds eq_biUnique (redacted.imp fun _ _ message => message.corresponds)
  refine ⟨exchanges.filter fun pair => inScope pair.1 tool method && pair.1.responseSeq.isSome, ?_, ?_, fun pair member => ?_⟩
  · rw [respondedInScope, ← left, List.filter_map]
    rfl
  · rw [respondedInScope, ← right, List.filter_map]
    congr 1
    refine List.filter_congr fun pair member => ?_
    rw [Function.comp_apply, inScope, inScope, (same pair member).toolName, (same pair member).method,
      (same pair member).responseSeq]
  · exact (same pair (List.mem_of_mem_filter member)).responseSeq

end Sessions

/-- An assertion on responses that passes on a redaction passes on the original, exactly when the original meets it
wherever the redaction has an array or object with the placeholder inside. -/
theorem responseMatches_redacted_iff {codec : Codec} (sha256Hex debug : String → String) {as bs : List StoredMessage}
    (redacted : List.Forall₂ (RedactedResponse codec) as bs) (tool method : Option String) (pointer : String)
    (equals : Option TomlValue) (contains : Option String)
    (passed : passes codec sha256Hex debug bs (.responseMatches tool method pointer equals contains) = true) :
    passes codec sha256Hex debug as (.responseMatches tool method pointer equals contains) = true ↔
      HiddenMeet codec as bs tool method pointer equals contains := by
  obtain ⟨responses, left, right, same⟩ := paired_responses redacted tool method
  rw [passes_eq, evaluateOne, responseMatches_passed_iff, ← right] at passed
  rw [passes_eq, evaluateOne, responseMatches_passed_iff, ← left]
  obtain ⟨filled, meets⟩ := passed
  constructor
  · rintro ⟨-, originals⟩ exchange member scope x y original masked -
    have responded : exchange ∈ respondedInScope (correlate codec bs).exchanges tool method := by
      obtain ⟨w, stored, -⟩ := Option.bind_eq_some_iff.1 masked
      obtain ⟨seq, answered, -⟩ := Option.bind_eq_some_iff.1 stored
      exact List.mem_filter.2 ⟨member, by rw [scope, answered]; rfl⟩
    rw [← right] at responded
    obtain ⟨pair, inside, rfl⟩ := List.mem_map.1 responded
    obtain ⟨value, found, -, given⟩ := originals pair.1 (List.mem_map_of_mem inside)
    rw [same pair inside, original] at found
    exact Option.some.inj found ▸ given
  · intro hidden
    refine ⟨by simpa using filled, List.forall_mem_map.2 fun pair inside => ?_⟩
    obtain ⟨y, found, plain, given⟩ := meets pair.2 (List.mem_map_of_mem inside)
    obtain ⟨x, original, masks⟩ := masked_response redacted found
    have listed : pair.2 ∈ respondedInScope (correlate codec bs).exchanges tool method := right ▸ List.mem_map_of_mem inside
    obtain ⟨member, scope⟩ := List.mem_filter.1 listed
    refine ⟨x, by rw [same pair inside, original], isRedacted_of_masks masks plain, ?_⟩
    -- A value with the placeholder inside is covered by the condition, any other one is the original.
    cases below : containsRedactedValue y with
    | true => exact hidden pair.2 member (Bool.and_eq_true _ _ ▸ scope).1 x y original found ⟨plain, below⟩
    | false => exact eq_of_masks masks below ▸ given

/-! ### A redacted token -/

/-- The answer to a login, with this token. -/
def loggedIn (token : Value) : List StoredMessage :=
  called "tools/call" (.object [("name", .string "Ada"), ("token", token)])

theorem loggedIn_redacted (n : UInt64) (parsed : Compact.codec.fromStr (Compact.codec.toString
      (.object [("result", .object [("name", .string "Ada"), ("token", .number (.posInt n))])])) =
        some (.object [("result", .object [("name", .string "Ada"), ("token", .number (.posInt n))])])) :
    List.Forall₂ (RedactedResponse Compact.codec) (loggedIn (.number (.posInt n))) (loggedIn placeholder) := by
  refine .cons ⟨rfl, fun response => absurd response (by decide), fun _ => rfl⟩ (.cons ⟨rfl, fun _ => ?_, fun other => ?_⟩ .nil)
  · have masked : Compact.codec.fromStr (Compact.codec.toString
        (.object [("result", .object [("name", .string "Ada"), ("token", placeholder)])])) =
          some (.object [("result", .object [("name", .string "Ada"), ("token", placeholder)])]) := by
      decide +kernel
    rw [parsed, masked]
    refine .some (.object_of_forall₂ (.cons ⟨rfl, .object_of_forall₂ ?_⟩ .nil))
    exact .cons ⟨rfl, .refl _ _⟩ (.cons ⟨rfl, .masked _⟩ .nil)
  · exact absurd rfl other

theorem responseMatches_redacted_name :
    passes Compact.codec id id (loggedIn (.number (.posInt 5)))
        (.responseMatches none none "/result/name" (some (.string "Ada")) none) = true ↔
      HiddenMeet Compact.codec (loggedIn (.number (.posInt 5))) (loggedIn placeholder) none none "/result/name"
        (some (.string "Ada")) none :=
  responseMatches_redacted_iff id id (loggedIn_redacted 5 (by decide +kernel)) none none "/result/name"
    (some (.string "Ada")) none (by decide +kernel)

/-- A search for the quote that begins a token passes on the redaction of a token that is a number. -/
theorem quote_of_redacted_token :
    List.Forall₂ (RedactedResponse Compact.codec) (loggedIn (.number (.posInt 5))) (loggedIn placeholder) ∧
      passes Compact.codec id id (loggedIn placeholder)
        (.responseMatches none none "/result" none (some "\"token\":\"")) = true ∧
      passes Compact.codec id id (loggedIn (.number (.posInt 5)))
        (.responseMatches none none "/result" none (some "\"token\":\"")) = false :=
  ⟨loggedIn_redacted 5 (by decide +kernel), by decide +kernel, by decide +kernel⟩

end McpTracer.Model
