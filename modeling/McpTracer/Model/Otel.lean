import McpTracer.Foundation.Hex
import McpTracer.Json.Pointer
import McpTracer.Model.Requests

/-! A session as one trace of spans.

Every exchange that a request opened is a span, an orphaned response is none. The ids are cut from digests of
the session and of the place of the exchange, so that a session is always told by the same trace.
-/

set_option autoImplicit false

namespace McpTracer.Model.Otel
open McpTracer.Foundation McpTracer.Json McpTracer.Protocol McpTracer.Storage

section Spans
variable (sha256 : List UInt8 → List UInt8)

def digestText (length : Nat) (text : String) : String := Hex.text ((sha256 text.toUTF8.data.toList).take length)

def deterministicTraceId (sessionId : String) : String := digestText sha256 16 sessionId

/-- What the id of a span is cut from. -/
def spanSeed (traceId : String) (index : Nat) : String := traceId ++ ":" ++ toString index

def deterministicSpanId (traceId : String) (index : Nat) : String := digestText sha256 8 (spanSeed traceId index)

/-- A method, and the tool it calls. -/
def callName : Option String → Option String → String
  | some method, some tool => method ++ " " ++ tool
  | some method, none => method
  | none, _ => "unknown"

def spanName (exchange : Exchange) : String := callName exchange.method exchange.toolName

def stringAttribute (key text : String) : Value :=
  .object [("key", .string key), ("value", .object [("stringValue", .string text)])]

def spanKindClient : UInt64 := 3

def statusCodeUnset : UInt64 := 0
def statusCodeOk : UInt64 := 1
def statusCodeError : UInt64 := 2

def spanStatus : ExchangeStatus → UInt64 × Option String
  | .ok | .subscribed => (statusCodeOk, none)
  | .error => (statusCodeError, some "error response")
  | .toolError => (statusCodeError, some "tool execution error")
  | .unanswered => (statusCodeError, some "unanswered request")
  | .cancelled => (statusCodeUnset, some "request cancelled")
  | .orphanResponse => (statusCodeUnset, none)

def directionText : Direction → String
  | .clientToServer => "client_to_server"
  | .serverToClient => "server_to_client"

def startNs (exchange : Exchange) : Int := max (exchange.requestTsNs.getD 0) 0

def endNs (exchange : Exchange) : Int := max (exchange.responseTsNs.getD (startNs exchange)) (startNs exchange)

def spanAttributes (exchange : Exchange) : List Value :=
  stringAttribute "gen_ai.operation.name" (exchange.method.getD "") ::
    (exchange.toolName.toList.map (stringAttribute "gen_ai.tool.name") ++
      stringAttribute "mcp.direction" (directionText exchange.origin) ::
        exchange.errorCode.toList.map fun code => stringAttribute "error.type" (toString code))

def exchangeToSpan (traceId : String) (index : Nat) (exchange : Exchange) : Value :=
  let status := spanStatus exchange.status
  .object
    [("attributes", .array (spanAttributes exchange)),
      ("endTimeUnixNano", .string (toString (endNs exchange))),
      ("kind", .number (.posInt spanKindClient)),
      ("name", .string (spanName exchange)),
      ("spanId", .string (deterministicSpanId sha256 traceId index)),
      ("startTimeUnixNano", .string (toString (startNs exchange))),
      ("status", .object (("code", .number (.posInt status.1)) ::
        status.2.toList.map fun message => ("message", .string message))),
      ("traceId", .string traceId)]

/-- The exchanges that are told, with their places among all. -/
def toldExchanges (model : SessionModel) : List (Exchange × Nat) :=
  model.exchanges.zipIdx.filter fun placed => placed.1.status ≠ .orphanResponse

def spans (sessionId : String) (model : SessionModel) : List Value :=
  (toldExchanges model).map fun placed =>
    exchangeToSpan sha256 (deterministicTraceId sha256 sessionId) placed.2 placed.1

def sessionToOtlpJson (packageVersion sessionId client : String) (model : SessionModel) : Value :=
  .object [("resourceSpans", .array [.object
    [("resource", .object [("attributes",
        .array [stringAttribute "service.name" client, stringAttribute "mcp.session.id" sessionId])]),
      ("scopeSpans", .array [.object
        [("scope", .object [("name", .string "mcptracer"), ("version", .string packageVersion)]),
          ("spans", .array (spans sha256 sessionId model))]])]])]

end Spans

/-! ## Ids -/

theorem spanSeed_injective {traceId : String} {i j : Nat} (same : spanSeed traceId i = spanSeed traceId j) : i = j := by
  have chars := congrArg String.toList same
  simp only [spanSeed, String.toList_append] at chars
  exact Pointer.toString_injective (String.toList_injective (List.append_cancel_left chars))

/-- No two of these texts are cut to one id. -/
def CutsApart (sha256 : List UInt8 → List UInt8) (length : Nat) (texts : List String) : Prop :=
  ∀ first ∈ texts, ∀ second ∈ texts,
    (sha256 first.toUTF8.data.toList).take length = (sha256 second.toUTF8.data.toList).take length → first = second

section Told
variable {codec : Codec} {messages : List StoredMessage}

/-- Only an orphaned response is in an exchange without a request. -/
theorem told_iff {exchange : Exchange} (member : exchange ∈ (correlate codec messages).exchanges) :
    exchange.status ≠ .orphanResponse ↔ ∃ request, exchange.request = some request := by
  have orphan := (tracks_foldl codec messages).orphanStatus exchange ((mem_correlate codec messages exchange).1 member)
  have timed : exchange.requestSeq ≠ none → exchange.requestTsNs ≠ none := by
    refine correlate_forall codec messages (P := fun exchange => exchange.requestSeq ≠ none →
      exchange.requestTsNs ≠ none) ?_ ?_ ?_ ?_ ?_ exchange member
    · exact fun message _ direction _ _ _ => Option.some_ne_none _
    · exact fun message _ direction absent => absurd rfl absent
    · exact fun message _ exchange kept => kept
    · exact fun exchange kept => kept
    · intro exchange kept
      unfold Exchange.acknowledged
      split <;> exact kept
  rw [Ne, orphan]
  constructor
  · intro asked
    obtain ⟨seq, found⟩ := Option.ne_none_iff_exists'.1 asked
    obtain ⟨tsNs, stamped⟩ := Option.ne_none_iff_exists'.1 (timed asked)
    exact ⟨⟨seq, tsNs, exchange.origin, exchange.rpcId, exchange.method, exchange.toolName⟩,
      by simp [Exchange.request, found, stamped]⟩
  · rintro ⟨request, asked⟩
    rw [(request_fields asked).1]
    exact Option.some_ne_none _

theorem requestTsNs_of_request {exchange : Exchange} {request : RequestRecord}
    (asked : exchange.request = some request) : exchange.requestTsNs = some request.tsNs := by
  simp only [Exchange.request, Option.bind_eq_bind, Option.bind_eq_some_iff, Option.pure_def, Option.some.injEq]
    at asked
  obtain ⟨seq, -, tsNs, stamped, rfl⟩ := asked
  exact stamped

/-- What is told of the exchanges with a request is told of the requests. -/
theorem map_told {A : Type} (view : Exchange → A) (tell : RequestRecord → A)
    (tells : ∀ exchange request, exchange.request = some request → view exchange = tell request) :
    (toldExchanges (correlate codec messages)).map (fun placed => view placed.1) =
      ((correlate codec messages).exchanges.filterMap Exchange.request).map tell := by
  have unplaced : (toldExchanges (correlate codec messages)).map (fun placed => view placed.1) =
      ((correlate codec messages).exchanges.filter fun exchange => exchange.status ≠ .orphanResponse).map view := by
    conv_rhs => rw [← List.zipIdx_map_fst 0 (correlate codec messages).exchanges, List.filter_map, List.map_map]
    rfl
  rw [unplaced]
  have told := fun exchange => @told_iff codec messages exchange
  generalize (correlate codec messages).exchanges = exchanges at told
  induction exchanges with
  | nil => rfl
  | cons exchange rest ih =>
    have later := ih fun other member => told other (List.mem_cons_of_mem _ member)
    cases asked : exchange.request with
    | none =>
      have orphan : ¬ exchange.status ≠ .orphanResponse := fun plain => by
        obtain ⟨request, found⟩ := (told exchange List.mem_cons_self).1 plain
        rw [asked] at found
        cases found
      rw [List.filter_cons_of_neg (by simpa using orphan), List.filterMap_cons_none asked, later]
    | some request =>
      have plain := (told exchange List.mem_cons_self).2 ⟨request, asked⟩
      rw [List.filter_cons_of_pos (by simpa using plain), List.filterMap_cons_some asked, List.map_cons, List.map_cons,
        tells exchange request asked, later]

/-- The session has answered, failed and open requests; a span has one of three codes. -/
theorem countP_code (exchanges : List Exchange) (notifications : List NotificationEvent) :
    let stats := computeStats exchanges notifications
    let coded (code : UInt64) := exchanges.countP fun exchange =>
      exchange.status ≠ .orphanResponse ∧ (spanStatus exchange.status).1 = code
    coded statusCodeOk = stats.ok ∧ coded statusCodeError = stats.errors + stats.unanswered ∧
      coded statusCodeUnset = stats.cancelled := by
  simp only [computeStats]
  induction exchanges with
  | nil => exact ⟨rfl, rfl, rfl⟩
  | cons exchange rest ih =>
    simp only [List.countP_cons]
    cases exchange.status <;>
      simp [spanStatus, statusCodeOk, statusCodeError, statusCodeUnset] at ih ⊢ <;> omega

end Told

/-! ## Spans -/

section Spans
variable (sha256 : List UInt8 → List UInt8) (packageVersion sessionId client : String) (codec : Codec)
  (messages : List StoredMessage)

theorem span_members (traceId : String) (index : Nat) (exchange : Exchange) :
    let span := exchangeToSpan sha256 traceId index exchange
    span.get "name" = some (.string (spanName exchange)) ∧
      span.get "startTimeUnixNano" = some (.string (toString (startNs exchange))) ∧
      span.get "endTimeUnixNano" = some (.string (toString (endNs exchange))) ∧
      span.get "spanId" = some (.string (deterministicSpanId sha256 traceId index)) ∧
      span.getPath ["status", "code"] = some (.number (.posInt (spanStatus exchange.status).1)) :=
  ⟨rfl, rfl, rfl, rfl, rfl⟩

/-- What a span says of its request is said of the requests of the session, in their order. -/
theorem spans_tell_requests (increasing : StoredMessage.Increasing messages) (key : String)
    (view : Exchange → Option Value) (tell : RequestRecord → Option Value)
    (shown : ∀ traceId index exchange, (exchangeToSpan sha256 traceId index exchange).get key = view exchange)
    (tells : ∀ exchange request, exchange.request = some request → view exchange = tell request) :
    (spans sha256 sessionId (correlate codec messages)).map (Value.get key) = (requestRecords messages).map tell := by
  rw [← @correlate_requestRecords codec messages increasing, ← map_told view tell tells, spans, List.map_map]
  exact List.map_congr_left fun placed _ => shown _ _ _

theorem spans_tally (code : UInt64) :
    (spans sha256 sessionId (correlate codec messages)).countP (fun span =>
        span.getPath ["status", "code"] = some (.number (.posInt code))) =
      (correlate codec messages).exchanges.countP fun exchange =>
        exchange.status ≠ .orphanResponse ∧ (spanStatus exchange.status).1 = code := by
  have unplaced : (correlate codec messages).exchanges = (correlate codec messages).exchanges.zipIdx.map Prod.fst :=
    (List.zipIdx_map_fst 0 _).symm
  rw [spans, List.countP_map, toldExchanges, List.countP_filter, unplaced, List.countP_map,
    ← unplaced]
  refine List.countP_congr fun placed _ => ?_
  have coded := (span_members sha256 (deterministicTraceId sha256 sessionId) placed.2 placed.1).2.2.2.2
  simp [coded, and_comm]

theorem spanIds_nodup (apart : CutsApart sha256 8 ((List.range (correlate codec messages).exchanges.length).map
      (spanSeed (deterministicTraceId sha256 sessionId)))) :
    ((spans sha256 sessionId (correlate codec messages)).map (Value.get "spanId")).Nodup := by
  rw [spans, List.map_map]
  have places : ((toldExchanges (correlate codec messages)).map Prod.snd).Nodup := by
    refine List.Nodup.sublist (List.filter_sublist.map _) ?_
    rw [List.zipIdx_map_snd]
    exact List.nodup_range'
  have bound : ∀ placed ∈ toldExchanges (correlate codec messages),
      spanSeed (deterministicTraceId sha256 sessionId) placed.2 ∈
        (List.range (correlate codec messages).exchanges.length).map
          (spanSeed (deterministicTraceId sha256 sessionId)) := fun placed member =>
    List.mem_map.2 ⟨_, List.mem_range.2 (List.snd_lt_of_mem_zipIdx (List.mem_of_mem_filter member)), rfl⟩
  rw [List.nodup_iff_pairwise_ne, List.pairwise_map] at places ⊢
  refine places.imp_of_mem fun {first second} one other differ same => differ ?_
  have ids : Value.string (deterministicSpanId sha256 (deterministicTraceId sha256 sessionId) first.2) =
      Value.string (deterministicSpanId sha256 (deterministicTraceId sha256 sessionId) second.2) := Option.some.inj same
  have cuts := Hex.text_injective (Value.string.inj ids)
  exact spanSeed_injective (apart _ (bound first one) _ (bound second other) cuts)

/-- The spans are the requests of the session in its order, each begins when its request was sent and does not end
before, they tally with the session, and no two of them have one id. -/
theorem spans_tell_session (increasing : StoredMessage.Increasing messages)
    (apart : CutsApart sha256 8 ((List.range (correlate codec messages).exchanges.length).map
      (spanSeed (deterministicTraceId sha256 sessionId)))) :
    let model := correlate codec messages
    ∃ spans, (sessionToOtlpJson sha256 packageVersion sessionId client model).pointer
          "/resourceSpans/0/scopeSpans/0/spans" = some (.array spans) ∧
      spans.map (Value.get "name") = (requestRecords messages).map (fun request =>
        some (.string (callName request.method request.toolName))) ∧
      spans.map (Value.get "startTimeUnixNano") = (requestRecords messages).map (fun request =>
        some (.string (toString (max request.tsNs 0)))) ∧
      (∀ span ∈ spans, ∃ start finish : Nat, start ≤ finish ∧
        span.get "startTimeUnixNano" = some (.string (toString start)) ∧
        span.get "endTimeUnixNano" = some (.string (toString finish))) ∧
      (let coded (code : UInt64) := spans.countP fun span =>
        span.getPath ["status", "code"] = some (.number (.posInt code))
      coded statusCodeOk = model.stats.ok ∧ coded statusCodeError = model.stats.errors + model.stats.unanswered ∧
        coded statusCodeUnset = model.stats.cancelled) ∧
      (spans.map (Value.get "spanId")).Nodup := by
  intro model
  refine ⟨spans sha256 sessionId model, rfl, ?_, ?_, ?_, ?_, spanIds_nodup sha256 sessionId codec messages apart⟩
  · refine spans_tell_requests sha256 sessionId codec messages increasing "name"
      (fun exchange => some (Value.string (spanName exchange))) _ (fun _ _ _ => rfl) fun exchange request asked => ?_
    obtain ⟨-, -, method, tool⟩ := request_fields asked
    rw [spanName, method, tool]
  · refine spans_tell_requests sha256 sessionId codec messages increasing "startTimeUnixNano"
      (fun exchange => some (Value.string (toString (startNs exchange)))) _ (fun _ _ _ => rfl)
      fun exchange request asked => ?_
    rw [startNs, requestTsNs_of_request asked, Option.getD_some]
  · intro span member
    obtain ⟨placed, -, rfl⟩ := List.mem_map.1 member
    obtain ⟨-, start, finish, -, -⟩ := span_members sha256 (deterministicTraceId sha256 sessionId) placed.2 placed.1
    have begins : 0 ≤ startNs placed.1 := le_max_right _ _
    have ends : startNs placed.1 ≤ endNs placed.1 := le_max_right _ _
    obtain ⟨from', first⟩ := Int.eq_ofNat_of_zero_le begins
    obtain ⟨until', last⟩ := Int.eq_ofNat_of_zero_le (begins.trans ends)
    refine ⟨from', until', by omega, start.trans ?_, finish.trans ?_⟩
    · rw [first]
      rfl
    · rw [last]
      rfl
  · have tally := spans_tally sha256 sessionId codec messages
    obtain ⟨ok, failed, unset⟩ := countP_code (correlate codec messages).exchanges
      (correlate codec messages).notifications
    exact ⟨(tally _).trans ok, (tally _).trans failed, (tally _).trans unset⟩

end Spans

/-- The digests of these texts. -/
def digestOf (digests : List (String × List UInt8)) (bytes : List UInt8) : List UInt8 :=
  ((digests.find? fun entry => entry.1.toUTF8.data.toList = bytes).map Prod.snd).getD []

def callDigests : List (String × List UInt8) :=
  [("s1", [232, 188, 22, 60, 130, 238, 225, 135, 51, 40, 140, 125, 74, 198, 54, 219, 58, 109, 235, 1, 62, 242, 211,
      123, 104, 50, 43, 226, 14, 220, 69, 204]),
    ("e8bc163c82eee18733288c7d4ac636db:0", [6, 136, 182, 175, 110, 151, 53, 250, 136, 12, 204, 180, 30, 173, 9, 187,
      144, 231, 196, 198, 242, 237, 117, 100, 58, 167, 232, 148, 65, 11, 137, 227]),
    ("e8bc163c82eee18733288c7d4ac636db:1", [160, 172, 118, 43, 17, 6, 205, 125, 4, 14, 223, 157, 27, 44, 192, 234,
      178, 65, 132, 154, 46, 140, 107, 54, 33, 205, 118, 148, 109, 124, 11, 196])]

/-- An answered call and a stray response are one span. -/
theorem spans_tell_session_call :
    let messages : List StoredMessage :=
      [⟨4, 0, "c2s", "request", some "1", some "tools/call", some "echo", "", 0, false, none⟩,
        ⟨5, 3, "s2c", "response", some "1", none, none, "", 0, false, none⟩,
        ⟨6, 4, "s2c", "response", some "7", none, none, "", 0, false, none⟩]
    ∃ spans, (sessionToOtlpJson (digestOf callDigests) "0.2.0" "s1" "cursor" (correlate Compact.codec messages)).pointer
          "/resourceSpans/0/scopeSpans/0/spans" = some (.array spans) ∧
      spans.map (Value.get "name") = [some (.string "tools/call echo")] := by
  intro messages
  have increasing : StoredMessage.Increasing messages := by unfold StoredMessage.Increasing; decide
  obtain ⟨spans, found, names, -⟩ := spans_tell_session (digestOf callDigests) "0.2.0" "s1" "cursor" Compact.codec
    messages increasing (by unfold CutsApart; decide +kernel)
  exact ⟨spans, found, names⟩

end McpTracer.Model.Otel
