import McpTracer.Foundation.Outcome
import McpTracer.Foundation.SortedSet
import McpTracer.Json.Members

/-! Requests that describe their own protocol version, and retries of them.

A modern server may answer that it requires more input. The recorded retry is then sent with the
state that the server has just returned and with an id of its own.
-/

set_option autoImplicit false

namespace McpTracer.Proxy.HttpReplay
open McpTracer.Foundation McpTracer.Json

def methodOf (request : Value) : Option String := (request.get "method").bind Value.asStr

def modernProtocolVersion (request : Value) : Option String :=
  let key := "io.modelcontextprotocol/protocolVersion"
  ((request.getPath ["params", "_meta", key]).or (request.getPath ["_meta", key])).bind Value.asStr

/-- The parameter that names what is called or read. -/
def requiredNameField : String → Option String
  | "tools/call" => some "name"
  | "prompts/get" => some "name"
  | "resources/read" => some "uri"
  | _ => none

def modernToolName (request : Value) : Except String (Option String) :=
  if modernProtocolVersion request = none ∨ methodOf request ≠ some "tools/call" then .ok none
  else
    match (request.getPath ["params", "name"]).bind Value.asStr with
    | some name => .ok (some name)
    | none => .error "modern MCP tools/call request is missing string params.name"

def isModernSubscriptionListen (request : Value) : Bool :=
  (modernProtocolVersion request).isSome && methodOf request = some "subscriptions/listen"

/-- Multi-round-trip requests: these may be answered by a demand for input. -/
def isMrtrCapableRequest (request : Value) : Bool :=
  (modernProtocolVersion request).isSome &&
    (methodOf request = some "tools/call" || methodOf request = some "prompts/get" ||
      methodOf request = some "resources/read")

def maxMrtrRounds : Nat := 10

/-! ## Demands for input -/

structure InputRequired where
  inputResponseKeys : List String
  requestState : Option String
  deriving DecidableEq

def keysOf (fields : List (String × Value)) : List String := SortedSet.ofList (fields.map Prod.fst)

def inputRequestKeys (result : Value) : Except String (List String) :=
  match result.get "inputRequests" with
  | some (.object requests) => .ok (keysOf requests)
  | some _ => .error "target input_required result has non-object inputRequests"
  | none => .ok []

/-- An optional member that must be a string. -/
def stringMember (key failure : String) (value : Value) : Except String (Option String) :=
  match value.get key with
  | some (.string text) => .ok (some text)
  | some _ => .error failure
  | none => .ok none

/-- The demand for input that a result makes, if it makes one. -/
def inputRequiredOf (payload : Value) : Except String (Option InputRequired) :=
  match (payload.get "result").filter Value.isObject with
  | none => .ok none
  | some result =>
    if (result.get "resultType").bind Value.asStr ≠ some "input_required" then .ok none
    else do
      let inputResponseKeys ← inputRequestKeys result
      let requestState ← stringMember "requestState" "target input_required result has non-string requestState" result
      ensure ((result.get "inputRequests").isSome || requestState.isSome)
        "target input_required result must contain inputRequests or requestState"
      return some ⟨inputResponseKeys, requestState⟩

def inputRequiredFromBytes (fromSlice : List UInt8 → Option Value) (bytes : List UInt8) :
    Except String (Option InputRequired) :=
  match fromSlice bytes with
  | none => .ok none
  | some payload => inputRequiredOf payload

/-! ## Retries -/

def requestWithoutMrtrFields (request : Value) : Except String Value :=
  if request.isObject then
    let base := request.remove "id"
    match base.get "params" with
    | some (.object _) => .ok (base.update "params" fun params => (params.remove "inputResponses").remove "requestState")
    | _ => .error "MRTR recorded request is missing object params"
  else .error "MRTR recorded request must be a JSON object"

def recordedResponseKeys (params : Value) : Except String (List String) :=
  match params.get "inputResponses" with
  | some (.object responses) => .ok (keysOf responses)
  | some _ => .error "MRTR recorded retry has non-object inputResponses"
  | none => .ok []

/-- The state that the target returned, in the place of the recorded one. -/
def withRequestState (requestState : Option String) (params : Value) : Value :=
  match requestState with
  | some state => params.insert "requestState" (.string state)
  | none => params.remove "requestState"

def buildMrtrRetryRequest (sourceRequest recordedRetry : Value) (inputRequired : InputRequired) (replayId : Value) :
    Except String Value := do
  let sourceMethod ← require (methodOf sourceRequest) "MRTR source request is missing a string method"
  let retryMethod ← require (methodOf recordedRetry) "MRTR recorded retry is missing a string method"
  ensure (sourceMethod == retryMethod)
    s!"MRTR recorded retry method '{retryMethod}' does not match original method '{sourceMethod}'"
  let sourceBase ← requestWithoutMrtrFields sourceRequest
  let retryBase ← requestWithoutMrtrFields recordedRetry
  ensure (sourceBase == retryBase) ("MRTR recorded retry does not preserve the original request outside " ++
    "inputResponses, requestState, and JSON-RPC id")
  let retryParams ← require ((recordedRetry.get "params").filter Value.isObject)
    "MRTR recorded retry is missing object params"
  let inputResponseKeys ← recordedResponseKeys retryParams
  ensure (inputResponseKeys == inputRequired.inputResponseKeys)
    "MRTR recorded inputResponses keys do not match the target inputRequests keys"
  let recordedState ← stringMember "requestState" "MRTR recorded retry has non-string requestState" retryParams
  ensure (recordedState.isSome == inputRequired.requestState.isSome)
    "MRTR recorded retry requestState presence does not match the target input_required result"
  return (recordedRetry.update "params" (withRequestState inputRequired.requestState)).insert "id" replayId

/-! ## What a retry keeps -/

def requestStateOf (request : Value) : Option Value := request.getPath ["params", "requestState"]

/-- A request up to what a retry replaces. -/
def withoutRetryFields (request : Value) : Value :=
  (request.update "params" (Value.remove "requestState")).remove "id"

/-- A recorded retry with another state and another id. -/
def retryWith (requestState : Option String) (replayId recordedRetry : Value) : Value :=
  (recordedRetry.update "params" (withRequestState requestState)).insert "id" replayId

theorem remove_withRequestState (requestState : Option String) (params : Value) :
    (withRequestState requestState params).remove "requestState" = params.remove "requestState" := by
  cases requestState with
  | none => exact Value.remove_remove params
  | some state => exact Value.remove_insert params

theorem get_withRequestState (requestState : Option String) {params : Value} (shape : params.isObject = true) :
    (withRequestState requestState params).get "requestState" = requestState.map Value.string := by
  cases requestState with
  | none => exact (Value.get_remove _ _ params).trans (if_pos rfl)
  | some state => exact (Value.get_insert _ _ _ shape).trans (if_pos rfl)

theorem withoutRetryFields_retryWith (requestState : Option String) (replayId recordedRetry : Value) :
    withoutRetryFields (retryWith requestState replayId recordedRetry) = withoutRetryFields recordedRetry := by
  have same : Value.remove "requestState" ∘ withRequestState requestState = Value.remove "requestState" :=
    funext fun params => remove_withRequestState requestState params
  unfold withoutRetryFields retryWith
  rw [Value.remove_update, Value.remove_insert, Value.remove_update, Value.update_update, same, Value.remove_update]

/-- The fields that a retry replaces are among those that are not compared. -/
theorem requestWithoutMrtrFields_withoutRetryFields (request : Value) :
    requestWithoutMrtrFields (withoutRetryFields request) = requestWithoutMrtrFields request := by
  have again : (withoutRetryFields request).remove "id" =
      (request.remove "id").update "params" (Value.remove "requestState") := by
    rw [withoutRetryFields, Value.remove_remove, Value.remove_update]
  have compared : (fun params : Value => (params.remove "inputResponses").remove "requestState") ∘
      Value.remove "requestState" = fun params => (params.remove "inputResponses").remove "requestState" := by
    funext params
    change ((params.remove "requestState").remove "inputResponses").remove "requestState" = _
    rw [Value.remove_comm (params.remove "requestState"), Value.remove_remove, Value.remove_comm]
  unfold requestWithoutMrtrFields
  rw [again]
  simp only [withoutRetryFields, Value.isObject_remove, Value.isObject_update, Value.get_update_same]
  cases found : (request.remove "id").get "params" with
  | none => rfl
  | some child =>
    cases child with
    | object fields =>
      rw [Value.update_update, compared]
      rfl
    | _ => rfl

/-- Requests that differ in what a retry replaces are the same to the comparison of retries. -/
theorem requestWithoutMrtrFields_congr {request other : Value}
    (same : withoutRetryFields request = withoutRetryFields other) :
    requestWithoutMrtrFields request = requestWithoutMrtrFields other := by
  rw [← requestWithoutMrtrFields_withoutRetryFields request, same, requestWithoutMrtrFields_withoutRetryFields]

/-- What an accepted retry is, and what has been checked. -/
theorem buildMrtrRetryRequest_eq_ok {sourceRequest recordedRetry replayId retry : Value} {inputRequired : InputRequired}
    (built : buildMrtrRetryRequest sourceRequest recordedRetry inputRequired replayId = .ok retry) :
    retry = retryWith inputRequired.requestState replayId recordedRetry ∧
      (∃ sourceBase retryBase, requestWithoutMrtrFields sourceRequest = .ok sourceBase ∧
        requestWithoutMrtrFields recordedRetry = .ok retryBase ∧ sourceBase.beq retryBase = true) ∧
      retry.get "id" = some replayId ∧ requestStateOf retry = inputRequired.requestState.map Value.string := by
  unfold buildMrtrRetryRequest at built
  simp only [bind_eq_ok_iff, require_eq_ok_iff, ensure_eq_ok_iff, pure_eq_ok_iff] at built
  obtain ⟨sourceMethod, -, retryMethod, -, -, -, sourceBase, source, retryBase, recorded, -, preserved, retryParams, params,
    keys, -, -, -, recordedState, -, -, -, rfl⟩ := built
  obtain ⟨found, shape⟩ := Option.filter_eq_some_iff.1 params
  have recordedShape : recordedRetry.isObject = true := by
    unfold requestWithoutMrtrFields at recorded
    by_contra plain
    rw [if_neg plain] at recorded
    cases recorded
  refine ⟨rfl, ⟨sourceBase, retryBase, source, recorded, preserved⟩, ?_, ?_⟩
  · rw [Value.get_insert _ _ _ (by simpa using recordedShape), if_pos rfl]
  · rw [requestStateOf, Value.getPath_pair, Value.get_insert_other (by decide), Value.get_update_same, found]
    exact get_withRequestState inputRequired.requestState shape

end McpTracer.Proxy.HttpReplay
