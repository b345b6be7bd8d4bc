import McpTracer.Protocol.Sse
import McpTracer.Proxy.ModernRequest
import McpTracer.Storage.StoredMessage

/-! The frames of a subscription, in the recording and from the target.

What the recording has for a subscription is checked once and counted. The frames of the target are
checked in the same way, one at a time, and recorded. A terminal response is recorded without being
counted.
-/

set_option autoImplicit false

namespace McpTracer.Proxy.HttpReplay
open McpTracer.Foundation McpTracer.Json McpTracer.Protocol McpTracer.Storage

structure SubscriptionFilter where
  toolsListChanged : Bool
  promptsListChanged : Bool
  resourcesListChanged : Bool
  /-- A set. -/
  resourceSubscriptions : List String
  deriving DecidableEq

def SubscriptionFilter.none : SubscriptionFilter where
  toolsListChanged := false
  promptsListChanged := false
  resourcesListChanged := false
  resourceSubscriptions := []

structure SubscriptionExpectation where
  subscriptionId : Value
  filter : SubscriptionFilter
  acceptedFilter : SubscriptionFilter
  expectedFrames : Nat
  deriving DecidableEq

def requestId (request : Value) (context : String) : Except String Value :=
  require ((request.get "id").filter fun id => id.isString || id.isNumber)
    s!"{context} must carry a string or numeric JSON-RPC id"

/-! ## Filters -/

def uriOf (context : String) (uri : Value) : Except String String :=
  require uri.asStr s!"{context} notifications.resourceSubscriptions entries must be strings"

/-- The sorted set of some texts, none of which may occur twice. -/
def insertUris (context : String) (known : List String) : List Value → Except String (List String)
  | [] => .ok known
  | entry :: rest => do
    let uri ← uriOf context entry
    ensure (!known.contains uri) s!"{context} notifications.resourceSubscriptions contains duplicate '{uri}'"
    insertUris context (SortedSet.ofList (uri :: known)) rest

def booleanSetting (context name : String) (setting : Value) : Except String Bool :=
  require setting.asBool s!"{context} notifications.{name} must be boolean"

def applySetting (context : String) (filter : SubscriptionFilter) : String × Value → Except String SubscriptionFilter
  | ("toolsListChanged", setting) => do
    let accepted ← booleanSetting context "toolsListChanged" setting
    return { filter with toolsListChanged := accepted }
  | ("promptsListChanged", setting) => do
    let accepted ← booleanSetting context "promptsListChanged" setting
    return { filter with promptsListChanged := accepted }
  | ("resourcesListChanged", setting) => do
    let accepted ← booleanSetting context "resourcesListChanged" setting
    return { filter with resourcesListChanged := accepted }
  | ("resourceSubscriptions", setting) => do
    let uris ← require setting.asArray s!"{context} notifications.resourceSubscriptions must be an array"
    let resourceSubscriptions ← insertUris context filter.resourceSubscriptions uris
    return { filter with resourceSubscriptions := resourceSubscriptions }
  | (name, _) => .error s!"{context} requests unsupported notification filter '{name}'"

def subscriptionFilterFromValue (value : Value) (context : String) : Except String SubscriptionFilter := do
  let notifications ← require value.asObject s!"{context} notifications must be an object"
  notifications.foldlM (applySetting context) .none

def subscriptionFilterFromRequest (request : Value) (context : String) : Except String SubscriptionFilter := do
  let notifications ← require (request.getPath ["params", "notifications"])
    s!"{context} is missing params.notifications"
  subscriptionFilterFromValue notifications context

/-! ## Frames -/

def subscriptionIdFromNotification (payload : Value) : Option Value :=
  payload.getPath ["params", "_meta", "io.modelcontextprotocol/subscriptionId"]

/-- Nothing is accepted that was not requested. -/
def SubscriptionFilter.within (accepted requested : SubscriptionFilter) : Bool :=
  (!accepted.toolsListChanged || requested.toolsListChanged) &&
    (!accepted.promptsListChanged || requested.promptsListChanged) &&
    (!accepted.resourcesListChanged || requested.resourcesListChanged) &&
    accepted.resourceSubscriptions.all requested.resourceSubscriptions.contains

/-- What every frame is asked, up to its method. -/
def frameMethod (payload subscriptionId : Value) : Except String String := do
  ensure ((payload.get "jsonrpc").bind Value.asStr = some "2.0") "subscription frame is missing jsonrpc=2.0"
  ensure (payload.get "id").isNone "subscription stream must not contain JSON-RPC requests"
  ensure ((subscriptionIdFromNotification payload).any fun id => id.beq subscriptionId)
    "subscription frame is missing the originating io.modelcontextprotocol/subscriptionId"
  require ((payload.get "method").bind Value.asStr) "subscription frame is missing a string notification method"

def validateAcknowledgment (payload : Value) (filter : SubscriptionFilter) (method : String) :
    Except String SubscriptionFilter := do
  ensure (method = "notifications/subscriptions/acknowledged")
    s!"first subscription frame must be notifications/subscriptions/acknowledged, found '{method}'"
  let accepted ← require (payload.getPath ["params", "notifications"])
    "subscription acknowledgment is missing params.notifications"
  let accepted ← subscriptionFilterFromValue accepted "subscription acknowledgment"
  ensure (accepted.within filter) "subscription acknowledgment accepts notifications outside the requested filter"
  return accepted

def outsideFilter (method : String) : String :=
  s!"subscription stream emitted '{method}', which is not in the requested filter"

def validateNotification (payload : Value) (filter : SubscriptionFilter) (method : String) : Except String Unit :=
  match method with
  | "notifications/tools/list_changed" => ensure filter.toolsListChanged (outsideFilter method)
  | "notifications/prompts/list_changed" => ensure filter.promptsListChanged (outsideFilter method)
  | "notifications/resources/list_changed" => ensure filter.resourcesListChanged (outsideFilter method)
  | "notifications/resources/updated" =>
    if filter.resourceSubscriptions.isEmpty then .error (outsideFilter method)
    else
      match (payload.getPath ["params", "uri"]).bind Value.asStr with
      | some uri => ensure (filter.resourceSubscriptions.contains uri)
          s!"notifications/resources/updated uri '{uri}' is outside the requested filter"
      | none => .error "notifications/resources/updated must include a non-empty params.uri"
  | _ => .error (outsideFilter method)

def validateSubscriptionNotification (payload subscriptionId : Value) (filter : SubscriptionFilter)
    (frameIndex : Nat) : Except String Unit := do
  let method ← frameMethod payload subscriptionId
  if frameIndex = 0 then (validateAcknowledgment payload filter method).map fun _ => ()
  else validateNotification payload filter method

def subscriptionAcknowledgmentFilter (payload subscriptionId : Value) (requestedFilter : SubscriptionFilter) :
    Except String SubscriptionFilter := do
  validateSubscriptionNotification payload subscriptionId requestedFilter 0
  let accepted ← require (payload.getPath ["params", "notifications"])
    "validated subscription acknowledgment has params.notifications"
  subscriptionFilterFromValue accepted "subscription acknowledgment"

def validateSubscriptionAcknowledgment (payload subscriptionId : Value)
    (requestedFilter expectedFilter : SubscriptionFilter) : Except String Unit := do
  let accepted ← subscriptionAcknowledgmentFilter payload subscriptionId requestedFilter
  ensure (accepted = expectedFilter)
    "subscription acknowledgment accepted a different filter than the source recording"

def isSubscriptionTerminalResponse (payload subscriptionId : Value) : Bool :=
  ((payload.get "id").any fun id => id.beq subscriptionId) &&
    ((payload.get "result").isSome || (payload.get "error").isSome)

/-! ## What the recording has -/

/-- The accepted filter, and how many frames there have been. -/
structure SourceFrames where
  acceptedFilter : Option SubscriptionFilter
  expectedFrames : Nat

def invalidSource (seq : Nat) : String := s!"invalid source subscription frame at seq {seq}"

/-- The first frame is the acknowledgment, all others are checked against what it accepts. -/
def sourceFrame (subscriptionId : Value) (filter : SubscriptionFilter) (seq : Nat) (frames : SourceFrames)
    (payload : Value) : Except String SourceFrames :=
  match frames.acceptedFilter with
  | none => do
    let accepted ← (subscriptionAcknowledgmentFilter payload subscriptionId filter).mapError fun _ => invalidSource seq
    return ⟨some accepted, frames.expectedFrames + 1⟩
  | some accepted => do
    (validateSubscriptionNotification payload subscriptionId accepted frames.expectedFrames).mapError
      fun _ => invalidSource seq
    return ⟨some accepted, frames.expectedFrames + 1⟩

def sourceMessage (codec : Codec) (subscriptionId : Value) (filter : SubscriptionFilter) (listenSeq : Nat)
    (frames : SourceFrames) (message : StoredMessage) : Except String SourceFrames :=
  if message.direction ≠ "s2c" then .ok frames
  else
    match codec.fromStr message.payload with
    | none => .error s!"source message seq {message.seq} is not valid JSON"
    | some payload =>
      if (subscriptionIdFromNotification payload).any fun id => id.beq subscriptionId then
        if message.seq ≤ listenSeq then
          .error s!"source subscriptions/listen notification seq {message.seq} precedes its request seq {listenSeq}"
        else sourceFrame subscriptionId filter message.seq frames payload
      else .ok frames

def subscriptionExpectation (codec : Codec) (sourceMessages : List StoredMessage) (listenSeq : Nat) (request : Value) :
    Except String SubscriptionExpectation := do
  let context := "subscriptions/listen source request"
  let subscriptionId ← requestId request context
  let filter ← subscriptionFilterFromRequest request context
  let frames ← sourceMessages.foldlM (sourceMessage codec subscriptionId filter listenSeq) ⟨none, 0⟩
  let acceptedFilter ← require frames.acceptedFilter
    s!"source subscriptions/listen request at seq {listenSeq} has no recorded acknowledgment frame"
  return ⟨subscriptionId, filter, acceptedFilter, frames.expectedFrames⟩

/-! ## What the target sends -/

/-- What has been recorded, and what the acknowledgment was reported as. -/
structure SubscriptionCapture where
  recorded : List Value
  receivedFrames : Nat
  acknowledgment : Option (Except String Unit)

namespace SubscriptionCapture

def start : SubscriptionCapture where
  recorded := []
  receivedFrames := 0
  acknowledgment := none

def recordBytes (capture : SubscriptionCapture) (payload : Value) : SubscriptionCapture :=
  { capture with recorded := capture.recorded ++ [payload] }

/-- Only the first report is sent. -/
def signalAcknowledgment (capture : SubscriptionCapture) (result : Except String Unit) : SubscriptionCapture :=
  { capture with acknowledgment := some (capture.acknowledgment.getD result) }

/-- A frame is checked against the number of frames before it. -/
def validateFrame (expectation : SubscriptionExpectation) (frameIndex : Nat) (payload : Value) : Except String Unit := do
  ensure (decide (frameIndex < expectation.expectedFrames))
    "target subscriptions/listen stream produced more frames than the source recording"
  if frameIndex = 0 then
    validateSubscriptionAcknowledgment payload expectation.subscriptionId expectation.filter expectation.acceptedFilter
  else validateSubscriptionNotification payload expectation.subscriptionId expectation.acceptedFilter frameIndex

def countFrame (capture : SubscriptionCapture) (payload : Value) : SubscriptionCapture :=
  let recorded := capture.recordBytes payload
  let counted := { recorded with receivedFrames := capture.receivedFrames + 1 }
  if capture.receivedFrames = 0 then counted.signalAcknowledgment (.ok ()) else counted

def eventPayload (fromSlice : List UInt8 → Option Value) : SseEvent → Except String Value
  | .json bytes => require (fromSlice bytes) "subscriptions/listen stream contains non-JSON frame"
  | .oversized => .error "subscriptions/listen stream contains an oversized SSE JSON frame"
  | .incomplete => .error "subscriptions/listen stream ended inside an SSE frame"

def captureSubscriptionEvent (fromSlice : List UInt8 → Option Value) (expectation : SubscriptionExpectation)
    (capture : SubscriptionCapture) (event : SseEvent) : Except String SubscriptionCapture := do
  let payload ← eventPayload fromSlice event
  if isSubscriptionTerminalResponse payload expectation.subscriptionId then return capture.recordBytes payload
  else do
    validateFrame expectation capture.receivedFrames payload
    return capture.countFrame payload

/-- Up to the first event that is refused. -/
def captureEvents (fromSlice : List UInt8 → Option Value) (expectation : SubscriptionExpectation) :
    SubscriptionCapture → List SseEvent → SubscriptionCapture × Except String Unit
  | capture, [] => (capture, .ok ())
  | capture, event :: rest =>
    match captureSubscriptionEvent fromSlice expectation capture event with
    | .error err => (capture.signalAcknowledgment (.error err), .error err)
    | .ok capture => captureEvents fromSlice expectation capture rest

/-- The stream has ended. -/
def finishStream (expectation : SubscriptionExpectation) (capture : SubscriptionCapture) :
    SubscriptionCapture × Except String Unit :=
  if capture.acknowledgment = none then
    (capture.signalAcknowledgment (.error "stream ended before notifications/subscriptions/acknowledged"),
      .error "subscriptions/listen stream ended before notifications/subscriptions/acknowledged")
  else if capture.receivedFrames ≠ expectation.expectedFrames then
    (capture, .error (s!"subscriptions/listen stream ended after {capture.receivedFrames} captured frame(s); " ++
      s!"source requires {expectation.expectedFrames}"))
  else (capture, .ok ())

/-- The chunks that could be read, and why reading stopped before the end of the stream. -/
def captureSubscriptionResponse (fromSlice : List UInt8 → Option Value) (expectation : SubscriptionExpectation)
    (chunks : List (List UInt8)) (readFailure : Option String) : SubscriptionCapture × Except String Unit :=
  let decoded := feed SseDecoder.push .default chunks
  match captureEvents fromSlice expectation .start decoded.2 with
  | (capture, .error err) => (capture, .error err)
  | (capture, .ok ()) =>
    match readFailure with
    | some _ => (capture, .error "failed to read subscriptions/listen response stream")
    | none =>
      match captureEvents fromSlice expectation capture decoded.1.finish.2 with
      | (capture, .error err) => (capture, .error err)
      | (capture, .ok ()) => capture.finishStream expectation

end SubscriptionCapture

end McpTracer.Proxy.HttpReplay
