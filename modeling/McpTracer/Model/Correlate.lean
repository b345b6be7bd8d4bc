import Mathlib.Data.List.Dedup
import Mathlib.Data.List.Sort
import McpTracer.Foundation.Pending
import McpTracer.Storage.StoredMessage

/-! Requests paired with their responses.

One pass over the messages keeps the exchanges built so far and the open
requests by responder direction and id. A request displaces an open one under
its key, a response and a cancellation take one away, and an acknowledgement
only looks at one.
-/

set_option autoImplicit false

namespace McpTracer.Model
open McpTracer.Foundation McpTracer.Json McpTracer.Protocol McpTracer.Storage

/-- Outcome of a single request/response exchange. -/
inductive ExchangeStatus where
  | ok
  | error
  /-- The tool reported a failure in a response without an `error` member. -/
  | toolError
  /-- A subscription stream that was acknowledged and has no terminal response yet. -/
  | subscribed
  | cancelled
  | unanswered
  | orphanResponse
  deriving DecidableEq, Repr

structure Exchange where
  requestSeq : Option Nat
  responseSeq : Option Nat
  rpcId : Option String
  /-- Who originated the call; for an orphan, who would have. -/
  origin : Direction
  method : Option String
  toolName : Option String
  status : ExchangeStatus
  latencyNs : Option Int
  errorCode : Option Int
  requestTsNs : Option Int
  responseTsNs : Option Int
  deriving DecidableEq

structure NotificationEvent where
  seq : Nat
  tsNs : Int
  direction : Direction
  method : String
  deriving DecidableEq

/-- Session-level aggregates. Latency percentiles use answered exchanges only. -/
structure SessionStats where
  totalExchanges : Nat
  ok : Nat
  errors : Nat
  unanswered : Nat
  cancelled : Nat
  orphanResponses : Nat
  notifications : Nat
  latencyP50Ns : Option Int
  latencyP95Ns : Option Int
  latencyMaxNs : Option Int
  toolCallCounts : List (String × Nat)
  deriving DecidableEq

structure SessionModel where
  exchanges : List Exchange
  notifications : List NotificationEvent
  stats : SessionStats

/-! ## Exchanges -/

namespace Exchange

def opened (direction : Direction) (message : StoredMessage) : Exchange where
  requestSeq := some message.seq
  responseSeq := none
  rpcId := message.rpcId
  origin := direction
  method := message.method
  toolName := message.toolName
  status := .unanswered
  latencyNs := none
  errorCode := none
  requestTsNs := some message.tsNs
  responseTsNs := none

def orphan (direction : Direction) (message : StoredMessage) : Exchange where
  requestSeq := none
  responseSeq := some message.seq
  rpcId := message.rpcId
  origin := direction.opposite
  method := none
  toolName := none
  status := .orphanResponse
  latencyNs := none
  errorCode := message.errorCode
  requestTsNs := none
  responseTsNs := some message.tsNs

/-- Whether a result in the payload reports a tool failure. -/
def reportsToolError (codec : Codec) (message : StoredMessage) : Bool :=
  ((codec.fromStr message.payload).bind (Value.getPath ["result", "isError"])).bind Value.asBool =
    some true

def answered (codec : Codec) (exchange : Exchange) (message : StoredMessage) : Exchange :=
  { exchange with
    responseSeq := some message.seq
    responseTsNs := some message.tsNs
    errorCode := message.errorCode
    latencyNs := match exchange.requestTsNs with
      | some requestTs => some (message.tsNs - requestTs)
      | none => exchange.latencyNs
    status :=
      if message.isError then .error
      else if exchange.method = some "tools/call" ∧ reportsToolError codec message = true then .toolError
      else .ok }

def cancelled (exchange : Exchange) : Exchange := { exchange with status := .cancelled }

def acknowledged (exchange : Exchange) : Exchange :=
  if exchange.origin = .clientToServer ∧ exchange.method = some "subscriptions/listen" then
    { exchange with status := .subscribed }
  else exchange

/-- Orphans sort by their response. -/
def sortKey (exchange : Exchange) : Nat :=
  (exchange.requestSeq.or exchange.responseSeq).getD (2 ^ 64 - 1)

end Exchange

/-! ## The pass over the messages -/

/-- The id a cancellation names. -/
def cancelledId (codec : Codec) (message : StoredMessage) : Option String :=
  if message.method = some "notifications/cancelled" then
    message.idAt codec ["params", "requestId"]
  else none

/-- The request id an acknowledgement names. -/
def subscriptionId (codec : Codec) (message : StoredMessage) : Option String :=
  if message.method = some "notifications/subscriptions/acknowledged" then
    message.idAt codec ["params", "_meta", "io.modelcontextprotocol/subscriptionId"]
  else none

/-- Open requests are indices of exchanges, by the direction of the response and the id. -/
structure Correlation where
  exchanges : List Exchange
  notifications : List NotificationEvent
  pending : Table (Direction × String) Nat

namespace Correlation

def start : Correlation where
  exchanges := []
  notifications := []
  pending := Table.empty

def request (state : Correlation) (direction : Direction) (message : StoredMessage) : Correlation :=
  { state with
    exchanges := state.exchanges ++ [Exchange.opened direction message]
    pending := match message.rpcId with
      | some id => state.pending.insert (direction.opposite, id) state.exchanges.length
      | none => state.pending }

def response (codec : Codec) (state : Correlation) (direction : Direction) (message : StoredMessage) :
    Correlation :=
  match message.rpcId.bind fun id => (state.pending (direction, id)).map fun index => (id, index) with
  | some (id, index) =>
    { state with
      exchanges := state.exchanges.modify index fun exchange => exchange.answered codec message
      pending := state.pending.erase (direction, id) }
  | none => { state with exchanges := state.exchanges ++ [Exchange.orphan direction message] }

def cancellation (codec : Codec) (state : Correlation) (direction : Direction)
    (message : StoredMessage) : Correlation :=
  match (cancelledId codec message).bind fun id =>
      (state.pending (direction.opposite, id)).map fun index => (id, index) with
  | some (id, index) =>
    { state with
      exchanges := state.exchanges.modify index Exchange.cancelled
      pending := state.pending.erase (direction.opposite, id) }
  | none => state

def acknowledgement (codec : Codec) (state : Correlation) (direction : Direction)
    (message : StoredMessage) : Correlation :=
  if direction = .serverToClient then
    match (subscriptionId codec message).bind fun id => state.pending (direction, id) with
    | some index => { state with exchanges := state.exchanges.modify index Exchange.acknowledged }
    | none => state
  else state

def notification (codec : Codec) (state : Correlation) (direction : Direction)
    (message : StoredMessage) : Correlation :=
  let state := (state.cancellation codec direction message).acknowledgement codec direction message
  { state with
    notifications := state.notifications ++
      [⟨message.seq, message.tsNs, direction, message.method.getD ""⟩] }

/-- Messages of an unknown direction or kind are skipped. -/
def step (codec : Codec) (state : Correlation) (message : StoredMessage) : Correlation :=
  match Direction.fromDbStr message.direction with
  | none => state
  | some direction =>
    match message.messageKind with
    | "request" => state.request direction message
    | "response" => state.response codec direction message
    | "notification" => state.notification codec direction message
    | _ => state

end Correlation

/-! ## Aggregates -/

/-- Nearest-rank percentile of a sorted list, at a rational rank: `sorted[ceil(p*n) - 1]`. -/
def percentile (sorted : List Int) (numerator denominator : Nat) : Option Int :=
  let rank := (numerator * sorted.length + denominator - 1) / denominator
  sorted[min (rank - 1) (sorted.length - 1)]?

/-- How often every tool is called, most called first and then by name. -/
def toolCallCounts (exchanges : List Exchange) : List (String × Nat) :=
  let tools := exchanges.filterMap Exchange.toolName
  (tools.dedup.map fun tool => (tool, tools.count tool)).insertionSort fun a b =>
    b.2 < a.2 ∨ (a.2 = b.2 ∧ a.1 ≤ b.1)

def computeStats (exchanges : List Exchange) (notifications : List NotificationEvent) : SessionStats :=
  let latencies := (exchanges.filterMap Exchange.latencyNs).insertionSort (· ≤ ·)
  let having (statuses : List ExchangeStatus) := exchanges.countP fun e => statuses.contains e.status
  { totalExchanges := exchanges.length
    ok := having [.ok, .subscribed]
    errors := having [.error, .toolError]
    unanswered := having [.unanswered]
    cancelled := having [.cancelled]
    orphanResponses := having [.orphanResponse]
    notifications := notifications.length
    latencyP50Ns := percentile latencies 1 2
    latencyP95Ns := percentile latencies 19 20
    latencyMaxNs := latencies.getLast?
    toolCallCounts := toolCallCounts exchanges }

/-- The correlated view of an ordered message list. -/
def correlate (codec : Codec) (messages : List StoredMessage) : SessionModel :=
  let state := messages.foldl (Correlation.step codec) .start
  let exchanges := state.exchanges.insertionSort fun a b => a.sortKey ≤ b.sortKey
  { exchanges := exchanges
    notifications := state.notifications
    stats := computeStats exchanges state.notifications }

end McpTracer.Model
