import McpTracer.Foundation.Outcome
import McpTracer.Foundation.SortedMap
import McpTracer.Foundation.Transducer
import McpTracer.Model.Correlate

/-! A mock server that answers with the responses of a recorded session.

The inventory lists the recorded exchanges in order, each to be used once. A strategy
says which unused exchange a live request is paired with.
-/

set_option autoImplicit false

namespace McpTracer.Model
open McpTracer.Foundation McpTracer.Json McpTracer.Protocol McpTracer.Storage

/-- How a live client request is paired with a recorded exchange. -/
inductive MatchStrategy where
  /-- Method, tool and canonical parameters, with no fallback. -/
  | exact
  | method
  /-- An exact match, or the next exchange of the same method and tool. -/
  | methodAndParams
  /-- Method and tool, and the recorded parameters occur in the live ones. -/
  | subset
  | sequential
  deriving DecidableEq

inductive MockSessionError where
  | invalidPayload (seq : Nat) (side : String)
  | missingMethod (seq : Nat)
  deriving DecidableEq

/-- How building an inventory can fail: by an error, or by a panic with its message. -/
inductive MockSessionFailure where
  | error (error : MockSessionError)
  | panic (message : String)
  deriving DecidableEq

structure MockResponse where
  response : Value
  sourceRequestSeq : Nat
  sourceResponseSeq : Nat
  deriving DecidableEq

structure RecordedExchange where
  method : String
  toolName : Option String
  paramsKey : String
  params : Value
  response : Value
  sourceRequestSeq : Nat
  sourceResponseSeq : Nat
  used : Bool
  deriving DecidableEq

structure MockSession where
  exchanges : List RecordedExchange
  strategy : MatchStrategy
  deriving DecidableEq

/-! ## Reading requests -/

def methodOf (request : Value) : Option String := (request.get "method").bind Value.asStr

def toolNameOf (request : Value) : Option String :=
  if methodOf request = some "tools/call" then
    ((request.get "params").bind (Value.get "name")).bind Value.asStr
  else none

def paramsOf (request : Value) : Value := (request.get "params").getD .null

mutual
/-- Objects with their keys in order. -/
def canonicalize : Value → Value
  | .object fields => .object (canonicalizeFields fields)
  | .array items => .array (canonicalizeItems items)
  | value => value
def canonicalizeItems : List Value → List Value
  | [] => []
  | item :: rest => canonicalize item :: canonicalizeItems rest
def canonicalizeFields : List (String × Value) → List (String × Value)
  | [] => []
  | (key, value) :: rest => SortedMap.insert key (canonicalize value) (canonicalizeFields rest)
end

def paramsKeyOf (codec : Codec) (request : Value) : String :=
  codec.toString (canonicalize (paramsOf request))

/-- Every recorded member is in the live object with an equal value. -/
def paramsSubset : Value → Value → Bool
  | .null, _ => true
  | .object recorded, .object live =>
    recorded.all fun field => ((live.lookup field.1).map (Value.beq field.2)).getD false
  | .object _, _ => false
  | recorded, live => recorded.beq live

/-! ## The inventory -/

def bySeq (messages : List StoredMessage) : Table Nat StoredMessage :=
  Table.ofList (messages.map fun message => (message.seq, message))

namespace MockSession

def invalidPayload (side : String) (seq : Nat) : MockSessionFailure := .error (.invalidPayload seq side)

/-- A status that puts an exchange into the inventory. -/
def isServed (exchange : Exchange) : Bool :=
  exchange.origin = .clientToServer && [ExchangeStatus.ok, .error].contains exchange.status

/-- The inventory entry of an exchange that has both a request and a response. -/
def recordExchange (codec : Codec) (bySeq : Table Nat StoredMessage) (requestSeq responseSeq : Nat) :
    Except MockSessionFailure RecordedExchange := do
  let requestMessage ← require (bySeq requestSeq)
    (.panic "correlated request seq must exist in source messages")
  let responseMessage ← require (bySeq responseSeq)
    (.panic "correlated response seq must exist in source messages")
  let request ← require (codec.fromStr requestMessage.payload) (invalidPayload "request" requestSeq)
  let response ← require (codec.fromStr responseMessage.payload) (invalidPayload "response" responseSeq)
  let method ← require (methodOf request) (.error (.missingMethod requestSeq))
  return {
    method := method
    toolName := toolNameOf request
    paramsKey := paramsKeyOf codec request
    params := paramsOf request
    response := response
    sourceRequestSeq := requestSeq
    sourceResponseSeq := responseSeq
    used := false }

def recordExchanges (codec : Codec) (bySeq : Table Nat StoredMessage) :
    List Exchange → Except MockSessionFailure (List RecordedExchange)
  | [] => .ok []
  | exchange :: rest =>
    match isServed exchange, exchange.requestSeq, exchange.responseSeq with
    | true, some requestSeq, some responseSeq => do
      let recorded ← recordExchange codec bySeq requestSeq responseSeq
      let others ← recordExchanges codec bySeq rest
      return recorded :: others
    | _, _, _ => recordExchanges codec bySeq rest

def fromMessagesWithStrategy (codec : Codec) (messages : List StoredMessage) (strategy : MatchStrategy) :
    Except MockSessionFailure MockSession := do
  let exchanges ← recordExchanges codec (bySeq messages) (correlate codec messages).exchanges
  return { exchanges := exchanges, strategy := strategy }

def fromMessages (codec : Codec) (messages : List StoredMessage) : Except MockSessionFailure MockSession :=
  fromMessagesWithStrategy codec messages .methodAndParams

def isEmpty (session : MockSession) : Bool := session.exchanges.isEmpty

/-! ## Matching -/

/-- Whether an unused exchange was recorded for this method. -/
def sameMethod (method : String) (exchange : RecordedExchange) : Bool :=
  !exchange.used && exchange.method == method

def sameTool (method : String) (request : Value) (exchange : RecordedExchange) : Bool :=
  sameMethod method exchange && exchange.toolName == toolNameOf request

def sameCall (codec : Codec) (method : String) (request : Value) (exchange : RecordedExchange) : Bool :=
  sameTool method request exchange && exchange.paramsKey == paramsKeyOf codec request

/-- The exchange that a strategy takes for a request of this method. -/
def position (codec : Codec) (session : MockSession) (method : String) (request : Value) : Option Nat :=
  match session.strategy with
  | .sequential => session.exchanges.findIdx? fun exchange => !exchange.used
  | .method => session.exchanges.findIdx? (sameMethod method)
  | .exact => session.exchanges.findIdx? (sameCall codec method request)
  | .methodAndParams =>
    (session.exchanges.findIdx? (sameCall codec method request)).or
      (session.exchanges.findIdx? (sameTool method request))
  | .subset => session.exchanges.findIdx? fun exchange =>
      sameTool method request exchange && paramsSubset exchange.params (paramsOf request)

/-- The taken exchange is used up. -/
def take (session : MockSession) (index : Nat) : MockSession × Option MockResponse :=
  ({ session with
      exchanges := session.exchanges.modify index fun exchange => { exchange with used := true } },
    session.exchanges[index]?.map fun exchange =>
      ⟨exchange.response, exchange.sourceRequestSeq, exchange.sourceResponseSeq⟩)

def matchRequest (codec : Codec) (session : MockSession) (request : Value) :
    MockSession × Option MockResponse :=
  match (methodOf request).bind fun method => session.position codec method request with
  | some index => session.take index
  | none => (session, none)

/-- The answers to requests that arrive one after another. -/
def replay (codec : Codec) (session : MockSession) (requests : List Value) : List (Option MockResponse) :=
  (feed (fun session request =>
    let matched := matchRequest codec session request
    (matched.1, [matched.2])) session requests).2

end MockSession

end McpTracer.Model
