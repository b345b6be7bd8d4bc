import McpTracer.Protocol.Message

/-! Messages as a session stores them: columns and payload text.

Columns are what a store returns, not a function of the payload. Ids that occur
inside a payload are compared with the id column through their text encoding.
-/

set_option autoImplicit false

namespace McpTracer.Storage
open McpTracer.Json McpTracer.Protocol

structure StoredMessage where
  seq : Nat
  tsNs : Int
  direction : String
  messageKind : String
  rpcId : Option String
  method : Option String
  toolName : Option String
  payload : String
  payloadBytes : Nat
  isError : Bool
  errorCode : Option Int
  deriving DecidableEq

namespace StoredMessage

def ofMessage (codec : Codec) (message : McpMessage) : StoredMessage where
  seq := message.seq
  tsNs := message.timestampNs
  direction := message.direction.asDbStr
  messageKind := message.kind.asDbStr
  rpcId := message.idJson codec
  method := message.method
  toolName := message.toolName
  payload := codec.toString message.payload
  payloadBytes := message.payloadBytes
  isError := message.isError
  errorCode := message.errorCode

/-- The text of the string or number at a path of the payload. -/
def idAt (codec : Codec) (path : List String) (message : StoredMessage) : Option String :=
  (((codec.fromStr message.payload).bind (Value.getPath path)).filter fun id =>
    id.isString || id.isNumber).map codec.toString

/-- Sequence numbers increase from one message to the next. -/
def Increasing (messages : List StoredMessage) : Prop :=
  messages.Pairwise fun earlier later => earlier.seq < later.seq

end StoredMessage

end McpTracer.Storage
