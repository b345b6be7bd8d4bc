import McpTracer.Json.Codec

/-! JSON-RPC messages and what is read off their payloads. -/

set_option autoImplicit false

namespace McpTracer.Protocol
open McpTracer.Json

inductive Direction where
  | clientToServer
  | serverToClient
  deriving DecidableEq, Repr

namespace Direction

def asDbStr : Direction → String
  | .clientToServer => "c2s"
  | .serverToClient => "s2c"

def fromDbStr : String → Option Direction
  | "c2s" => some .clientToServer
  | "s2c" => some .serverToClient
  | _ => none

/-- The direction a reply travels. -/
def opposite : Direction → Direction
  | .clientToServer => .serverToClient
  | .serverToClient => .clientToServer

@[simp] theorem fromDbStr_asDbStr (direction : Direction) :
    fromDbStr direction.asDbStr = some direction := by
  cases direction <;> rfl

theorem fromDbStr_eq_some_iff (text : String) (direction : Direction) :
    fromDbStr text = some direction ↔ text = direction.asDbStr := by
  constructor
  · intro parsed
    unfold fromDbStr at parsed
    split at parsed <;> cases parsed <;> rfl
  · rintro rfl
    exact fromDbStr_asDbStr direction

@[simp] theorem opposite_opposite (direction : Direction) : direction.opposite.opposite = direction := by
  cases direction <;> rfl

end Direction

inductive MessageKind where
  | request
  | response
  | notification
  deriving DecidableEq, Repr

def MessageKind.asDbStr : MessageKind → String
  | .request => "request"
  | .response => "response"
  | .notification => "notification"

structure McpMessage where
  seq : Nat
  timestampNs : Int
  direction : Direction
  payload : Value
  payloadBytes : Nat
  deriving DecidableEq

namespace McpMessage

def method (message : McpMessage) : Option String := (message.payload.get "method").bind Value.asStr

def id (message : McpMessage) : Option Value := message.payload.get "id"

def idJson (codec : Codec) (message : McpMessage) : Option String := message.id.map codec.toString

def toolName (message : McpMessage) : Option String :=
  if message.method = some "tools/call" then
    (message.payload.get "params").bind fun params => (params.get "name").bind Value.asStr
  else none

def isError (message : McpMessage) : Bool := (message.payload.get "error").isSome

/-- A tool failure is reported in the result, not in the `error` member. -/
def isToolError (message : McpMessage) : Bool :=
  (message.payload.getPath ["result", "isError"]).bind Value.asBool = some true

def errorCode (message : McpMessage) : Option Int :=
  (message.payload.get "error").bind fun error => (error.get "code").bind Value.asI64

def isNotification (message : McpMessage) : Bool := message.id.isNone && message.method.isSome

def isResponse (message : McpMessage) : Bool := message.id.isSome && message.method.isNone

def kind (message : McpMessage) : MessageKind :=
  if message.isResponse then .response
  else if message.isNotification then .notification
  else .request

end McpMessage

end McpTracer.Protocol
