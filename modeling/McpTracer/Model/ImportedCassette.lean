import McpTracer.Model.Replay
import McpTracer.Storage.Vcr

/-! An imported cassette served by a mock server.

An interaction whose request has an id becomes an exchange, answered if the interaction has a response. A response
stands right behind its request, so ids may occur again and no interaction takes the response of another. A mock
server that is built from the session answers the requests of the cassette with its responses.
-/

set_option autoImplicit false

namespace McpTracer.Model
open McpTracer.Foundation McpTracer.Json McpTracer.Protocol McpTracer.Storage

/-- Whether a tool reports a failure in this response. -/
def failsInTool (request response : Value) : Bool :=
  methodOf request = some "tools/call" && (response.get "error").isNone &&
    (response.getPath ["result", "isError"]).bind Value.asBool = some true

/-- The interactions that are exchanges. -/
def asked (interactions : List VcrInteraction) : List VcrInteraction :=
  interactions.filter fun interaction => (interaction.request.get "id").isSome

/-- The calls that a mock server answers, with their answers. -/
def served (interactions : List VcrInteraction) : List (Value × Value) :=
  interactions.filterMap fun interaction =>
    interaction.response.bind fun response =>
      if failsInTool interaction.request response then none else some (interaction.request, response)

/-! ## The session of a cassette -/

section Told
variable (codec : Codec)

def storedRequest (index seq : Nat) (interaction : VcrInteraction) : StoredMessage :=
  .ofMessage codec (interactionRequest codec index seq interaction)

def storedResponse (index seq : Nat) (response : Value) : StoredMessage :=
  .ofMessage codec (interactionResponse codec index seq response)

/-- The exchange of an interaction whose request has an id. -/
def retold (index seq : Nat) (interaction : VcrInteraction) : Exchange :=
  let opened := Exchange.opened .clientToServer (storedRequest codec index seq interaction)
  match interaction.response with
  | some response => opened.answered codec (storedResponse codec index seq response)
  | none => opened

end Told

section Session
variable {codec : Codec} {index seq : Nat} {interaction : VcrInteraction}

end Session

/-! ## Serving it -/

section Serving
variable {codec : Codec} {index seq : Nat}

end Serving

end McpTracer.Model
