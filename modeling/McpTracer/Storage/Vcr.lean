import McpTracer.Storage.Transfer

/-! Cassettes of another recorder, read as sessions.

A cassette lists interactions, each a request and what was answered to it. It has no timestamps and no policy: the
times are made up in the order of the interactions, and the session counts as unredacted.
-/

set_option autoImplicit false

namespace McpTracer.Storage
open McpTracer.Foundation McpTracer.Json McpTracer.Protocol

structure VcrInteraction where
  request : Value
  response : Option Value

def interactionRequest (codec : Codec) (index seq : Nat) (interaction : VcrInteraction) : McpMessage where
  seq := seq
  timestampNs := index * 2000000
  direction := .clientToServer
  payload := interaction.request
  payloadBytes := (codec.toString interaction.request).utf8ByteSize

def interactionResponse (codec : Codec) (index seq : Nat) (response : Value) : McpMessage where
  seq := seq + 1
  timestampNs := index * 2000000 + 1000000
  direction := .serverToClient
  payload := response
  payloadBytes := (codec.toString response).utf8ByteSize

namespace Database

/-- A session with the defaults of the table. -/
def newSession (id : Uuid) (client serverCommand transport : String) (startedAtNs : Int) : SessionRow where
  id := id
  client := client
  serverCommand := serverCommand
  transport := transport
  startedAtNs := startedAtNs
  endedAtNs := none
  totalMessages := 0
  droppedMessages := 0
  redactionPolicy := "none"
  redactionKeysJson := "[]"
  tags := "[]"

def createSession (db : Database) (id : Uuid) (client serverCommand transport : String) (startedAtNs : Int) :
    Except StoreError Database :=
  db.insertSession (newSession id client serverCommand transport startedAtNs)

def writtenRow (codec : Codec) (id : Uuid) (message : McpMessage) : MessageRow :=
  .ofStored id (wrapI64 message.seq) (wrapI64 message.payloadBytes) (.ofMessage codec message)

def writeMessages (codec : Codec) (db : Database) (id : Uuid) (messages : List McpMessage) :
    Except StoreError Database :=
  db.insertMessages (messages.map (writtenRow codec id))

/-- The end is noted with the number of messages. -/
def closedRow (id : Uuid) (endedAtNs totalMessages : Int) (row : SessionRow) : SessionRow :=
  if row.id = id then { row with endedAtNs := some endedAtNs, totalMessages := totalMessages } else row

@[simp] theorem closedRow_id (id : Uuid) (endedAtNs totalMessages : Int) (row : SessionRow) :
    (closedRow id endedAtNs totalMessages row).id = row.id := by
  unfold closedRow
  split_ifs <;> rfl

theorem map_closedRow (sessions : List SessionRow) (id : Uuid) (endedAtNs totalMessages : Int) :
    (sessions.map (closedRow id endedAtNs totalMessages)).map SessionRow.id = sessions.map SessionRow.id := by
  rw [List.map_map]
  exact List.map_congr_left fun row _ => closedRow_id id endedAtNs totalMessages row

def closeSession (db : Database) (id : Uuid) (endedAtNs : Int) : Database where
  sessions := db.sessions.map
    (closedRow id endedAtNs (db.messages.filter fun message => message.sessionId = id).length)
  messages := db.messages
  uniqueIds := by
    rw [map_closedRow]
    exact db.uniqueIds
  uniqueKeys := db.uniqueKeys
  owned := by
    rw [map_closedRow]
    exact db.owned

end Database

section Import
variable {codec : Codec} {index seq : Nat} {interactions : List VcrInteraction} {messages : List McpMessage}

end Import

end McpTracer.Storage
