import McpTracer.Model.RecordedCalls
import McpTracer.Proxy.ServeLoop

/-! A session that is served and recorded again.

A client makes the calls of a recorded session against a mock server that was built from it, and the dialogue is
recorded. The client may send before it has its answers, as long as no two calls that are open have one id. However
the two take turns, the new session has the calls of the old one with their responses, so a comparison of the two
finds nothing exactly if the old session consists of calls that the mock server can answer.
-/

set_option autoImplicit false

namespace McpTracer.Proxy
open McpTracer.Foundation McpTracer.Json McpTracer.Protocol McpTracer.Model McpTracer.Storage

/-- The calls of a session that a mock server has the responses to, in recorded order. -/
def servedCalls (codec : Codec) (messages : List StoredMessage) : List Value :=
  ((correlate codec messages).exchanges.filter Exchange.isListed).filterMap fun exchange =>
    exchange.requestSeq.bind (payloadsBySeq codec messages)

/-- The responses to these calls. -/
def servedResponses (codec : Codec) (messages : List StoredMessage) : List Value :=
  ((correlate codec messages).exchanges.filter Exchange.isListed).filterMap fun exchange =>
    exchange.responseSeq.bind (payloadsBySeq codec messages)

/-- A client, the mock server and the recorder between them. -/
structure Rerun where
  serving : Serving
  /-- The calls that the client has not sent yet. -/
  todo : List Value
  /-- What was sent and the loop has not read yet. -/
  waiting : List Value
  recorded : List McpMessage
  /-- What the loop ended with. -/
  failure : Option String

inductive RerunStep where
  | send (timestampNs : Int) (payloadBytes : Nat)
  | answer (timestampNs : Int) (payloadBytes : Nat)

namespace Rerun

def start (mock : MockSession) (calls : List Value) : Rerun := ⟨⟨mock, []⟩, calls, [], [], none⟩

def capture (rerun : Rerun) (timestampNs : Int) (direction : Direction) (payload : Value) (payloadBytes : Nat) :
    Rerun where
  serving := rerun.serving
  todo := rerun.todo
  waiting := rerun.waiting
  recorded := rerun.recorded ++ [⟨rerun.recorded.length, timestampNs, direction, payload, payloadBytes⟩]
  failure := rerun.failure

section Steps
variable (codec : Codec) (strict : Bool)

/-- The client sends a call unless one with its id is open; the loop answers what it has read. -/
def perform (rerun : Rerun) : RerunStep → Rerun
  | .send timestampNs payloadBytes =>
    match rerun.todo with
    | [] => rerun
    | request :: rest =>
      if rerun.waiting.any fun other => decide (other.get "id" = request.get "id") then rerun
      else
        { rerun with todo := rest, waiting := rerun.waiting ++ [request] }.capture timestampNs .clientToServer request
          payloadBytes
  | .answer timestampNs payloadBytes =>
    match rerun.failure, rerun.waiting with
    | none, request :: rest =>
      let selected := (rerun.serving.mock.matchRequest codec request).2
      match rerun.serving.handleRequest codec strict request with
      | (serving, .error err) => { rerun with serving := serving, waiting := rest, failure := some err }
      | (serving, .ok ()) => { rerun with serving := serving, waiting := rest }.capture timestampNs .serverToClient
          (answerOf request selected) payloadBytes
    | _, _ => rerun

def run (mock : MockSession) (calls : List Value) (steps : List RerunStep) : Rerun :=
  steps.foldl (perform codec strict) (start mock calls)

end Steps

/-- Every call was sent and has its answer. -/
def Finished (rerun : Rerun) : Prop := rerun.todo = [] ∧ rerun.waiting = []

def stored (codec : Codec) (rerun : Rerun) : List StoredMessage := rerun.recorded.map (StoredMessage.ofMessage codec)

/-! ## The exchanges of the dialogue -/

/-- The pass over a dialogue has the answered calls before the open ones. -/
structure Correlated (codec : Codec) (told : List AnsweredCall) (asked : List McpMessage) (state : Correlation) :
    Prop where
  exchanges : state.exchanges = told.map (AnsweredCall.exchange codec) ++
    asked.map fun request => Exchange.opened .clientToServer (.ofMessage codec request)
  pending : ∀ position request, asked[position]? = some request → ∀ id, request.idJson codec = some id →
    state.pending (.serverToClient, id) = some (told.length + position)

section
variable {codec : Codec} {told : List AnsweredCall} {asked : List McpMessage} {state : Correlation}

theorem Correlated.asks (correlated : Correlated codec told asked state) {request : McpMessage}
    (side : request.direction = .clientToServer) (kind : request.kind = .request)
    (fresh : ∀ other ∈ asked, other.idJson codec ≠ request.idJson codec) :
    Correlated codec told (asked ++ [request]) (state.step codec (.ofMessage codec request)) := by
  have stepped : state.step codec (.ofMessage codec request) =
      state.request .clientToServer (.ofMessage codec request) := by
    simp [Correlation.step, StoredMessage.ofMessage, side, kind, MessageKind.asDbStr]
  have column : (StoredMessage.ofMessage codec request).rpcId = request.idJson codec := rfl
  rw [stepped]
  refine ⟨?_, fun position other found id identified => ?_⟩
  · simp [Correlation.request, correlated.exchanges]
  · simp only [Correlation.request, column]
    rcases Nat.lt_or_ge position asked.length with earlier | last
    · rw [List.getElem?_append_left earlier] at found
      have pending := correlated.pending position other found id identified
      cases own : request.idJson codec with
      | none => exact pending
      | some key =>
        have differs : id ≠ key := fun same =>
          fresh other (List.mem_of_getElem? found) (identified.trans (same ▸ own.symm))
        simpa [Table.insert_other, differs, Direction.opposite] using pending
    · rw [List.getElem?_append_right last] at found
      obtain ⟨position', rfl⟩ := Nat.exists_eq_add_of_le last
      cases position' with
      | zero =>
        obtain rfl : request = other := by simpa using found
        simp [identified, correlated.exchanges, Direction.opposite]
      | succ more => simp at found

theorem Correlated.answers {call : AnsweredCall} (correlated : Correlated codec told (call.request :: asked) state)
    (apart : ∀ other ∈ asked, other.idJson codec ≠ call.request.idJson codec) :
    Correlated codec (told ++ [call]) asked (state.step codec (.ofMessage codec call.response)) := by
  obtain ⟨identity, identified⟩ := Option.isSome_iff_exists.1 call.identified
  have key : call.request.idJson codec = some (codec.toString identity) := by rw [McpMessage.idJson, identified]; rfl
  have answered : call.response.id = some identity := call.same.trans identified
  have column : (StoredMessage.ofMessage codec call.response).rpcId = some (codec.toString identity) := by
    simp [StoredMessage.ofMessage, McpMessage.idJson, answered]
  have kind : call.response.kind = .response := by simp [McpMessage.kind, McpMessage.isResponse, answered, call.unnamed]
  have open_ := correlated.pending 0 call.request rfl _ key
  have stepped : state.step codec (.ofMessage codec call.response) =
      { state with
        exchanges := state.exchanges.modify told.length fun exchange =>
          exchange.answered codec (.ofMessage codec call.response)
        pending := state.pending.erase (.serverToClient, codec.toString identity) } := by
    have shape : state.step codec (.ofMessage codec call.response) =
        state.response codec .serverToClient (.ofMessage codec call.response) := by
      simp [Correlation.step, StoredMessage.ofMessage, call.answers, kind, MessageKind.asDbStr]
    rw [shape, Correlation.response, column]
    simp [open_]
  rw [stepped]
  refine ⟨?_, fun position other found id also => ?_⟩
  · have place := modify_append_cons (told.map (AnsweredCall.exchange codec))
      (.opened .clientToServer (.ofMessage codec call.request)) (asked.map fun request => .opened .clientToServer (.ofMessage codec request)) fun exchange =>
        exchange.answered codec (.ofMessage codec call.response)
    rw [List.length_map] at place
    dsimp only
    rw [correlated.exchanges, List.map_cons, place]
    simp [AnsweredCall.exchange]
  · have differs : id ≠ codec.toString identity := fun same =>
      apart other (List.mem_of_getElem? found) (also.trans (same ▸ key.symm))
    have pending := correlated.pending (position + 1) other found id also
    rw [List.length_append, List.length_singleton, Nat.add_right_comm, Nat.add_assoc]
    simpa [Table.erase_other, differs] using pending

end

/-! ## What the loop answers -/

/-- Both payloads of the call are read back as they were written. -/
structure Kept (codec : Codec) (call : AnsweredCall) : Prop where
  request : codec.fromStr (codec.toString call.request.payload) = some call.request.payload
  response : codec.fromStr (codec.toString call.response.payload) = some call.response.payload

/-- The entry was made from the call and is not used up. -/
structure Holds (codec : Codec) (entry : RecordedExchange) (call : AnsweredCall) : Prop where
  made : entry.MadeFrom codec call.request.payload
  response : entry.response = call.response.payload
  unused : entry.used = false

/-- The loop answers the call of the first entry that is left with its response as it was recorded. -/
theorem handleRequest_held {codec : Codec} {serving : Serving} {spent rest : List RecordedExchange}
    {entry : RecordedExchange} {call : AnsweredCall} (strict : Bool) (kept : Kept codec call)
    (inventory : serving.mock.exchanges = spent ++ entry :: rest) (used : ∀ entry ∈ spent, entry.used = true)
    (holds : Holds codec entry call) :
    answerOf call.request.payload (serving.mock.matchRequest codec call.request.payload).2 = call.response.payload ∧
      serving.handleRequest codec strict call.request.payload =
        (⟨{ serving.mock with exchanges := spent ++ { entry with used := true } :: rest },
          serving.stdout ++ encodeStdioFrame codec call.response.payload⟩, .ok ()) := by
  have matched := MockSession.matchRequest_first inventory used holds.unused holds.made
  obtain ⟨method, named⟩ := Option.isSome_iff_exists.1 call.named
  obtain ⟨identity, identified⟩ := Option.isSome_iff_exists.1 call.identified
  have named' : methodOf call.request.payload = some method := named
  have identified' : call.request.payload.get "id" = some identity := identified
  have answered : call.response.payload.get "id" = some identity := call.same.trans identified
  have isObject := Value.isObject_of_get answered
  have same := Value.insert_of_get (codec.fromStr_wellFormed kept.response) answered
  constructor
  · rw [matched]
    simp [answerOf, RecordedExchange.answer, holds.response, identified', same]
  · rw [Serving.handleRequest, named', identified', matched]
    simp [RecordedExchange.answer, holds.response, responseWithId, isObject, same, Serving.sendFrame]

/-! ## What every step keeps -/

/-- The same call, made at another time. -/
def Repeats (again call : AnsweredCall) : Prop :=
  again.request.payload = call.request.payload ∧ again.response.payload = call.response.payload

/-- The request of the call, sent at another time. -/
def Resends (request : McpMessage) (call : AnsweredCall) : Prop :=
  request.direction = .clientToServer ∧ request.payload = call.request.payload

/-- How far the dialogue has come: calls that are answered, calls that are open and calls that are left. -/
structure Standing (codec : Codec) (rerun : Rerun) (answered open_ left : List AnsweredCall) (told : List AnsweredCall)
    (asked : List McpMessage) : Prop where
  retold : List.Forall₂ Repeats told answered
  resent : List.Forall₂ Resends asked open_
  waiting : rerun.waiting = open_.map fun call => call.request.payload
  todo : rerun.todo = left.map fun call => call.request.payload
  apart : (open_.map fun call => call.request.id).Nodup
  running : rerun.failure = none
  inventory : ∃ spent entries, rerun.serving.mock.exchanges = spent ++ entries ∧
    (∀ entry ∈ spent, entry.used = true) ∧ List.Forall₂ (Holds codec) entries (open_ ++ left)
  stdout : rerun.serving.stdout = told.flatMap fun call => encodeStdioFrame codec call.response.payload
  correlated : Correlated codec told asked ((rerun.stored codec).foldl (Correlation.step codec) .start)
  numbered : rerun.recorded.map McpMessage.seq = List.range rerun.recorded.length
  ordered : (told.map (fun call => call.request.seq) ++ asked.map McpMessage.seq).Pairwise (· < ·)
  members : ∀ call ∈ told, call.request ∈ rerun.recorded ∧ call.response ∈ rerun.recorded
  sent : ∀ request ∈ asked, request ∈ rerun.recorded
  identified : ∀ message ∈ rerun.recorded, message.id.isSome
  readsBack : ∀ message ∈ rerun.recorded, codec.fromStr (codec.toString message.payload) = some message.payload

/-- The dialogue has made its way through some of the calls. -/
def Sound (codec : Codec) (calls : List AnsweredCall) (rerun : Rerun) : Prop :=
  ∃ answered open_ left told asked, calls = answered ++ open_ ++ left ∧
    Standing codec rerun answered open_ left told asked

variable {codec : Codec} {calls : List AnsweredCall} {rerun : Rerun}

theorem capture_numbered {timestampNs : Int} {direction : Direction} {payload : Value} {payloadBytes : Nat}
    (numbered : rerun.recorded.map McpMessage.seq = List.range rerun.recorded.length) :
    (rerun.capture timestampNs direction payload payloadBytes).recorded.map McpMessage.seq =
      List.range (rerun.capture timestampNs direction payload payloadBytes).recorded.length := by
  simp [capture, numbered, List.range_succ]

theorem seq_lt_of_mem (numbered : rerun.recorded.map McpMessage.seq = List.range rerun.recorded.length)
    {message : McpMessage} (member : message ∈ rerun.recorded) : message.seq < rerun.recorded.length := by
  have listed : message.seq ∈ rerun.recorded.map McpMessage.seq := List.mem_map_of_mem member
  rwa [numbered, List.mem_range] at listed

/-- Texts of different ids are different. -/
theorem idJson_ne {message other : McpMessage} (formed : message.payload.wellFormed = true)
    (also : other.payload.wellFormed = true) (differs : message.id ≠ other.id) (identified : message.id.isSome) :
    message.idJson codec ≠ other.idJson codec := by
  obtain ⟨id, present⟩ := Option.isSome_iff_exists.1 identified
  intro same
  cases found : other.id with
  | none => simp [McpMessage.idJson, present, found] at same
  | some key =>
    simp only [McpMessage.idJson, present, found, Option.map_some, Option.some.injEq] at same
    have equal := codec.toString_injective (Value.wellFormed_get formed present) (Value.wellFormed_get also found) same
    exact differs (by rw [present, found, equal])

theorem Sound.send (sound : rerun.Sound codec calls) (kept : ∀ call ∈ calls, Kept codec call) (strict : Bool)
    (timestampNs : Int) (payloadBytes : Nat) :
    (rerun.perform codec strict (.send timestampNs payloadBytes)).Sound codec calls := by
  obtain ⟨answered, open_, left, told, asked, rfl, standing⟩ := sound
  cases left with
  | nil =>
    have done : rerun.todo = [] := standing.todo
    simp only [perform, done]
    exact ⟨answered, open_, [], told, asked, rfl, standing⟩
  | cons call rest =>
    have next : rerun.todo = call.request.payload :: rest.map fun call => call.request.payload := standing.todo
    simp only [perform, next]
    split_ifs with busy
    · exact ⟨answered, open_, call :: rest, told, asked, rfl, standing⟩
    have free : ∀ other ∈ open_, other.request.id ≠ call.request.id := fun other member same => by
      refine busy (List.any_eq_true.2 ⟨other.request.payload, ?_, decide_eq_true same⟩)
      rw [standing.waiting]
      exact List.mem_map_of_mem (f := fun call : AnsweredCall => call.request.payload) member
    have own := kept call (by simp)
    set request : McpMessage :=
      ⟨rerun.recorded.length, timestampNs, .clientToServer, call.request.payload, payloadBytes⟩ with requestEq
    have fresh : ∀ other ∈ asked, other.idJson codec ≠ request.idJson codec := fun other member => by
      obtain ⟨source, inside, side, payload⟩ := exists_of_forall₂_right standing.resent.flip member
      have formed := codec.fromStr_wellFormed (standing.readsBack other (standing.sent other member))
      refine idJson_ne formed (codec.fromStr_wellFormed own.request) ?_ ?_
      · have same : other.id = source.request.id := congrArg (Value.get "id") payload
        rw [same]
        exact free source inside
      · exact standing.identified other (standing.sent other member)
    have kind : request.kind = .request := by
      obtain ⟨method, named⟩ := Option.isSome_iff_exists.1 call.named
      obtain ⟨id, identified⟩ := Option.isSome_iff_exists.1 call.identified
      have named' : request.method = some method := named
      have identified' : request.id = some id := identified
      simp [McpMessage.kind, McpMessage.isResponse, McpMessage.isNotification, named', identified']
    have stepped := standing.correlated.asks rfl kind fresh
    refine ⟨answered, open_ ++ [call], rest, told, asked ++ [request], by simp, {
      retold := standing.retold
      resent := forall₂_concat standing.resent.length_eq |>.2 ⟨standing.resent, rfl, rfl⟩
      waiting := by simp [capture, standing.waiting]
      todo := rfl
      apart := ?_
      running := standing.running
      inventory := ?_
      stdout := standing.stdout
      correlated := ?_
      numbered := capture_numbered standing.numbered
      ordered := ?_
      members := fun other member => (standing.members other member).imp (List.mem_append_left _)
        (List.mem_append_left _)
      sent := ?_
      identified := ?_
      readsBack := ?_ }⟩
    · rw [List.map_append, List.map_singleton]
      refine List.nodup_append.2 ⟨standing.apart, List.nodup_singleton _, ?_⟩
      rintro id member own' same rfl
      obtain ⟨other, inside, rfl⟩ := List.mem_map.1 member
      exact free other inside (List.mem_singleton.1 same)
    · obtain ⟨spent, entries, shape, used, holds⟩ := standing.inventory
      exact ⟨spent, entries, shape, used, by simpa using holds⟩
    · simpa [stored, capture, requestEq] using stepped
    · rw [List.map_append, ← List.append_assoc]
      refine List.pairwise_append.2 ⟨standing.ordered, List.pairwise_singleton _ _, fun seq earlier last final => ?_⟩
      obtain rfl := List.mem_singleton.1 final
      rcases List.mem_append.1 earlier with before | before
      · obtain ⟨other, member, rfl⟩ := List.mem_map.1 before
        exact seq_lt_of_mem standing.numbered (standing.members other member).1
      · obtain ⟨other, member, rfl⟩ := List.mem_map.1 before
        exact seq_lt_of_mem standing.numbered (standing.sent other member)
    · exact List.forall_mem_append.2 ⟨fun other member => List.mem_append_left _ (standing.sent other member),
        List.forall_mem_singleton.2 (List.mem_append_right _ List.mem_cons_self)⟩
    · exact List.forall_mem_append.2 ⟨standing.identified, List.forall_mem_singleton.2 call.identified⟩
    · exact List.forall_mem_append.2 ⟨standing.readsBack, List.forall_mem_singleton.2 own.request⟩

theorem Sound.answer (sound : rerun.Sound codec calls) (kept : ∀ call ∈ calls, Kept codec call) (strict : Bool)
    (timestampNs : Int) (payloadBytes : Nat) :
    (rerun.perform codec strict (.answer timestampNs payloadBytes)).Sound codec calls := by
  obtain ⟨answered, open_, left, told, asked, rfl, standing⟩ := sound
  cases open_ with
  | nil =>
    have quiet : rerun.waiting = [] := standing.waiting
    simp only [perform, quiet, standing.running]
    exact ⟨answered, [], left, told, asked, rfl, standing⟩
  | cons call rest =>
    have resent := standing.resent
    cases asked with
    | nil => cases resent
    | cons request asked =>
    obtain ⟨⟨side, payload⟩, others⟩ := List.forall₂_cons.1 resent
    have next : rerun.waiting = call.request.payload :: rest.map fun call => call.request.payload := standing.waiting
    have own := kept call (by simp)
    obtain ⟨spent, entries, shape, used, holds⟩ := standing.inventory
    obtain ⟨entry, entries, holding, later, rfl⟩ := List.forall₂_cons_right_iff.1 holds
    obtain ⟨answers, handled⟩ := handleRequest_held strict own shape used holding
    simp only [perform, standing.running, next, handled, answers]
    set response : McpMessage :=
      ⟨rerun.recorded.length, timestampNs, .serverToClient, call.response.payload, payloadBytes⟩ with responseEq
    have sameId : request.id = call.request.id := congrArg (Value.get "id") payload
    have sameMethod : request.method = call.request.method :=
      congrArg (fun v => (Value.get "method" v).bind Value.asStr) payload
    let again : AnsweredCall := {
      request := request
      response := response
      asks := side
      answers := rfl
      named := sameMethod ▸ call.named
      identified := sameId ▸ call.identified
      same := call.same.trans sameId.symm
      unnamed := call.unnamed }
    obtain ⟨first, distinct⟩ := List.nodup_cons.1 standing.apart
    have apart : ∀ other ∈ asked, other.idJson codec ≠ again.request.idJson codec := fun other member => by
      obtain ⟨source, inside, -, payload'⟩ := exists_of_forall₂_right others.flip member
      have listed := standing.sent other (List.mem_cons_of_mem _ member)
      have formed := codec.fromStr_wellFormed (standing.readsBack other listed)
      have formed' := codec.fromStr_wellFormed (standing.readsBack request (standing.sent request List.mem_cons_self))
      refine idJson_ne formed formed' ?_ (standing.identified other listed)
      have same : other.id = source.request.id := congrArg (Value.get "id") payload'
      rw [same, show again.request.id = call.request.id from sameId]
      exact fun alike => first (List.mem_map.2 ⟨source, inside, alike⟩)
    have stepped := @Correlated.answers codec told asked _ again standing.correlated apart
    refine ⟨answered ++ [call], rest, left, told ++ [again], asked, by simp, {
      retold := forall₂_concat standing.retold.length_eq |>.2 ⟨standing.retold, payload, rfl⟩
      resent := others
      waiting := rfl
      todo := standing.todo
      apart := distinct
      running := rfl
      inventory := ?_
      stdout := by simp [capture, standing.stdout, again, responseEq]
      correlated := ?_
      numbered := capture_numbered standing.numbered
      ordered := ?_
      members := ?_
      sent := fun other member => List.mem_append_left _ (standing.sent other (List.mem_cons_of_mem _ member))
      identified := ?_
      readsBack := ?_ }⟩
    · exact ⟨spent ++ [{ entry with used := true }], entries, by simp [capture],
        List.forall_mem_append.2 ⟨used, List.forall_mem_singleton.2 rfl⟩, later⟩
    · simpa [stored, capture, responseEq, again] using stepped
    · simpa [again] using standing.ordered
    · refine List.forall_mem_append.2 ⟨fun other member => (standing.members other member).imp
        (List.mem_append_left _) (List.mem_append_left _), List.forall_mem_singleton.2 ⟨?_, ?_⟩⟩
      · exact List.mem_append_left _ (standing.sent request List.mem_cons_self)
      · exact List.mem_append_right _ List.mem_cons_self
    · exact List.forall_mem_append.2 ⟨standing.identified, List.forall_mem_singleton.2 (call.same ▸ call.identified)⟩
    · exact List.forall_mem_append.2 ⟨standing.readsBack, List.forall_mem_singleton.2 own.response⟩

theorem Sound.run (sound : rerun.Sound codec calls) (kept : ∀ call ∈ calls, Kept codec call) (strict : Bool)
    (steps : List RerunStep) : (steps.foldl (perform codec strict) rerun).Sound codec calls := by
  induction steps generalizing rerun with
  | nil => exact sound
  | cons step rest ih =>
    cases step with
    | send timestampNs payloadBytes => exact ih (sound.send kept strict timestampNs payloadBytes)
    | answer timestampNs payloadBytes => exact ih (sound.answer kept strict timestampNs payloadBytes)

/-- What is left to do. -/
def left (rerun : Rerun) : Nat := 2 * rerun.todo.length + rerun.waiting.length

/-- No dialogue is stuck: what is waiting can be answered, and then the next call can be sent. -/
theorem Sound.finish (sound : rerun.Sound codec calls) (kept : ∀ call ∈ calls, Kept codec call) (strict : Bool) :
    ∃ more : List RerunStep, (more.foldl (perform codec strict) rerun).Finished := by
  induction remaining : rerun.left using Nat.strong_induction_on generalizing rerun with
  | _ n ih =>
    obtain ⟨_, _, _, _, _, _, standing⟩ := id sound
    cases waiting : rerun.waiting with
    | cons request rest =>
      have next := sound.answer kept strict 0 0
      have lower : (rerun.perform codec strict (.answer 0 0)).left < n := by
        subst remaining
        simp only [perform, standing.running, waiting]
        split <;> simp [left, capture, waiting]
      obtain ⟨more, finished⟩ := ih _ lower next rfl
      exact ⟨.answer 0 0 :: more, finished⟩
    | nil =>
      cases todo : rerun.todo with
      | nil => exact ⟨[], todo, waiting⟩
      | cons request rest =>
        have next := sound.send kept strict 0 0
        have lower : (rerun.perform codec strict (.send 0 0)).left < n := by
          subst remaining
          simp [perform, todo, waiting, left, capture]
          omega
        obtain ⟨more, finished⟩ := ih _ lower next rfl
        exact ⟨.send 0 0 :: more, finished⟩

/-! ## The session that is served -/

section Served
variable {codec : Codec} {recording : Recording codec} {exchange : Exchange} {call : AnsweredCall}

theorem kept_of_conducted (conducted : recording.Conducted exchange call) : Kept codec call :=
  ⟨recording.readsBack _ conducted.requestIn, recording.readsBack _ conducted.responseIn⟩

theorem holds_of_conducted {entry : RecordedExchange} (describes : entry.Describes codec recording.stored exchange)
    (conducted : recording.Conducted exchange call) : Holds codec entry call where
  made := madeFrom_of_sends recording.stored_distinct describes
    ⟨_, Recording.mem_stored.2 ⟨_, conducted.requestIn, rfl⟩, conducted.requestSeq,
      recording.readsBack _ conducted.requestIn⟩
  response := by
    obtain ⟨message, member, number, decoded⟩ := describes.response
    obtain ⟨own, ownIn, rfl⟩ := Recording.mem_stored.1 member
    have seqs : own.seq = call.response.seq :=
      number.trans (Option.some.inj (describes.responseSeq.symm.trans conducted.responseSeq))
    obtain rfl := Recording.eq_of_seq ownIn conducted.responseIn seqs
    exact Option.some.inj (decoded.symm.trans (recording.readsBack _ ownIn))
  unused := describes.unused

theorem served_eq {calls : List AnsweredCall} (conducted : List.Forall₂ recording.Conducted
    ((correlate codec recording.stored).exchanges.filter Exchange.isListed) calls) :
    servedCalls codec recording.stored = calls.map (fun call => call.request.payload) ∧
      servedResponses codec recording.stored = calls.map fun call => call.response.payload := by
  unfold servedCalls servedResponses
  generalize (correlate codec recording.stored).exchanges.filter Exchange.isListed = exchanges at conducted
  induction conducted with
  | nil => exact ⟨rfl, rfl⟩
  | @cons exchange call _ _ first _ ih =>
    have asked : exchange.requestSeq.bind (payloadsBySeq codec recording.stored) = some call.request.payload := by
      rw [first.requestSeq]
      exact Recording.payload_of_mem first.requestIn
    have answered : exchange.responseSeq.bind (payloadsBySeq codec recording.stored) = some call.response.payload := by
      rw [first.responseSeq]
      exact Recording.payload_of_mem first.responseIn
    simp [asked, answered, ih]

theorem sound_start {calls : List AnsweredCall} {strategy : MatchStrategy} {mock : MockSession}
    (built : MockSession.fromMessagesWithStrategy codec recording.stored strategy = .ok mock)
    (conducted : List.Forall₂ recording.Conducted
      ((correlate codec recording.stored).exchanges.filter Exchange.isListed) calls) :
    (start mock (servedCalls codec recording.stored)).Sound codec calls := by
  obtain ⟨-, describes⟩ := fromMessagesWithStrategy_describes recording.stored_distinct built
  have holds : List.Forall₂ (Holds codec) mock.exchanges calls := by
    refine forall₂_common ?_ describes conducted
    exact fun exchange entry call describes conducted => holds_of_conducted describes conducted
  refine ⟨[], [], calls, [], [], rfl, {
    retold := .nil
    resent := .nil
    waiting := rfl
    todo := (served_eq conducted).1
    apart := List.nodup_nil
    running := rfl
    inventory := ⟨[], mock.exchanges, rfl, by simp, holds⟩
    stdout := rfl
    correlated := ⟨rfl, fun _ _ found => by cases found⟩
    numbered := rfl
    ordered := List.Pairwise.nil
    members := by simp
    sent := by simp
    identified := by simp [start]
    readsBack := by simp [start] }⟩

end Served

/-! ## The session that was recorded again -/

section Again
variable {codec : Codec} {rerun : Rerun} {answered told : List AnsweredCall}

/-- What the recorder has is a recording again. -/
def Standing.recording {open_ left : List AnsweredCall} {asked : List McpMessage}
    (standing : Standing codec rerun answered open_ left told asked) : Recording codec where
  messages := rerun.recorded
  numbered := by
    have numbers : (rerun.recorded.map McpMessage.seq).Pairwise (· < ·) := standing.numbered ▸ List.pairwise_lt_range
    exact List.pairwise_map.1 numbers
  readsBack := standing.readsBack

/-- At the end the exchanges are the calls that were answered. -/
theorem Standing.exchanges (standing : Standing codec rerun answered [] [] told []) :
    (correlate codec (rerun.stored codec)).exchanges = told.map (AnsweredCall.exchange codec) := by
  have folded := standing.correlated.exchanges
  have sorted : (told.map (AnsweredCall.exchange codec)).Pairwise fun a b => a.sortKey ≤ b.sortKey := by
    have ordered : (told.map fun call => call.request.seq).Pairwise (· < ·) := by simpa using standing.ordered
    exact List.pairwise_map.2 ((List.pairwise_map.1 ordered).imp Nat.le_of_lt)
  rw [List.map_nil, List.append_nil] at folded
  simp only [correlate, folded]
  exact sorted.insertionSort_eq

theorem Standing.same {recording : Recording codec} (standing : Standing codec rerun answered [] [] told [])
    {again call : AnsweredCall} (member : again ∈ told) (repeats : Repeats again call) {exchange : Exchange}
    (conducted : recording.Conducted exchange call) :
    SameCall (payloadsBySeq codec recording.stored) (payloadsBySeq codec (rerun.stored codec)) exchange
      (again.exchange codec) := by
  obtain ⟨requestIn, responseIn⟩ := standing.members again member
  obtain ⟨request, response⟩ := repeats
  have tells := conducted.tells
  have method : again.request.method = call.request.method :=
    congrArg (fun v => (Value.get "method" v).bind Value.asStr) request
  have failed : Exchange.reportsToolError codec (.ofMessage codec again.response) = again.response.isToolError :=
    @Recording.reportsToolError_of_mem codec standing.recording _ responseIn
  exact {
    origin := tells.origin
    method := tells.method.trans method.symm
    toolName := by
      rw [tells.toolName]
      simp only [McpMessage.toolName, McpMessage.method, ← request]
      rfl
    errorCode := by
      rw [tells.errorCode]
      simp only [McpMessage.errorCode, ← response]
      rfl
    status := by
      rw [tells.status, outcomeOf]
      simp only [AnsweredCall.exchange, Exchange.answered, failed]
      simp only [McpMessage.isError, McpMessage.isToolError, ← response, ← method]
      rfl
    request := by
      rw [conducted.requestSeq]
      refine (Recording.payload_of_mem conducted.requestIn).trans ?_
      rw [← request]
      exact (@Recording.payload_of_mem codec standing.recording _ requestIn).symm
    response := by
      rw [conducted.responseSeq]
      refine (Recording.payload_of_mem conducted.responseIn).trans ?_
      rw [← response]
      exact (@Recording.payload_of_mem codec standing.recording _ responseIn).symm }

end Again

/-- The exchange of a call has a key. -/
theorem alignmentBase_of_tells {exchange : Exchange} {call : AnsweredCall} (tells : exchange.TellsOf call) :
    (alignmentBase exchange).isSome := by
  obtain ⟨method, named⟩ := Option.isSome_iff_exists.1 call.named
  have outcome : exchange.status ≠ .orphanResponse := by
    rw [tells.status, outcomeOf]
    split_ifs <;> simp
  rw [alignmentBase, if_neg outcome, tells.method, named]
  cases exchange.toolName <;> rfl

theorem notificationBase_of_identified {codec : Codec} {message : McpMessage} (identified : message.id.isSome) :
    notificationBase (.ofMessage codec message) = none := by
  have kind : message.kind ≠ .notification := by
    simp [McpMessage.kind, McpMessage.isNotification, Option.isSome_iff_ne_none.1 identified]
    split_ifs <;> simp
  refine if_pos fun same => kind ?_
  cases shape : message.kind <;> simp [StoredMessage.ofMessage, shape, MessageKind.asDbStr] at same ⊢

/-- However the client and the mock server take turns, they can go on until all calls are answered. The loop has written
the recorded responses then, in recorded order, and a comparison with the session that was served finds nothing exactly
if that was a session of calls that a mock server can answer, latency apart. -/
theorem served_again_diff_iff {codec : Codec} {recording : Recording codec} {strategy : MatchStrategy}
    {mock : MockSession} (built : MockSession.fromMessagesWithStrategy codec recording.stored strategy = .ok mock) (strict : Bool)
    (steps : List RerunStep) (options : DiffOptions) :
    let run := Rerun.run codec strict mock (servedCalls codec recording.stored)
    (∃ more, (run (steps ++ more)).Finished) ∧
      ((run steps).Finished → (run steps).failure = none ∧
        (run steps).serving.stdout = (servedResponses codec recording.stored).flatMap (encodeStdioFrame codec) ∧
        ((diffSessions codec recording.stored ((run steps).stored codec) options).isEmpty = true ↔
          Reproducible codec recording.stored ∧
            LatencyQuiet codec recording.stored ((run steps).stored codec) options)) := by
  intro run
  obtain ⟨calls, conducted⟩ := recording.exists_calls
  have kept : ∀ call ∈ calls, Kept codec call := fun call member => by
    obtain ⟨exchange, -, from'⟩ := exists_of_forall₂_right conducted member
    exact kept_of_conducted from'
  have sound := (sound_start built conducted).run kept strict steps
  constructor
  · obtain ⟨more, finished⟩ := sound.finish kept strict
    refine ⟨more, ?_⟩
    rwa [← List.foldl_append] at finished
  intro finished
  obtain ⟨answered, open_, left, told, asked, rfl, standing⟩ := sound
  obtain rfl : open_ = [] := List.map_eq_nil_iff.1 (standing.waiting.symm.trans finished.2)
  obtain rfl : left = [] := List.map_eq_nil_iff.1 (standing.todo.symm.trans finished.1)
  obtain rfl : asked = [] := List.forall₂_nil_right_iff.1 standing.resent
  change Standing codec (run steps) answered [] [] told [] at standing
  rw [List.append_nil, List.append_nil] at conducted
  refine ⟨standing.running, ?_, diffSessions_isEmpty_iff.trans (and_congr_left' ?_)⟩
  · have responses : told.map (fun call => call.response.payload) = answered.map fun call => call.response.payload :=
      map_eq_map_iff_forall₂.2 (standing.retold.imp fun _ _ repeats => repeats.2)
    rw [standing.stdout, (served_eq conducted).2, ← responses, List.flatMap_map]
  have same : List.Forall₂
      (SameCall (payloadsBySeq codec recording.stored) (payloadsBySeq codec ((run steps).stored codec)))
      ((correlate codec recording.stored).exchanges.filter Exchange.isListed)
      (correlate codec ((run steps).stored codec)).exchanges := by
    have retold := (List.forall₂_and_left (p := (· ∈ told)) _ _).2 ⟨fun again member => member, standing.retold⟩
    rw [standing.exchanges, List.forall₂_map_right_iff]
    refine forall₂_common ?_ conducted.flip retold.flip
    exact fun call exchange again conducted repeats => standing.same repeats.1 repeats.2 conducted
  refine agreeWhereCompared_iff_of_same same (fun exchange member listed => ?_) fun message member => ?_
  · obtain ⟨call, from'⟩ := Recording.exists_call member listed
    exact alignmentBase_of_tells from'.tells
  · obtain ⟨own, inside, rfl⟩ := List.mem_map.1 member
    exact notificationBase_of_identified (standing.identified own inside)

/-- A call of the tool `echo` with this id, and the response to it. -/
def echoOf (id : UInt64) : Value :=
  .object [("id", .number (.posInt id)), ("method", .string "tools/call"),
    ("params", .object [("name", .string "echo")])]

def echoedBy (id : UInt64) (text : String) : Value :=
  .object [("id", .number (.posInt id)), ("result", .object [("text", .string text)])]

/-- Two calls, the second one answered first. -/
def echoes : Recording Compact.codec where
  messages := [⟨0, 0, .clientToServer, echoOf 1, 60⟩, ⟨1, 5, .clientToServer, echoOf 2, 60⟩,
    ⟨2, 9, .serverToClient, echoedBy 2 "second", 40⟩, ⟨3, 12, .serverToClient, echoedBy 1 "first", 40⟩]
  numbered := by decide
  readsBack := by decide +kernel

def echoesMock : MockSession :=
  let entry (text : String) (id : UInt64) (request response : Nat) : RecordedExchange :=
    ⟨"tools/call", some "echo", Compact.codec.toString (.object [("name", .string "echo")]),
      .object [("name", .string "echo")], echoedBy id text, request, response, false⟩
  ⟨[entry "first" 1 0 3, entry "second" 2 1 2], .exact⟩

/-- The new session has the answers in the order of the calls, and at other times. -/
theorem served_again_diff_echoes :
    let rerun := Rerun.run Compact.codec true echoesMock (servedCalls Compact.codec echoes.stored)
      [.send 100 60, .answer 101 40, .send 103 60, .answer 109 40]
    (diffSessions Compact.codec echoes.stored (rerun.stored Compact.codec)
      { DiffOptions.standard with ignoreLatency := true }).isEmpty = true := by
  have built : MockSession.fromMessagesWithStrategy Compact.codec echoes.stored .exact = .ok echoesMock := by
    decide +kernel
  have served := (served_again_diff_iff built true [.send 100 60, .answer 101 40, .send 103 60, .answer 109 40]
    { DiffOptions.standard with ignoreLatency := true }).2
  obtain ⟨-, -, same⟩ := served ⟨by decide +kernel, by decide +kernel⟩
  exact same.2 ⟨⟨by decide +kernel, by decide +kernel⟩, latencyQuiet_of_ignored rfl⟩

end Rerun

end McpTracer.Proxy
