import McpTracer.Foundation.Aborting
import McpTracer.Model.Requests
import McpTracer.Proxy.ResponseWaits

/-! What the server asks while a session is replayed.

The requests of the server are answered from the recording, by their ids. Each is answered as it was in the
recording when the last answer there to its id is the answer to this request.
-/

set_option autoImplicit false

namespace McpTracer.Proxy.Replay
open McpTracer.Foundation McpTracer.Json McpTracer.Model McpTracer.Protocol McpTracer.Storage

/-! ## A run with the state in which it was aborted -/

def sendKept (around : ReplaySurroundings) (frame : WrittenFrame) (value : Value) : EStateM String ReplayState Unit :=
  fun state =>
    match state.sendRecorded around frame value with
    | .ok after => .ok () after
    | .error err => .error err state

def awaitKept (around : ReplaySurroundings) (plan : ReplayPlan) (expected : String) (buf : List UInt8) :
    EStateM String ReplayState (List UInt8) := fun state =>
  match lookAtReads (serverFrame around plan.lookaside plan.strict expected) (around.reads state.waits) buf
      { state with waits := state.waits + 1 } with
  | (_, _, after, .failed err) => .error err after
  | (_, left, after, _) => .ok left after

def awaitCancellation (around : ReplaySurroundings) (plan : ReplayPlan) (message cancel : StoredMessage)
    (rpcId : String) (buf : List UInt8) : EStateM String ReplayState (List UInt8) :=
  if plan.realtime ∧ 0 < cancel.tsNs - message.tsNs then awaitKept around plan rpcId buf else pure buf

/-- The messages are driven as by `drive`. -/
def driveKept (around : ReplaySurroundings) (plan : ReplayPlan) :
    List StoredMessage → List Nat → List UInt8 → EStateM String ReplayState Unit
  | [], _, _ => pure ()
  | message :: rest, sentCancellations, buf =>
    if sentCancellations.contains message.seq then driveKept around plan rest sentCancellations buf
    else do
      let value ← settled
        (require (around.codec.fromStr message.payload) s!"source message seq {message.seq} is not valid JSON")
      let state ← get
      let sent := state.message around .clientToServer value (around.codec.toString value).utf8ByteSize
      sendKept around (.source message value) value
      match sent.kind, sent.idJson around.codec with
      | .request, some rpcId =>
        match plan.cancellations.lookup message.seq with
        | some cancel =>
          let buf ← awaitCancellation around plan message cancel rpcId buf
          let cancelValue ← settled
            (require (around.codec.fromStr cancel.payload) s!"cancellation message seq {cancel.seq} is not valid JSON")
          sendKept around (.source cancel cancelValue) cancelValue
          driveKept around plan rest (cancel.seq :: sentCancellations) buf
        | none =>
          let buf ← awaitKept around plan rpcId buf
          driveKept around plan rest sentCancellations buf
      | _, _ => driveKept around plan rest sentCancellations buf

section
variable {around : ReplaySurroundings} {plan : ReplayPlan}

theorem completed_sendKept (frame : WrittenFrame) (value : Value) (state : ReplayState) :
    completed (sendKept around frame value state) = (fun after => ((), after)) <$> state.sendRecorded around frame value := by
  rw [sendKept]
  cases state.sendRecorded around frame value <;> rfl

theorem completed_awaitKept (expected : String) (buf : List UInt8) (state : ReplayState) :
    completed (awaitKept around plan expected buf state) =
      (fun waited => (waited.1, waited.2.1)) <$> waitForResponse around plan.lookaside plan.strict expected buf state := by
  rw [awaitKept, waitForResponse, waitReads_eq, looking]
  rcases lookAtReads (serverFrame around plan.lookaside plan.strict expected) (around.reads state.waits) buf
    { state with waits := state.waits + 1 } with ⟨_, left, after, _ | _ | err⟩ <;> rfl

theorem completed_awaitCancellation (message cancel : StoredMessage) (rpcId : String) (buf : List UInt8)
    (state : ReplayState) :
    completed (awaitCancellation around plan message cancel rpcId buf state) =
      (fun waited => (waited.1, waited.2.1)) <$> waitForCancellation around plan message cancel rpcId buf state := by
  rw [awaitCancellation, waitForCancellation]
  split
  · exact completed_awaitKept rpcId buf state
  · rfl

theorem completed_driveKept (driven : List StoredMessage) (sentCancellations : List Nat) (buf : List UInt8)
    (state : ReplayState) :
    completed (driveKept around plan driven sentCancellations buf state) =
      (fun final => ((), final)) <$> drive around plan driven sentCancellations buf state := by
  induction driven generalizing sentCancellations buf state with
  | nil => rfl
  | cons message rest ih =>
    rw [drive, driveKept]
    split
    case isTrue => exact ih sentCancellations buf state
    case isFalse =>
      refine completed_bind_of (completed_settled _ _) fun value => ?_
      change completed ((sendKept around (.source message value) value >>= _) state) = _
      refine completed_bind_of (completed_sendKept _ _ _) fun sent => ?_
      dsimp only
      generalize state.message around .clientToServer value (around.codec.toString value).utf8ByteSize = message'
      generalize message'.kind = kind
      generalize message'.idJson around.codec = named
      cases kind with
      | response => exact ih sentCancellations buf sent
      | notification => exact ih sentCancellations buf sent
      | request =>
        cases named with
        | none => exact ih sentCancellations buf sent
        | some rpcId =>
          cases plan.cancellations.lookup message.seq with
          | none =>
            refine completed_bind_of (completed_awaitKept _ _ _) fun waited => ?_
            exact ih sentCancellations waited.1 waited.2.1
          | some cancel =>
            refine completed_bind_of (completed_awaitCancellation message cancel rpcId buf sent) fun waited => ?_
            refine completed_bind_of (completed_settled _ _) fun cancelValue => ?_
            refine completed_bind_of (completed_sendKept _ _ _) fun cancelled => ?_
            exact ih (cancel.seq :: sentCancellations) waited.1 cancelled

end

/-- The run as by `run`. -/
def runKept (around : ReplaySurroundings) (args : ReplayArgs) (source : List StoredMessage) :
    EStateM String ReplayState Unit :=
  if source.isEmpty then settled (.error s!"source session has no recorded messages: {args.sessionId}")
  else do
    let allowed := allowedMessages source args.allowTool args.denyTool
    let cancellations ← settled (linkCancellations allowed (cancellationNotifications around.codec source))
    let driven := allowed.filter (isReplayed cancellations)
    if driven.isEmpty then
      settled (.error ("source session has no client-originated requests or notifications to replay " ++
        "(after any --allow-tool/--deny-tool filtering)"))
    else
      driveKept around ⟨args.realtime, args.strictServerRequests, cancellations,
        serverInitiatedResponses around.codec source⟩ driven [] []

/-- How a run ends, and in which state. -/
def ending (around : ReplaySurroundings) (args : ReplayArgs) (source : List StoredMessage) :
    EStateM.Result String ReplayState Unit := runKept around args source .start

theorem completed_ending (around : ReplaySurroundings) (args : ReplayArgs) (source : List StoredMessage) :
    completed (ending around args source) = (fun final => ((), final)) <$> run around args source := by
  rw [ending, runKept, run]
  split
  case isTrue => rfl
  case isFalse =>
    refine completed_bind_of (completed_settled _ _) fun linked => ?_
    dsimp only
    split
    · rfl
    · exact completed_driveKept _ _ _ _

/-! ## What has been asked and answered -/

/-- A request of the server that has an id. -/
def asksClient (message : McpMessage) : Bool :=
  message.direction = .serverToClient && message.kind = .request && message.id.isSome

def WrittenFrame.answerValue : WrittenFrame → Option Value
  | .source _ _ => none
  | .answer value => some value

/-- The requests of the server that have been read, in their order. -/
def ReplayState.asked (state : ReplayState) : List Value := (state.recorded.filter asksClient).map McpMessage.payload

/-- The answers that have been written, in their order. -/
def ReplayState.answered (state : ReplayState) : List Value := state.written.filterMap WrittenFrame.answerValue

def unwritable : String := "failed to write to server stdin (server may have exited)"

section
variable {around : ReplaySurroundings} {lookaside : Table String String} {strict : Bool}

/-- What replay makes of a request. -/
def Replies (around : ReplaySurroundings) (lookaside : Table String String) (strict : Bool) (request : Value)
    (reply : Except String Value) : Prop :=
  ∃ id, request.get "id" = some id ∧ responseTo around lookaside strict request id = reply

/-- Every request has been answered, each after the ones before it. -/
def AllAnswered (around : ReplaySurroundings) (lookaside : Table String String) (strict : Bool) (state : ReplayState) :
    Prop :=
  List.Forall₂ (fun request answer => Replies around lookaside strict request (.ok answer)) state.asked state.answered

/-- The last request has not been answered: the error is its reply, or its answer could not be written. -/
def StoppedAt (around : ReplaySurroundings) (lookaside : Table String String) (strict : Bool) (err : String)
    (state : ReplayState) : Prop :=
  ∃ handled last, state.asked = handled ++ [last] ∧
    List.Forall₂ (fun request answer => Replies around lookaside strict request (.ok answer)) handled state.answered ∧
    (Replies around lookaside strict last (.error err) ∨ err = unwritable)

def AllButLast (around : ReplaySurroundings) (lookaside : Table String String) (strict : Bool) (err : String)
    (state : ReplayState) : Prop :=
  AllAnswered around lookaside strict state ∨ StoppedAt around lookaside strict err state

theorem asked_tryRecord (state : ReplayState) (message : McpMessage) :
    (state.tryRecord message).asked = state.asked ++ if asksClient message then [message.payload] else [] := by
  rw [ReplayState.asked, ReplayState.tryRecord, List.filter_append, List.map_append, ← ReplayState.asked]
  cases asks : asksClient message <;> simp [asks]

/-- The client does not ask itself. -/
theorem sendRecorded_ok {state after : ReplayState} {frame : WrittenFrame} {value : Value}
    (done : state.sendRecorded around frame value = .ok after) :
    after.asked = state.asked ∧ after.answered = state.answered ++ frame.answerValue.toList := by
  rw [ReplayState.sendRecorded, bind_eq_ok_iff] at done
  obtain ⟨written, wrote, recorded⟩ := done
  rw [ReplayState.sendFrame] at wrote
  split at wrote
  case isTrue =>
    cases wrote
    cases recorded
    refine ⟨by rw [asked_tryRecord, if_neg (by simp [asksClient, ReplayState.message]), List.append_nil]; rfl, ?_⟩
    simp only [ReplayState.answered, ReplayState.tryRecord, List.filterMap_append]
    cases found : frame.answerValue <;> simp [found]
  case isFalse => cases wrote

theorem sendRecorded_error {state : ReplayState} {frame : WrittenFrame} {value : Value} {err : String}
    (failed : state.sendRecorded around frame value = .error err) : err = unwritable := by
  rw [ReplayState.sendRecorded, bind_eq_error_iff] at failed
  rcases failed with failed | ⟨_, _, impossible⟩
  · rw [ReplayState.sendFrame] at failed
    split at failed <;> cases failed
    rfl
  · cases impossible

/-- A request is answered as soon as it has been read. -/
theorem handleServerRequest_keeps {state : ReplayState} {message : McpMessage} (before : AllAnswered around lookaside strict state)
    (fromServer : message.direction = .serverToClient) (kind : message.kind = .request) :
    match handleServerRequest around lookaside strict (state.tryRecord message) message.payload with
    | .error err => AllButLast around lookaside strict err (state.tryRecord message)
    | .ok after => AllAnswered around lookaside strict after := by
  have asked := asked_tryRecord state message
  unfold handleServerRequest
  cases own : message.payload.get "id" with
  | none =>
    have silent : asksClient message = false := by simp [asksClient, McpMessage.id, own]
    rw [silent, if_neg (by simp), List.append_nil] at asked
    change List.Forall₂ _ (state.tryRecord message).asked _
    rw [asked]
    exact before
  | some id =>
    have asks : asksClient message = true := by simp [asksClient, McpMessage.id, own, fromServer, kind]
    rw [asks, if_pos rfl] at asked
    dsimp only
    cases reply : responseTo around lookaside strict message.payload id with
    | error err => exact .inr ⟨_, _, asked, before, .inl ⟨id, own, reply⟩⟩
    | ok response =>
      change match (state.tryRecord message).sendRecorded around (.answer response) response with
        | .error err => AllButLast around lookaside strict err (state.tryRecord message)
        | .ok after => AllAnswered around lookaside strict after
      cases sent : (state.tryRecord message).sendRecorded around (.answer response) response with
      | error err => exact .inr ⟨_, _, asked, before, .inr (sendRecorded_error sent)⟩
      | ok after =>
        obtain ⟨sameAsked, answered⟩ := sendRecorded_ok sent
        change List.Forall₂ _ after.asked after.answered
        rw [sameAsked, answered, asked]
        exact List.rel_append before (.cons ⟨id, own, reply⟩ .nil)

theorem serverFrame_keeps (expected : String) (json : List UInt8) (state : ReplayState)
    (before : AllAnswered around lookaside strict state) :
    LeavesSound (AllAnswered around lookaside strict) (AllButLast around lookaside strict)
      (serverFrame around lookaside strict expected json state) := by
  rw [serverFrame]
  cases around.fromSlice json with
  | none => exact .inl before
  | some value =>
    dsimp only
    have fromServer : (state.message around .serverToClient value json.length).direction = .serverToClient := rfl
    have payload : (state.message around .serverToClient value json.length).payload = value := rfl
    generalize state.message around .serverToClient value json.length = message at fromServer payload
    subst payload
    by_cases kind : message.kind = .request
    · have kept := handleServerRequest_keeps before fromServer kind
      rw [if_pos kind]
      cases handled : handleServerRequest around lookaside strict (state.tryRecord message) message.payload with
      | error err =>
        rw [handled] at kept
        exact kept
      | ok after =>
        rw [handled] at kept
        dsimp only
        split <;> exact kept
    · have silent : asksClient message = false := by simp [asksClient, kind]
      have kept : AllAnswered around lookaside strict (state.tryRecord message) := by
        rw [AllAnswered, asked_tryRecord, silent, if_neg (by simp), List.append_nil]
        exact before
      rw [if_neg kind]
      dsimp only
      split <;> exact kept

/-! ## The run -/

theorem sendKept_keeps {message : StoredMessage} {source value : Value} :
    Keeps (AllAnswered around lookaside strict) (AllButLast around lookaside strict)
      (sendKept around (.source message source) value) := by
  intro state before
  rw [sendKept]
  cases sent : state.sendRecorded around (.source message source) value with
  | error err => exact .inl before
  | ok after =>
    obtain ⟨asked, answered⟩ := sendRecorded_ok sent
    change List.Forall₂ _ after.asked after.answered
    rw [asked, answered]
    exact (List.append_nil state.answered).symm ▸ before

end

section
variable {around : ReplaySurroundings} {plan : ReplayPlan}

theorem awaitKept_keeps (expected : String) (buf : List UInt8) :
    Keeps (AllAnswered around plan.lookaside plan.strict) (AllButLast around plan.lookaside plan.strict)
      (awaitKept around plan expected buf) := by
  intro state before
  have waiting : AllAnswered around plan.lookaside plan.strict { state with waits := state.waits + 1 } := before
  have kept := lookAtReads_keeps (serverFrame_keeps expected) (fun _ _ => .inl)
    (around.reads state.waits) buf waiting
  rw [awaitKept]
  rcases looked : lookAtReads (serverFrame around plan.lookaside plan.strict expected) (around.reads state.waits) buf
    { state with waits := state.waits + 1 } with ⟨unread, left, after, _ | _ | err⟩ <;> rw [looked] at kept <;>
    exact kept

theorem driveKept_keeps (driven : List StoredMessage) (sentCancellations : List Nat) (buf : List UInt8) :
    Keeps (AllAnswered around plan.lookaside plan.strict) (AllButLast around plan.lookaside plan.strict)
      (driveKept around plan driven sentCancellations buf) := by
  have steps {A : Type} (outcome : Except String A) :
      Keeps (AllAnswered around plan.lookaside plan.strict) (AllButLast around plan.lookaside plan.strict)
        (settled outcome) := .settled (fun _ _ => .inl) outcome
  induction driven generalizing sentCancellations buf with
  | nil => exact .pure ()
  | cons message rest ih =>
    rw [driveKept]
    split
    case isTrue => exact ih sentCancellations buf
    case isFalse =>
      refine .bind (steps _) fun value => .bind (fun state before => before) fun state => ?_
      refine .bind sendKept_keeps fun _ => ?_
      split
      · split
        · refine .bind ?_ fun left => .bind (steps _) fun cancelValue => .bind sendKept_keeps fun _ => ih _ _
          rw [awaitCancellation]
          split
          · exact awaitKept_keeps _ _
          · exact .pure _
        · exact .bind (awaitKept_keeps _ _) fun left => ih _ _
      · exact ih _ _

end

def endState : EStateM.Result String ReplayState Unit → ReplayState
  | .ok _ state => state
  | .error _ state => state

/-- The error that the request at an index was met with, unless that is a failed write. -/
def abortAt (index : Nat) : EStateM.Result String ReplayState Unit → Option (Except String Value)
  | .ok _ _ => none
  | .error err state => if index + 1 = state.asked.length ∧ err ≠ unwritable then some (.error err) else none

/-- What the run made of the request at an index, unless its answer could not be written. -/
def replyAt (ended : EStateM.Result String ReplayState Unit) (index : Nat) : Option (Except String Value) :=
  match (endState ended).answered[index]? with
  | some answer => some (.ok answer)
  | none => abortAt index ended

theorem runKept_keeps (around : ReplaySurroundings) (args : ReplayArgs) (source : List StoredMessage) :
    Keeps (AllAnswered around (serverInitiatedResponses around.codec source) args.strictServerRequests)
      (AllButLast around (serverInitiatedResponses around.codec source) args.strictServerRequests)
      (runKept around args source) := by
  rw [runKept]
  split
  · exact .settled (fun _ _ => .inl) _
  · refine .bind (.settled (fun _ _ => .inl) _) fun linked => ?_
    dsimp only
    split
    · exact .settled (fun _ _ => .inl) _
    · exact @driveKept_keeps around ⟨args.realtime, args.strictServerRequests, linked, _⟩ _ _ _

/-- What was asked is what was answered, and at most the one request that the run ended at. -/
theorem ending_split (around : ReplaySurroundings) (args : ReplayArgs) (source : List StoredMessage) :
    ∃ handled unanswered, (endState (ending around args source)).asked = handled ++ unanswered ∧
      List.Forall₂ (fun request answer =>
        Replies around (serverInitiatedResponses around.codec source) args.strictServerRequests request (.ok answer))
        handled (endState (ending around args source)).answered ∧
      (unanswered = [] ∨ ∃ last err final, unanswered = [last] ∧ ending around args source = .error err final ∧
        (Replies around (serverInitiatedResponses around.codec source) args.strictServerRequests last (.error err) ∨
          err = unwritable)) := by
  have kept := runKept_keeps around args source .start .nil
  rw [ending]
  cases ended : runKept around args source .start with
  | ok done final =>
    rw [ended] at kept
    exact ⟨final.asked, [], (List.append_nil _).symm, kept, .inl rfl⟩
  | error err final =>
    rw [ended] at kept
    rcases kept with matched | ⟨handled, last, asked, matched, failed⟩
    · exact ⟨final.asked, [], (List.append_nil _).symm, matched, .inl rfl⟩
    · exact ⟨handled, [last], asked, matched, .inr ⟨last, err, final, rfl, rfl, failed⟩⟩

/-- Every request of the server gets the reply that its id has. -/
theorem replyAt_replies {around : ReplaySurroundings} {args : ReplayArgs} {source : List StoredMessage} {index : Nat}
    {reply : Except String Value} (replied : replyAt (ending around args source) index = some reply) :
    ∃ request, (endState (ending around args source)).asked[index]? = some request ∧
      Replies around (serverInitiatedResponses around.codec source) args.strictServerRequests request reply := by
  obtain ⟨handled, unanswered, asked, matched, stopped⟩ := ending_split around args source
  unfold replyAt at replied
  split at replied
  case h_1 answer found =>
    -- An answer that was written is the reply to the request with its index.
    cases replied
    obtain ⟨within, rfl⟩ := List.getElem?_eq_some_iff.1 found
    have inside : index < handled.length := matched.length_eq ▸ within
    refine ⟨handled[index], ?_, matched.get inside within⟩
    rw [asked, List.getElem?_append_left inside, List.getElem?_eq_getElem inside]
  case h_2 none =>
    have few : handled.length ≤ index := matched.length_eq ▸ List.getElem?_eq_none_iff.1 none
    rcases stopped with rfl | ⟨last, err, final, rfl, ended, failed⟩
    · cases ended : ending around args source with
      | ok done final =>
        rw [ended] at replied
        cases replied
      | error err final =>
        rw [ended, abortAt] at replied
        rw [ended, List.append_nil] at asked
        obtain ⟨⟨lastOne, -⟩, -⟩ := Option.ite_none_right_eq_some.1 replied
        have count : final.asked.length = handled.length := congrArg List.length asked
        omega
    · rw [ended, abortAt] at replied
      obtain ⟨⟨lastOne, writable⟩, same⟩ := Option.ite_none_right_eq_some.1 replied
      cases same
      have count := congrArg List.length asked
      rw [ended, List.length_append, List.length_singleton] at count
      have place : index = handled.length := Nat.succ.inj (lastOne.trans count)
      refine ⟨last, ?_, failed.resolve_right writable⟩
      rw [asked, place, List.getElem?_concat_length]

/-- A request goes without a reply only if the run ends at it, as the answer cannot be written. -/
theorem replyAt_eq_none {around : ReplaySurroundings} {args : ReplayArgs} {source : List StoredMessage} {index : Nat}
    (asked : index < (endState (ending around args source)).asked.length)
    (unreplied : replyAt (ending around args source) index = none) :
    run around args source = .error unwritable ∧
      index + 1 = (endState (ending around args source)).asked.length := by
  have outcome := completed_ending around args source
  obtain ⟨handled, unanswered, shape, matched, stopped⟩ := ending_split around args source
  unfold replyAt at unreplied
  split at unreplied
  case h_1 => cases unreplied
  case h_2 none =>
    have few : handled.length ≤ index := matched.length_eq ▸ List.getElem?_eq_none_iff.1 none
    have count := congrArg List.length shape
    rw [List.length_append] at count
    rcases stopped with rfl | ⟨last, err, final, rfl, ended, -⟩
    · rw [List.length_nil] at count
      omega
    · rw [List.length_singleton] at count
      have lastOne : index + 1 = (endState (ending around args source)).asked.length := by omega
      rw [ended, abortAt] at unreplied
      rw [ended] at outcome lastOne
      obtain rfl : err = unwritable := by
        by_contra differs
        rw [if_pos ⟨lastOne, differs⟩] at unreplied
        cases unreplied
      rw [ended]
      exact ⟨map_eq_error_iff.1 outcome.symm, lastOne⟩

/-- A run that aborts at a request ends with the reply to it. -/
theorem run_of_replyAt {around : ReplaySurroundings} {args : ReplayArgs} {source : List StoredMessage} {index : Nat}
    {err : String} (aborted : replyAt (ending around args source) index = some (.error err)) :
    run around args source = .error err := by
  have outcome := completed_ending around args source
  unfold replyAt at aborted
  split at aborted
  case h_1 =>
    cases aborted
  case h_2 =>
    cases ended : ending around args source with
    | ok done final =>
      rw [ended] at aborted
      cases aborted
    | error other final =>
      rw [ended, abortAt] at aborted
      split at aborted
      case isFalse => cases aborted
      case isTrue =>
        cases aborted
        rw [ended] at outcome
        exact map_eq_error_iff.1 outcome.symm

/-! ## The answers of the recording -/

/-- The payload that the client of the recording answered with. -/
def recordedAnswer (source : List StoredMessage) (exchange : Exchange) : Option String :=
  exchange.responseSeq.bind fun responseSeq =>
    (source.find? fun message => message.seq = responseSeq).map StoredMessage.payload

/-- The requests of the server in the recording, as correlation has them. -/
def serverExchanges (codec : Codec) (source : List StoredMessage) : List Exchange :=
  (correlate codec source).exchanges.filter fun exchange =>
    exchange.origin = .serverToClient && exchange.requestSeq.isSome

/-- In a recording whose numbers increase, these are the requests that the server sent, in their order. -/
theorem serverExchanges_requests {codec : Codec} {source : List StoredMessage}
    (increasing : StoredMessage.Increasing source) :
    (serverExchanges codec source).filterMap Exchange.request =
      (requestRecords source).filter fun request => request.origin = .serverToClient := by
  have listed : (correlate codec source).exchanges.filterMap Exchange.request = requestRecords source :=
    correlate_requestRecords increasing
  rw [← listed, serverExchanges, List.filterMap_filter, List.filter_filterMap]
  congr 1
  funext exchange
  cases asked : exchange.request with
  | none => simp
  | some request =>
    obtain ⟨seq, origin, -, -⟩ := request_fields asked
    simp [seq, origin, Option.filter]

/-- The last answer of the recording to an id. A response that answers no request counts. -/
def lastAnswer (codec : Codec) (source : List StoredMessage) (rpcId : String) : Option String :=
  ((correlate codec source).exchanges.filterMap fun exchange =>
    if exchange.origin = .serverToClient ∧ exchange.rpcId = some rpcId then recordedAnswer source exchange
    else none).getLast?

theorem serverInitiatedResponses_eq (codec : Codec) (source : List StoredMessage) (rpcId : String) :
    serverInitiatedResponses codec source rpcId = lastAnswer codec source rpcId := by
  rw [serverInitiatedResponses, Table.ofList_eq_getLast?, lastAnswer, List.filterMap_filterMap]
  congr 2
  funext exchange
  by_cases origin : exchange.origin = .serverToClient
  · cases exchange.rpcId with
    | none => simp [origin]
    | some id =>
      cases answered : exchange.responseSeq with
      | none => simp [origin, recordedAnswer, answered]
      | some responseSeq =>
        by_cases same : id = rpcId <;> cases found : source.find? fun message => message.seq = responseSeq <;>
          simp [origin, recordedAnswer, answered, found, same]
  · simp [origin]

theorem lastAnswer_of_recorded {codec : Codec} {source : List StoredMessage} {exchange : Exchange} {rpcId payload : String}
    (member : exchange ∈ serverExchanges codec source) (named : exchange.rpcId = some rpcId)
    (recorded : recordedAnswer source exchange = some payload) : lastAnswer codec source rpcId ≠ none := by
  obtain ⟨listed, fromServer⟩ := List.mem_filter.1 member
  rw [Bool.and_eq_true, decide_eq_true_eq] at fromServer
  rw [lastAnswer, Ne, List.getLast?_eq_none_iff]
  refine List.ne_nil_of_mem (a := payload) (List.mem_filterMap.2 ⟨exchange, listed, ?_⟩)
  rw [if_pos ⟨fromServer.1, named⟩, recorded]

/-! ## Requests answered as in the recording -/

def neverAnswered (codec : Codec) (request id : Value) : String :=
  "server sent a request the source session never answered " ++
    s!"(method={debugText (methodOf request)}, id={codec.toString id}) and " ++ "--strict-server-requests is set"

theorem second_of_append {first : String} (long : 1 < first.toList.length) (middle last : String) :
    (first ++ middle ++ last).toList[1]? = first.toList[1]? := by
  rw [String.toList_append, String.toList_append, List.append_assoc, List.getElem?_append_left long]

theorem neverAnswered_ne (codec : Codec) (request id : Value) :
    neverAnswered codec request id ≠ "stored source response is not valid JSON" := by
  intro same
  have long : 1 < "server sent a request the source session never answered ".toList.length := by decide +kernel
  have second := (second_of_append long _ _).symm.trans (congrArg (fun text : String => text.toList[1]?) same)
  exact absurd second (by decide +kernel)

/-- The reply is the answer that the recording pairs with the request, or it says that there is none. -/
def AnsweredAsRecorded (codec : Codec) (strict : Bool) (source : List StoredMessage) (exchange : Exchange)
    (request : Value) (reply : Except String Value) : Prop :=
  match recordedAnswer source exchange with
  | some payload => ∃ value, codec.fromStr payload = some value ∧ reply = .ok value
  | none => ∃ id, request.get "id" = some id ∧
      reply = if strict then .error (neverAnswered codec request id) else .ok (notSupported id)

/-- The last answer to the id is the answer to this request, and where this has none the id has none. -/
def LastAnswerIsOwn (codec : Codec) (strict : Bool) (source : List StoredMessage) (exchange : Exchange)
    (request : Value) : Prop :=
  match recordedAnswer source exchange, exchange.rpcId.bind (lastAnswer codec source) with
  | some own, some last => ∃ value, codec.fromStr own = some value ∧ codec.fromStr last = some value
  | some _, none => False
  | none, none => True
  -- A stray answer may say just what replay says without one.
  | none, some last => strict = false ∧ ∃ id, request.get "id" = some id ∧ codec.fromStr last = some (notSupported id)

theorem answeredAsRecorded_iff {around : ReplaySurroundings} {strict : Bool} {source : List StoredMessage}
    {exchange : Exchange} {request id : Value} (member : exchange ∈ serverExchanges around.codec source)
    (own : request.get "id" = some id) (named : exchange.rpcId = some (around.codec.toString id)) :
    AnsweredAsRecorded around.codec strict source exchange request
        (responseTo around (serverInitiatedResponses around.codec source) strict request id) ↔
      LastAnswerIsOwn around.codec strict source exchange request := by
  have looked := serverInitiatedResponses_eq around.codec source (around.codec.toString id)
  rw [AnsweredAsRecorded, LastAnswerIsOwn, responseTo, looked, named, Option.bind_some]
  cases recorded : recordedAnswer source exchange with
  | some payload =>
    cases last : lastAnswer around.codec source (around.codec.toString id) with
    | none => exact absurd last (lastAnswer_of_recorded member named recorded)
    | some other => simp
  | none =>
    cases last : lastAnswer around.codec source (around.codec.toString id) with
    | none =>
      refine iff_of_true ⟨id, own, ?_⟩ trivial
      cases strict <;> rfl
    | some other =>
      cases strict with
      | false => simp [own]
      | true =>
        refine iff_of_false ?_ fun impossible => Bool.noConfusion impossible.1
        rintro ⟨_, _, refused⟩
        exact neverAnswered_ne around.codec request _ (require_eq_error_iff.1 refused).2.symm

/-- The requests of the server come in the order and with the ids of the recording. -/
def Aligned (around : ReplaySurroundings) (args : ReplayArgs) (source : List StoredMessage) : Prop :=
  ∀ (index : Nat) (request : Value), (endState (ending around args source)).asked[index]? = some request →
    ∃ exchange : Exchange, (serverExchanges around.codec source)[index]? = some exchange ∧
      (request.get "id").map around.codec.toString = exchange.rpcId

/-- The run gave a reply to a request, which is this one in the recording. -/
structure Meets (around : ReplaySurroundings) (args : ReplayArgs) (source : List StoredMessage) (exchange : Exchange)
    (request : Value) (reply : Except String Value) (index : Nat) : Prop where
  recorded : (serverExchanges around.codec source)[index]? = some exchange
  asked : (endState (ending around args source)).asked[index]? = some request
  replied : replyAt (ending around args source) index = some reply

/-- In a run whose server asks as in the recording, every request is answered as there, if and only if the last
answer to the id of each is its own. -/
theorem answered_as_recorded_iff {around : ReplaySurroundings} {args : ReplayArgs} {source : List StoredMessage}
    (aligned : Aligned around args source) :
    (∀ exchange request reply index, Meets around args source exchange request reply index →
      AnsweredAsRecorded around.codec args.strictServerRequests source exchange request reply) ↔
    ∀ exchange request reply index, Meets around args source exchange request reply index →
      LastAnswerIsOwn around.codec args.strictServerRequests source exchange request := by
  refine forall₄_congr fun exchange request reply index => forall_congr' fun meets => ?_
  obtain ⟨other, asked, id, own, replies⟩ := replyAt_replies meets.replied
  obtain rfl : request = other := Option.some.inj (meets.asked.symm.trans asked)
  obtain ⟨same, recorded, named⟩ := aligned index request asked
  obtain rfl : exchange = same := Option.some.inj (meets.recorded.symm.trans recorded)
  rw [own] at named
  subst replies
  exact answeredAsRecorded_iff (List.mem_of_getElem? recorded) own named.symm

/-! ## A server that asks again -/

def sessionFrame (seq : Nat) (direction : Direction) (fields : List (String × Value)) : StoredMessage :=
  .ofMessage Compact.codec ⟨seq, seq, direction, .object fields, 0⟩

def rootsRequest (id : UInt64) : List (String × Value) := [("id", .number (.posInt id)), ("method", .string "roots/list")]

def rootsResult (id : UInt64) (roots : List Value) : List (String × Value) :=
  [("id", .number (.posInt id)), ("result", .object [("roots", .array roots)])]

/-- While the client waits for the tools, the server asks twice for the roots, which have changed meanwhile. -/
def rootsSession (first second : UInt64) : List StoredMessage := [
  sessionFrame 0 .clientToServer [("id", .number (.posInt 1)), ("method", .string "tools/list")],
  sessionFrame 1 .serverToClient (rootsRequest first),
  sessionFrame 2 .clientToServer (rootsResult first []),
  sessionFrame 3 .serverToClient (rootsRequest second),
  sessionFrame 4 .clientToServer (rootsResult second [.string "file:///home"]),
  sessionFrame 5 .serverToClient [("id", .number (.posInt 1)), ("result", .object [])]]

/-- A server that asks as in the recording. -/
def rootsServer (first second : UInt64) : ReplaySurroundings where
  codec := Compact.codec
  fromSlice := parseJsonPayload Compact.codec
  reads := fun _ => [.data <| encodeStdioFrame Compact.codec (.object (rootsRequest first)) ++
    encodeStdioFrame Compact.codec (.object (rootsRequest second)) ++
    encodeStdioFrame Compact.codec (.object [("id", .number (.posInt 1)), ("result", .object [])])]
  writes := fun _ => true
  nowNs := fun _ => 0

def lenientArgs : ReplayArgs where
  sessionId := "s"
  realtime := false
  strictServerRequests := false
  allowTool := []
  denyTool := []

/-- The ids that are asked and those that were asked, up to where the run ends. -/
theorem aligned_of_ids {around : ReplaySurroundings} {args : ReplayArgs} {source : List StoredMessage}
    (same : (endState (ending around args source)).asked.map (fun request => (request.get "id").map around.codec.toString) <+:
      (serverExchanges around.codec source).map Exchange.rpcId) : Aligned around args source := by
  intro index request asked
  obtain ⟨more, whole⟩ := same
  have named := congrArg (fun ids => ids[index]?) whole
  obtain ⟨within, _⟩ := List.getElem?_eq_some_iff.1 asked
  rw [List.getElem?_append_left (by rwa [List.length_map]), List.getElem?_map, asked, List.getElem?_map] at named
  obtain ⟨exchange, found, rpcId⟩ := Option.map_eq_some_iff.1 named.symm
  exact ⟨exchange, found, rpcId.symm⟩

/-- Asked under different ids, the server gets both answers as the recorded one did. -/
theorem answered_as_recorded_roots : Aligned (rootsServer 7 8) lenientArgs (rootsSession 7 8) ∧
    ∀ exchange request reply index, Meets (rootsServer 7 8) lenientArgs (rootsSession 7 8) exchange request reply index →
      AnsweredAsRecorded Compact.codec false (rootsSession 7 8) exchange request reply := by
  have aligned : Aligned (rootsServer 7 8) lenientArgs (rootsSession 7 8) := aligned_of_ids (by decide +kernel)
  refine ⟨aligned, (answered_as_recorded_iff aligned).2 fun exchange request reply index meets => ?_⟩
  have own : ∀ exchange ∈ serverExchanges Compact.codec (rootsSession 7 8),
      exchange.rpcId.bind (lastAnswer Compact.codec (rootsSession 7 8)) = recordedAnswer (rootsSession 7 8) exchange ∧
        ((recordedAnswer (rootsSession 7 8) exchange).bind Compact.codec.fromStr).isSome = true := by decide +kernel
  obtain ⟨last, parses⟩ := own exchange (List.mem_of_getElem? meets.recorded)
  obtain ⟨value, parsed⟩ := Option.isSome_iff_exists.1 parses
  obtain ⟨payload, recorded, read⟩ := Option.bind_eq_some_iff.1 parsed
  change LastAnswerIsOwn Compact.codec false (rootsSession 7 8) exchange request
  rw [LastAnswerIsOwn, last, recorded]
  exact ⟨value, read, read⟩

/-- Asked twice under one id, the server gets the second answer to its first request. -/
theorem first_request_gets_last_answer :
    ¬ ∀ (around : ReplaySurroundings) (args : ReplayArgs) (source : List StoredMessage), Aligned around args source →
      ∀ exchange request reply index, Meets around args source exchange request reply index →
        AnsweredAsRecorded around.codec args.strictServerRequests source exchange request reply := by
  intro answered
  have aligned : Aligned (rootsServer 7 7) lenientArgs (rootsSession 7 7) := aligned_of_ids (by decide +kernel)
  have asked : (endState (ending (rootsServer 7 7) lenientArgs (rootsSession 7 7))).asked =
      [.object (rootsRequest 7), .object (rootsRequest 7)] := by decide +kernel
  have replies : (endState (ending (rootsServer 7 7) lenientArgs (rootsSession 7 7))).answered =
      [.object (rootsResult 7 [.string "file:///home"]), .object (rootsResult 7 [.string "file:///home"])] := by
    decide +kernel
  have recorded : (serverExchanges Compact.codec (rootsSession 7 7))[0]?.bind (recordedAnswer (rootsSession 7 7)) =
      some (Compact.codec.toString (.object (rootsResult 7 []))) := by decide +kernel
  obtain ⟨exchange, found, payload⟩ := Option.bind_eq_some_iff.1 recorded
  have meets : Meets (rootsServer 7 7) lenientArgs (rootsSession 7 7) exchange (.object (rootsRequest 7))
      (.ok (.object (rootsResult 7 [.string "file:///home"]))) 0 := ⟨found, by rw [asked]; rfl, by rw [replyAt, replies]; rfl⟩
  have same := answered _ _ _ aligned _ _ _ _ meets
  change AnsweredAsRecorded Compact.codec false (rootsSession 7 7) _ _ _ at same
  rw [AnsweredAsRecorded, payload] at same
  obtain ⟨value, parsed, sent⟩ := same
  obtain rfl := Except.ok.inj sent
  exact absurd parsed (by decide +kernel)

end McpTracer.Proxy.Replay
