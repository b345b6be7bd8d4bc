import McpTracer.Model.Conservation
import McpTracer.Proxy.ReplayCommand

/-! What a replay sends, compared with the plan for it.

Replay drops the recorded cancellations that terminate no driven request, whatever the server does. The
plan lists them.
-/

set_option autoImplicit false

namespace McpTracer.Proxy.Replay
open McpTracer.Foundation McpTracer.Json McpTracer.Model McpTracer.Protocol McpTracer.Storage

/-! ## Only the driven messages are sent as recorded ones -/

section
variable {around : ReplaySurroundings} {lookaside : Table String String} {strict : Bool} {expected : String}

theorem sendRecorded_sent {state after : ReplayState} {frame : WrittenFrame} {value : Value}
    (done : state.sendRecorded around frame value = .ok after) :
    after.sent = state.sent ++ frame.sourceSeq.toList := by
  rw [ReplayState.sendRecorded, bind_eq_ok_iff] at done
  obtain ⟨written, wrote, recorded⟩ := done
  rw [ReplayState.sendFrame] at wrote
  split at wrote
  case isTrue =>
    cases wrote
    cases recorded
    simp only [ReplayState.sent, ReplayState.tryRecord, List.filterMap_append]
    cases same : frame.sourceSeq <;> simp [same]
  case isFalse => cases wrote

theorem handleServerRequest_sent {state after : ReplayState} {request : Value}
    (done : handleServerRequest around lookaside strict state request = .ok after) : after.sent = state.sent := by
  unfold handleServerRequest at done
  split at done
  case h_1 =>
    cases done
    rfl
  case h_2 id _ =>
    obtain ⟨response, _, sent⟩ := bind_eq_ok_iff.1 done
    rw [sendRecorded_sent sent]
    exact List.append_nil _

theorem drainServer_sent {buf : List UInt8} {state : ReplayState} {outcome : List UInt8 × ReplayState × Bool}
    (done : drainServer around lookaside strict expected buf state = .ok outcome) :
    outcome.2.1.sent = state.sent := by
  induction size : buf.length using Nat.strong_induction_on generalizing buf state with
  | _ _ ih =>
    subst size
    rw [drainServer] at done
    split at done
    case h_1 => cases done
    case h_2 =>
      cases done
      rfl
    case h_3 frame parsed =>
      split at done
      case h_1 => cases done
      case h_2 value _ =>
        dsimp only at done
        split at done
        case h_1 => cases done
        case h_2 after handled =>
          have same : after.sent = state.sent := by
            split at handled
            case isTrue =>
              have unchanged := handleServerRequest_sent handled
              exact unchanged
            case isFalse =>
              cases handled
              rfl
          split at done
          case isTrue =>
            cases done
            exact same
          case isFalse =>
            have progress := parseStdioFrame_consumed parsed
            have shorter : (buf.drop frame.consumed).length < buf.length := by
              rw [List.length_drop]
              omega
            exact (ih _ shorter done rfl).trans same

theorem waitReads_sent {reads : List ServerRead} {buf : List UInt8} {state : ReplayState}
    {outcome : List UInt8 × ReplayState × Bool}
    (done : waitReads around lookaside strict expected reads buf state = .ok outcome) :
    outcome.2.1.sent = state.sent := by
  induction reads generalizing buf state with
  | nil =>
    rw [waitReads] at done
    split at done
    case h_1 => cases done
    case h_2 drained =>
      cases done
      exact drainServer_sent drained
    case h_3 drained =>
      cases done
      exact drainServer_sent drained
  | cons read rest ih =>
    rw [waitReads] at done
    split at done
    case h_1 => cases done
    case h_2 drained =>
      cases done
      exact drainServer_sent drained
    case h_3 drained =>
      rw [← drainServer_sent drained]
      cases read with
      | closed =>
        cases done
        rfl
      | failed err => cases done
      | data bytes =>
        dsimp only at done
        split at done
        case isTrue => cases done
        case isFalse => exact ih done

theorem waitForResponse_sent {buf : List UInt8} {state : ReplayState} {outcome : List UInt8 × ReplayState × Bool}
    (done : waitForResponse around lookaside strict expected buf state = .ok outcome) :
    outcome.2.1.sent = state.sent := by
  have unchanged := waitReads_sent done
  exact unchanged

theorem waitForCancellation_sent {plan : ReplayPlan} {message cancel : StoredMessage} {buf : List UInt8}
    {state : ReplayState} {outcome : List UInt8 × ReplayState × Bool}
    (done : waitForCancellation around plan message cancel expected buf state = .ok outcome) :
    outcome.2.1.sent = state.sent := by
  unfold waitForCancellation at done
  split at done
  case isTrue => exact waitForResponse_sent done
  case isFalse =>
    cases done
    rfl

end

/-! ## The driven messages are sent in their order -/

/-- The cancellation of a message is the next message. -/
def Adjacent (cancellations : List (Nat × StoredMessage)) : List StoredMessage → Prop
  | [] => True
  | message :: rest =>
    (∀ cancel, cancellations.lookup message.seq = some cancel →
      ∃ next others, rest = next :: others ∧ next.seq = cancel.seq) ∧ Adjacent cancellations rest

theorem adjacent_of_position {cancellations : List (Nat × StoredMessage)} {driven : List StoredMessage}
    (linked : ∀ position message cancel, driven[position]? = some message →
      cancellations.lookup message.seq = some cancel →
      (driven[position + 1]?).map StoredMessage.seq = some cancel.seq) : Adjacent cancellations driven := by
  induction driven with
  | nil => trivial
  | cons message rest ih =>
    refine ⟨fun cancel found => ?_, ih fun position other cancel here found => ?_⟩
    · have behind := linked 0 message cancel rfl found
      cases rest with
      | nil => cases behind
      | cons next others => exact ⟨next, others, rfl, Option.some.inj behind⟩
    · exact linked (position + 1) other cancel here found

/-- Leaving out other messages keeps a cancellation behind its request. -/
theorem Adjacent.filter {cancellations : List (Nat × StoredMessage)} {driven : List StoredMessage}
    (adjacent : Adjacent cancellations driven) {keep : StoredMessage → Bool}
    (keeps : ∀ (message : StoredMessage) cancel, cancellations.lookup message.seq = some cancel →
      ∀ next ∈ driven, next.seq = cancel.seq → keep next = true) : Adjacent cancellations (driven.filter keep) := by
  induction driven with
  | nil => trivial
  | cons message rest ih =>
    obtain ⟨here, later⟩ := adjacent
    have others := ih later fun request cancel found next member =>
      keeps request cancel found next (List.mem_cons_of_mem _ member)
    rw [List.filter_cons]
    split
    case isTrue =>
      refine ⟨fun cancel found => ?_, others⟩
      obtain ⟨next, behind, rfl, same⟩ := here cancel found
      have kept := keeps message cancel found next (by simp) same
      exact ⟨next, behind.filter keep, by rw [List.filter_cons_of_pos kept], same⟩
    case isFalse => exact others

section
variable {around : ReplaySurroundings} {plan : ReplayPlan}

theorem drive_skip {message : StoredMessage} {rest : List StoredMessage} {sentCancellations : List Nat}
    (skipped : message.seq ∈ sentCancellations) (buf : List UInt8) (state : ReplayState) :
    drive around plan (message :: rest) sentCancellations buf state =
      drive around plan rest sentCancellations buf state := by
  rw [drive, if_pos (by simpa using skipped)]

theorem drive_sent {driven : List StoredMessage} (adjacent : Adjacent plan.cancellations driven)
    (unique : (driven.map StoredMessage.seq).Nodup) {sentCancellations : List Nat}
    (unsent : ∀ message ∈ driven, message.seq ∉ sentCancellations) {buf : List UInt8} {state final : ReplayState}
    (ran : drive around plan driven sentCancellations buf state = .ok final) :
    final.sent = state.sent ++ driven.map StoredMessage.seq := by
  induction size : driven.length using Nat.strong_induction_on
    generalizing driven sentCancellations buf state with
  | _ _ ih =>
    subst size
    cases driven with
    | nil =>
      cases ran
      simp
    | cons message rest =>
      obtain ⟨fresh, uniqueRest⟩ := List.nodup_cons.1 unique
      obtain ⟨here, later⟩ := adjacent
      have unsentRest : ∀ other ∈ rest, other.seq ∉ sentCancellations :=
        fun other member => unsent other (List.mem_cons_of_mem _ member)
      rw [drive, if_neg (by simpa using unsent message List.mem_cons_self)] at ran
      simp only [bind_eq_ok_iff] at ran
      obtain ⟨value, parsed, written, wrote, ran⟩ := ran
      have sent := sendRecorded_sent wrote
      -- What follows starts behind this message, whatever the server said in between.
      have goesOn : ∀ {others : List UInt8} {between : ReplayState}, between.sent = written.sent →
          drive around plan rest sentCancellations others between = .ok final →
          final.sent = state.sent ++ (message :: rest).map StoredMessage.seq := by
        intro others between same ran
        rw [ih rest.length (Nat.lt_succ_self _) later uniqueRest unsentRest ran rfl, same, sent, List.append_assoc]
        rfl
      split at ran
      case h_1 rpcId _ _ =>
        split at ran
        case h_1 cancel found =>
          obtain ⟨next, others, rfl, same⟩ := here cancel found
          simp only [bind_eq_ok_iff] at ran
          obtain ⟨⟨left, waited, answered⟩, wait, cancelValue, parsedCancel, cancelled, wroteCancel, ran⟩ := ran
          obtain ⟨freshNext, uniqueOthers⟩ := List.nodup_cons.1 uniqueRest
          have unsentOthers : ∀ other ∈ others, other.seq ∉ cancel.seq :: sentCancellations := by
            intro other member already
            rcases List.mem_cons.1 already with equal | already
            · exact freshNext (List.mem_map.2 ⟨other, member, equal.trans same.symm⟩)
            · exact unsentRest other (List.mem_cons_of_mem _ member) already
          rw [drive_skip (by simp [same])] at ran
          rw [ih others.length (by simp only [List.length_cons]; omega) later.2 uniqueOthers unsentOthers ran rfl,
            sendRecorded_sent wroteCancel, waitForCancellation_sent wait, sent]
          simp [WrittenFrame.sourceSeq, same]
        case h_2 =>
          simp only [bind_eq_ok_iff] at ran
          obtain ⟨⟨left, waited, answered⟩, wait, ran⟩ := ran
          exact goesOn (waitForResponse_sent wait) ran
      case h_2 => exact goesOn rfl ran

end

/-! ## Which cancellations are driven -/

/-- The client terminated the request with this notification, as the correlated session has it. -/
def CancelledBy (codec : Codec) (source : List StoredMessage) (request cancellation : StoredMessage) : Prop :=
  ∃ exchange ∈ (correlate codec source).exchanges, exchange.status = .cancelled ∧
    exchange.requestSeq = some request.seq ∧ ∃ rpcId, exchange.rpcId.bind codec.fromStr = some rpcId ∧
      source.find? (isCancellationOf codec request.seq rpcId) = some cancellation

theorem cancellationOf_eq_some_iff {codec : Codec} {messages : List StoredMessage} {exchange : Exchange}
    {requestSeq : Nat} {cancellation : StoredMessage} :
    cancellationOf codec messages exchange = some (requestSeq, cancellation) ↔ exchange.status = .cancelled ∧
      exchange.requestSeq = some requestSeq ∧ ∃ rpcId, exchange.rpcId.bind codec.fromStr = some rpcId ∧
        messages.find? (isCancellationOf codec requestSeq rpcId) = some cancellation := by
  simp only [cancellationOf, Option.bind_eq_bind, Option.bind_eq_some_iff, Option.guard_eq_some', Option.pure_def,
    Option.some.injEq, Prod.mk.injEq]
  constructor
  · rintro ⟨_, status, seq, asked, rpcId, named, message, found, rfl, rfl⟩
    exact ⟨status, asked, rpcId, named, found⟩
  · rintro ⟨status, asked, rpcId, named, found⟩
    exact ⟨(), status, requestSeq, asked, rpcId, named, cancellation, found, rfl, rfl⟩

theorem cancelledBy_iff {codec : Codec} {source : List StoredMessage} {request cancellation : StoredMessage} :
    CancelledBy codec source request cancellation ↔
      (request.seq, cancellation) ∈ cancellationNotifications codec source := by
  simp only [cancellationNotifications, List.mem_filterMap, cancellationOf_eq_some_iff, CancelledBy]

theorem mem_of_mem_cancellationNotifications {codec : Codec} {source : List StoredMessage}
    {linked : Nat × StoredMessage} (member : linked ∈ cancellationNotifications codec source) : linked.2 ∈ source := by
  obtain ⟨exchange, _, found⟩ := List.mem_filterMap.1 member
  obtain ⟨_, _, rpcId, _, found⟩ := cancellationOf_eq_some_iff.1 found
  exact List.mem_of_find?_eq_some found

theorem linkCancellations_ok {driven : List StoredMessage} {cancellations linked : List (Nat × StoredMessage)}
    (done : linkCancellations driven cancellations = .ok linked) :
    (∀ pair ∈ linked, pair ∈ cancellations ∧
      ∃ position, driven.findIdx? (fun message => message.seq = pair.1) = some position ∧
        (driven[position + 1]?).map StoredMessage.seq = some pair.2.seq) ∧
    ∀ pair ∈ cancellations, (∃ message ∈ driven, message.seq = pair.1) → pair ∈ linked := by
  induction cancellations generalizing linked with
  | nil =>
    cases done
    simp
  | cons pair rest ih =>
    obtain ⟨requestSeq, cancellation⟩ := pair
    rw [linkCancellations] at done
    split at done
    case h_1 absent =>
      obtain ⟨placed, complete⟩ := ih done
      refine ⟨fun pair member => (placed pair member).imp_left (List.mem_cons_of_mem _), fun pair member driven => ?_⟩
      rcases List.mem_cons.1 member with rfl | member
      · obtain ⟨message, member, same⟩ := driven
        exact absurd same (by simpa using List.findIdx?_eq_none_iff.1 absent message member)
      · exact complete pair member driven
    case h_2 position found =>
      split at done
      case isTrue behind =>
        obtain ⟨others, ran, same⟩ := bind_eq_ok_iff.1 done
        cases same
        obtain ⟨placed, complete⟩ := ih ran
        refine ⟨fun pair member => ?_, fun pair member driven => ?_⟩
        · rcases List.mem_cons.1 member with rfl | member
          · exact ⟨List.mem_cons_self, position, found, behind⟩
          · exact (placed pair member).imp_left (List.mem_cons_of_mem _)
        · rcases List.mem_cons.1 member with rfl | member
          · exact List.mem_cons_self
          · exact List.mem_cons_of_mem _ (complete pair member driven)
      case isFalse => cases done

theorem linked_adjacent {driven : List StoredMessage} (unique : (driven.map StoredMessage.seq).Nodup)
    {cancellations linked : List (Nat × StoredMessage)} (done : linkCancellations driven cancellations = .ok linked) :
    Adjacent linked driven := by
  refine adjacent_of_position fun position message cancel here found => ?_
  obtain ⟨_, first, place, behind⟩ := (linkCancellations_ok done).1 _ (mem_of_lookup found)
  obtain ⟨within, same, _⟩ := List.findIdx?_eq_some_iff_getElem.1 place
  obtain ⟨inside, rfl⟩ := List.getElem?_eq_some_iff.1 here
  -- Numbers are unique, so the request was found where it is.
  have request : driven[first] = driven[position] :=
    List.inj_on_of_nodup_map unique (List.getElem_mem within) (List.getElem_mem inside) (by simpa using same)
  have equal : first = position := (unique.of_map _).getElem_inj_iff.1 request
  exact equal ▸ behind

/-- A linked cancellation is driven. -/
theorem isReplayed_of_linked {linked : List (Nat × StoredMessage)} {requestSeq : Nat} {cancel next : StoredMessage}
    (found : linked.lookup requestSeq = some cancel) (same : next.seq = cancel.seq) :
    isReplayed linked next = true := by
  have listed : next.seq ∈ linked.map fun linked => linked.2.seq :=
    List.mem_map.2 ⟨_, mem_of_lookup found, same.symm⟩
  simp [isReplayed, listed]

/-- Of the allowed messages, exactly the replayed ones are sent. -/
theorem run_sent {around : ReplaySurroundings} {args : ReplayArgs} {source : List StoredMessage}
    (unique : (source.map StoredMessage.seq).Nodup) {final : ReplayState} (ran : run around args source = .ok final) :
    ∃ linked, linkCancellations (allowedMessages source args.allowTool args.denyTool)
        (cancellationNotifications around.codec source) = .ok linked ∧
      final.sent = ((allowedMessages source args.allowTool args.denyTool).filter (isReplayed linked)).map
        StoredMessage.seq := by
  have uniqueAllowed := allowedMessages_nodup unique args.allowTool args.denyTool
  rw [run] at ran
  split at ran
  case isTrue => cases ran
  case isFalse =>
    obtain ⟨linked, done, ran⟩ := bind_eq_ok_iff.1 ran
    refine ⟨linked, done, ?_⟩
    dsimp only at ran
    split at ran
    case isTrue => cases ran
    case isFalse =>
      have adjacent := (linked_adjacent uniqueAllowed done).filter fun message cancel found next _ same =>
        isReplayed_of_linked found same
      exact (drive_sent adjacent
        (uniqueAllowed.sublist (List.filter_sublist.map _)) (by simp) ran).trans (List.nil_append _)

/-- A replay that runs to its end has sent what the plan lists as allowed, if and only if every allowed
cancellation terminated an allowed request. -/
theorem plan_lists_sent_iff {around : ReplaySurroundings} {args : ReplayArgs} {source : List StoredMessage}
    (unique : (source.map StoredMessage.seq).Nodup) {final : ReplayState} (ran : run around args source = .ok final) :
    final.sent = (buildPlan around.codec source args.allowTool args.denyTool).allowedSeqs ↔
      ∀ message ∈ allowedMessages source args.allowTool args.denyTool,
        message.method = some "notifications/cancelled" →
        ∃ request ∈ allowedMessages source args.allowTool args.denyTool,
          CancelledBy around.codec source request message := by
  obtain ⟨linked, done, sent⟩ := run_sent unique ran
  obtain ⟨placed, complete⟩ := linkCancellations_ok done
  have all : final.sent = (buildPlan around.codec source args.allowTool args.denyTool).allowedSeqs ↔
      ∀ message ∈ allowedMessages source args.allowTool args.denyTool, isReplayed linked message = true := by
    rw [sent, allowedSeqs_buildPlan]
    constructor
    · intro same
      have length := congrArg List.length same
      rw [List.length_map, List.length_map] at length
      exact List.length_filter_eq_length_iff.1 length
    · intro kept
      rw [List.filter_eq_self.2 kept]
  rw [all]
  refine forall₂_congr fun message allowed => ?_
  have replayed : isReplayed linked message = true ↔ (message.method = some "notifications/cancelled" →
      ∃ pair ∈ linked, pair.2.seq = message.seq) := by
    simp only [isReplayed, Bool.or_eq_true, decide_eq_true_eq, List.contains_iff_mem, List.mem_map, ne_eq,
      ← imp_iff_not_or]
  rw [replayed]
  refine imp_congr_right fun _ => ?_
  constructor
  · rintro ⟨⟨requestSeq, cancellation⟩, member, same⟩
    obtain ⟨listed, position, place, _⟩ := placed _ member
    obtain ⟨within, here, _⟩ := List.findIdx?_eq_some_iff_getElem.1 place
    have equal : cancellation = message := List.inj_on_of_nodup_map unique
      (mem_of_mem_cancellationNotifications listed) (mem_allowedMessages_iff.1 allowed).1 same
    have request : (allowedMessages source args.allowTool args.denyTool)[position].seq = requestSeq := by
      simpa using here
    refine ⟨_, List.getElem_mem within, cancelledBy_iff.2 ?_⟩
    rw [request, ← equal]
    exact listed
  · rintro ⟨request, member, cancelled⟩
    exact ⟨_, complete _ (cancelledBy_iff.1 cancelled) ⟨request, member, rfl⟩, rfl⟩

/-! ## Recorded sessions -/

/-- A server that says nothing, in time that stands still. -/
def silentServer : ReplaySurroundings where
  codec := Compact.codec
  fromSlice := fun _ => none
  reads := fun _ => []
  writes := fun _ => true
  nowNs := fun _ => 0

def plainArgs : ReplayArgs where
  sessionId := "s"
  realtime := false
  strictServerRequests := false
  allowTool := []
  denyTool := []

/-- A message with the members of an object. -/
def recordedFrame (seq : Nat) (direction : Direction) (fields : List (String × Value)) : StoredMessage :=
  .ofMessage Compact.codec ⟨seq, seq, direction, .object fields, 0⟩

def listRequest : StoredMessage :=
  recordedFrame 0 .clientToServer [("id", .number (.posInt 1)), ("method", .string "tools/list")]

def listCancellation : StoredMessage :=
  recordedFrame 2 .clientToServer [("method", .string "notifications/cancelled"),
    ("params", .object [("requestId", .number (.posInt 1))])]

/-- A request that is cancelled. -/
def cancelledSession : List StoredMessage := [listRequest, listCancellation]

/-- A request that is cancelled when it has been answered. -/
def answeredSession : List StoredMessage :=
  [listRequest, recordedFrame 1 .serverToClient [("id", .number (.posInt 1)), ("result", .object [])],
    listCancellation]

theorem ok_of_sent {around : ReplaySurroundings} {args : ReplayArgs} {source : List StoredMessage} {seqs : List Nat}
    (ran : ((run around args source).map ReplayState.sent).toOption = some seqs) :
    ∃ final, run around args source = .ok final ∧ final.sent = seqs := by
  cases outcome : run around args source with
  | error err =>
    rw [outcome] at ran
    cases ran
  | ok final =>
    rw [outcome] at ran
    exact ⟨final, rfl, Option.some.inj ran⟩

theorem plan_lists_sent_cancelled : ∃ final, run silentServer plainArgs cancelledSession = .ok final ∧
    final.sent = (buildPlan Compact.codec cancelledSession [] []).allowedSeqs := by
  obtain ⟨final, ran, _⟩ : ∃ final, run silentServer plainArgs cancelledSession = .ok final ∧ final.sent = [0, 2] :=
    ok_of_sent (by decide +kernel)
  refine ⟨final, ran, (plan_lists_sent_iff (by decide +kernel) ran).2 fun message allowed method => ?_⟩
  have messages : allowedMessages cancelledSession [] [] = [listRequest, listCancellation] := by decide +kernel
  have linked : (listRequest.seq, listCancellation) ∈ cancellationNotifications Compact.codec cancelledSession := by
    decide +kernel
  have member : message ∈ [listRequest, listCancellation] := messages ▸ allowed
  rcases List.mem_pair.1 member with rfl | rfl
  · exact absurd method (by decide +kernel)
  · exact ⟨listRequest, messages ▸ List.mem_cons_self, cancelledBy_iff.2 linked⟩

/-- A cancellation that came too late is planned, but not sent. -/
theorem late_cancellation_unsent :
    ¬ ∀ (around : ReplaySurroundings) (args : ReplayArgs) (source : List StoredMessage),
      (source.map StoredMessage.seq).Nodup →
      (∀ message ∈ drivenMessages source, (around.codec.fromStr message.payload).isSome = true) →
      ∀ final, run around args source = .ok final →
        final.sent = (buildPlan around.codec source args.allowTool args.denyTool).allowedSeqs := by
  intro planned
  obtain ⟨final, ran, sent⟩ : ∃ final, run silentServer plainArgs answeredSession = .ok final ∧ final.sent = [0] :=
    ok_of_sent (by decide +kernel)
  have valid : ∀ message ∈ drivenMessages answeredSession, (Compact.codec.fromStr message.payload).isSome = true := by
    decide +kernel
  have same := planned silentServer plainArgs answeredSession (by decide +kernel) valid final ran
  have listed : (buildPlan Compact.codec answeredSession [] []).allowedSeqs = [0, 2] := by decide +kernel
  exact absurd (sent.symm.trans (same.trans listed)) (by decide)

end McpTracer.Proxy.Replay
